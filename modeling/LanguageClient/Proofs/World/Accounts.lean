import LanguageClient.Proofs.Session.Settling
import LanguageClient.Proofs.World.Moves

/-!
# The accounts of all sessions

The accounts of every session with the host are kept by whatever happens (`Scene.Act.balances`), so
they are in order after every run in which the host does not end the client from inside a callback
(`World.run_balances`). The history of a run is what was done to the host in it, the oldest first,
whether those who watch were told of it or not.
-/

namespace LanguageClient

namespace Scene

/-- The accounts of the sessions with the host, which has seen other events before. -/
structure Balances (past : List HostEvent) (c : Scene) : Prop where
  quiet : c.host.armed = []
  kinds : c.host.lastDecorationKind = c.sessions.length
  sound : c.host.Sound (past ++ c.host.trace)
  provided : ∀ p ∈ c.host.provided, p.session < c.sessions.length
  reporters : ∀ n ∈ c.host.reporterSessions, n < c.sessions.length
  accounts : ∀ {n : Nat} {s : Session}, c.sessions[n]? = some s →
    s.Accounts (past ++ c.host.trace) n s.handling c.host

variable {options : ClientOptions} {turn : Turn} {past : List HostEvent} {c d : Scene}

/-- A session as it sees the host has its accounts in order. This takes the fact about all sessions to the
one that an operation works on. -/
theorem Balances.accounted (balances : c.Balances past) {h : Hosted}
    (found : c.sessions[h.number]? = some h.session) (host : h.host = c.host) :
    h.Accounted past h.session.handling where
  quiet := host ▸ balances.quiet
  sound := host ▸ balances.sound
  accounts := host ▸ balances.accounts found

/-- An act of one session keeps the accounts of all. Its own are kept because the act keeps them; those of
another session are untouched, since the two have different decoration kinds, providers and reporters. -/
theorem Balances.hosted (balances : c.Balances past) {h k : Hosted}
    (found : c.sessions[h.number]? = some h.session) (host : h.host = c.host)
    (act : Hosted.Act options turn h k) :
    Balances past ⟨c.sessions.set h.number k.session, k.host⟩ := by
  have inside := (List.getElem?_eq_some_iff.mp found).1
  have settles := act.settles (balances.accounted found host)
  have serves := settles.serves
  rw [host] at serves
  obtain ⟨new, provided, mine⟩ := serves.provided
  obtain ⟨count, reporters⟩ := serves.reporters
  refine ⟨settles.quiet, ?_, settles.sound, ?_, ?_, ?_⟩
  · rw [List.length_set]
    exact serves.lastDecorationKind.trans balances.kinds
  · intro p member
    rw [List.length_set]
    rw [provided] at member
    rcases List.mem_append.mp member with member | member
    · exact balances.provided p member
    · rw [mine p member]
      exact inside
  · intro n member
    rw [List.length_set]
    rw [reporters] at member
    rcases List.mem_append.mp member with member | member
    · exact balances.reporters n member
    · rw [List.eq_of_mem_replicate member]
      exact inside
  · intro n s at_n
    by_cases here : h.number = n
    · subst here
      rw [List.getElem?_set_self inside] at at_n
      cases at_n
      have accounts := settles.accounts
      rw [settles.number] at accounts
      exact accounts
    · rw [List.getElem?_set_ne here] at at_n
      exact (balances.accounts at_n).aside serves settles.sound (Ne.symm here)

/-- A new session has nothing from the host: no provider, no reporter and no decoration was made under its
number or its decoration kind, both of which are fresh. -/
theorem Balances.attached (balances : c.Balances past) (root : Option Url) (suffix : String) :
    (Session.attach root (c.host.lastDecorationKind + 1) suffix).Accounts (past ++ c.host.trace)
      c.sessions.length none c.host.newDecorationKind.2 where
  kind := congrArg (· + 1) balances.kinds
  known := Nat.le_of_eq (congrArg (· + 1) balances.kinds.symm)
  keyed := Registrations.isKeyed_empty
  providers := by
    refine ⟨by rintro number ⟨⟩, ?_⟩
    rintro number ⟨p, member, -, mine⟩
    exact absurd (balances.provided p member) (by omega)
  board _ := ⟨rfl, ProgressBoard.orderly_new suffix⟩
  reporters := by
    refine ⟨by rintro reporter ⟨⟩, ?_⟩
    intro reporter made
    cases reporter with
    | zero => cases made
    | succ place =>
      have inside := balances.reporters _ (List.mem_of_getElem? made)
      exact absurd inside (Nat.lt_irrefl _)
  neat := ⟨rfl, rfl, List.nodup_nil, fun _ => rfl⟩
  bare view _ something := by
    unfold shown at something
    cases drawn : latest (past ++ c.host.trace) (c.sessions.length + 1) view.id with
    | none => rw [drawn] at something; exact absurd rfl something
    | some items =>
      have known := (balances.sound.drawn _ _ _ (mem_of_latest drawn)).1
      have kinds := balances.kinds
      omega
  gone := by rintro ⟨⟩

/-- A new session puts the accounts of the others out of order in nothing, and its own are in order from the
start. -/
theorem Balances.attach (balances : c.Balances past) (root : Option Url) (suffix : String) :
    Balances past ⟨c.sessions ++ [Session.attach root (c.host.lastDecorationKind + 1) suffix],
      c.host.newDecorationKind.2⟩ := by
  have sound := balances.sound
  have length : (c.sessions ++ [Session.attach root (c.host.lastDecorationKind + 1)
      suffix]).length = c.sessions.length + 1 := by simp
  refine ⟨balances.quiet, ?_, ?_, ?_, ?_, ?_⟩
  · rw [length, ← balances.kinds]
    rfl
  · refine ⟨sound.numbered, sound.withdrawn, sound.completed, sound.views, sound.seen, ?_⟩
    intro kind view items member
    obtain ⟨known, seen⟩ := sound.drawn kind view items member
    exact ⟨Nat.le_succ_of_le known, seen⟩
  · intro p member
    rw [length]
    exact Nat.lt_succ_of_lt (balances.provided p member)
  · intro n member
    rw [length]
    exact Nat.lt_succ_of_lt (balances.reporters n member)
  · intro n s at_n
    obtain before | ⟨rfl, rfl⟩ := getElem?_concat_iff.mp at_n
    · have accounts := balances.accounts before
      exact { accounts with known := Nat.le_succ_of_le accounts.known }
    · exact balances.attached root suffix

/-- Whatever happens, the accounts of all sessions are kept. This is the step lemma of the module, with one
case for each kind of thing that may happen to a scene. -/
theorem Act.balances (act : Act options turn c d) (balances : c.Balances past) :
    d.Balances past := by
  cases act with
  | hosted found host act => exact balances.hosted found host act
  | attach root suffix => exact balances.attach root suffix
  | hear change hears =>
    have length : (c.sessions.map change).length = c.sessions.length := List.length_map _
    refine ⟨balances.quiet, balances.kinds.trans length.symm, balances.sound, ?_, ?_, ?_⟩
    · rw [length]
      exact balances.provided
    · rw [length]
      exact balances.reporters
    · intro n t at_n
      rw [List.getElem?_map] at at_n
      obtain ⟨s, before, rfl⟩ := Option.map_eq_some_iff.mp at_n
      obtain ⟨opened, ended, same⟩ := hears s
      rw [same]
      exact (balances.accounts before).of_eq rfl rfl rfl rfl (fun _ => id) (.refl _)
  | host host same =>
    rw [same]
    have sound := balances.sound
    refine ⟨balances.quiet, balances.kinds, ?_, balances.provided, balances.reporters, ?_⟩
    · exact ⟨sound.numbered, sound.withdrawn, sound.completed, sound.views, sound.seen, sound.drawn⟩
    · intro n s at_n
      have accounts := balances.accounts at_n
      exact { accounts with }

end Scene

/-! ## Views that come and go -/

namespace Host

variable {events : List HostEvent} {host : Host}

/-- The events of the host are still sound when a view is shown. The view is a new one, so nothing was ever
drawn in it. -/
theorem Sound.addView (sound : host.Sound events) (document : Url) :
    Sound events (host.addView document).2 := by
  refine ⟨sound.numbered, sound.withdrawn, sound.completed, ?_, ?_, ?_⟩
  · simp only [Host.addView, List.map_append, List.map_cons, List.map_nil]
    refine List.nodup_append.mpr ⟨sound.views, by simp, ?_⟩
    intro id old other new
    obtain ⟨view, member, rfl⟩ := List.mem_map.mp old
    have seen := sound.seen view member
    rw [List.mem_singleton.mp new]
    omega
  · intro view member
    rcases List.mem_append.mp member with old | new
    · exact Nat.le_succ_of_le (sound.seen view old)
    · rw [List.mem_singleton.mp new]
      exact Nat.le_refl _
  · intro kind view items member
    obtain ⟨known, seen⟩ := sound.drawn kind view items member
    exact ⟨known, Nat.le_succ_of_le seen⟩

/-- Hiding a view undoes no event, so what was sound about the events of the host stays so. -/
theorem Sound.removeView (sound : host.Sound events) (view : Nat) :
    Sound events (host.removeView view) :=
  ⟨sound.numbered, sound.withdrawn, sound.completed,
    sound.views.sublist (List.Sublist.map _ List.filter_sublist),
    fun other member => sound.seen other (List.mem_filter.mp member).1, sound.drawn⟩

end Host

namespace Scene

variable {past : List HostEvent} {c : Scene}

/-- The accounts are in order still when a view is shown: it is empty, as its number is beyond all that were
given out before. -/
theorem Balances.addView (balances : c.Balances past) (document : Url) :
    Balances past ⟨c.sessions, (c.host.addView document).2⟩ := by
  refine ⟨balances.quiet, balances.kinds, balances.sound.addView document, balances.provided,
    balances.reporters, ?_⟩
  intro n s at_n
  have accounts := balances.accounts at_n
  refine { accounts with bare := ?_ }
  intro view visible something
  rcases List.mem_append.mp visible with old | new
  · exact accounts.bare view old something
  · rw [List.mem_singleton.mp new] at something
    unfold shown at something
    cases drawn : latest (past ++ c.host.trace) (n + 1) (c.host.lastView + 1) with
    | none => exact absurd (congrArg (Option.getD · []) drawn) something
    | some items =>
      have seen := (balances.sound.drawn _ _ _ (mem_of_latest drawn)).2
      omega

/-- The accounts are in order still when a view is hidden, because they are kept for the views that there
are. -/
theorem Balances.removeView (balances : c.Balances past) (view : Nat) :
    Balances past ⟨c.sessions, c.host.removeView view⟩ := by
  refine ⟨balances.quiet, balances.kinds, balances.sound.removeView view, balances.provided,
    balances.reporters, ?_⟩
  intro n s at_n
  have accounts := balances.accounts at_n
  refine { accounts with bare := ?_ }
  intro other visible something
  exact accounts.bare other (List.mem_filter.mp visible).1 something

/-- Those who watch are told what has happened, which makes it the past. Nothing is lost by that, as the
accounts read the past and the present as one list of events. -/
theorem Balances.told (balances : c.Balances past) :
    Balances (past ++ c.host.trace) ⟨c.sessions, { c.host with trace := [] }⟩ := by
  have events : past ++ c.host.trace ++ [] = past ++ c.host.trace := List.append_nil _
  refine ⟨balances.quiet, balances.kinds, ?_, balances.provided, balances.reporters, ?_⟩
  · have sound := balances.sound
    dsimp only
    rw [events]
    exact ⟨sound.numbered, sound.withdrawn, sound.completed, sound.views, sound.seen, sound.drawn⟩
  · intro n s at_n
    have accounts := balances.accounts at_n
    dsimp only
    rw [events]
    exact { accounts with }

end Scene

/-! ## Runs -/

namespace World

/-- Whether a move does not arm the host to end the client from inside a callback. -/
def Move.isUnarmed : Move → Bool
  | .arm _ => false
  | _ => true

/-- The events that those who watch are told of by a move. -/
def told (w : World) : Move → List HostEvent
  | .report => w.host.trace
  | _ => []

/-- The events that those who watch are told of in a run. -/
def toldAll (w : World) : List Move → List HostEvent
  | [] => []
  | move :: moves => w.told move ++ (w.after move).toldAll moves

/-- What was done to the host in a run from the start, the oldest first. -/
def history (w : World) (moves : List Move) : List HostEvent :=
  w.toldAll moves ++ (w.run moves).host.trace

variable {w : World} {move : Move} {moves : List Move} {past : List HostEvent}

/-- What is told in two runs, one after the other, is what is told in the first and then what is told in the
second. -/
theorem toldAll_append (w : World) (first second : List Move) :
    w.toldAll (first ++ second) = w.toldAll first ++ (w.run first).toldAll second := by
  induction first generalizing w with
  | nil => rfl
  | cons move moves ih =>
    rw [List.cons_append, toldAll, toldAll, ih, List.append_assoc]
    rfl

/-- One move keeps the accounts. It is a sequence of acts of the scene unless a view is shown or hidden or
those who watch are told, which are the lemmas above. -/
theorem after_balances (lawful : w.IsLawful) (unarmed : move.isUnarmed = true)
    (balances : w.scene.Balances past) : (w.after move).scene.Balances (past ++ w.told move) := by
  have acts (isAct : move.isAct = true) (untold : w.told move = []) :
      (w.after move).scene.Balances (past ++ w.told move) := by
    rw [untold, List.append_nil]
    exact ((after_steps lawful isAct).acts.induction (Scene.Balances past)
      (fun _ act => act.balances) lawful.quiet balances).2
  cases move with
  | arm => cases unarmed
  | showView document =>
    change Scene.Balances (past ++ []) _
    rw [List.append_nil]
    exact balances.addView document
  | hideView view =>
    change Scene.Balances (past ++ []) _
    rw [List.append_nil]
    exact balances.removeView view
  | report => exact balances.told
  | _ => exact acts rfl rfl

/-- A lawful world stays lawful under every move that does not arm the host. -/
theorem after_isLawful (lawful : w.IsLawful) (unarmed : move.isUnarmed = true) :
    (w.after move).IsLawful := by
  cases move with
  | arm => cases unarmed
  | showView document => exact lawful.of_host rfl rfl
  | hideView view => exact lawful.of_host rfl rfl
  | report =>
    have told : IsLawful { w with host := { w.host with trace := [] } } := lawful.of_host rfl rfl
    have emptied : Steps .other _ w.reported := told.of_eq rfl rfl rfl rfl rfl rfl
    exact emptied.lawful
  | _ => exact (after_steps lawful rfl).lawful

/-- No session is ever forgotten. A number that stands for a session stands for it at every later time. -/
theorem after_length_le (lawful : w.IsLawful) (unarmed : move.isUnarmed = true) :
    w.sessions.length ≤ (w.after move).sessions.length := by
  have acts (isAct : move.isAct = true) : w.sessions.length ≤ (w.after move).sessions.length :=
    ((after_steps lawful isAct).acts.induction (fun d => w.sessions.length ≤ d.sessions.length)
      (fun _ act kept => Nat.le_trans kept act.length_le) lawful.quiet (Nat.le_refl _)).2
  cases move with
  | arm => cases unarmed
  | showView | hideView | report => exact Nat.le_refl _
  | _ => exact acts rfl

/-- The world without a client is lawful, as it has no session and its host is not armed. -/
theorem start_isLawful (options : ClientOptions) : (start options).IsLawful where
  quiet := rfl
  tidy := by rintro n s ⟨⟩
  openings := by rintro opening ⟨⟩
  visits := by rintro visit ⟨⟩
  phase := ⟨fun _ => rfl, trivial⟩

/-- There is nothing to account for at the start, where the host has done nothing for anybody. -/
theorem start_balances (options : ClientOptions) : (start options).scene.Balances [] where
  quiet := rfl
  kinds := rfl
  sound := ⟨by rintro place p ⟨⟩, by rintro number ⟨⟩, by rintro reporter ⟨⟩, List.nodup_nil,
    by rintro view ⟨⟩, by rintro kind view items ⟨⟩⟩
  provided := by rintro p ⟨⟩
  reporters := by rintro n ⟨⟩
  accounts := by rintro n s ⟨⟩

/-- After every run in which the host does not end the client from inside a callback, the accounts of all
sessions are in order, with all that was told in the run added to the past. By induction on the moves, with
`after_balances` for each. -/
theorem run_balances (lawful : w.IsLawful) (balances : w.scene.Balances past)
    (unarmed : ∀ move ∈ moves, move.isUnarmed = true) :
    (w.run moves).IsLawful ∧ (w.run moves).scene.Balances (past ++ w.toldAll moves) := by
  induction moves generalizing w past with
  | nil =>
    rw [toldAll, List.append_nil]
    exact ⟨lawful, balances⟩
  | cons move moves ih =>
    have first := unarmed move List.mem_cons_self
    have rest := ih (after_isLawful lawful first) (after_balances lawful first balances)
      fun later member => unarmed later (List.mem_cons_of_mem _ member)
    rw [List.append_assoc] at rest
    exact rest

end World

end LanguageClient
