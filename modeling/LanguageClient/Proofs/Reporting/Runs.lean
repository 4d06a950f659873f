import LanguageClient.Proofs.Reporting.Handling
import LanguageClient.Proofs.World.Accounts
import LanguageClient.Proofs.World.Conduct

/-!
# Reporters in runs

Whatever happens, the host sees of its reporters what the desks of the sessions make of some errands
(`World.run_conforms`), and these errands are no invention: the notifications among them are what the
servers have said of progress, in the order in which it was read, up to what a session has not heard yet,
and a desk is closed exactly when its session is disposed. A session that follows its notifications leaves
none unheard, unless the host lets one wait. The host may end the client from inside a callback, and it may
let those who ask for reporters wait, or refuse them, whenever it wants.

The order in which the reporters of a session are completed when it is torn down is that in which they
were made. Nothing is said of when a notification is handled; that is up to the order of the moves.
-/

namespace LanguageClient

/-- The notifications that are handled for one session. -/
def noticesFor (entries : List (Nat × Errand)) (n : Nat) : List ProgressParams :=
  entries.filterMap fun entry => if entry.1 = n then entry.2.params? else none

/-- The notifications for one session among errands that come one after the other. -/
theorem noticesFor_append (first second : List (Nat × Errand)) (n : Nat) :
    noticesFor (first ++ second) n = noticesFor first n ++ noticesFor second n := List.filterMap_append

/-- Errands to one desk bring notifications for its session only. -/
theorem noticesFor_single (errands : List Errand) (number n : Nat) :
    noticesFor (errands.map (number, ·)) n =
      if number = n then errands.filterMap Errand.params? else [] := by
  unfold noticesFor
  rw [List.filterMap_map]
  by_cases here : number = n
  · simp only [Function.comp_def, here, if_true]
  · simp only [Function.comp_def, here, if_false]
    exact List.filterMap_eq_nil_iff.mpr fun _ _ => rfl

/-- Telling those who watch makes what happened the past, and what the host sees from then on is added to
it. -/
theorem Host.Sees.later {a b : Host} {events : List HostEvent} (sees : a.Sees b events)
    (past : List HostEvent) :
    { a with trace := past ++ a.trace }.Sees { b with trace := past ++ b.trace } events where
  reports := by
    have reports := sees.reports
    unfold Host.reports at reports ⊢
    rw [List.filter_append, List.filter_append, reports, List.append_assoc]
  made := sees.made
  count := sees.count

/-! ## The sessions and the host -/

namespace Scene

variable {suffix : String} {options : ClientOptions} {c d e : Scene} {desks : Desks}
  {entries more : List (Nat × Errand)}

/-- Every session keeps its desk, and a session that is still to come will have a fresh one. -/
structure Keeps (suffix : String) (c : Scene) (desks : Desks) : Prop where
  kept : ∀ {n : Nat} {s : Session}, c.sessions[n]? = some s → s.Keeps suffix (desks n)
  fresh : ∀ n, c.sessions.length ≤ n → desks n = .fresh

/-- What a server has said of progress and its session has not heard yet. -/
def unheard (c : Scene) (n : Nat) : List ProgressParams :=
  ((c.sessions[n]?).map Session.unheard).getD []

theorem unheard_eq (c : Scene) (n : Nat) : c.unheard n = c.ofSession n Session.unheard [] := rfl

/-- What happens goes along with errands to the desks. -/
structure Plays (suffix : String) (c d : Scene) (desks : Desks) (entries : List (Nat × Errand)) :
    Prop where
  keeps : d.Keeps suffix (desks.play suffix entries).1
  heard : ∀ n, c.unheard n = noticesFor entries n ++ d.unheard n
  host : c.host.Sees d.host (desks.play suffix entries).2

/-- Nothing happens, and no errand comes to any desk. -/
theorem Plays.refl (keeps : c.Keeps suffix desks) : Plays suffix c c desks [] :=
  ⟨keeps, fun _ => rfl, .refl _⟩

/-- What happens to the scene in two stretches brings the errands of the one and then those of the other. -/
theorem Plays.trans (first : Plays suffix c d desks entries)
    (second : Plays suffix d e (desks.play suffix entries).1 more) :
    Plays suffix c e desks (entries ++ more) where
  keeps := by
    rw [Desks.play_append]
    exact second.keeps
  heard n := by rw [first.heard, second.heard, noticesFor_append, List.append_assoc]
  host := by
    rw [Desks.play_append]
    exact first.host.trans second.host

/-- What one session does goes along with errands to its own desk. The other desks stay as they are, and
their sessions have heard nothing more. -/
theorem plays_hosted (keeps : c.Keeps suffix desks) {h k : Hosted}
    (found : c.sessions[h.number]? = some h.session) (host : h.host = c.host)
    {errands : List Errand} (played : Hosted.Plays suffix h k (desks h.number) errands) :
    Plays suffix c ⟨c.sessions.set h.number k.session, k.host⟩ desks
      (errands.map (h.number, ·)) := by
  have inside := (List.getElem?_eq_some_iff.mp found).1
  have alone := Desks.play_single suffix desks h.number errands
  refine ⟨⟨?_, ?_⟩, fun n => ?_, ?_⟩
  · intro n s at_n
    rw [alone]
    dsimp only
    by_cases here : n = h.number
    · subst here
      rw [List.getElem?_set_self inside] at at_n
      cases at_n
      rw [Function.update_self]
      exact played.keeps
    · rw [List.getElem?_set_ne (Ne.symm here)] at at_n
      rw [Function.update_of_ne here]
      exact keeps.kept at_n
  · intro n beyond
    rw [List.length_set] at beyond
    have elsewhere : n ≠ h.number := Nat.ne_of_gt (Nat.lt_of_lt_of_le inside beyond)
    rw [alone]
    exact (Function.update_of_ne elsewhere ..).trans (keeps.fresh n beyond)
  · rw [noticesFor_single, unheard_eq, unheard_eq, ofSession_set inside]
    by_cases here : h.number = n
    · subst here
      rw [if_pos rfl, if_pos rfl, ofSession_of_found found]
      exact played.heard
    · rw [if_neg here, if_neg here]
      rfl
  · rw [alone, ← host]
    exact played.host

/-- What is nothing to the boards of the sessions brings no errand to a desk. The host may have changed, but
has seen the same of reporters. -/
theorem plays_nothing (keeps : d.Keeps suffix desks) (heard : ∀ n, d.unheard n = c.unheard n)
    (reports : d.host.reports = c.host.reports)
    (sessions : d.host.reporterSessions = c.host.reporterSessions) : Plays suffix c d desks [] :=
  ⟨keeps, fun n => (heard n).symm, .of_eq reports sessions⟩

/-- A new session has heard all that its server has said, which is nothing, and its desk is the fresh one
that was kept for its number. -/
theorem plays_attach (keeps : c.Keeps suffix desks) (root : Option Url) :
    Plays suffix c ⟨c.sessions ++ [Session.attach root (c.host.lastDecorationKind + 1) suffix],
      c.host.newDecorationKind.2⟩ desks [] := by
  obtain ⟨kept, silent⟩ := Session.attach_keeps root (c.host.lastDecorationKind + 1) suffix
  have cases := attached_cases c.sessions (.attach root (c.host.lastDecorationKind + 1) suffix)
  refine plays_nothing ⟨?_, ?_⟩ (fun n => ?_) rfl rfl
  · intro n s at_n
    rcases cases n with old | ⟨last, new⟩
    · exact keeps.kept (old.symm.trans at_n)
    · cases new.symm.trans at_n
      rw [keeps.fresh n (Nat.le_of_eq last.symm)]
      exact kept
  · intro n beyond
    rw [List.length_append] at beyond
    exact keeps.fresh n (Nat.le_of_succ_le beyond)
  · exact ofSession_attach silent

/-- Hearing of documents is nothing to the boards of the sessions, nor is what the host does on that
occasion, as long as it is not about reporters. -/
theorem plays_hear (keeps : c.Keeps suffix desks) {change : Session → Session}
    (hears : ∀ s, ∃ openedDocuments hasHostEnded,
      change s = { s with openedDocuments, hasHostEnded }) {host : Host}
    (reports : host.reports = c.host.reports)
    (sessions : host.reporterSessions = c.host.reporterSessions) :
    Plays suffix c ⟨c.sessions.map change, host⟩ desks [] := by
  refine plays_nothing ⟨?_, ?_⟩ (fun n => ?_) reports sessions
  · intro n t at_n
    rw [List.getElem?_map] at at_n
    obtain ⟨s, found, rfl⟩ := Option.map_eq_some_iff.mp at_n
    obtain ⟨opened, ended, same⟩ := hears s
    have kept := keeps.kept found
    rw [same]
    exact ⟨kept.tunes, kept.torn, kept.gone, kept.rests, kept.asks⟩
  · intro n beyond
    rw [List.length_map] at beyond
    exact keeps.fresh n beyond
  · have untouched : ∀ s, (change s).unheard = s.unheard := by
      intro s
      obtain ⟨opened, ended, same⟩ := hears s
      rw [same]
      rfl
    exact ofSession_map untouched

/-- Everything that happens goes along with errands to the desks, by cases on what it is. -/
theorem Deed.plays (deed : Deed options c d) (keeps : c.Keeps options.config.progressSuffix desks) :
    ∃ entries, Plays options.config.progressSuffix c d desks entries := by
  cases deed with
  | @hosted h k found host deed =>
    obtain ⟨errands, played⟩ := deed.follows (desks h.number) (keeps.kept found)
    exact ⟨_, plays_hosted keeps found host played⟩
  | attach root => exact ⟨[], plays_attach keeps root⟩
  | host host same =>
    refine ⟨[], plays_nothing ⟨keeps.kept, keeps.fresh⟩ (fun n => rfl) ?_ ?_⟩
    · rw [same]
      rfl
    · rw [same]

/-- So does a sequence of such things, whose errands come one after the other. -/
theorem Deeds.plays (deeds : Deeds options c d)
    (keeps : c.Keeps options.config.progressSuffix desks) :
    ∃ entries, Plays options.config.progressSuffix c d desks entries := by
  induction deeds with
  | refl => exact ⟨[], .refl keeps⟩
  | tail _ deed ih =>
    obtain ⟨entries, played⟩ := ih
    obtain ⟨more, played'⟩ := deed.plays played.keeps
    exact ⟨entries ++ more, played.trans played'⟩

end Scene

/-! ## Moves -/

namespace World

variable {suffix : String} {w v u : World} {desks : Desks} {entries more : List (Nat × Errand)}
  {news : Nat → List ProgressParams} {told : List HostEvent} {n : Nat}

/-- What a server says of progress by a move. -/
def said (w : World) (n : Nat) : Move → List ProgressParams
  | .poll (.reader number) =>
    if number = n then
      ((w.sessions[n]?).map fun s =>
        (s.connection.tells ProgressParams.method .read).filterMap ProgressParams.ofJson?).getD []
    else []
  | _ => []

/-- What a server says of progress in a run. -/
def saidAll (w : World) (n : Nat) : List Move → List ProgressParams
  | [] => []
  | move :: moves => w.said n move ++ (w.after move).saidAll n moves

/-- What happens on the way to another world goes along with errands to the desks, while servers say
something of progress and those who watch are told something. -/
structure Plays (suffix : String) (w v : World) (news : Nat → List ProgressParams)
    (told : List HostEvent) (desks : Desks) (entries : List (Nat × Errand)) : Prop where
  options : v.options = w.options
  keeps : v.scene.Keeps suffix (desks.play suffix entries).1
  heard : ∀ n, w.scene.unheard n ++ news n = noticesFor entries n ++ v.scene.unheard n
  host : w.host.Sees { v.host with trace := told ++ v.host.trace } (desks.play suffix entries).2

/-- What happens to the world in two stretches. What servers say in the second comes behind what they said
in the first, although some of the first may still be unheard by then. -/
theorem Plays.trans {news' : Nat → List ProgressParams} {told' : List HostEvent}
    (first : Plays suffix w v news told desks entries)
    (second : Plays suffix v u news' told' (desks.play suffix entries).1 more) :
    Plays suffix w u (fun n => news n ++ news' n) (told ++ told') desks (entries ++ more) where
  options := second.options.trans first.options
  keeps := by
    rw [Desks.play_append]
    exact second.keeps
  heard n := by
    rw [← List.append_assoc, first.heard, List.append_assoc, second.heard, noticesFor_append,
      List.append_assoc]
  host := by
    have seen := first.host.trans (second.host.later told)
    rw [Desks.play_append, List.append_assoc]
    exact seen

/-- What happens to the sessions and the host while nothing new is said and nobody is told of it. -/
theorem Plays.of_scene (options : v.options = w.options)
    (played : Scene.Plays suffix w.scene v.scene desks entries) :
    Plays suffix w v (fun _ => []) [] desks entries :=
  ⟨options, played.keeps, fun n => (List.append_nil _).trans (played.heard n), played.host⟩

/-- A sequence of deeds in the world is one in its scene, during which no server says anything that is read.
-/
theorem Deeds.plays (deeds : Deeds w v)
    (keeps : w.scene.Keeps w.options.config.progressSuffix desks) :
    ∃ entries, Plays w.options.config.progressSuffix w v (fun _ => []) [] desks entries := by
  obtain ⟨entries, played⟩ := deeds.scene.plays keeps
  exact ⟨entries, .of_scene deeds.options played⟩

/-- Reading the connection of another session is no word from this server. -/
theorem said_elsewhere {number : Nat} (elsewhere : number ≠ n) :
    w.said n (.poll (.reader number)) = [] := if_neg elsewhere

/-- What a server says by the reading of its own connection: the notifications of progress that come to the
feed then and decode. -/
theorem said_read (w : World) (n : Nat) : w.said n (.poll (.reader n)) =
    ((w.sessions[n]?).map fun s =>
      (s.connection.tells ProgressParams.method .read).filterMap ProgressParams.ofJson?).getD [] :=
  if_pos rfl

/-- What a session reads it has not heard yet. It goes into the feed behind what waits there, so no errand
comes to the desk. -/
theorem read_plays (keeps : w.scene.Keeps suffix desks) (number : Nat) :
    Plays suffix w (w.onConnection number Connection.read)
      (w.said · (.poll (.reader number))) [] desks [] := by
  unfold onConnection
  cases found : w.sessions[number]? with
  | none =>
    refine ⟨rfl, keeps, fun n => ?_, .refl _⟩
    have silent : w.said n (.poll (.reader number)) = [] := by
      by_cases here : number = n
      · rw [here, said_read, ← here, found]
        rfl
      · exact said_elsewhere here
    rw [silent]
    exact List.append_nil _
  | some s =>
    have inside := (List.getElem?_eq_some_iff.mp found).1
    have kept := keeps.kept found
    obtain ⟨waiting, tunes⟩ := kept.tunes
    -- what the reader dispatches waits behind what was said before and is not handled yet
    have reads : s.connection.read.withoutNews.Tunes Session.progressFeed ProgressParams.method true
        (waiting ++ s.connection.tells ProgressParams.method .read) := tunes.read.mute ⟨rfl, rfl⟩
    refine ⟨rfl, ⟨?_, ?_⟩, fun n => ?_, .refl _⟩
    · intro n t at_n
      by_cases here : number = n
      · subst here
        cases (List.getElem?_set_self inside).symm.trans at_n
        exact ⟨⟨_, reads⟩, kept.torn, kept.gone, kept.rests, kept.asks⟩
      · exact keeps.kept ((List.getElem?_set_ne here).symm.trans at_n)
    · intro n beyond
      have outside : w.sessions.length ≤ n := Nat.le_trans (Nat.le_of_eq List.length_set.symm) beyond
      exact keeps.fresh n outside
    · let t : Session := { s with connection := s.connection.read.withoutNews }
      change w.scene.unheard n ++ _ = Scene.unheard ⟨w.scene.sessions.set number t, w.host⟩ n
      rw [Scene.unheard_eq, Scene.unheard_eq, Scene.ofSession_set inside]
      by_cases here : number = n
      · subst here
        rw [said_read, if_pos rfl, Scene.ofSession_of_found (c := w.scene) found, found]
        unfold Session.unheard
        rw [tunes.waiting_eq, reads.waiting_eq, List.filterMap_append]
        exact List.append_assoc ..
      · rw [said_elsewhere here, if_neg here, List.append_nil]

/-- Every move goes along with errands to the desks. Reading is treated above, showing and hiding views and
telling those who watch are nothing to the boards, and the other moves are sequences of deeds. -/
theorem after_plays (keeps : w.scene.Keeps w.options.config.progressSuffix desks) (move : Move) :
    ∃ entries, Plays w.options.config.progressSuffix w (w.after move) (w.said · move) (w.told move)
      desks entries := by
  -- a deed of the client is played as it is; of the other moves only a reader says something new
  by_cases deed : move.isDeed = true
  · have deeds := after_deeds w deed
    have silent : (w.said · move) = fun _ => [] := by
      funext n
      unfold said
      split
      · cases deed
      · rfl
    have untold : w.told move = [] := by
      unfold World.told
      split
      · cases deed
      · rfl
    rw [silent, untold]
    exact deeds.plays keeps
  · cases move with
    | poll task =>
      cases task with
      | reader number => exact ⟨[], read_plays keeps number⟩
      | _ => exact absurd rfl deed
    | openDocument document =>
      have heard : Scene.Plays _ w.scene (w.openDocument document).scene desks [] :=
        Scene.plays_hear keeps (fun s => ⟨_, _, s.hearOfDocument_eq⟩) rfl rfl
      exact ⟨[], .of_scene rfl heard⟩
    | endStreams =>
      have heard : Scene.Plays _ w.scene w.endStreams.scene desks [] :=
        Scene.plays_hear keeps (fun s => ⟨_, _, rfl⟩) rfl rfl
      exact ⟨[], .of_scene rfl heard⟩
    | showView | hideView | arm =>
      exact ⟨[], .of_scene rfl
        (Scene.plays_nothing ⟨keeps.kept, keeps.fresh⟩ (fun _ => rfl) rfl rfl)⟩
    | report =>
      refine ⟨[], rfl, ⟨keeps.kept, keeps.fresh⟩, fun n => List.append_nil _, .of_eq ?_ rfl⟩
      exact congrArg (List.filter HostEvent.isReporting) (List.append_nil _)
    | _ => exact absurd rfl deed

/-! ## Runs -/

/-- Every run goes along with errands to the desks, move by move: the plan has a list of errands for each
move, and any beginning of the run goes along with the same beginning of the plan. -/
theorem run_plays (keeps : w.scene.Keeps w.options.config.progressSuffix desks) (moves : List Move) :
    ∃ plan : List (List (Nat × Errand)), plan.length = moves.length ∧ ∀ count,
      Plays w.options.config.progressSuffix w (w.run (moves.take count))
        (w.saidAll · (moves.take count)) (w.toldAll (moves.take count)) desks
        (plan.take count).flatten := by
  have nothing (w : World) (desks : Desks)
      (keeps : w.scene.Keeps w.options.config.progressSuffix desks) :
      Plays w.options.config.progressSuffix w w (fun _ => []) [] desks [] :=
    ⟨rfl, keeps, fun _ => List.append_nil _, .refl _⟩
  induction moves generalizing w desks with
  | nil =>
    refine ⟨[], rfl, fun count => ?_⟩
    rw [List.take_nil, List.take_nil]
    exact nothing w desks keeps
  | cons move moves ih =>
    obtain ⟨entries, played⟩ := after_plays keeps move
    obtain ⟨plan, length, later⟩ :=
      ih (w := w.after move) (by rw [played.options]; exact played.keeps)
    refine ⟨entries :: plan, congrArg (· + 1) length, fun count => ?_⟩
    cases count with
    | zero => exact nothing w desks keeps
    | succ count =>
      have rest := later count
      rw [played.options] at rest
      exact played.trans rest

/-- A session that follows its notifications has heard all, if the host lets none wait. -/
theorem unheard_followed (keeps : w.scene.Keeps w.options.config.progressSuffix desks) {s : Session}
    (found : w.sessions[n]? = some s) (active : s.isActive = true)
    (unheld : w.host.reporters.isHeld = false) :
    (w.after (.poll (.progress n))).scene.unheard n = [] := by
  let h : Hosted := ⟨s, n, w.host, w.reachOf n, false⟩
  let v : World := { w with host := h.followProgress.host }.put n h.followProgress.session
  have polled : w.after (.poll (.progress n)) = endIf (h.followProgress.hasEnded, v) :=
    whileActive_found Hosted.followProgress found active
  have inside := (List.getElem?_eq_some_iff.mp found).1
  obtain ⟨-, -, all⟩ := Hosted.followProgress_plays (h := h) (keeps.kept found) active
  have after : v.scene.sessions[n]? = some { h.followProgress.session with
      connection := h.followProgress.session.connection.withoutNews } :=
    List.getElem?_set_self inside
  have heard : v.scene.unheard n = [] := (Scene.ofSession_of_found after).trans (all unheld)
  -- The host may have ended the client meanwhile; nobody hears of anything by that.
  have followed : Deeds w v := operated_deeds (h := h) rfl found (Hosted.Deed.followProgress active).deeds
  obtain ⟨_, before⟩ := followed.scene.plays keeps
  obtain ⟨_, ended⟩ := (endIf_deeds h.followProgress.hasEnded v).scene.plays before.keeps
  rw [polled]
  exact (List.append_eq_nil_iff.mp ((ended.heard n).symm.trans heard)).2

/-- What the host sees of reporters in a run. -/
def reports (w : World) (moves : List Move) : List HostEvent :=
  (w.history moves).filter HostEvent.isReporting

/-- How a run from the start goes along with the desks of the sessions. -/
structure Conforms (options : ClientOptions) (moves : List Move) (entries : List (Nat × Errand)) :
    Prop where
  /-- What the host sees of reporters is what the desks make of the errands. -/
  sees : (start options).reports moves = (Desks.fresh.play options.config.progressSuffix entries).2
  /-- The notifications among them are what the servers say of progress, up to what is not heard yet. -/
  heard : ∀ n, (start options).saidAll n moves =
    noticesFor entries n ++ ((start options).run moves).scene.unheard n
  /-- A session that follows its notifications leaves none unheard, if the host lets none wait. -/
  prompt : ∀ {n : Nat} {s : Session}, ((start options).run moves).sessions[n]? = some s →
    s.isActive = true → ((start options).run moves).host.reporters.isHeld = false →
      (((start options).run moves).after (.poll (.progress n))).scene.unheard n = []
  /-- A desk is closed when its session is disposed. -/
  torn : ∀ {n : Nat} {s : Session}, ((start options).run moves).sessions[n]? = some s →
    s.isDisposed = ((Desks.fresh.play options.config.progressSuffix entries).1 n).isClosed
  /-- A token has at most one reporter, and a reporter that is completed hears of nothing more. -/
  tallies : Desks.Tallies ((start options).reports moves)
    (Desks.fresh.play options.config.progressSuffix entries).1
  /-- A reporter that was made is completed once, unless it is the reporter of a live token. -/
  once : ∀ reporter ∈ ((start options).reports moves).filterMap HostEvent.made?,
    ((start options).reports moves).count (.reporter (.complete reporter)) ≤ 1 ∧
      (((start options).reports moves).count (.reporter (.complete reporter)) = 1 ↔
        ∀ n, reporter ∉ ((Desks.fresh.play options.config.progressSuffix entries).1 n).reporters)

/-- Whatever happens, the host sees of its reporters what the desks of the sessions make of what the servers
say of progress, move by move. The plan is one for the whole run, so the errands of an earlier moment are
never taken back later. -/
theorem run_conforms (options : ClientOptions) (moves : List Move) :
    ∃ plan : List (List (Nat × Errand)), plan.length = moves.length ∧
      ∀ count, Conforms options (moves.take count) (plan.take count).flatten := by
  have fresh : (start options).scene.Keeps options.config.progressSuffix .fresh :=
    ⟨by rintro n s ⟨⟩, fun _ _ => rfl⟩
  obtain ⟨plan, length, played⟩ := run_plays (w := start options) fresh moves
  refine ⟨plan, length, fun count => ?_⟩
  obtain ⟨same, keeps, heard, host⟩ := played count
  have sees : (start options).reports (moves.take count) =
      (Desks.fresh.play options.config.progressSuffix (plan.take count).flatten).2 := host.reports
  have tallies := Desks.play_tallies (start options).options.config.progressSuffix
    (plan.take count).flatten (by rw [host.made]; exact List.nodup_range' ..)
  have tallies : Desks.Tallies ((start options).reports (moves.take count))
      (Desks.fresh.play options.config.progressSuffix (plan.take count).flatten).1 := by
    rw [sees]
    exact tallies
  refine ⟨sees, heard, fun found active unheld => ?_, fun found => (keeps.kept found).torn, tallies,
    fun reporter made => tallies.count_complete made⟩
  exact unheard_followed (by rw [same]; exact keeps) found active unheld

end World

namespace Sample

/-- A server of all roots says something of one token, before it is even greeted. -/
def working (said : List (List (String × Json))) : List World.Move :=
  [.register "client", .poll .register,
    .send 0 (said.map fun fields =>
      .notification ⟨protocolVersion, ProgressParams.method, some (.obj fields)⟩),
    .poll (.reader 0), .poll (.progress 0)]

/-- A token that is done is absent, and gets another reporter. -/
example : (World.start ⟨{ Config.default with
      workspaceFolders := .supported, progressSuffix := " (server)" }, .identity⟩).reports
    (working [[("id", .str "t"), ("title", .str "Indexing")], [("id", .str "t"), ("done", .bool true)],
      [("id", .str "t"), ("message", .str "again")]]) =
    [.reporterCreated 1 (some "Indexing (server)"), .reporter (.update 1 none none),
      .reporter (.complete 1), .reporterCreated 2 none,
      .reporter (.update 2 none (some "again"))] := by decide

end Sample

end LanguageClient
