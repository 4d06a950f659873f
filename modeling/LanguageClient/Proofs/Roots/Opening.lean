import LanguageClient.Proofs.Roots.Grown

/-!
# What the opening of a session does

One step of an opening, in full: `World.Opens` lists what it can come to, and `pollOpening_opens` says
that it comes to one of these. In each of them it leaves every other opening alone and every session but
its own, and it strikes out a tracked root only if it fails and was not cancelled, and then only the one
that is tracked for this very opening.
-/

namespace LanguageClient

/-- Whether there is no connection yet. -/
def OpeningStage.IsEarly (stage : OpeningStage) : Prop := stage = .unstarted ∨ stage = .connecting

/-- Whether an opening greets the server of a session or came to that session. -/
def OpeningStage.Has (stage : OpeningStage) (n : Nat) : Prop :=
  (∃ call, stage = .greeting n call) ∨ stage = .finished (some n)

/-- An opening without a connection has no session. -/
theorem OpeningStage.IsEarly.not_has {stage : OpeningStage} (early : stage.IsEarly) (n : Nat) :
    ¬ stage.Has n := by
  rintro (⟨call, rfl⟩ | rfl) <;> rcases early with early | early <;> cases early

/-- An opening without a connection has not come to its end. -/
theorem OpeningStage.IsEarly.ne_finished {stage : OpeningStage} (early : stage.IsEarly)
    (session : Option Nat) : stage ≠ .finished session := by
  rintro rfl
  rcases early with early | early <;> cases early

/-- An opening that has failed has no session. -/
theorem OpeningStage.not_has_finished_none (n : Nat) : ¬ OpeningStage.Has (.finished none) n := by
  rintro (⟨call, same⟩ | same) <;> cases same

/-- An opening has one session at a time. -/
theorem OpeningStage.Has.eq {stage : OpeningStage} {n m : Nat} (first : stage.Has n)
    (second : stage.Has m) : n = m := by
  rcases first with ⟨call, rfl⟩ | rfl <;> rcases second with ⟨call', same⟩ | same <;> cases same <;>
    rfl

/-- Whether an opening has or had a session. -/
def Opening.Had (o : Opening) (n : Nat) : Prop := o.startup = .attached n ∨ o.stage.Has n

/-- Whether a session was disposed before anything was said on its connection. -/
structure Session.IsStillborn (s : Session) : Prop where
  disposed : s.isDisposed = true
  silent : s.connection.outgoing.waiting = []
  mute : s.connection.outgoing.hasWriter = false

namespace World

variable {w v u : World} {n number : Nat} {touched : Nat → Prop} {o : Opening}

/-! ## Operations that dispose -/

/-- If an operation that comes to this result has disposed its session, the session is disposed afterwards.
A number without a session counts as disposed anyway. -/
theorem isDisposed_within {α : Type} (run : Hosted → α × Hosted) {result : α}
    (each : ∀ h, Hosted.Course Session.Later h (run h).2) (quiet : w.host.armed = [])
    {default : α} (disposes : ∀ h, (run h).1 = result → (run h).2.session.isDisposed = true)
    (came : (w.within n default run).1 = result) :
    (w.within n default run).2.isDisposed n = true := by
  obtain ⟨none, -⟩ | ⟨h, -, same, found⟩ := within_cases run each quiet n default
  · unfold isDisposed
    have beyond := List.getElem?_eq_none_iff.mp none
    rw [List.getElem?_eq_none (length_within run each quiet n default ▸ beyond)]
    rfl
  · rw [isDisposed_of_found found]
    exact disposes h (same.symm.trans came)

/-- A session that is disposed goes on as a later one. -/
theorem dispose_later (h : Hosted) : Hosted.Course Session.Later h h.dispose :=
  (Hosted.dispose_beside h).course

/-- A session that greets its server goes on as a later one. -/
theorem greet_later (options : ClientOptions) (folders : Option (List WorkspaceFolder)) (h : Hosted) :
    Hosted.Course Session.Later h (h.greet options folders).2 := Hosted.greet_course h options folders

/-- A session that is welcomed by its server, or is not, goes on as a later one. -/
theorem welcome_later (options : ClientOptions) (outcome : Outcome) (h : Hosted) :
    Hosted.Course Session.Later h (h.welcome options outcome).2 :=
  (Hosted.welcome_beside h options outcome).course

/-- Who is told to dispose a session has disposed it, whatever it was before. -/
theorem isDisposed_dispose (quiet : w.host.armed = []) (n : Nat) :
    (w.dispose n).isDisposed n = true :=
  isDisposed_within (fun h => ((), h.dispose)) dispose_later quiet
    (fun h _ => h.isDisposed_dispose) rfl

/-- A session that could not greet its server is disposed: the greeting itself sees to that before it fails.
-/
theorem isDisposed_greet {folders : Option (List WorkspaceFolder)} {failure : ClientError}
    (quiet : w.host.armed = []) (failed : w.greet n folders = (.error failure, v)) :
    v.isDisposed n = true := by
  have disposes (h : Hosted) (came : (h.greet w.options folders).1 = .error failure) :
      (h.greet w.options folders).2.session.isDisposed = true := by
    unfold Hosted.greet at came ⊢
    split at came
    · exact h.isDisposed_dispose
    · cases came
  have disposed := isDisposed_within (n := n) _ (greet_later w.options folders) quiet disposes
    (congrArg Prod.fst failed)
  exact (congrArg (·.2.isDisposed n) failed).symm.trans disposed

/-- A session whose server did not welcome it is disposed, be it that the answer was a failure or that
something after it was. -/
theorem isDisposed_welcome {outcome : Outcome} {failure : ClientError} (quiet : w.host.armed = [])
    (failed : w.welcome n outcome = (some failure, v)) : v.isDisposed n = true := by
  have disposes (h : Hosted) (came : (h.welcome w.options outcome).1 = some failure) :
      (h.welcome w.options outcome).2.session.isDisposed = true := by
    unfold Hosted.welcome at came ⊢
    cases outcome with
    | error => exact h.isDisposed_dispose
    | ok answer =>
      dsimp only at came ⊢
      split at came
      · cases came
      · exact Hosted.isDisposed_dispose _
  have disposed := isDisposed_within (n := n) _ (welcome_later w.options outcome) quiet disposes
    (congrArg Prod.fst failed)
  exact (congrArg (·.2.isDisposed n) failed).symm.trans disposed

/-- A new session that is disposed at once was never told of to its server: nothing was sent on its
connection before, and nothing can be sent after. -/
theorem dispose_stillborn {s t : Session} (quiet : w.host.armed = []) (found : w.sessions[n]? = some s)
    (new : s.IsNew) (after : (w.dispose n).sessions[n]? = some t) : t.IsStillborn := by
  obtain ⟨none, -⟩ | ⟨h, there, -, found'⟩ :=
    within_cases (w := w) (fun h => ((), h.dispose)) dispose_later quiet n ()
  · cases found.symm.trans none
  · cases found.symm.trans there
    have here : (w.dispose n).sessions[n]? = _ := found'
    cases after.symm.trans here
    obtain ⟨-, disposed, -, -, outgoing⟩ := (h.dispose_course new.live).session
    rw [Connection.outgoing_close new.unfinished] at outgoing
    refine ⟨disposed, ?_, ?_⟩
    · exact (congrArg Pipe.waiting outgoing).trans new.silent
    · exact congrArg Pipe.hasWriter outgoing

/-! ## What is done for one opening -/

/-- What is done for one opening, which is this far afterwards: all others are left alone. -/
structure Serves (touched : Nat → Prop) (number : Nat) (root : Url) (startup : Startup)
    (stage : OpeningStage) (w v : World) : Prop extends Grown touched w v where
  here : ∃ watchers, v.openings[number]? = some ⟨root, startup, stage, watchers⟩
  elsewhere : ∀ m, m ≠ number → v.openings[m]? = w.openings[m]?
  visits : v.visits = w.visits

namespace Serves

variable {root : Url} {startup startup' : Startup} {stage stage' : OpeningStage}

/-- What is done for an opening in two steps is done for it in all, and it is as far as the second takes it.
-/
theorem trans (first : Serves touched number root startup stage w v)
    (second : Serves touched number root startup' stage' v u) :
    Serves touched number root startup' stage' w u where
  toGrown := first.toGrown.trans second.toGrown
  here := second.here
  elsewhere m other := (second.elsewhere m other).trans (first.elsewhere m other)
  visits := second.visits.trans first.visits

/-- Something else is done besides, by which neither openings nor visits change. -/
theorem aside (serves : Serves touched number root startup stage w v) (grown : Grown touched v u)
    (openings : u.openings = v.openings) (visits : u.visits = v.visits) :
    Serves touched number root startup stage w u where
  toGrown := serves.toGrown.trans grown
  here := by
    rw [openings]
    exact serves.here
  elsewhere m other := by
    rw [openings]
    exact serves.elsewhere m other
  visits := visits.trans serves.visits

/-- What changes no opening leaves each of them as far as it was. -/
theorem of_grown (found : w.openings[number]? = some o) (grown : Grown touched w v)
    (openings : v.openings = w.openings) (visits : v.visits = w.visits) :
    Serves touched number o.root o.startup o.stage w v where
  toGrown := grown
  here := by
    rw [openings]
    exact ⟨_, found⟩
  elsewhere m _ := by rw [openings]
  visits := visits

/-- The opening alone is changed, and it is as far as the change takes it. -/
theorem of_modify (found : w.openings[number]? = some o) (change : Opening → Opening) :
    Serves touched number (change o).root (change o).startup (change o).stage w
      { w with openings := w.openings.modify number change } where
  toGrown := .of_eq rfl rfl rfl rfl
  here := by
    refine ⟨(change o).watchers, ?_⟩
    simp only [List.getElem?_modify, found, if_true]
    rfl
  elsewhere m other := by
    simp only [List.getElem?_modify, if_neg (Ne.symm other)]
    exact id_map _
  visits := rfl

end Serves

/-! ## What stays -/

/-- Cancelled openings stay cancelled. -/
def Abides (w v : World) : Prop :=
  ∀ (i : Nat) (o : Opening), w.openings[i]? = some o → ∃ p, v.openings[i]? = some p ∧
    p.root = o.root ∧ (o.startup = .cancelled → p.startup = .cancelled)

/-- As long as no opening changes, cancelled ones stay cancelled. -/
theorem Abides.of_eq (openings : v.openings = w.openings) : Abides w v :=
  fun _ o found => ⟨o, openings ▸ found, rfl, id⟩

/-- What stays cancelled through two steps is cancelled after both. -/
theorem Abides.trans (first : Abides w v) (second : Abides v u) : Abides w u := by
  intro i o found
  obtain ⟨p, found, root, stays⟩ := first i o found
  obtain ⟨q, found, root', stays'⟩ := second i p found
  exact ⟨q, found, root'.trans root, stays' ∘ stays⟩

/-! ## Failing and going on -/

/-- The tracked roots after an opening has failed. -/
def leftBy (w : World) (number : Nat) (root : Url) (startup : Startup) : List RootEntry :=
  if startup = .cancelled then w.entries
  else w.entries.filter fun e => !(e.root = root && e.opening = number)

/-- Which roots are left after a failure depends on those that are tracked, and on whether the opening was
cancelled. -/
theorem leftBy_congr {root : Url} {startup startup' : Startup} (entries : v.entries = w.entries)
    (same : startup = .cancelled ↔ startup' = .cancelled) :
    v.leftBy number root startup = w.leftBy number root startup' := by
  unfold leftBy
  rw [entries]
  simp only [same]

/-- An opening that has failed came to its end without a session, and its entry is struck out unless it was
cancelled. -/
theorem notOpened_serves (touched : Nat → Prop) (opening : Opening) (found : w.openings[number]? = some o)
    (failure : ClientError) :
    Serves touched number o.root o.startup (.finished none) w
        (w.notOpened number opening failure) ∧
      (w.notOpened number opening failure).entries = w.leftBy number opening.root o.startup ∧
      (w.notOpened number opening failure).sessions = w.sessions := by
  have finished : Serves touched number o.root o.startup (.finished none) w
      (w.setStage number (.finished none)) :=
    .of_modify found fun o => { o with stage := .finished none }
  unfold notOpened leftBy
  rw [found]
  dsimp only [Option.map]
  split
  · rw [if_pos (Option.some.inj ‹_›)]
    exact ⟨finished.aside (.of_eq rfl rfl rfl rfl) rfl rfl, rfl, rfl⟩
  next wanted =>
    rw [if_neg fun cancelled => wanted (congrArg some cancelled)]
    exact ⟨finished.aside (.of_eq rfl rfl rfl rfl) rfl rfl, rfl, rfl⟩

/-- When its server may have answered, a session goes on being opened, or it is disposed and the opening has
failed. No session is new by that, and only the opening's own is touched. -/
theorem awaitGreeting_cases (opening : Opening) (found : w.openings[number]? = some o)
    (quiet : w.host.armed = []) (here : touched n) (call : Nat)
    (same : w.awaitGreeting number opening n call = v) :
    v.sessions.length = w.sessions.length ∧
      ((∃ stage, stage.Has n ∧ Serves touched number o.root o.startup stage w v) ∧
          v.entries = w.entries ∨
        Serves touched number o.root o.startup (.finished none) w v ∧
          v.entries = w.leftBy number opening.root o.startup ∧ v.isDisposed n = true) := by
  unfold awaitGreeting at same
  split at same
  · subst same
    refine ⟨rfl, .inl ⟨⟨_, .inl ⟨call, rfl⟩, ?_⟩, rfl⟩⟩
    exact Serves.of_modify found fun o => { o with stage := .greeting n call }
  next outcome _ =>
    have grown : Grown touched w (w.welcome n outcome).2 :=
      within_grown _ (welcome_later w.options outcome) quiet here (some .connectionClosed)
    have course : Course Session.Later w (w.welcome n outcome).2 :=
      within_course _ (welcome_later w.options outcome) quiet n (some .connectionClosed)
    have kept := Serves.of_grown found grown course.openings course.visits
    split at same
    next u welcomed =>
      rw [welcomed] at grown course kept
      have found' : u.openings[number]? = some o := course.openings ▸ found
      have finished := kept.trans (.of_modify found' fun o => { o with stage := .finished (some n) })
      subst same
      refine ⟨course.length, .inl ⟨⟨_, .inr rfl, ?_⟩, course.entries⟩⟩
      exact finished.aside (.of_eq rfl rfl rfl rfl) rfl rfl
    next failure u failed =>
      have gone := isDisposed_welcome quiet failed
      rw [failed] at grown course kept
      have found' : u.openings[number]? = some o := course.openings ▸ found
      obtain ⟨finished, entries, sessions⟩ :=
        notOpened_serves touched opening found' failure
      subst same
      refine ⟨(congrArg List.length sessions).trans course.length, .inr ⟨kept.trans finished, ?_, ?_⟩⟩
      · exact entries.trans (leftBy_congr course.entries Iff.rfl)
      · exact (isDisposed_congr sessions _).trans gone

/-! ## Steps of an opening -/

/-- The sessions that an opening may touch: its own, and new ones. -/
def touchedBy (w : World) (o : Opening) (n : Nat) : Prop := o.Had n ∨ w.sessions.length ≤ n

/-- What one step of an opening comes to. -/
inductive Opens (number : Nat) (o : Opening) (w : World) : World → Prop where
  /-- It came to its end before. -/
  | rests {v : World} {session : Option Nat} (finished : o.stage = .finished session)
      (serves : Serves (w.touchedBy o) number o.root o.startup o.stage w v)
      (entries : v.entries = w.entries) (length : v.sessions.length = w.sessions.length) :
      Opens number o w v
  /-- There is no connection yet. -/
  | waits {v : World} (early : o.stage.IsEarly)
      (serves : Serves (w.touchedBy o) number o.root o.startup .connecting w v)
      (entries : v.entries = w.entries) (length : v.sessions.length = w.sessions.length) :
      Opens number o w v
  /-- There is a connection, and its server is greeted. -/
  | begins {v : World} {stage : OpeningStage} (early : o.stage.IsEarly)
      (wanted : o.startup ≠ .cancelled) (has : stage.Has w.sessions.length)
      (serves : Serves (w.touchedBy o) number o.root (.attached w.sessions.length) stage w v)
      (entries : v.entries = w.entries) (length : v.sessions.length = w.sessions.length + 1) :
      Opens number o w v
  /-- The server of its session may have answered. -/
  | goesOn {v : World} {n call : Nat} {stage : OpeningStage} (greeting : o.stage = .greeting n call)
      (has : stage.Has n)
      (serves : Serves (w.touchedBy o) number o.root o.startup stage w v)
      (entries : v.entries = w.entries) (length : v.sessions.length = w.sessions.length) :
      Opens number o w v
  /-- There is no connection, or the server does not welcome the session. -/
  | fails {v : World} (gone : o.stage.IsEarly ∨ ∃ n, o.stage.Has n ∧ v.isDisposed n = true)
      (serves : Serves (w.touchedBy o) number o.root o.startup (.finished none) w v)
      (entries : v.entries = w.leftBy number o.root o.startup)
      (length : v.sessions.length = w.sessions.length) : Opens number o w v
  /-- There is a connection, but its session cannot greet the server. -/
  | breaks {v : World} (early : o.stage.IsEarly) (wanted : o.startup ≠ .cancelled)
      (gone : v.isDisposed w.sessions.length = true)
      (serves : Serves (w.touchedBy o) number o.root (.attached w.sessions.length) (.finished none) w v)
      (entries : v.entries = w.leftBy number o.root o.startup)
      (length : v.sessions.length = w.sessions.length + 1) : Opens number o w v
  /-- There is a connection, but nobody wants it any more. -/
  | expires {v : World} (early : o.stage.IsEarly) (cancelled : o.startup = .cancelled)
      (stillborn : ∀ t, v.sessions[w.sessions.length]? = some t → t.IsStillborn)
      (serves : Serves (w.touchedBy o) number o.root o.startup (.finished none) w v)
      (entries : v.entries = w.entries) (length : v.sessions.length = w.sessions.length + 1) :
      Opens number o w v

/-- What becomes of a cancelled opening that has a connection now: its session is disposed before anything
was said on the connection, and it came to its end. -/
theorem disposed_opens {s : Session} (opening : Opening) (early : o.stage.IsEarly)
    (cancelled : o.startup = .cancelled)
    (come : Serves (w.touchedBy o) number o.root o.startup o.stage w v)
    (entries : v.entries = w.entries) (length : v.sessions.length = w.sessions.length + 1)
    (quiet : v.host.armed = []) (last : v.sessions[w.sessions.length]? = some s) (new : s.IsNew) :
    Opens number o w
      ((v.dispose w.sessions.length).notOpened number opening .connectionClosed) := by
  have course : Course Session.Later v (v.dispose w.sessions.length) := dispose_course quiet _
  have disposed : Grown (w.touchedBy o) v (v.dispose w.sessions.length) :=
    within_grown (fun h => ((), h.dispose)) dispose_later quiet (.inr (Nat.le_refl _)) ()
  have gone := come.aside disposed course.openings course.visits
  obtain ⟨watchers, found⟩ := gone.here
  obtain ⟨finished, left, sessions⟩ := notOpened_serves (w.touchedBy o) opening found
    .connectionClosed
  refine .expires early cancelled (fun t after => ?_) (gone.trans finished) ?_ ?_
  · rw [sessions] at after
    exact dispose_stillborn quiet last new after
  · rw [left, leftBy, if_pos cancelled]
    exact course.entries.trans entries
  · rw [sessions, course.length, length]

/-- What becomes of an opening that has a connection now. It depends on whether it was cancelled, whether
the server can be greeted, and whether the server has answered already. -/
theorem attached_opens {opening : Opening} (early : o.stage.IsEarly) (root : opening.root = o.root)
    (entered : Serves (w.touchedBy o) number o.root o.startup o.stage w u)
    (entries : u.entries = w.entries) (length : u.sessions.length = w.sessions.length)
    (quiet : u.host.armed = []) (attached : Attached (some opening.root) u v) :
    Opens number o w (v.attached number opening w.sessions.length) := by
  have growth := attached.growth (R := Session.Later)
  have come := entered.aside (.of_attached attached) growth.openings growth.visits
  obtain ⟨watchers, found⟩ := come.here
  have calm := growth.calm quiet
  have kept := growth.entries.trans entries
  have longer : v.sessions.length = w.sessions.length + 1 := by rw [attached.length, length]
  unfold World.attached
  rw [found]
  dsimp only [Option.map]
  split
  next cancelled =>
    obtain ⟨s, last, -, new⟩ := attached.last
    exact disposed_opens opening early (Option.some.inj cancelled) come kept longer calm
      (length ▸ last) new
  next wanted =>
    have wanted : o.startup ≠ .cancelled := fun cancelled => wanted (congrArg some cancelled)
    have started := come.trans (.of_modify found fun o =>
      { o with startup := .attached w.sessions.length })
    have course : Course Session.Later (v.setStartup number (.attached w.sessions.length))
        ((v.setStartup number (.attached w.sessions.length)).greet w.sessions.length none).2 :=
      within_course _ (greet_later _ none) (by exact calm) _ (.error .connectionClosed)
    have fresh : w.touchedBy o w.sessions.length := .inr (Nat.le_refl _)
    have greeted : Grown (w.touchedBy o) (v.setStartup number (.attached w.sessions.length))
        ((v.setStartup number (.attached w.sessions.length)).greet w.sessions.length none).2 :=
      within_grown _ (greet_later _ none) (by exact calm) fresh (.error .connectionClosed)
    have greets := started.aside greeted course.openings course.visits
    obtain ⟨watchers, here⟩ := greets.here
    have kept := course.entries.trans kept
    have longer := course.length.trans longer
    -- it was not cancelled when its session was attached, so if it fails it is struck out
    have uncancelled : Startup.attached w.sessions.length = .cancelled ↔ o.startup = .cancelled :=
      ⟨nofun, fun cancelled => absurd cancelled wanted⟩
    split
    next failure g failed =>
      have gone := isDisposed_greet (by exact calm) failed
      rw [failed] at greets here kept longer
      obtain ⟨finished, left, sessions⟩ :=
        notOpened_serves (w.touchedBy o) opening here failure
      refine .breaks early wanted ?_ (greets.trans finished) ?_ ?_
      · exact (isDisposed_congr sessions _).trans gone
      · rw [left, root, leftBy_congr kept uncancelled]
      · rw [sessions]
        exact longer
    next call g welcome =>
      have calm := course.calm calm
      rw [welcome] at greets here kept longer calm
      obtain ⟨same, ⟨⟨stage, has, serves⟩, rest⟩ | ⟨serves, left, gone⟩⟩ :=
        awaitGreeting_cases opening here calm fresh call rfl
      · exact .begins early wanted has (greets.trans serves) (rest.trans kept) (same.trans longer)
      · refine .breaks early wanted gone (greets.trans serves) ?_ (same.trans longer)
        rw [left, root, leftBy_congr kept uncancelled]

/-- What becomes of an opening that asks for a connection: it waits, or it is refused one, or a session is
attached for it. -/
theorem awaitConnection_opens {opening : Opening} (early : o.stage.IsEarly)
    (root : opening.root = o.root)
    (entered : Serves (w.touchedBy o) number o.root o.startup o.stage w u)
    (entries : u.entries = w.entries) (length : u.sessions.length = w.sessions.length)
    (quiet : u.host.armed = []) : Opens number o w (u.awaitConnection number opening) := by
  unfold awaitConnection
  obtain ⟨connector, later⟩ | ⟨failure, connector, refused⟩ | ⟨v, session, attached⟩ :=
    u.connect_cases (.opening number) (some opening.root)
  · rw [later]
    have asked := entered.aside (u := { u with connector }) (.of_eq rfl rfl rfl rfl) rfl rfl
    obtain ⟨watchers, found⟩ := asked.here
    exact .waits early (asked.trans (.of_modify found fun o => { o with stage := .connecting }))
      entries length
  · rw [refused]
    have asked := entered.aside (u := { u with connector }) (.of_eq rfl rfl rfl rfl) rfl rfl
    obtain ⟨watchers, found⟩ := asked.here
    obtain ⟨finished, left, sessions⟩ :=
      notOpened_serves (w.touchedBy o) opening found failure
    refine .fails (.inl early) (asked.trans finished) ?_ ?_
    · rw [left, root]
      exact leftBy_congr entries Iff.rfl
    · rw [sessions]
      exact length
  · rw [session, length]
    exact attached_opens early root entered entries length quiet attached

/-- What one step of an opening comes to, whoever makes it. By its stage the step asks for a connection, or
for the answer of the server, or only notes who waits. -/
theorem pollOpening_opens (found : w.openings[number]? = some o) (quiet : w.host.armed = [])
    (task : Task) : Opens number o w (w.pollOpening task number) := by
  have watched : Serves (w.touchedBy o) number o.root o.startup o.stage w
      (w.watchOpening number task) :=
    .of_modify found fun o =>
      { o with watchers := if task ∈ o.watchers then o.watchers else o.watchers ++ [task] }
  obtain ⟨watchers, here⟩ := watched.here
  unfold pollOpening
  dsimp only
  rw [here]
  dsimp only
  cases stage : o.stage with
  | unstarted =>
    have asked := watched.aside (u := (w.watchOpening number task).askConnection)
      (.of_eq rfl rfl rfl rfl) rfl rfl
    exact awaitConnection_opens (.inl stage) rfl asked rfl rfl quiet
  | connecting => exact awaitConnection_opens (.inr stage) rfl watched rfl rfl quiet
  | greeting n call =>
    have had : o.stage.Has n := .inl ⟨call, stage⟩
    have touched : w.touchedBy o n := .inl (.inr had)
    obtain ⟨length, ⟨⟨stage', has, serves⟩, entries⟩ | ⟨serves, entries, gone⟩⟩ :=
      awaitGreeting_cases ⟨o.root, o.startup, o.stage, watchers⟩ here quiet touched call rfl
    · rw [stage] at serves entries length
      exact .goesOn stage has (watched.trans serves) entries length
    · rw [stage] at serves entries length gone
      exact .fails (.inr ⟨n, had, gone⟩) (watched.trans serves) entries length
  | finished session => exact .rests stage watched rfl rfl

end World

end LanguageClient
