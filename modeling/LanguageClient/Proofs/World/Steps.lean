import LanguageClient.Proofs.Roots.Opening
import LanguageClient.Proofs.World.Scene
import LanguageClient.Proofs.World.Visits

/-!
# Steps by acts

`World.Steps` relates two worlds of which the second comes of the first by acts of sessions, with all
that has to be known on the way: a server is greeted by the first call on its connection
(`World.IsLawful`), and a session is open for somebody (`World.Opens`) only if what its server
advertised was registered. It composes, and the steps that open and dispose the sessions of the roots
are instances of it.
-/

namespace LanguageClient

namespace World

variable {w v u : World} {turn : Turn} {n : Nat}

/-- Whether a session was opened well for somebody: for a root, a visit of its own, or the client. -/
def HasOpened (w : World) (n : Nat) : Prop :=
  (∃ opening ∈ w.openings, opening.stage = .finished (some n)) ∨
    (w.isMultiRoot = false ∧ ∃ visit ∈ w.visits, ∃ loan, visit.stage = .running n loan) ∨
      w.phase = .running ∧ w.shared = some n

/-- Whether the stage of an opening is one that it comes to lawfully. -/
def FairOpening (w : World) : OpeningStage → Prop
  | .greeting _ call => call = 0
  | .finished (some n) => w.scene.Advertises w.options n
  | _ => True

/-- Whether the stage of a visit is one that it comes to lawfully. -/
def FairVisit (w : World) : VisitStage → Prop
  | .greeting _ call => call = 0
  | .running n _ => w.isMultiRoot = false → w.scene.Advertises w.options n
  | _ => True

/-- Whether the client is as far as it can be with the session that serves all roots. -/
def FairPhase (w : World) : Prop :=
  (w.isMultiRoot = false → w.shared = none) ∧
    match w.phase with
    | .connecting => w.isMultiRoot = true
    | .greeting n call => call = 0 ∧ w.shared = some n
    | .joining _ => w.isMultiRoot = false
    | .running => ∀ n, w.shared = some n → w.scene.Advertises w.options n
    | _ => True

/-- What holds of a world whose host ends the client in no callback. -/
structure IsLawful (w : World) : Prop where
  quiet : w.host.armed = []
  tidy : w.scene.IsTidy w.options
  openings : ∀ opening ∈ w.openings, w.FairOpening opening.stage
  visits : ∀ visit ∈ w.visits, w.FairVisit visit.stage
  phase : w.FairPhase

/-- A lawful world that comes of another by acts. -/
structure Steps (turn : Turn) (w v : World) : Prop where
  options : v.options = w.options
  acts : Scene.Acts w.options turn w.scene v.scene
  lawful : v.IsLawful

/-- What a server has advertised is registered once its session is open for somebody. The three ways of
being open are the three cases. -/
theorem IsLawful.advertises (lawful : w.IsLawful) (opened : w.HasOpened n) :
    w.scene.Advertises w.options n := by
  rcases opened with ⟨opening, member, finished⟩ | ⟨single, visit, member, loan, running⟩ |
    ⟨running, shared⟩
  · have fair := lawful.openings opening member
    rw [finished] at fair
    exact fair
  · have fair := lawful.visits visit member
    rw [running] at fair
    exact fair single
  · have fair := lawful.phase
    unfold FairPhase at fair
    rw [running] at fair
    exact fair.2 n shared

section Fair

/-- Which kind a client is depends on its options alone. -/
theorem isMultiRoot_congr (options : v.options = w.options) : v.isMultiRoot = w.isMultiRoot :=
  congrArg (fun options => options.config.isMultiRoot) options

variable (options : v.options = w.options)
  (mono : ∀ n, w.scene.Advertises w.options n → v.scene.Advertises v.options n)

include mono

/-- A stage that an opening came to lawfully stays lawful while what was advertised stays registered. -/
theorem fairOpening_mono {stage : OpeningStage} (fair : w.FairOpening stage) :
    v.FairOpening stage := by
  unfold FairOpening at fair ⊢
  split
  · exact fair
  · exact mono _ fair
  · trivial

include options

/-- The same of the stage of a visit. -/
theorem fairVisit_mono {stage : VisitStage} (fair : w.FairVisit stage) : v.FairVisit stage := by
  unfold FairVisit at fair ⊢
  split
  · exact fair
  · exact fun single => mono _ (fair ((isMultiRoot_congr options).symm.trans single))
  · trivial

/-- The same of the phase of the client, with the session that serves all roots. -/
theorem fairPhase_mono (phase : v.phase = w.phase) (shared : v.shared = w.shared)
    (fair : w.FairPhase) : v.FairPhase := by
  unfold FairPhase at fair ⊢
  rw [phase, shared, isMultiRoot_congr options]
  refine ⟨fair.1, ?_⟩
  replace fair := fair.2
  cases at_phase : w.phase with
  | running =>
    rw [at_phase] at fair
    intro n known
    exact mono n (fair n known)
  | _ =>
    rw [at_phase] at fair
    exact fair

end Fair

/-- A host that changes without a word about providers leaves a world lawful. Views that come and go are
such a change, and they are no acts. -/
theorem IsLawful.of_host (lawful : w.IsLawful) {host : Host} (armed : host.armed = w.host.armed)
    (provided : host.provided = w.host.provided) : IsLawful { w with host } := by
  have grown : host.provided = w.host.provided ++ [] := by rw [provided, List.append_nil]
  let v : World := { w with host }
  have options : v.options = w.options := rfl
  have mono (n : Nat) (advertises : w.scene.Advertises w.options n) :
      v.scene.Advertises v.options n := by
    obtain ⟨s, found, known⟩ := advertises
    refine ⟨s, found, ?_⟩
    intro active
    obtain ⟨answer, answered, offers⟩ := known active
    exact ⟨answer, answered, fun number => (offers number).of_eq rfl grown⟩
  refine ⟨armed.trans lawful.quiet, ?_, ?_, ?_, ?_⟩
  · intro n s found active
    rcases lawful.tidy found active with nothing | ⟨answer, answered, offers⟩
    · exact .inl fun number => (nothing number).of_eq rfl grown
    · exact .inr ⟨answer, answered, fun number => (offers number).of_eq rfl grown⟩
  · exact fun opening member => fairOpening_mono mono (lawful.openings opening member)
  · exact fun visit member => fairVisit_mono options mono (lawful.visits visit member)
  · exact fairPhase_mono options mono rfl rfl lawful.phase

section Acts

variable (options : v.options = w.options) (acts : Scene.Acts w.options turn w.scene v.scene)

include options acts

/-- Acts keep registered what was advertised, for every session. -/
theorem advertises_mono (quiet : w.host.armed = []) (n : Nat)
    (advertises : w.scene.Advertises w.options n) : v.scene.Advertises v.options n := by
  rw [options]
  exact (acts.induction (fun c => c.Advertises w.options n)
    (fun quiet act known => act.advertises quiet known) quiet advertises).2

/-- A world is lawful after acts, if the stages that are new are come to lawfully. All steps below come down
to this lemma, which asks of each only what it has set anew. -/
theorem IsLawful.steps (lawful : w.IsLawful)
    (openings : ∀ opening ∈ v.openings, (∃ old ∈ w.openings, old.stage = opening.stage) ∨
      v.FairOpening opening.stage)
    (visits : ∀ visit ∈ v.visits, (∃ old ∈ w.visits, old.stage = visit.stage) ∨
      v.FairVisit visit.stage)
    (phase : v.phase = w.phase ∧ v.shared = w.shared ∨ v.FairPhase) : Steps turn w v where
  options := options
  acts := acts
  lawful := by
    have quiet := lawful.quiet
    obtain ⟨calm, tidy⟩ := acts.induction (Scene.IsTidy w.options)
      (fun quiet act tidy => act.isTidy quiet tidy) quiet lawful.tidy
    have mono := advertises_mono options acts quiet
    refine ⟨calm, options ▸ tidy, ?_, ?_, ?_⟩
    · intro opening member
      rcases openings opening member with ⟨old, before, same⟩ | fair
      · rw [← same]
        exact fairOpening_mono mono (lawful.openings old before)
      · exact fair
    · intro visit member
      rcases visits visit member with ⟨old, before, same⟩ | fair
      · rw [← same]
        exact fairVisit_mono options mono (lawful.visits old before)
      · exact fair
    · rcases phase with ⟨phase, shared⟩ | fair
      · exact fairPhase_mono options mono phase shared lawful.phase
      · exact fair

/-- Nobody's stage changes, so there is nothing to show beyond the acts. -/
theorem IsLawful.unstaged (lawful : w.IsLawful) (openings : v.openings = w.openings)
    (visits : v.visits = w.visits) (phase : v.phase = w.phase) (shared : v.shared = w.shared) :
    Steps turn w v := by
  refine lawful.steps options acts ?_ ?_ (.inl ⟨phase, shared⟩)
  · intro opening member
    exact .inl ⟨opening, openings ▸ member, rfl⟩
  · intro visit member
    exact .inl ⟨visit, visits ▸ member, rfl⟩

end Acts

namespace Steps

theorem refl (lawful : w.IsLawful) : Steps turn w w := ⟨rfl, .refl, lawful⟩

/-- Steps compose. The world between them is lawful, which is what the second step starts from. -/
theorem trans (first : Steps turn w v) (second : Steps turn v u) : Steps turn w u :=
  ⟨second.options.trans first.options, first.acts.trans (first.options ▸ second.acts),
    second.lawful⟩

end Steps

/-- A change that sessions, openings, visits and the client do not notice: of the log, of who is awake, of
what has finished. -/
theorem IsLawful.of_eq (lawful : w.IsLawful) (options : v.options = w.options)
    (scene : v.scene = w.scene) (openings : v.openings = w.openings) (visits : v.visits = w.visits)
    (phase : v.phase = w.phase) (shared : v.shared = w.shared) : Steps turn w v :=
  lawful.unstaged options (scene ▸ .refl) openings visits phase shared

/-- A course of the world changes nobody's stage, so it is a step as soon as it is known to be acts. -/
theorem IsLawful.course {R : Session → Session → Prop} (lawful : w.IsLawful) (course : Growth R w v)
    (acts : Scene.Acts w.options turn w.scene v.scene) : Steps turn w v :=
  lawful.unstaged course.options acts course.openings course.visits course.phase course.shared

/-- An opening changes. It stays at its stage, or comes to another lawfully. -/
theorem changeOpening_steps (lawful : w.IsLawful) (number : Nat) {change : Opening → Opening}
    (stays : ∀ opening : Opening, (change opening).stage = opening.stage ∨
      w.FairOpening (change opening).stage) :
    Steps turn w { w with openings := w.openings.modify number change } := by
  refine lawful.steps rfl .refl ?_ (fun visit member => .inl ⟨visit, member, rfl⟩) (.inl ⟨rfl, rfl⟩)
  intro opening member
  rcases mem_modify member with old | ⟨old, found, rfl⟩
  · exact .inl ⟨opening, old, rfl⟩
  · exact (stays old).imp_left fun same => ⟨old, List.mem_of_getElem? found, same.symm⟩

/-- An opening comes to a stage that is fair in the world as it is. -/
theorem setStage_steps (lawful : w.IsLawful) (number : Nat) {stage : OpeningStage}
    (fair : w.FairOpening stage) : Steps turn w (w.setStage number stage) :=
  changeOpening_steps lawful number fun _ => .inr fair

/-- A visit changes. It stays at its stage, or comes to another lawfully. -/
theorem changeVisit_steps (lawful : w.IsLawful) (number : Nat) {change : Visit → Visit}
    (stays : ∀ visit : Visit, (change visit).stage = visit.stage ∨
      w.FairVisit (change visit).stage) :
    Steps turn w { w with visits := w.visits.modify number change } := by
  refine lawful.steps rfl .refl (fun opening member => .inl ⟨opening, member, rfl⟩) ?_ (.inl ⟨rfl, rfl⟩)
  intro visit member
  rcases mem_modify member with old | ⟨old, found, rfl⟩
  · exact .inl ⟨visit, old, rfl⟩
  · exact (stays old).imp_left fun same => ⟨old, List.mem_of_getElem? found, same.symm⟩

/-- A visit comes to a stage that is fair in the world as it is. -/
theorem setVisit_steps (lawful : w.IsLawful) (number : Nat) {stage : VisitStage}
    (fair : w.FairVisit stage) : Steps turn w (w.setVisit number stage) :=
  changeVisit_steps lawful number fun _ => .inr fair

/-- The client is at another phase, or has another shared session, and the two fit each other. -/
theorem staged_steps (lawful : w.IsLawful) {phase : Phase} {shared : Option Nat}
    (fair : { w with phase, shared }.FairPhase) : Steps turn w { w with phase, shared } :=
  lawful.steps rfl .refl (fun opening member => .inl ⟨opening, member, rfl⟩)
    (fun visit member => .inl ⟨visit, member, rfl⟩) (.inr fair)

/-! ## Connections -/

/-- What comes of asking for a connection; on a new one, nothing was asked yet. The second part is what
makes the greeting the first call. -/
theorem connect_steps (lawful : w.IsLawful) (asker : Task) (root : Option Url) :
    Steps turn w (w.connect asker root).2 ∧ ∀ n, (w.connect asker root).1 = .session n →
      ∃ s, (w.connect asker root).2.sessions[n]? = some s ∧ s.connection.calls = [] := by
  unfold connect
  dsimp only
  split
  · exact ⟨lawful.of_eq rfl rfl rfl rfl rfl rfl, fun n => by rintro ⟨⟩⟩
  · split
    · exact ⟨lawful.of_eq rfl rfl rfl rfl rfl rfl, fun n => by rintro ⟨⟩⟩
    · refine ⟨lawful.unstaged rfl (attach_acts lawful.quiet root) rfl rfl rfl rfl, ?_⟩
      rintro n ⟨⟩
      simp only [attach, put, wake, wakeTasks]
      refine ⟨_, List.getElem?_set_self (by simp), rfl⟩

theorem connect_phase (w : World) (asker : Task) (root : Option Url) :
    (w.connect asker root).2.phase = w.phase := by
  unfold connect
  dsimp only
  split
  · rfl
  · split <;> rfl

/-- The number of a call is that of the calls before it. -/
theorem request_fst {η : Type} (c : Connection η) (method : String) (params : Json) :
    (c.request method params).1 = c.calls.length := by
  unfold Connection.request
  split
  · rfl
  · dsimp only
    split <;> rfl

/-- Greeting a server is the first call on its connection, if nothing was asked yet. Hence the stages of
those who wait always name call zero. -/
theorem greet_steps (lawful : w.IsLawful) (n : Nat) (folders : Option (List WorkspaceFolder)) :
    Steps .other w (w.greet n folders).2 ∧ (w.greet n folders).2.shared = w.shared ∧
      ∀ {s call}, w.sessions[n]? = some s → s.connection.calls = [] →
        (w.greet n folders).1 = .ok call → call = 0 := by
  have later := greet_later w.options folders
  have acts : Scene.Acts w.options .other w.scene (w.greet n folders).2.scene := by
    refine within_acts _ later lawful.quiet _ ?_
    intro h _ _ _
    exact Hosted.greet_acts (by rintro ⟨⟩) (by rintro ⟨⟩) folders
  have course : Course _ w (w.greet n folders).2 := within_course _ later lawful.quiet n _
  refine ⟨lawful.course course.toGrowth acts, course.shared, ?_⟩
  intro s call found uncalled greeted
  obtain ⟨h, -, -, rfl, result, -⟩ :=
    within_found _ later lawful.quiet (.error .connectionClosed) found
  have said := result.symm.trans greeted
  unfold Hosted.greet at said
  split at said
  · cases said
  · have first := Except.ok.inj said
    rw [request_fst] at first
    rw [← first]
    exact congrArg List.length uncalled

/-- Going on after the greeting registers what the server has advertised, if it goes well. -/
theorem welcome_steps (lawful : w.IsLawful) {outcome : Outcome}
    (answered : w.outcome? n 0 = some outcome) :
    Steps .other w (w.welcome n outcome).2 ∧ (w.welcome n outcome).2.shared = w.shared ∧
      ((w.welcome n outcome).1 = none →
        (w.welcome n outcome).2.scene.Advertises (w.welcome n outcome).2.options n) := by
  have later := welcome_later w.options outcome
  obtain ⟨s, found, known⟩ := Option.bind_eq_some_iff.mp answered
  have acts : Scene.Acts w.options .other w.scene (w.welcome n outcome).2.scene := by
    refine within_acts _ later lawful.quiet _ ?_
    intro h _ host here
    cases found.symm.trans here
    exact Hosted.welcome_acts (by rintro ⟨⟩) (by rintro ⟨⟩) (host ▸ lawful.quiet) known
  have course : Course _ w (w.welcome n outcome).2 := within_course _ later lawful.quiet n _
  have steps := lawful.course course.toGrowth acts
  refine ⟨steps, course.shared, ?_⟩
  intro welcomed
  obtain ⟨h, -, host, rfl, result, scene⟩ :=
    within_found _ later lawful.quiet (some .connectionClosed) found
  change (w.welcome n outcome).1 = _ at result
  change (w.welcome n outcome).2.scene = _ at scene
  have inside := (List.getElem?_eq_some_iff.mp found).1
  rw [steps.options, scene]
  refine ⟨_, List.getElem?_set_self inside, ?_⟩
  intro active
  have tidy : h.session.IsTidy w.options h.host := host ▸ lawful.tidy found
  obtain ⟨answer, known, offers⟩ := Hosted.welcome_advertises (host ▸ lawful.quiet) known
    (result.symm.trans welcomed) active tidy
  exact ⟨answer, known, offers⟩

/-- To dispose a session is an act, also as the client does it. -/
theorem during_dispose_acts (quiet : w.host.armed = []) (n : Nat) :
    Scene.Acts w.options .other w.scene (w.dispose n).scene := by
  refine during_acts (fun h => (Hosted.dispose_beside h).course) quiet ?_
  intro h _ _ _
  exact Hosted.dispose_acts (by rintro ⟨⟩) (by rintro ⟨⟩)

theorem dispose_steps (lawful : w.IsLawful) (n : Nat) : Steps .other w (w.dispose n) :=
  lawful.course (R := Session.Later) (dispose_course lawful.quiet n).toGrowth
    (during_dispose_acts lawful.quiet n)

/-! ## Openings -/

theorem wake_steps (lawful : w.IsLawful) (wakes : List Wake) : Steps turn w (w.wake wakes) :=
  lawful.of_eq rfl rfl rfl rfl rfl rfl

theorem note_steps (lawful : w.IsLawful) (level : LogLevel) (message : String)
    (fields : List (String × String)) : Steps turn w (w.note level message fields) :=
  lawful.of_eq rfl rfl rfl rfl rfl rfl

/-- An opening comes to its end, with a session only if what its server advertised is registered. -/
theorem finishOpening_steps (lawful : w.IsLawful) (number : Nat) (opening : Opening)
    {session : Option Nat} (fair : w.FairOpening (.finished session)) :
    Steps turn w (w.finishOpening number opening session) := by
  have staged : Steps turn w (w.setStage number (.finished session)) :=
    setStage_steps lawful number fair
  exact staged.trans (wake_steps staged.lawful _)

/-- An opening that fails ends without a session, which is always lawful. -/
theorem notOpened_steps (lawful : w.IsLawful) (number : Nat) (opening : Opening)
    (failure : ClientError) : Steps turn w (w.notOpened number opening failure) := by
  unfold notOpened
  dsimp only
  split
  · exact finishOpening_steps lawful number opening trivial
  · have forgotten : Steps turn w ((w.note .error "failed to open root session"
        [("error", failure.message), ("root", opening.root.text)]).forget opening.root number) :=
      lawful.of_eq rfl rfl rfl rfl rfl rfl
    exact forgotten.trans (finishOpening_steps forgotten.lawful number opening trivial)

/-- An opening goes on with the answer to call zero: it is finished, fails, or waits on. -/
theorem awaitGreeting_steps (lawful : w.IsLawful) (number : Nat) (opening : Opening) (n : Nat) :
    Steps .other w (w.awaitGreeting number opening n 0) := by
  unfold awaitGreeting
  split
  · exact setStage_steps lawful number rfl
  next outcome answered =>
    obtain ⟨welcomed, -, advertises⟩ := welcome_steps lawful answered
    split
    next v eq =>
      rw [eq] at welcomed advertises
      have noted : Steps .other v (v.note .info "root session ready"
        [("root", opening.root.text)]) := note_steps welcomed.lawful ..
      exact (welcomed.trans noted).trans
        (finishOpening_steps noted.lawful number opening (advertises rfl))
    next eq =>
      rw [eq] at welcomed
      exact welcomed.trans (notOpened_steps welcomed.lawful ..)

theorem setStartup_steps (lawful : w.IsLawful) (number : Nat) (startup : Startup) :
    Steps turn w (w.setStartup number startup) :=
  changeOpening_steps lawful number fun _ => .inl rfl

/-- A session that was attached for an opening is greeted on its new connection, or disposed if the opening
was cancelled. -/
theorem attached_steps (lawful : w.IsLawful) (number : Nat) (opening : Opening) {s : Session}
    (found : w.sessions[n]? = some s) (uncalled : s.connection.calls = []) :
    Steps .other w (w.attached number opening n) := by
  unfold attached
  split
  · have disposed := dispose_steps lawful n
    exact disposed.trans (notOpened_steps disposed.lawful ..)
  · have started : Steps .other w (w.setStartup number (.attached n)) :=
      setStartup_steps lawful ..
    obtain ⟨greeted, -, first⟩ := greet_steps started.lawful n none
    have both := started.trans greeted
    split
    next eq =>
      rw [eq] at both
      exact both.trans (notOpened_steps both.lawful ..)
    next call v eq =>
      rw [eq] at both first
      obtain rfl := first found uncalled rfl
      exact both.trans (awaitGreeting_steps both.lawful ..)

/-- An opening asks for its connection, and all three answers are steps. -/
theorem awaitConnection_steps (lawful : w.IsLawful) (number : Nat) (opening : Opening) :
    Steps .other w (w.awaitConnection number opening) := by
  unfold awaitConnection
  obtain ⟨asked, fresh⟩ : Steps .other w _ ∧ _ :=
    connect_steps lawful (.opening number) (some opening.root)
  split
  next eq =>
    rw [eq] at asked
    exact asked.trans (setStage_steps asked.lawful number trivial)
  next eq =>
    rw [eq] at asked
    exact asked.trans (notOpened_steps asked.lawful ..)
  next n v eq =>
    rw [eq] at asked fresh
    obtain ⟨s, found, uncalled⟩ := fresh n rfl
    exact asked.trans (attached_steps asked.lawful number opening found uncalled)

theorem watchOpening_steps (lawful : w.IsLawful) (number : Nat) (task : Task) :
    Steps turn w (w.watchOpening number task) :=
  changeOpening_steps lawful number fun _ => .inl rfl

/-- An opening goes on from any stage. If it waits for a greeting, that is call zero, since the world is
lawful. -/
theorem pollOpening_steps (lawful : w.IsLawful) (task : Task) (number : Nat) :
    Steps .other w (w.pollOpening task number) := by
  unfold pollOpening
  have watched : Steps .other w (w.watchOpening number task) := watchOpening_steps lawful ..
  generalize w.watchOpening number task = v at watched
  have lawful := watched.lawful
  dsimp only
  split
  · exact watched
  next opening found =>
    split
    · have asked : Steps .other v v.askConnection := lawful.of_eq rfl rfl rfl rfl rfl rfl
      exact watched.trans (asked.trans (awaitConnection_steps asked.lawful number opening))
    · exact watched.trans (awaitConnection_steps lawful number opening)
    next n call at_stage =>
      have fair := lawful.openings opening (List.mem_of_getElem? found)
      rw [at_stage] at fair
      obtain rfl : call = 0 := fair
      exact watched.trans (awaitGreeting_steps lawful number opening n)
    · exact watched

/-! ## Roots that come and go -/

/-- A root that is newly tracked gets an opening that is not started. -/
theorem addRoot_steps (lawful : w.IsLawful) (root : Url) : Steps .other w (w.addRoot root).2 := by
  unfold addRoot
  split
  · exact .refl lawful
  · refine lawful.steps rfl .refl ?_ (fun visit member => .inl ⟨visit, member, rfl⟩)
      (.inl ⟨rfl, rfl⟩)
    intro opening member
    rcases List.mem_append.mp member with old | new
    · exact .inl ⟨opening, old, rfl⟩
    · rw [List.mem_singleton.mp new]
      exact .inr trivial

/-- Tearing a session down does not end the client, if the host does not do so itself from inside a
callback. -/
theorem tearDown_steps (lawful : w.IsLawful) (n : Nat) :
    Steps .other w (w.tearDown n).2 ∧ (w.tearDown n).1 = false := by
  have course := onSession_course (R := Session.Later) (fun h => ((), h.dispose))
    (fun h => (Hosted.dispose_beside h).course) lawful.quiet n ()
  have disposed := dispose_steps lawful n
  have kept : (w.tearDown n).1 = false := course.2
  unfold dispose at disposed
  generalize w.tearDown n = torn at kept disposed ⊢
  obtain ⟨ended, v⟩ := torn
  cases kept
  exact ⟨disposed, rfl⟩

/-- Revoking an opening does not end the client either, whether or not it has a session by then. -/
theorem revoke_steps (lawful : w.IsLawful) (number : Nat) :
    Steps .other w (w.revoke number).2 ∧ (w.revoke number).1 = false := by
  unfold revoke
  have cancelled : Steps .other w (w.setStartup number .cancelled) := setStartup_steps lawful ..
  dsimp only
  split
  next n _ =>
    obtain ⟨torn, kept⟩ := tearDown_steps cancelled.lawful n
    exact ⟨cancelled.trans torn, kept⟩
  · exact ⟨cancelled, rfl⟩

/-- Cancelling an opening is revoking it, since nothing more comes of it here. -/
theorem cancel_steps (lawful : w.IsLawful) (number : Nat) : Steps .other w (w.cancel number) := by
  obtain ⟨revoked, kept⟩ := revoke_steps lawful number
  unfold cancel
  generalize w.revoke number = outcome at revoked kept
  obtain ⟨ended, v⟩ := outcome
  cases kept
  exact revoked

/-- A root that went is tracked no more, and its session is disposed. -/
theorem removeRoot_steps (lawful : w.IsLawful) (root : Url) :
    Steps .other w (w.removeRoot root) := by
  unfold removeRoot
  split
  · exact .refl lawful
  next entry _ =>
    have dropped : Steps .other w { w with entries := w.entries.filter fun e => e.root ≠ root } :=
      lawful.of_eq rfl rfl rfl rfl rfl rfl
    have cancelled := cancel_steps dropped.lawful entry.opening
    exact (dropped.trans cancelled).trans (note_steps cancelled.lawful ..)

/-- Steps taken one after the other. Each starts from a lawful world, which the one before has left. -/
theorem foldl_steps {α : Type} {step : World → α → World}
    (each : ∀ {w : World}, w.IsLawful → ∀ a, Steps turn w (step w a)) (lawful : w.IsLawful)
    (items : List α) : Steps turn w (items.foldl step w) := by
  induction items generalizing w with
  | nil => exact .refl lawful
  | cons item items ih => exact (each lawful item).trans (ih (each lawful item).lawful)

/-- A look at the roots, with a session for each, disposes those of roots that went and opens those of roots
that came. -/
theorem reconcileEach_steps (lawful : w.IsLawful) : Steps .other w w.reconcileEach := by
  unfold reconcileEach
  have removed := foldl_steps removeRoot_steps lawful (RootDiff.between w.before w.host.roots).removed
  have added := foldl_steps addRoot_steps removed.lawful
    (RootDiff.between w.before w.host.roots).added
  exact (removed.trans added).trans (added.lawful.of_eq rfl rfl rfl rfl rfl rfl)

end World

end LanguageClient
