import LanguageClient.Proofs.Roots.Charge

/-!
# How visitors get sessions

Which session a visitor gets, and which sessions the step of a visit touches. `World.Withholds` says that
no visitor gets a session: it holds of every move but the step of a visit, and it composes.
`World.Comes` says what a visit comes to once it is known which sessions it may take.
-/

namespace LanguageClient

namespace World

variable {w v u : World} {number n : Nat} {visit : Visit} {mine greets : Nat → Prop}

/-! ## Where no visitor gets a session -/

/-- No visitor gets a session that was there, and what an opening has come to stays so. -/
structure Withholds (w v : World) : Prop where
  length : w.sessions.length ≤ v.sessions.length
  visits : ∀ {a : Nat} {y : Visit}, v.visits[a]? = some y → ∀ n, y.stage.Holds n →
    ∃ x, w.visits[a]? = some x ∧ x.stage = y.stage
  openings : ∀ {i : Nat} {p : Opening}, v.openings[i]? = some p → ∀ n, p.Had n →
    w.sessions.length ≤ n ∨ ∃ o, w.openings[i]? = some o ∧ o.Had n ∧
      (o.stage = .finished (some n) → p.stage = .finished (some n))

namespace Withholds

/-- Where neither visits nor openings change, no visitor gets a session. -/
theorem of_openings (length : w.sessions.length ≤ v.sessions.length) (visits : v.visits = w.visits)
    (openings : v.openings = w.openings) : Withholds w v where
  length := length
  visits found _ _ := ⟨_, visits ▸ found, rfl⟩
  openings found _ had := .inr ⟨_, openings ▸ found, had, id⟩

/-- Where nothing happens, no visitor gets a session. -/
theorem refl (w : World) : Withholds w w := of_openings (Nat.le_refl _) rfl rfl

/-- If neither of two steps gives a visitor a session, both together give none. What an opening has after
both, it had after the first or is new since. -/
theorem trans (first : Withholds w v) (second : Withholds v u) : Withholds w u where
  length := Nat.le_trans first.length second.length
  visits found n holds := by
    obtain ⟨y, found, same⟩ := second.visits found n holds
    obtain ⟨x, found, same'⟩ := first.visits found n (same ▸ holds)
    exact ⟨x, found, same'.trans same⟩
  openings found n had := by
    obtain beyond | ⟨p, found, had, stays⟩ := second.openings found n had
    · exact .inl (Nat.le_trans first.length beyond)
    · obtain beyond | ⟨o, found, had, stays'⟩ := first.openings found n had
      · exact .inl beyond
      · exact .inr ⟨o, found, had, stays ∘ stays'⟩

/-- What goes along the course of the world leaves visits and openings as they are. -/
theorem of_course (course : Course Session.Later w v) : Withholds w v :=
  of_openings (Nat.le_of_eq course.length.symm) course.visits course.openings

/-- Openings that are cancelled had the sessions that they have, and their stages stay. -/
theorem of_revokes {revoked : List Nat} (revokes : Revokes revoked w v) : Withholds w v where
  length := Nat.le_of_eq revokes.length.symm
  visits found _ _ := ⟨_, revokes.visits ▸ found, rfl⟩
  openings {i p} found n had := by
    have openings := revokes.openings i
    rw [found] at openings
    obtain ⟨o, before, rfl⟩ := Option.map_eq_some_iff.mp openings.symm
    refine .inr ⟨o, before, ?_, fun finished => ?_⟩
    · unfold Opening.Had at had ⊢
      split at had
      · exact .inr (had.resolve_left Startup.noConfusion)
      · exact had
    · split <;> exact finished

/-- A new opening has nothing yet. -/
theorem of_adds {root : Url} (adds : Adds root w v) : Withholds w v where
  length := Nat.le_of_eq (congrArg List.length adds.sessions).symm
  visits found _ _ := ⟨_, adds.visits ▸ found, rfl⟩
  openings found _ had := .inr ⟨_, adds.had found had, had, id⟩

end Withholds

/-- An opening that came to its end only learns who waits for it. So its step changes neither what it has
nor what it came to. -/
theorem pollOpening_of_finished {o : Opening} {session : Option Nat}
    (found : w.openings[number]? = some o) (finished : o.stage = .finished session) (task : Task) :
    w.pollOpening task number = w.watchOpening number task := by
  unfold pollOpening
  dsimp only
  split
  · rfl
  next p here =>
    have same : p.stage = .finished session := by
      simp only [watchOpening, List.getElem?_modify, found] at here
      cases here
      exact finished
    rw [same]

namespace Custody

/-- A step of an opening gives its session to nobody: who waits for it takes the session in a step of its
own. -/
theorem pollOpening_withholds (custody : w.Custody) (task : Task) (number : Nat) :
    Withholds w (w.pollOpening task number) := by
  cases found : w.openings[number]? with
  | none =>
    rw [pollOpening_of_none found]
    exact .refl w
  | some o =>
    obtain ⟨startup, stage, advances⟩ :=
      (pollOpening_opens found custody.unarmed task).advances custody.toBooked found
    refine ⟨advances.serves.le_length, fun at_a _ _ => ⟨_, advances.serves.visits ▸ at_a, rfl⟩, ?_⟩
    intro i p at_i n had
    obtain ⟨q, before, had'⟩ | ⟨-, beyond, -⟩ := advances.hadBefore found at_i had
    · refine .inr ⟨q, before, had', fun finished => ?_⟩
      by_cases here : i = number
      · subst here
        rw [pollOpening_of_finished before finished] at at_i
        simp only [watchOpening, List.getElem?_modify, before] at at_i
        cases at_i
        exact finished
      · cases before.symm.trans ((advances.serves.elsewhere i here).symm.trans at_i)
        exact finished
    · exact .inl beyond

/-! ## Roots -/

/-- A root that goes has its opening cancelled, and nothing is handed out by that. -/
theorem removeRoot_withholds (custody : w.Custody) (root : Url) :
    Withholds w (w.removeRoot root) := by
  unfold World.removeRoot
  cases found : w.entry? root with
  | none => exact .refl w
  | some entry =>
    have struck : Withholds w { w with entries := w.entries.filter fun e => e.root ≠ root } :=
      .of_openings (Nat.le_refl _) rfl rfl
    dsimp only
    rw [cancel_eq (by exact custody.unarmed)]
    have revokes := (revoke_revokes
      (w := { w with entries := w.entries.filter fun e => e.root ≠ root }) custody.unarmed
      entry.opening).1
    exact (struck.trans (.of_revokes revokes)).trans (.of_openings (Nat.le_refl _) rfl rfl)

/-- A root that comes has an opening that has nothing yet, or was tracked before. -/
theorem addRoot_withholds (w : World) (root : Url) : Withholds w (w.addRoot root).2 := by
  unfold World.addRoot
  split
  · exact .refl w
  · have adds : Adds root w (World.wakeTasks { w with
        openings := w.openings ++ [⟨root, .connecting, .unstarted, []⟩]
        entries := w.entries ++ [⟨root, w.openings.length⟩] } [.opening w.openings.length]) :=
      ⟨.of_eq rfl rfl rfl rfl, rfl, rfl, rfl, rfl⟩
    exact .of_adds adds

/-- A look at the roots hands nothing out: it removes what has gone and adds what has come, one root after
the other. -/
theorem reconcile_withholds (custody : w.Custody) : Withholds w w.reconcile := by
  unfold World.reconcile
  rw [if_neg (by rw [custody.single]; exact Bool.false_ne_true)]
  unfold reconcileEach
  obtain ⟨kept, removed⟩ := custody.foldl (R := Withholds) .refl .trans World.removeRoot
    (fun root custody => ⟨(custody.removeRoot root).1, custody.removeRoot_withholds root⟩)
    (RootDiff.between w.before w.host.roots).removed
  obtain ⟨-, added⟩ := kept.foldl (R := Withholds) .refl .trans (fun w root => (w.addRoot root).2)
    (fun root custody => ⟨(custody.addRoot root).1, addRoot_withholds _ root⟩)
    (RootDiff.between w.before w.host.roots).added
  exact (removed.trans added).trans (.of_openings (Nat.le_refl _) rfl rfl)

/-- Any number of looks hands nothing out. -/
theorem followChanges_withholds (custody : w.Custody) (count : Nat) :
    Withholds w (World.followChanges count w) := by
  induction count generalizing w with
  | zero => exact .refl w
  | succ count ih => exact custody.reconcile_withholds.trans (ih custody.reconcile.1)

/-- Who follows the roots hands nothing out: it makes some looks, or stops, or does nothing, by how far the
following is. -/
theorem pollReconciler_withholds (custody : w.Custody) : Withholds w w.pollReconciler := by
  have proceed {u : World} (custody : u.Custody) : Withholds u
      (World.followChanges u.changes.waiting
        { u with changes := { u.changes with waiting := 0 } }) := by
    have quiet : Custody { u with changes := { u.changes with waiting := 0 } } := { custody with }
    have begun : Withholds u { u with changes := { u.changes with waiting := 0 } } :=
      .of_openings (Nat.le_refl _) rfl rfl
    exact begun.trans (quiet.followChanges_withholds _)
  unfold World.pollReconciler
  dsimp only
  split
  · have looked : Custody { w.reconcile with following := .ongoing } :=
      { custody.reconcile.1 with }
    have first : Withholds w { w.reconcile with following := .ongoing } :=
      custody.reconcile_withholds.trans (.of_openings (Nat.le_refl _) rfl rfl)
    have all := first.trans (proceed looked)
    split
    · exact all.trans (.of_openings (Nat.le_refl _) rfl rfl)
    · exact all
  · have all := proceed custody
    split
    · exact all.trans (.of_openings (Nat.le_refl _) rfl rfl)
    · exact all
  · exact .refl w

/-- The end of the client cancels the openings of all tracked roots, and gives none of their sessions to a
visitor. -/
theorem endClient_withholds (custody : w.Custody) : Withholds w w.endClient := by
  have revoked : ∀ (entries : List RootEntry) {v : World}, v.host.armed = [] →
      Withholds v (entries.foldl (fun v entry => (v.revoke entry.opening).2) v) := by
    intro entries
    induction entries with
    | nil => exact fun _ => .refl _
    | cons entry entries ih =>
      intro v quiet
      have first := (revoke_revokes quiet entry.opening).1
      exact (Withholds.of_revokes first).trans (ih (first.calm quiet))
  have begun : Withholds w
      { w with phase := .over, following := .over, entries := [], shared := none } :=
    .of_openings (Nat.le_refl _) rfl rfl
  unfold World.endClient
  rw [custody.unshared]
  exact (begun.trans (revoked w.entries (by exact custody.unarmed))).trans
    (.of_openings (Nat.le_refl _) rfl rfl)

/-! ## Registering -/

/-- Who waits for the openings of the roots hands nothing out, as it only has them make their steps. -/
theorem join_withholds (custody : w.Custody) (openings : List Nat) :
    Withholds w (w.join openings) := by
  obtain ⟨-, polled⟩ := custody.foldl (R := Withholds) .refl .trans
    (fun w number =>
      if (w.openingResult? number).isSome then w else w.pollOpening .register number)
    (fun {w} number custody => by
      split
      · exact ⟨custody, .refl w⟩
      · exact ⟨(custody.pollOpening .register number).1,
          custody.pollOpening_withholds .register number⟩) openings
  unfold World.join
  dsimp only
  split
  · exact polled.trans (.of_openings (Nat.le_refl _) rfl rfl)
  · exact polled.trans (.of_openings (Nat.le_refl _) rfl rfl)

/-- Each root of the host gets an opening, and the steps of these are for the registration, not for a
visitor. -/
theorem openEach_withholds (custody : w.Custody) : Withholds w w.openEach := by
  have begun : Custody { w with before := w.host.roots } := { custody with }
  have looked : Withholds w { w with before := w.host.roots } :=
    .of_openings (Nat.le_refl _) rfl rfl
  obtain ⟨kept, added⟩ := begun.foldl (R := Withholds) .refl .trans
    (fun w root => (w.addRoot root).2)
    (fun root custody => ⟨(custody.addRoot root).1, addRoot_withholds _ root⟩) w.host.roots
  rw [← addEach_snd _ w.host.roots []] at kept added
  rw [openEach_eq]
  generalize { w with before := w.host.roots }.addEach w.host.roots [] = pair at kept added ⊢
  obtain ⟨numbers, v⟩ := pair
  have joining : Custody { v with phase := .joining numbers } := { kept with }
  have phased : Withholds v { v with phase := .joining numbers } :=
    .of_openings (Nat.le_refl _) rfl rfl
  exact ((looked.trans added).trans phased).trans (joining.join_withholds numbers)

end Custody

/-! ## Moves -/

namespace InCharge

/-- Registering hands nothing out, in whatever phase it is. Only the start and the waiting for openings do
anything, as no session is shared. -/
theorem pollRegister_withholds (charge : w.InCharge) : Withholds w w.pollRegister := by
  unfold World.pollRegister
  rw [if_neg (Bool.eq_false_iff.mp charge.wished)]
  split
  next phase =>
    dsimp only
    rw [if_neg (by exact Bool.eq_false_iff.mp charge.single)]
    have begun : Custody (World.note { w with changes := ⟨0, false⟩ } .info
        "registering language client" [("multi_root", toString w.isMultiRoot)]) :=
      { charge.toCustody with }
    have noted : Withholds w (World.note { w with changes := ⟨0, false⟩ } .info
        "registering language client" [("multi_root", toString w.isMultiRoot)]) :=
      .of_openings (Nat.le_refl _) rfl rfl
    exact noted.trans begun.openEach_withholds
  next phase => exact absurd phase charge.unconnected
  next n call phase => exact absurd phase (charge.ungreeted n call)
  next openings phase => exact charge.toCustody.join_withholds openings
  next => exact .refl w

/-- No move but the step of a visit gives a visitor a session. The moves that touch openings or visits are
considered one by one, and all others go along the course of the world. -/
theorem withholds (charge : w.InCharge) {move : Move} (orderly : move.isOrderly = true)
    (other : ∀ number, move ≠ .poll (.visit number)) : Withholds w (w.after move) := by
  -- the minor moves change neither visits nor openings; the others are taken one by one
  cases minor : move.isMinor with
  | true => exact .of_course (after_course charge.unarmed w.asks_later minor)
  | false =>
    cases move with
    | poll task =>
      cases task with
      | opening number => exact charge.toCustody.pollOpening_withholds (.opening number) number
      | reconciler => exact charge.toCustody.pollReconciler_withholds
      | register => exact charge.pollRegister_withholds
      | visit number => exact absurd rfl (other number)
      | _ => cases minor
    | sweep => exact .of_course charge.sweep_course
    | roots roots => exact .of_openings (Nat.le_refl _) rfl rfl
    | endStreams => exact .of_openings (Nat.le_of_eq (List.length_map _).symm) rfl rfl
    | register label =>
      change Withholds w (w.registerOnce label)
      unfold World.registerOnce
      split
      · exact .of_openings (Nat.le_refl _) rfl rfl
      · exact .refl w
    | shutdown =>
      change Withholds w w.shutdownIfPossible
      obtain same | ⟨-, -, same⟩ := w.shutdownIfPossible_cases <;> rw [same]
      · exact .refl w
      · exact charge.toCustody.endClient_withholds
    | visit label root =>
      change Withholds w ((w.visit label root).getD w)
      unfold World.visit
      split
      · exact .refl w
      -- the visit that begins comes last, and its stage holds nothing
      · refine ⟨Nat.le_refl _, fun {a y} found n holds => ?_, fun found _ had =>
          .inr ⟨_, found, had, id⟩⟩
        have found : (w.visits ++ [⟨label, root, .unstarted, none, false⟩])[a]? = some y := found
        rw [List.getElem?_append, List.getElem?_singleton] at found
        split at found
        · exact ⟨y, found, rfl⟩
        · split at found
          · cases found
            exact holds.elim
          · cases found
    | verdict number outcome =>
      change Withholds w (w.judge number outcome)
      unfold World.judge
      split
      · refine ⟨Nat.le_refl _, fun {a y} found _ _ => ?_, fun found _ had =>
          .inr ⟨_, found, had, id⟩⟩
        have found : (w.visits.modify number (Visit.decided · outcome))[a]? = some y := found
        rw [List.getElem?_modify] at found
        obtain ⟨x, before, rfl⟩ := Option.map_eq_some_iff.mp found
        refine ⟨x, before, ?_⟩
        split <;> rfl
      · exact .refl w
    | request => exact .of_openings (Nat.le_refl _) rfl rfl
    | notify n method params =>
      exact .of_course (notifyIfPossible_course
        (fun sent => .of_connection (Connection.send_later sent)) w n params)
    | stopReading n => exact .of_course (stopReading_course w n)
    | drop | arm => cases orderly
    | _ => cases minor

end InCharge

/-! ## The step of a visit -/

/-- What a visit that goes on comes to: it touches, and has afterwards, only sessions that it may take
and new ones, and of these it greets the servers of some. -/
structure Comes (number : Nat) (mine greets : Nat → Prop) (w v : World) : Prop where
  grown : Grown (fun n => mine n ∨ w.sessions.length ≤ n) w v
  openings : v.openings = w.openings
  visits : ∃ stage : VisitStage, v.visits = (w.setVisit number stage).visits ∧
    (∀ n, stage.Holds n → mine n ∨ w.sessions.length ≤ n) ∧
    ∀ n call, stage = .greeting n call → greets n ∨ w.sessions.length ≤ n

namespace Comes

/-- A visit goes to a stage at which it has only what it may take, and greets only whom it may greet.
Nothing happens to the sessions by that. -/
theorem of_stage {stage : VisitStage} (holds : ∀ n, stage.Holds n → mine n)
    (greeting : ∀ n call, stage = .greeting n call → greets n) :
    Comes number mine greets w (w.setVisit number stage) :=
  ⟨.of_eq rfl rfl rfl rfl, rfl, stage, rfl, fun n has => .inl (holds n has),
    fun n call same => .inl (greeting n call same)⟩

/-- Something else goes on before; what is new then may be the visitor's. So a visit that opens a session
for itself may have it afterwards. -/
theorem before {mine' greets' : Nat → Prop}
    (grown : Grown (fun n => mine n ∨ w.sessions.length ≤ n) w v) (openings : v.openings = w.openings)
    (visits : v.visits = w.visits) (comes : Comes number mine' greets' v u)
    (fewer : ∀ n, mine' n → mine n ∨ w.sessions.length ≤ n)
    (fewerGreets : ∀ n, greets' n → greets n ∨ w.sessions.length ≤ n) :
    Comes number mine greets w u := by
  obtain ⟨stage, staged, holds, greeting⟩ := comes.visits
  have new (n : Nat) (beyond : v.sessions.length ≤ n) : w.sessions.length ≤ n :=
    Nat.le_trans grown.le_length beyond
  refine ⟨grown.trans (comes.grown.weaken fun n touched => ?_), comes.openings.trans openings,
    stage, ?_, fun n has => ?_, fun n call same => ?_⟩
  · exact touched.elim (fewer n) fun beyond => .inr (new n beyond)
  · rw [staged]
    unfold setVisit
    rw [visits]
  · exact (holds n has).elim (fewer n) fun beyond => .inr (new n beyond)
  · exact (greeting n call same).elim (fewerGreets n) fun beyond => .inr (new n beyond)

/-- Something is written to the log after, which no visit and no session hears of. -/
theorem concluded (comes : Comes number mine greets w v) (label : String) (finding : Finding) :
    Comes number mine greets w (v.conclude label finding) :=
  ⟨comes.grown.trans (.of_eq rfl rfl rfl rfl), comes.openings, comes.visits⟩

/-- A visit that ends has nothing afterwards, so that nothing is to be asked of what it may take. -/
theorem endVisit (visit : Visit) (outcome : Outcome) :
    Comes number mine greets w (w.endVisit number visit outcome) :=
  (of_stage (fun _ => False.elim) nofun).concluded ..

/-- An operation of a session that the visitor has. It touches that session only, and makes no other. -/
theorem during {α : Type} (run : Hosted → α × Hosted)
    (each : ∀ h, Hosted.Course Session.Later h (run h).2) (quiet : w.host.armed = []) (default : α)
    (here : mine n) (comes : Comes number mine greets (w.within n default run).2 u) :
    Comes number mine greets w u := by
  have course := within_course run each quiet n default
  refine comes.before (within_grown run each quiet (.inl here) default) course.openings
    course.visits (fun _ => .inl) (fun _ => .inl)

/-- The visitor has the connection, or is done with it, and its session is disposed. A loan plays no part in
it where each root has a session for itself. -/
theorem enter (single : w.isMultiRoot = false) (quiet : w.host.armed = []) (here : mine n)
    (visit : Visit) (loan : Option Loan) :
    Comes number mine greets w (w.enter number visit n loan) := by
  unfold World.enter
  split
  · exact of_stage (fun m same => same ▸ here) nofun
  next outcome _ =>
    unfold leave
    rw [if_neg (by exact Bool.eq_false_iff.mp single)]
    exact during (fun h => ((), h.dispose)) dispose_later quiet () here (endVisit visit outcome)

/-- The server of a visit's own session may have answered. The visit waits on, or the visitor has the
connection, or the session is disposed and the visit ends. -/
theorem awaitOwnGreeting (single : w.isMultiRoot = false) (quiet : w.host.armed = []) (here : mine n)
    (greeting : greets n) (visit : Visit) (call : Nat) :
    Comes number mine greets w (w.awaitOwnGreeting number visit n call) := by
  unfold World.awaitOwnGreeting
  split
  · refine of_stage (fun m same => same ▸ here) fun m call same => ?_
    cases same
    exact greeting
  next outcome _ =>
    have course : Course Session.Later w (w.welcome n outcome).2 :=
      within_course _ (welcome_later w.options outcome) quiet n (some .connectionClosed)
    refine during _ (welcome_later w.options outcome) quiet (some .connectionClosed) here ?_
    change Comes number mine greets (w.welcome n outcome).2 _
    split
    next u welcomed =>
      rw [welcomed] at course ⊢
      have single : u.isMultiRoot = false :=
        (congrArg (·.config.isMultiRoot) course.options).trans single
      exact enter single (course.calm quiet) here visit none
    next failure u failed =>
      rw [failed]
      exact endVisit visit _

/-- A visit waits for a connection of its own. Once that is there a new session is attached, which nobody
but this visit can have. -/
theorem awaitOwnConnection (single : w.isMultiRoot = false) (quiet : w.host.armed = [])
    (visit : Visit) : Comes number mine greets w (w.awaitOwnConnection number visit) := by
  have asked {u : World} (connector : Connector) (comes : Comes number mine greets { w with connector } u) :
      Comes number mine greets w u :=
    before (v := { w with connector }) (.of_eq rfl rfl rfl rfl) rfl rfl comes (fun _ => .inl)
      (fun _ => .inl)
  unfold World.awaitOwnConnection
  obtain ⟨connector, later⟩ | ⟨failure, connector, refused⟩ | ⟨v, session, attached⟩ :=
    w.connect_cases (.visit number) (some visit.root)
  · rw [later]
    exact asked connector (of_stage (fun _ => False.elim) nofun)
  · rw [refused]
    exact asked connector (endVisit visit _)
  · rw [session]
    have growth := attached.growth (R := Session.Later)
    have calm := growth.calm quiet
    have single : v.isMultiRoot = false :=
      (congrArg (·.config.isMultiRoot) growth.options).trans single
    have new (n : Nat) (same : n = w.sessions.length) : mine n ∨ w.sessions.length ≤ n :=
      .inr (Nat.le_of_eq same.symm)
    have newGreets (n : Nat) (same : n = w.sessions.length) : greets n ∨ w.sessions.length ≤ n :=
      .inr (Nat.le_of_eq same.symm)
    -- the new session is the visit's own, and the server that it greets is that session's
    refine before (.of_attached attached) growth.openings growth.visits ?_ new newGreets
    have course : Course Session.Later v (v.greet w.sessions.length none).2 :=
      within_course _ (greet_later v.options none) calm _ (.error .connectionClosed)
    refine during (n := w.sessions.length) _ (greet_later v.options none) calm
      (.error .connectionClosed) rfl ?_
    change Comes number _ _ (v.greet w.sessions.length none).2 _
    dsimp only
    split
    next failure u failed =>
      rw [failed]
      exact endVisit visit _
    next call u greeted =>
      rw [greeted] at course ⊢
      have single : u.isMultiRoot = false :=
        (congrArg (·.config.isMultiRoot) course.options).trans single
      exact awaitOwnGreeting single (course.calm calm) (by exact rfl) (by exact rfl) visit call

/-- A visit that opens a session for itself asks for a connection first, and waits for it from then on. -/
theorem openOwn (single : w.isMultiRoot = false) (quiet : w.host.armed = []) (visit : Visit) :
    Comes number mine greets w (w.openOwn number visit) := by
  have asked : Comes number mine greets w.askConnection (w.openOwn number visit) :=
    awaitOwnConnection (by exact single) (by exact quiet) visit
  exact before (v := w.askConnection) (.of_eq rfl rfl rfl rfl) rfl rfl asked (fun _ => .inl)
    (fun _ => .inl)

end Comes

end World

end LanguageClient
