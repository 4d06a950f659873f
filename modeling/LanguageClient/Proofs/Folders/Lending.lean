import LanguageClient.Proofs.Folders.Startup

/-!
# What the server knows of a visited root

A visitor of the shared session borrows the root that it visits, unless that was announced when the
visit began. What is borrowed stays known to the server until it is given back. What was announced is
not borrowed, and when the host drops it the next look withdraws it, even if somebody visits it.

`run_visited` says at which points the server knows of a visited root: what comes before a message in
the pipe tells it of the root exactly if a visitor has borrowed it, or the host had it at the last look,
or the server was greeted with it and it was never noticed since. So a visitor with a loan is served
until it is done (`World.LoansFit`: the loan is of the root that is visited), and one without a loan as
long as the host keeps the root, from the first look on. `run_visited_withdrawn` is a visit that is not.
-/

namespace LanguageClient

namespace World

variable {w v : World}

/-! ## Loans -/

/-- Whether a visit at that stage has a loan of that root, if it has one. -/
def LoanFits (root : Url) (stage : VisitStage) : Prop :=
  ∀ n loan, stage = .running n (some loan) → loan.root = root

/-- Whether every loan is of the root that is visited. -/
def LoansFit (w : World) : Prop := ∀ visit ∈ w.visits, LoanFits visit.root visit.stage

namespace LoansFit

/-- Whether the loans fit is a matter of the visits alone. -/
theorem of_visits (fit : w.LoansFit) (visits : v.visits = w.visits) : v.LoansFit := by
  intro visit member
  exact fit visit (visits ▸ member)

/-- Who does not visit has no loan, so where all visits are over the loans fit. -/
theorem of_idle (idle : ∀ visit ∈ w.visits, visit.stage = .over) : w.LoansFit := by
  intro visit member n loan stage
  rw [idle visit member] at stage
  cases stage

/-- One visit is changed, and its loan fits then. -/
theorem modify (fit : w.LoansFit) {number : Nat} {change : Visit → Visit}
    (visits : v.visits = w.visits.modify number change)
    (fits : ∀ visit, w.visits[number]? = some visit →
      LoanFits (change visit).root (change visit).stage) : v.LoansFit := by
  intro visit member
  rw [visits] at member
  obtain before | ⟨old, found, rfl⟩ := mem_modify member
  · exact fit visit before
  · exact fits old found

/-- A visit is changed, but neither its root nor its stage, as when it is dropped or judged. -/
theorem modify_same (fit : w.LoansFit) {number : Nat} {change : Visit → Visit}
    (visits : v.visits = w.visits.modify number change)
    (same : ∀ visit, (change visit).root = visit.root ∧ (change visit).stage = visit.stage) :
    v.LoansFit := by
  refine fit.modify visits ?_
  intro visit found
  rw [(same visit).1, (same visit).2]
  exact fit visit (List.mem_of_getElem? found)

/-- A visit goes on to a stage without a loan, which fits whatever root it visits. -/
theorem setVisit (fit : w.LoansFit) {number : Nat} {stage : VisitStage}
    (free : ∀ root, LoanFits root stage) : (w.setVisit number stage).LoansFit :=
  fit.modify rfl fun visit _ => free visit.root

/-- A visit that is over has no loan, whatever its root was. -/
theorem loanFits_over (root : Url) : LoanFits root .over := by
  intro n loan stage
  cases stage

/-- A visit that ends leaves the loans of the others as they are, and has none itself afterwards, whichever
way it ends. -/
theorem dropVisit (fit : w.LoansFit) (number : Nat) (visit : Visit) :
    (w.dropVisit number visit).LoansFit := by
  unfold World.dropVisit
  dsimp only
  refine setVisit ?_ loanFits_over
  split
  next session loan _ =>
    unfold giveBack
    split
    · exact fit
    · exact fit.of_visits rfl
  next => exact fit

/-- A step of a visit lends the visited root, if it lends one. That is all that a loan can be of, since the
folders lend what they are asked for. -/
theorem visiting {number : Nat} (visiting : Visiting number w v) (fit : w.LoansFit) :
    v.LoansFit := by
  induction visiting with
  | waits _ course => exact fit.of_visits course.visits
  | @begins w v visit n s loan folders connection found stage wanted shares lent rest ih =>
    refine ih (fit.modify rfl ?_)
    intro other found' m given same
    cases found.symm.trans found'
    cases same
    obtain ⟨-, none, -⟩ | ⟨-, folder, -, some_, -⟩ := Folders.lend_cases lent
    · cases none
    · cases some_
      rfl
  | @ends w v visit found _ course => exact (fit.dropVisit number visit).of_visits course.visits

/-- Looks at the roots change no visit, by induction on the looks; each of them changes the folders, the
shared session and what was looked at. -/
theorem looking (looking : Looking w v) (sharing : w.Sharing) (fit : w.LoansFit) : v.LoansFit := by
  induction looking with
  | done => exact fit
  | @look w v changes following rest ih =>
    refine ih (sharing.looked following changes) (fit.of_visits ?_)
    obtain ⟨n, s, shares⟩ := sharing.following_shares following
    unfold World.looked
    rw [reconcile_of_shares sharing.multi shares]
    rfl
  | stop => exact fit.of_visits rfl

/-- Who follows the roots changes no visit, whether a look is made or the following stops. -/
theorem pollReconciler (fit : w.LoansFit) (sharing : w.Sharing) : w.pollReconciler.LoansFit := by
  obtain ⟨-, same | ⟨-, -, same⟩⟩ | ⟨-, following, changes, looks⟩ := pollReconciler_cases sharing
  · rw [same]
    exact fit
  · rw [same]
    exact fit.of_visits rfl
  · exact looking (.look changes following looks) sharing fit

/-- Whoever waits for the answer to the greeting has no loan to mind: of the changes that the answer brings
none concerns a visit. -/
theorem awaitSharedGreeting {n call : Nat} (unarmed : w.host.armed = []) (fit : w.LoansFit) :
    (w.awaitSharedGreeting n call).LoansFit := by
  obtain same | ⟨u, course, same | ⟨failure, same⟩⟩ := awaitSharedGreeting_cases unarmed n call
  · rw [same]
    exact fit.of_visits rfl
  · rw [same]
    exact fit.of_visits course.visits
  · rw [same]
    exact fit.of_visits course.visits

/-- Registering keeps the loans to the roots that are visited. Nobody visits a client that is being
registered, so that there is none to mind but in a world that is left as it was. -/
theorem registering (registering : Registering w v) (sharing : w.Sharing) (fit : w.LoansFit) :
    v.LoansFit := by
  cases registering with
  | rests _ sharing alone _ =>
    refine of_idle (sharing.idle ?_)
    intro running
    have shared := (sharing.running running).1
    rw [alone] at shared
    cases shared
  | stays => exact fit
  | ends => exact fit.of_visits rfl
  | @greets u t g folders call early before phase apart attached named greeted =>
    have idle := before.idle (by rw [phase]; exact Phase.noConfusion)
    have growth := attached.growth (R := Session.Later)
    have course := greet_course (w := { t with shared := some u.sessions.length })
      (growth.calm before.unarmed) u.sessions.length (some folders)
    rw [greeted] at course
    refine awaitSharedGreeting (course.calm (growth.calm before.unarmed)) (of_idle ?_)
    intro visit member
    exact idle visit (growth.visits ▸ course.visits ▸ member)
  | awaits => exact awaitSharedGreeting sharing.unarmed fit

/-- The end of the client changes no visit; a client that somebody visits is not ended. -/
theorem shutdown (fit : w.LoansFit) (sharing : w.Sharing) : w.shutdownIfPossible.LoansFit := by
  obtain same | ⟨-, -, same⟩ := w.shutdownIfPossible_cases
  · rw [same]
    exact fit
  · rw [same]
    exact fit.of_visits sharing.endClient_course.visits

/-- A sweep changes no visit. -/
theorem sweep (fit : w.LoansFit) : w.sweep.LoansFit := by
  refine fit.of_visits (w.sweep_swept.visits.trans ?_)
  unfold releaseEntries
  split <;> rfl

/-- A visit that begins has no loan. -/
theorem visit (fit : w.LoansFit) (label : String) (root : Url) :
    ((w.visit label root).getD w).LoansFit := by
  unfold World.visit
  split
  · exact fit
  · intro visit member n loan stage
    obtain before | new := List.mem_append.mp member
    · exact fit visit before n loan stage
    · cases List.mem_singleton.mp new
      cases stage

/-- A user who drops a visit leaves its stage as it is, and so its loan; the visit ends at its next step. -/
theorem drop (fit : w.LoansFit) (label : String) : (w.drop label).LoansFit := by
  have visited : (w.dropLastVisit label).LoansFit := by
    unfold dropLastVisit
    split
    · exact fit.modify_same rfl fun _ => ⟨rfl, rfl⟩
    · exact fit
  have requested : ((w.dropLastVisit label).dropLastRequest label).LoansFit :=
    visited.of_visits (dropLastRequest_course (R := Session.Later) _ label).visits
  rw [drop_eq]
  unfold dropRegistering
  split
  · exact requested
  · exact requested
  · exact requested
  · split
    · exact requested.of_visits rfl
    · exact requested

/-- Every tactful move keeps the loans to the roots that are visited. Only a step of a visit makes or ends
one, and the other moves leave the visits or at least their stages alone. -/
theorem after (fit : w.LoansFit) (sharing : w.Sharing) {move : Move}
    (tactful : move.isTactful = true) : (w.after move).LoansFit := by
  cases minor : move.isMinor with
  | true => exact fit.of_visits (after_course sharing.unarmed w.asks_later minor).visits
  | false =>
    cases move with
    | poll task =>
      cases task with
      | opening number =>
        have same : w.after (.poll (.opening number)) = w := sharing.pollOpening ..
        rw [same]
        exact fit
      | reconciler => exact fit.pollReconciler sharing
      | register => exact registering (pollRegister_registering sharing) sharing fit
      | visit number => exact visiting (pollVisit_visiting sharing number) fit
      | _ => cases minor
    | sweep => exact fit.sweep
    | roots roots => exact fit.of_visits rfl
    | endStreams => exact fit.of_visits rfl
    | register label =>
      show (w.registerOnce label).LoansFit
      unfold registerOnce
      split
      · exact fit.of_visits rfl
      · exact fit
    | shutdown => exact fit.shutdown sharing
    | visit label root => exact fit.visit label root
    | verdict number outcome =>
      show (w.judge number outcome).LoansFit
      unfold judge
      split
      · exact fit.modify_same rfl fun _ => ⟨rfl, rfl⟩
      · exact fit
    | request label n purpose => exact fit.of_visits rfl
    | notify n method params =>
      exact fit.of_visits (notifyIfPossible_course (R := Session.Later)
        (fun sent => .of_connection (Connection.send_later sent)) w n params).visits
    | drop label => exact fit.drop label
    | stopReading n => exact fit.of_visits (stopReading_course w n).visits
    | arm => cases tactful
    | _ => cases minor

end LoansFit

/-- In every run of a client of several roots each loan is of the root that is visited. It goes by induction
on the moves, together with what is shared. -/
theorem run_loansFit {options : ClientOptions} (multi : options.config.isMultiRoot = true)
    {moves : List Move} (tactful : ∀ move ∈ moves, move.isTactful = true) :
    ((start options).run moves).LoansFit := by
  have both : Sharing ((start options).run moves) ∧ ((start options).run moves).LoansFit :=
    run_induction (fun w => w.Sharing ∧ w.LoansFit)
      (fun _ _ tactful kept => ⟨kept.1.after tactful, kept.2.after kept.1 tactful⟩) tactful
      ⟨start_sharing multi, LoansFit.of_idle nofun⟩
  exact both.2

/-! ## Messages to the server of a visited root -/

/-- Whether a move puts a message into the pipe to a server that can be told something, after these. -/
def Puts (w : World) (n : Nat) (move : Move) (earlier : List Message) (message : Message) : Prop :=
  ∃ s t, w.sessions[n]? = some s ∧ s.connection.isOpen = true ∧
    s.connection.outgoing.waiting = earlier ∧ (w.after move).sessions[n]? = some t ∧
      t.connection.outgoing.waiting = earlier ++ [message]

/-- Whether messages, as far as they are about folders, are the wording of a history. -/
def Tell (rewriter : Rewriter) (messages : List Message) (history : List Telling) : Prop :=
  List.Forall₂ (Telling.Says rewriter) history (messages.filter Message.isNews)

/-- Whether some visitor has borrowed a root. -/
def IsBorrowed (w : World) (root : Url) : Prop :=
  ∃ visit ∈ w.visits, visit.stage.borrows root = true

/-- What is lent is what somebody has borrowed, since the borrowers of each root are counted and a root is
lent just if that count is not zero. -/
theorem Sharing.isLent_iff (sharing : w.Sharing) (root : Url) :
    w.folders.isLent root = true ↔ w.IsBorrowed root := by
  rw [sharing.positive, sharing.counted, borrowings, Nat.ne_zero_iff_zero_lt, List.countP_pos_iff]
  rfl

/-- Whenever a message is sent on a connection that a visitor has, what was sent before tells the server
of the visited root if and only if some visitor has borrowed it, the host had it at the last look, or
the server was greeted with it and it was never noticed. A visitor with a loan has borrowed it. -/
theorem run_visited {options : ClientOptions} (multi : options.config.isMultiRoot = true)
    {moves : List Move} (tactful : ∀ move ∈ moves, move.isTactful = true)
    (names : ∀ move ∈ moves, move.Names options.rewriter)
    (reached : (start options).run moves = w) {number n : Nat} {visit : Visit} {loan : Option Loan}
    (found : w.visits[number]? = some visit) (stage : visit.stage = .running n loan)
    {move : Move} {earlier : List Message} {message : Message}
    (puts : w.Puts n move earlier message) :
    ∃ greeted later, Tell options.rewriter earlier (.greeting greeted :: later) ∧
      (visit.root ∈ Telling.known (.greeting greeted :: later) ↔
        w.IsBorrowed visit.root ∨ visit.root ∈ w.before ∨
          visit.root ∈ greeted ∧ visit.root ∉ (start options).noticed moves) ∧
      (loan.isSome = true → visit.root ∈ Telling.known (.greeting greeted :: later)) := by
  have sharing : w.Sharing := reached ▸ run_sharing multi tactful
  have fit : w.LoansFit := reached ▸ run_loansFit multi tactful
  have member := List.mem_of_getElem? found
  have begun : Accounted options.rewriter ∅ (start options) :=
    ⟨rfl, nofun, fun _ => rfl, fun shared => absurd rfl shared⟩
  have accounted := Accounted.run tactful names begun (start_sharing multi)
  rw [reached, Set.empty_union] at accounted
  obtain ⟨s, t, at_n, opened, rfl, -, -⟩ := puts
  have welcome := sharing.visits visit member
  rw [stage] at welcome
  have shared : w.shared ≠ none := by
    rw [welcome.1]
    exact Option.some_ne_none n
  obtain ⟨greeted, later, ledger⟩ := accounted.ledger shared
  obtain ⟨said, known⟩ := ledger.books n s ⟨welcome.1, at_n⟩ opened
  have exact_ : visit.root ∈ Telling.known (.greeting greeted :: later) ↔
      w.IsBorrowed visit.root ∨ visit.root ∈ w.before ∨
        visit.root ∈ greeted ∧ visit.root ∉ (start options).noticed moves := by
    rw [known, sharing.isLent_iff]
    exact or_left_comm
  refine ⟨greeted, later, said, exact_, fun lent => exact_.mpr (.inl ?_)⟩
  obtain ⟨given, rfl⟩ := Option.isSome_iff_exists.mp lent
  refine ⟨visit, member, ?_⟩
  rw [stage, ← fit visit member n given stage]
  exact decide_eq_true rfl

/-- Somebody visits a root that the host does not have. -/
def Sample.lodging : List Move :=
  Sample.greeted ++ Sample.answered ++ [.visit "guest" Sample.there, .poll (.visit 0)]

/-- The visitor's message comes after the announcement of its root: a run that meets all that is asked for,
in which the root is known by a loan alone. -/
theorem run_visited_lodging : ∃ earlier message,
    ((start Sample.options).run Sample.lodging).Puts 0 (.notify 0 "x/y" .null) earlier message ∧
      ∃ greeted later, Tell Sample.options.rewriter earlier (.greeting greeted :: later) ∧
        Sample.there ∈ Telling.known (.greeting greeted :: later) := by
  have multi : Sample.options.config.isMultiRoot = true := rfl
  have tactful : ∀ move ∈ Sample.lodging, move.isTactful = true := by decide
  have names : ∀ move ∈ Sample.lodging, move.Names Sample.options.rewriter := by decide
  have reached : (start Sample.options).run Sample.lodging =
    (start Sample.options).run Sample.lodging := rfl
  have puts : ((start Sample.options).run Sample.lodging).Puts 0 (.notify 0 "x/y" .null) _
    (.notification (.make "x/y" (some .null))) := ⟨_, _, rfl, by decide, rfl, rfl, rfl⟩
  have found : ((start Sample.options).run Sample.lodging).visits[0]? = some _ := rfl
  obtain ⟨greeted, later, told, -, served⟩ :=
    run_visited multi tactful names reached found rfl puts
  exact ⟨_, _, puts, greeted, later, told, served rfl⟩

/-- Somebody visits a root of the host, which the host then drops. -/
def Sample.evicted : List Move :=
  [.roots [Sample.here]] ++ Sample.greeted ++ Sample.answered ++
    [.visit "guest" Sample.here, .poll (.visit 0), .roots [], .poll .reconciler]

/-- A visitor's message comes after its root was withdrawn. -/
theorem run_visited_withdrawn :
    let w := (start Sample.options).run Sample.evicted
    (∀ move ∈ Sample.evicted, move.isTactful = true) ∧
      (∀ move ∈ Sample.evicted, move.Names Sample.options.rewriter) ∧
      w.visits.map (fun visit => (visit.root, visit.stage)) = [(Sample.here, .running 0 none)] ∧
      ∃ earlier message, w.Puts 0 (.notify 0 "x/y" .null) earlier message ∧
        ∃ history, Tell Sample.options.rewriter earlier history ∧
          Sample.here ∉ Telling.known history := by
  refine ⟨by decide, by decide, by decide, _, .notification (.make "x/y" (some .null)),
    ⟨_, _, rfl, by decide, rfl, rfl, rfl⟩,
    [.greeting [Sample.here], .change ⟨[Sample.here], []⟩, .change ⟨[], [Sample.here]⟩], ?_, ?_⟩
  · exact .cons ⟨_, _, _, _, rfl, rfl⟩ (.cons ⟨_, rfl, rfl⟩ (.cons ⟨_, rfl, rfl⟩ .nil))
  · rintro (⟨-, kept⟩ | added)
    · exact kept List.mem_cons_self
    · cases added

end World

end LanguageClient
