import LanguageClient.Proofs.Folders.Look
import LanguageClient.Proofs.World.Course
import LanguageClient.Proofs.World.Visits

/-!
# Sharing one session

What is true of a client of several roots at any time. `World.Sharing` fixes, phase by phase, which
session is shared, how the roots that were last looked at stand to those that were announced, and who
borrows what: the borrowers that are counted for a root are the visits that have a loan of it.

It is preserved by every move by which the client itself tells its server of the roots, and by which
its users end it. A host that ends the client from inside a callback is not considered.
-/

namespace LanguageClient

/-! ## Visits -/

/-- Whether somebody at this stage borrows the root. -/
def VisitStage.borrows (stage : VisitStage) (root : Url) : Bool :=
  match stage with
  | .running _ (some loan) => loan.root = root
  | _ => false

/-! ## Phases -/

/-- Whether the server of all roots is reached or greeted at the moment. -/
def Phase.IsUnderway : Phase → Prop
  | .connecting | .greeting _ _ => True
  | _ => False

namespace World

variable {w v : World}

/-- How many visits borrow a root. -/
def borrowings (w : World) (root : Url) : Nat := w.visits.countP (·.stage.borrows root)

/-- Whether a visit can be at this stage where one session serves all roots. -/
def Welcomes (w : World) : VisitStage → Prop
  | .unstarted | .over => True
  | .running session loan =>
    w.shared = some session ∧ ∀ l ∈ loan, w.options.rewriter.folder l.root = .ok l.folder
  | _ => False

/-- What is true of a client of several roots. -/
structure Sharing (w : World) : Prop where
  multi : w.isMultiRoot = true
  unarmed : w.host.armed = []
  asks : w.AsksNoGreeting
  untracked : w.entries = []
  unopened : w.openings = []
  present : ∀ n, w.shared = some n → ∃ s, w.sessions[n]? = some s ∧ s.isReleased = false
  visits : ∀ visit ∈ w.visits, w.Welcomes visit.stage
  idle : w.phase ≠ .running → ∀ visit ∈ w.visits, visit.stage = .over
  /-- The borrowers of a root are counted. -/
  counted : ∀ root, w.folders.borrowers root = w.borrowings root
  /-- A root that is lent has borrowers. -/
  positive : ∀ root, w.folders.isLent root = true ↔ w.folders.borrowers root ≠ 0
  running : w.phase = .running → w.shared.isSome = true ∧ w.following ≠ .absent
  greeting : ∀ n call, w.phase = .greeting n call → w.shared = some n
  unready : w.phase ≠ .running → w.phase ≠ .over → w.following = .absent
  unjoined : ∀ openings, w.phase ≠ .joining openings
  early : w.phase = .absent ∨ w.phase = .starting ∨ w.phase = .connecting → w.shared = none
  ended : w.phase = .over → w.shared = none
  followed : w.following = .fresh ∨ w.following = .ongoing → w.phase = .running
  /-- Before the first look nothing counts as looked at, and what is lent was not announced. -/
  fresh : w.following = .fresh →
    w.before = [] ∧ ∀ root, w.folders.isLent root = true → root ∉ w.folders.announced
  /-- After it, what was last looked at was announced. -/
  ongoing : w.phase = .running → w.following ≠ .fresh → w.before = w.folders.announced
  /-- The roots are followed as long as the host tells of changes. -/
  stopped : w.phase = .running → w.following = .over → w.changes.hasEnded = true
  /-- If no change waits, the host has the roots that were last looked at. -/
  caughtUp : w.following = .ongoing → w.changes = ⟨0, false⟩ → w.before = w.host.roots
  /-- Until the client is there, it has those with which the server is greeted. -/
  unchanged : w.phase.IsUnderway → w.changes = ⟨0, false⟩ → w.before = w.host.roots
  /-- Before the first look, it has those that were announced. -/
  current : w.following = .fresh → w.changes = ⟨0, false⟩ → w.folders.announced = w.host.roots

/-- A client of several roots at its start: it is not registered, so that there is nobody who could visit or
follow, and nothing is announced or lent. -/
theorem start_sharing {options : ClientOptions} (multi : options.config.isMultiRoot = true) :
    (start options).Sharing where
  multi := multi
  unarmed := rfl
  asks _ member := absurd member List.not_mem_nil
  untracked := rfl
  unopened := rfl
  present _ shared := nomatch shared
  visits _ member := absurd member List.not_mem_nil
  idle _ _ member := absurd member List.not_mem_nil
  counted _ := rfl
  positive root := by simp [start, Folders.empty, Folders.isLent, Folders.borrowers]
  running started := nomatch started
  greeting _ _ started := nomatch started
  unready _ _ := rfl
  unjoined _ := nofun
  early _ := rfl
  ended _ := rfl
  followed following := by cases following <;> contradiction
  fresh following := nomatch following
  ongoing started := nomatch started
  stopped started := nomatch started
  caughtUp following := nomatch following
  unchanged := nofun
  current following := nomatch following

namespace Sharing

/-- The session that is shared is there, and nobody has released it. -/
theorem shares (sharing : w.Sharing) {n : Nat} (shared : w.shared = some n) :
    ∃ s, w.Shares n s ∧ s.isReleased = false := by
  obtain ⟨s, found, held⟩ := sharing.present n shared
  exact ⟨s, ⟨shared, found⟩, held⟩

/-- What was looked at was announced, as long as the client runs: each look announces the roots that it
sees. -/
theorem behind (sharing : w.Sharing) (running : w.phase = .running) {root : Url}
    (looked : root ∈ w.before) : root ∈ w.folders.announced := by
  by_cases following : w.following = .fresh
  · rw [(sharing.fresh following).1] at looked
    cases looked
  · rw [← sharing.ongoing running following]
    exact looked

/-- Nothing is lent while nobody visits, since the borrowers that are counted for a root are visits. -/
theorem unlent (sharing : w.Sharing) (idle : ∀ visit ∈ w.visits, visit.stage = .over)
    (root : Url) : w.folders.isLent root = false := by
  have nobody : w.borrowings root = 0 := by
    refine List.countP_eq_zero.mpr fun visit member => ?_
    rw [idle visit member]
    exact Bool.false_ne_true
  refine Bool.eq_false_iff.mpr fun lent => ?_
  exact (sharing.positive root).mp lent ((sharing.counted root).trans nobody)

/-- A root that is lent was announced just if it was looked at. Before the first look nothing was looked at,
but what is lent then was not announced either. -/
theorem level (sharing : w.Sharing) (running : w.phase = .running) {root : Url}
    (lent : w.folders.isLent root = true) : root ∈ w.before ↔ root ∈ w.folders.announced := by
  by_cases following : w.following = .fresh
  · obtain ⟨none, apart⟩ := sharing.fresh following
    rw [none]
    exact ⟨nofun, fun announced => absurd announced (apart root lent)⟩
  · rw [sharing.ongoing running following]

/-- What concerns neither the roots nor who has which session, and leaves the shared one where it is,
leaves all as it is. -/
theorem of_grown (sharing : w.Sharing) {R : Session → Session → Prop} (growth : Growth R w v)
    (present : ∀ n, w.shared = some n → ∃ s, v.sessions[n]? = some s ∧ s.isReleased = false) :
    v.Sharing where
  multi := by
    unfold isMultiRoot
    rw [growth.options]
    exact sharing.multi
  unarmed := growth.calm sharing.unarmed
  asks := growth.asksNoGreeting sharing.asks
  untracked := growth.entries.trans sharing.untracked
  unopened := growth.openings.trans sharing.unopened
  present := by rw [growth.shared]; exact present
  visits visit member := by
    have welcome := sharing.visits visit (growth.visits ▸ member)
    unfold Welcomes at welcome ⊢
    rw [growth.shared, growth.options]
    exact welcome
  idle phase visit member := by
    rw [growth.phase] at phase
    exact sharing.idle phase visit (growth.visits ▸ member)
  counted root := by
    unfold borrowings
    rw [growth.folders, growth.visits]
    exact sharing.counted root
  positive root := by rw [growth.folders]; exact sharing.positive root
  running := by rw [growth.phase, growth.shared, growth.following]; exact sharing.running
  greeting := by rw [growth.phase, growth.shared]; exact sharing.greeting
  unready := by rw [growth.phase, growth.following]; exact sharing.unready
  unjoined := by rw [growth.phase]; exact sharing.unjoined
  early := by rw [growth.phase, growth.shared]; exact sharing.early
  ended := by rw [growth.phase, growth.shared]; exact sharing.ended
  followed := by rw [growth.phase, growth.following]; exact sharing.followed
  fresh := by rw [growth.following, growth.before, growth.folders]; exact sharing.fresh
  ongoing := by
    rw [growth.phase, growth.following, growth.before, growth.folders]
    exact sharing.ongoing
  stopped := by
    rw [growth.phase, growth.following, growth.changes]
    exact sharing.stopped
  caughtUp := by
    rw [growth.following, growth.changes, growth.before, growth.roots]
    exact sharing.caughtUp
  unchanged := by
    rw [growth.phase, growth.changes, growth.before, growth.roots]
    exact sharing.unchanged
  current := by
    rw [growth.following, growth.changes, growth.folders, growth.roots]
    exact sharing.current

/-- What lets the sessions go on, each at a later time, leaves all as it is: a session that was not released
is not released by that. -/
theorem of_growth (sharing : w.Sharing) (growth : Growth Session.Later w v) : v.Sharing := by
  refine sharing.of_grown growth fun n shared => ?_
  obtain ⟨s, found, held⟩ := sharing.present n shared
  obtain ⟨t, found, later⟩ := growth.session found
  exact ⟨t, found, later.released.trans held⟩

/-- What goes along the course of the world leaves all as it is, since that is a growth by which nothing is
asked of the host. -/
theorem of_course (sharing : w.Sharing) (course : Course Session.Later w v) : v.Sharing :=
  sharing.of_growth course.toGrowth

end Sharing

/-! ## Visits to the shared session -/

/-- An entry that was changed counts as it is then. The counts before and after are compared by a sum on
either side, as there is no subtraction to be had. -/
theorem countP_modify {α : Type} {entries : List α} {number : Nat} {entry : α}
    (found : entries[number]? = some entry) (counts : α → Bool) (change : α → α) :
    (entries.modify number change).countP counts + (if counts entry then 1 else 0) =
      entries.countP counts + if counts (change entry) then 1 else 0 := by
  obtain ⟨inside, at_number⟩ := List.getElem?_eq_some_iff.mp found
  obtain ⟨front, changed, back, split, length, result⟩ := List.exists_of_modify change inside
  have same : changed = entry := by
    rw [← at_number]
    simp only [split, ← length, List.getElem_append_right (Nat.le_refl _), Nat.sub_self,
      List.getElem_cons_zero]
  subst same
  rw [result, split]
  simp only [List.countP_append, List.countP_cons]
  omega

namespace Sharing

/-- Changes of visits that leave their stages alone leave all as it is: whether a visit is welcome, over or
a borrower is a matter of its stage. -/
theorem of_stages (sharing : w.Sharing) {visits : List Visit}
    (stages : visits.map Visit.stage = w.visits.map Visit.stage) :
    Sharing { w with visits } := by
  have staged (visit : Visit) (member : visit ∈ visits) :
      ∃ old ∈ w.visits, visit.stage = old.stage := by
    have mapped : visit.stage ∈ w.visits.map Visit.stage := stages ▸ List.mem_map_of_mem member
    obtain ⟨old, inside, same⟩ := List.mem_map.mp mapped
    exact ⟨old, inside, same.symm⟩
  refine { sharing with visits := ?_, idle := ?_, counted := ?_ }
  · intro visit member
    obtain ⟨old, inside, same⟩ := staged visit member
    rw [same]
    exact sharing.visits old inside
  · intro phase visit member
    obtain ⟨old, inside, same⟩ := staged visit member
    exact same.trans (sharing.idle phase old inside)
  · intro root
    have count (list : List Visit) : list.countP (·.stage.borrows root) =
        (list.map Visit.stage).countP (·.borrows root) := by rw [List.countP_map]; rfl
    rw [sharing.counted root, borrowings, borrowings, count, count, stages]

/-- A visit that is changed, but not its stage, leaves all as it is. -/
theorem modify_visits (sharing : w.Sharing) (number : Nat) (change : Visit → Visit)
    (staged : ∀ visit, (change visit).stage = visit.stage) :
    Sharing { w with visits := w.visits.modify number change } := by
  refine sharing.of_stages (List.ext_getElem? fun place => ?_)
  simp only [List.getElem?_map, List.getElem?_modify]
  by_cases here : number = place
  · cases w.visits[place]? <;> simp [here, staged]
  · simp [here]

/-- Somebody visits only while the client runs, since all visits are over as long as it does not. -/
theorem awake (sharing : w.Sharing) {number : Nat} {visit : Visit}
    (found : w.visits[number]? = some visit) (underway : visit.stage ≠ .over) :
    w.phase = .running := by
  by_contra idle
  exact underway (sharing.idle idle visit (List.mem_of_getElem? found))

/-- A visit goes on while the folders are changed so that its loans stay counted: for each root the count
and what this visit borrows are exchanged against one another. -/
theorem exchange (sharing : w.Sharing) (folders : Folders) {number : Nat} {visit : Visit}
    {stage : VisitStage} (found : w.visits[number]? = some visit) (awake : w.phase = .running)
    (welcome : w.Welcomes stage) (announced : folders.announced = w.folders.announced)
    (borrowers : ∀ root, folders.borrowers root + (if visit.stage.borrows root then 1 else 0) =
      w.folders.borrowers root + if stage.borrows root then 1 else 0)
    (positive : ∀ root, folders.isLent root = true ↔ folders.borrowers root ≠ 0)
    (fresh : w.following = .fresh →
      ∀ root, folders.isLent root = true → root ∉ folders.announced) :
    Sharing (setVisit { w with folders } number stage) := by
  refine { sharing with
    visits := ?_, idle := ?_, counted := ?_, positive := positive, fresh := ?_, ongoing := ?_,
    current := fun following quiet => announced.trans (sharing.current following quiet) }
  · intro other member
    obtain kept | ⟨old, -, rfl⟩ := mem_modify member
    · exact sharing.visits other kept
    · exact welcome
  · exact fun idle => absurd awake idle
  · intro root
    have count := countP_modify found (·.stage.borrows root)
      (fun visit => { visit with stage := stage })
    have before := sharing.counted root
    have change := borrowers root
    simp only [borrowings, setVisit] at before ⊢
    simp only at count
    omega
  · exact fun following => ⟨(sharing.fresh following).1, fresh following⟩
  · intro running looked
    exact (sharing.ongoing running looked).trans announced.symm

/-- A visit that borrows nothing ends, and no count has to be changed for that. -/
theorem setVisit_over (sharing : w.Sharing) {number : Nat} {visit : Visit}
    (found : w.visits[number]? = some visit) (awake : w.phase = .running)
    (nothing : ∀ root, visit.stage.borrows root = false) : Sharing (w.setVisit number .over) := by
  refine sharing.exchange w.folders found awake trivial rfl ?_ sharing.positive ?_
  · intro root
    rw [nothing root]
    rfl
  · exact fun following => (sharing.fresh following).2

/-- What a visit has borrowed is lent: the visit itself is among those that are counted. -/
theorem isLent (sharing : w.Sharing) {number n : Nat} {visit : Visit} {loan : Loan}
    (found : w.visits[number]? = some visit) (stage : visit.stage = .running n (some loan)) :
    w.folders.isLent loan.root = true := by
  have borrowed : visit.stage.borrows loan.root = true := by
    rw [stage]
    exact decide_eq_true rfl
  rw [sharing.positive, sharing.counted]
  exact (List.countP_pos_iff.mpr ⟨visit, List.mem_of_getElem? found, borrowed⟩).ne'

/-- A visit gives back what it has borrowed, and ends. The count of its root and the visit go down together,
and the counts of all other roots stay. -/
theorem giveBack (sharing : w.Sharing) {number n : Nat} {visit : Visit} {loan : Loan}
    (found : w.visits[number]? = some visit) (stage : visit.stage = .running n (some loan)) :
    Sharing ((w.giveBack n loan).setVisit number .over) := by
  have welcome := sharing.visits visit (List.mem_of_getElem? found)
  have awake := sharing.awake found (by rw [stage]; exact VisitStage.noConfusion)
  rw [stage] at welcome
  obtain ⟨s, ⟨-, at_n⟩, -⟩ := sharing.shares welcome.1
  obtain ⟨given, -⟩ := w.folders.giveBack_cases s.connection loan
  have later := Session.Later.of_connection (w.folders.giveBack_later s.connection loan)
  have kept := sharing.of_course (put_course at_n later)
  have lent := sharing.isLent found stage
  have counted := (sharing.positive loan.root).mp lent
  simp only [World.giveBack, at_n]
  refine kept.exchange (w.folders.giveBack s.connection loan).1 found awake trivial
    (by rw [given]; rfl) ?_ ?_ ?_
  · intro root
    rw [given, Folders.borrowers_setBorrowers, stage]
    change _ = w.folders.borrowers root + 0
    by_cases same : root = loan.root
    · subst same
      simp only [VisitStage.borrows, if_true, decide_true]
      omega
    · simp only [VisitStage.borrows, same, if_false, decide_eq_false (Ne.symm same),
        Bool.false_eq_true]
  · intro root
    rw [given, Folders.borrowers_setBorrowers, Folders.isLent_setBorrowers]
    by_cases same : root = loan.root
    · simp only [same, if_true, decide_eq_true_eq]
    · simp only [same, if_false]
      exact sharing.positive root
  · intro following root
    rw [given, Folders.isLent_setBorrowers]
    by_cases same : root = loan.root
    · subst same
      exact fun _ => (sharing.fresh following).2 _ lent
    · rw [if_neg same]
      exact (sharing.fresh following).2 root

/-- A visit gets the shared session, and with it the loan of a root that was not announced. If it was
announced nothing is lent, and no count has to go up. -/
theorem lend (sharing : w.Sharing) {number n : Nat} {visit : Visit} {s : Session}
    {loan : Option Loan} {folders : Folders} {connection : Connection SessionHandler}
    (found : w.visits[number]? = some visit) (stage : visit.stage = .unstarted)
    (shares : w.Shares n s)
    (lent : w.folders.lend w.options.rewriter s.connection visit.root =
      .ok (loan, folders, connection)) :
    Sharing (({ w with folders }.put n { s with connection }).setVisit number
      (.running n loan)) := by
  have awake := sharing.awake found (by rw [stage]; exact VisitStage.noConfusion)
  have kept := sharing.of_course (put_course shares.2
    (Session.Later.of_connection (Folders.lend_later lent)))
  have free (root : Url) : visit.stage.borrows root = false := by rw [stage]; rfl
  -- a root that was announced is not lent, and then no count changes
  obtain ⟨known, rfl, rfl, -⟩ | ⟨unknown, folder, named, rfl, rfl, -⟩ := Folders.lend_cases lent
  · refine kept.exchange w.folders found awake ⟨shares.1, ?_⟩ rfl ?_ sharing.positive ?_
    · exact fun _ none => nomatch none
    · intro root
      rw [free root]
      rfl
    · exact fun following => (sharing.fresh following).2
  · refine kept.exchange
      (w.folders.setBorrowers visit.root (w.folders.borrowers visit.root + 1))
      found awake ⟨shares.1, ?_⟩ rfl ?_ ?_ ?_
    · rintro _ ⟨⟩
      exact named
    · intro root
      rw [free root, Folders.borrowers_setBorrowers]
      change _ = w.folders.borrowers root + if decide (visit.root = root) then 1 else 0
      by_cases same : root = visit.root
      · simp only [same, if_true, decide_true, Bool.false_eq_true, if_false, Nat.add_zero]
      · simp only [same, if_false, decide_eq_false (Ne.symm same), Bool.false_eq_true]
    · intro root
      rw [Folders.borrowers_setBorrowers, Folders.isLent_setBorrowers]
      by_cases same : root = visit.root
      · simp only [same, if_true, decide_eq_true_eq]
      · simp only [same, if_false]
        exact sharing.positive root
    · intro following root
      rw [Folders.isLent_setBorrowers]
      by_cases same : root = visit.root
      · subst same
        exact fun _ => unknown
      · rw [if_neg same]
        exact (sharing.fresh following).2 root

/-- A visit that ends gives back what it has borrowed, if anything. -/
theorem dropVisit (sharing : w.Sharing) {number : Nat} {visit : Visit}
    (found : w.visits[number]? = some visit) : Sharing (w.dropVisit number visit) := by
  have welcome := sharing.visits visit (List.mem_of_getElem? found)
  unfold World.dropVisit
  cases stage : visit.stage with
  | running n loan =>
    cases loan with
    | some loan => exact sharing.giveBack found stage
    | none =>
      have awake := sharing.awake found (by rw [stage]; exact VisitStage.noConfusion)
      exact sharing.setVisit_over found awake fun _ => by rw [stage]; rfl
  | unstarted =>
    have awake := sharing.awake found (by rw [stage]; exact VisitStage.noConfusion)
    exact sharing.setVisit_over found awake fun _ => by rw [stage]; rfl
  | «over» =>
    have same := setVisit_same found
    rw [stage] at same
    dsimp only
    rw [same]
    exact sharing
  | awaiting | connecting | greeting => rw [stage] at welcome; exact welcome.elim

end Sharing

/-- What a step of a visit to the shared session does: it waits, it gets the session and goes on, or
it ends, be it because it cannot get the session. -/
inductive Visiting (number : Nat) : World → World → Prop where
  | waits {w v : World} (begun : ∀ visit, w.visits[number]? = some visit →
        visit.isDropped = false → visit.stage ≠ .unstarted)
      (course : Course Session.Beside w v) : Visiting number w v
  | begins {w v : World} {visit : Visit} {n : Nat} {s : Session} {loan : Option Loan}
      {folders : Folders} {connection : Connection SessionHandler}
      (found : w.visits[number]? = some visit) (stage : visit.stage = .unstarted)
      (wanted : visit.isDropped = false) (shares : w.Shares n s)
      (lent : w.folders.lend w.options.rewriter s.connection visit.root =
        .ok (loan, folders, connection))
      (rest : Visiting number (({ w with folders }.put n { s with connection }).setVisit number
        (.running n loan)) v) : Visiting number w v
  | ends {w v : World} {visit : Visit} (found : w.visits[number]? = some visit)
      (refused : visit.isDropped = false → visit.stage = .unstarted → ∀ n s, w.Shares n s →
        ∃ failure, w.folders.lend w.options.rewriter s.connection visit.root = .error failure)
      (course : Course Session.Beside (w.dropVisit number visit) v) : Visiting number w v

/-- A loan is given back in the same way at whatever stage its visit is, as the stage is set anew
afterwards. -/
theorem giveBack_setVisit (w : World) (number n : Nat) (stage : VisitStage) (loan : Loan) :
    Course Session.Beside (((w.setVisit number stage).giveBack n loan).setVisit number .over)
      ((w.giveBack n loan).setVisit number .over) := by
  have once := setVisit_setVisit w number stage .over
  unfold setVisit at once
  injection once with _ _ _ _ _ _ _ _ _ _ _ _ _ _ visits
  unfold giveBack setVisit
  dsimp only
  split
  · exact .of_eq (by simp only [visits]) rfl rfl rfl rfl
  · refine .of_eq ?_ rfl rfl rfl rfl
    simp only [put, wake, visits]

/-- A visitor that is done ends its visit, and its caller hears of it; that is all the difference to a visit
that is dropped. -/
theorem leave_eq (multi : w.isMultiRoot = true) {visit : Visit} {n : Nat} {loan : Option Loan}
    (stage : visit.stage = .running n loan) (number : Nat) (outcome : Outcome) :
    Course Session.Beside (w.dropVisit number visit) (w.leave number visit n loan outcome) := by
  unfold leave dropVisit endVisit
  rw [stage, if_pos multi]
  cases loan <;> exact conclude_course ..

/-- The visitor stays, or is done, as the host has judged of it or not. -/
theorem visiting_enter (multi : w.isMultiRoot = true) {number n : Nat} {visit : Visit}
    {loan : Option Loan} (found : w.visits[number]? = some visit)
    (stage : visit.stage = .running n loan) :
    Visiting number w (w.enter number visit n loan) := by
  unfold enter
  split
  · have same := setVisit_same found
    rw [stage] at same
    rw [same]
    refine .waits (fun other found' _ begun => ?_) (.refl w)
    cases found.symm.trans found'
    exact VisitStage.noConfusion (stage.symm.trans begun)
  · refine .ends found (fun _ begun => ?_) (leave_eq multi stage number _)
    exact VisitStage.noConfusion (stage.symm.trans begun)

/-- A visitor that gets the session is there, or is done at once if the host has judged of it before it
began. -/
theorem visiting_enter_of_setVisit (multi : w.isMultiRoot = true) {number n : Nat} {visit : Visit}
    {loan : Option Loan} (found : w.visits[number]? = some visit) :
    Visiting number (w.setVisit number (.running n loan)) (w.enter number visit n loan) := by
  have here := setVisit_found found (.running n loan)
  unfold enter
  split
  · refine .waits (fun other found' _ begun => ?_) (.refl _)
    cases here.symm.trans found'
    exact VisitStage.noConfusion begun
  · refine .ends here (fun _ begun => VisitStage.noConfusion begun) ?_
    unfold leave dropVisit endVisit
    dsimp only
    rw [if_pos multi]
    cases loan with
    | none =>
      rw [setVisit_setVisit]
      exact conclude_course ..
    | some loan => exact (giveBack_setVisit ..).trans (conclude_course ..)

/-- What a step of a visit does where one session serves all roots. The cases are those of its stage; a
stage that belongs to sessions of single roots does not occur. -/
theorem pollVisit_visiting (sharing : w.Sharing) (number : Nat) :
    Visiting number w (w.pollVisit number) := by
  unfold pollVisit
  split
  next missing => exact .waits (fun visit found => by rw [missing] at found; cases found) (.refl w)
  next visit found =>
    have welcome := sharing.visits visit (List.mem_of_getElem? found)
    split
    next dropped => exact .ends found (fun wanted => absurd dropped (by simp [wanted])) (.refl _)
    next wanted =>
      cases stage : visit.stage with
      | unstarted =>
        have awake := sharing.awake found (by rw [stage]; exact VisitStage.noConfusion)
        obtain ⟨n, shared⟩ := Option.isSome_iff_exists.mp (sharing.running awake).1
        obtain ⟨s, shares, -⟩ := sharing.shares shared
        dsimp only
        rw [beginVisit, if_pos sharing.multi, enterShared, shares.found]
        dsimp only
        split
        next failure refused =>
          refine .ends found (fun _ _ m t shares' => ?_) ?_
          · obtain ⟨rfl, rfl⟩ := shares.eq shares'
            exact ⟨failure, refused⟩
          · unfold World.dropVisit
            rw [stage]
            exact conclude_course ..
        next loan folders connection lent =>
          refine .begins found stage (Bool.eq_false_iff.mpr wanted) shares lent ?_
          refine visiting_enter_of_setVisit ?_ ?_
          · exact sharing.multi
          · exact found
      | running n loan => exact visiting_enter sharing.multi found stage
      | «over» =>
        refine .waits (fun other found' _ begun => ?_) (.refl w)
        cases found.symm.trans found'
        exact VisitStage.noConfusion (stage.symm.trans begun)
      | awaiting | connecting | greeting => rw [stage] at welcome; exact welcome.elim

/-- A step of a visit leaves all as it is, by induction on the step. -/
theorem Visiting.sharing {number : Nat} (visiting : Visiting number w v) (sharing : w.Sharing) :
    v.Sharing := by
  induction visiting with
  | waits _ course => exact sharing.of_course (course.weaken Session.Beside.toLater)
  | begins found stage _ shares lent _ ih => exact ih (sharing.lend found stage shares lent)
  | ends found _ course =>
    exact (sharing.dropVisit found).of_course (course.weaken Session.Beside.toLater)

end World

end LanguageClient
