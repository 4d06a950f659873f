import LanguageClient.Client.Folders
import LanguageClient.Proofs.Connection.Course
import LanguageClient.Proofs.Traversal
import Mathlib.Data.Set.Basic

/-!
# What a server was told of roots

A server of several roots hears of them in its greeting and in every change of folders after that. A
`Telling` is one of these in terms of the host's roots, and `Telling.known` is what a list of them
amounts to, applied in order. `Connection.HasTold` ties a history of tellings to the messages that
were sent: each message about folders is the wording of one telling, in the same order.

For each of the three ways in which the client tells of roots it is shown here what it says and when
it says nothing: a look at the host's roots, a loan, and the return of a loan.
-/

namespace LanguageClient

/-! ## Names and differences -/

/-- Whether a server can be told of a root. -/
def Rewriter.Names (rewriter : Rewriter) (root : Url) : Prop :=
  ∃ folder, rewriter.folder root = .ok folder

instance (rewriter : Rewriter) (root : Url) : Decidable (rewriter.Names root) :=
  match named : rewriter.folder root with
  | .ok folder => .isTrue ⟨folder, named⟩
  | .error _ => .isFalse fun ⟨_, other⟩ => by rw [named] at other; cases other

namespace RootDiff

/-- Whether a change is about a root. -/
def Touches (diff : RootDiff) (root : Url) : Prop := root ∈ diff.added ∨ root ∈ diff.removed

/-- What is missing from another list is what the source has and the other one has not, apart from what was
found already. -/
theorem mem_missingFrom {other found source : List Url} {root : Url} :
    root ∈ missingFrom other found source ↔ root ∈ source ∧ root ∉ other ∧ root ∉ found := by
  induction source generalizing found with
  | nil => simp [missingFrom]
  | cons first source ih =>
    unfold missingFrom
    split
    next known =>
      rw [ih, List.mem_cons]
      constructor
      · exact fun ⟨member, rest⟩ => ⟨.inr member, rest⟩
      · rintro ⟨rfl | member, notOther, notFound⟩
        · exact (known.elim notOther notFound).elim
        · exact ⟨member, notOther, notFound⟩
    next unknown =>
      obtain ⟨notOther, notFound⟩ := not_or.mp unknown
      rw [List.mem_cons, ih, List.mem_cons, List.mem_cons]
      by_cases same : root = first
      · subst same
        simp [notOther, notFound]
      · simp [same]

/-- What is missing from another list is found once only, since each root that is found is passed over
afterwards. -/
theorem nodup_missingFrom (other found source : List Url) :
    (missingFrom other found source).Nodup := by
  induction source generalizing found with
  | nil => exact List.nodup_nil
  | cons first source ih =>
    unfold missingFrom
    split
    · exact ih found
    · refine List.nodup_cons.mpr ⟨fun member => ?_, ih _⟩
      exact (mem_missingFrom.mp member).2.2 List.mem_cons_self

end RootDiff

/-- A change can be told just if each of its roots can. The added ones are asked for their names first, then
the removed ones, and one failure among them all is enough to have none of them told. -/
theorem Rewriter.folderChange_ok_iff {rewriter : Rewriter} {diff : RootDiff} :
    (∃ change, rewriter.folderChange diff = .ok change) ↔
      ∀ root, diff.Touches root → rewriter.Names root := by
  have added : (∃ come, diff.added.mapM rewriter.folder = .ok come) ↔ _ := exists_mapM_ok_iff
  have removed : (∃ gone, diff.removed.mapM rewriter.folder = .ok gone) ↔ _ := exists_mapM_ok_iff
  constructor
  · rintro ⟨change, worded⟩ root (member | member)
    all_goals
      unfold Rewriter.folderChange at worded
      cases ofAdded : diff.added.mapM rewriter.folder with
      | error failure => rw [ofAdded] at worded; cases worded
      | ok come =>
        cases ofRemoved : diff.removed.mapM rewriter.folder with
        | error failure => rw [ofAdded, ofRemoved] at worded; cases worded
        | ok gone =>
          first
          | exact added.mp ⟨come, ofAdded⟩ root member
          | exact removed.mp ⟨gone, ofRemoved⟩ root member
  · intro named
    obtain ⟨come, ofAdded⟩ := added.mpr fun root member => named root (.inl member)
    obtain ⟨gone, ofRemoved⟩ := removed.mpr fun root member => named root (.inr member)
    refine ⟨⟨come, gone⟩, ?_⟩
    unfold Rewriter.folderChange
    rw [ofAdded, ofRemoved]
    rfl

/-! ## Tellings -/

/-- What a server is told of the roots: those at the start, or a change. -/
inductive Telling where
  | greeting (roots : List Url)
  | change (diff : RootDiff)

namespace Telling

/-- The roots that a server knows of after a telling. -/
def apply (known : Set Url) : Telling → Set Url
  | .greeting roots => {root | root ∈ roots}
  | .change diff => {root | root ∈ known ∧ root ∉ diff.removed ∨ root ∈ diff.added}

/-- The roots that a server knows of after all that it was told. -/
def known (history : List Telling) : Set Url := history.foldl apply ∅

/-- Whether a message is the wording of a telling. -/
def Says (rewriter : Rewriter) : Telling → Message → Prop
  | .greeting roots, message => ∃ folders id initialization multiRoot,
      roots.mapM rewriter.folder = .ok folders ∧
      message = .request (Request.make id initializeMethod
        (some (Greeting.toJson ⟨none, initialization, multiRoot, some folders⟩)))
  | .change diff, message => ∃ change, rewriter.folderChange diff = .ok change ∧
      message = .notification (Notification.make FolderChange.method (some change.toJson))

/-- A telling adds only roots that can be told: its wording holds a folder for each of them. -/
theorem Says.names {rewriter : Rewriter} {telling : Telling} {message : Message}
    (worded : telling.Says rewriter message) {known : Set Url} {root : Url}
    (member : root ∈ telling.apply known) : root ∈ known ∨ rewriter.Names root := by
  cases telling with
  | greeting roots =>
    obtain ⟨folders, -, -, -, named, -⟩ := worded
    exact .inr (exists_mapM_ok_iff.mp ⟨folders, named⟩ root member)
  | change diff =>
    obtain ⟨change, named, -⟩ := worded
    obtain ⟨before, -⟩ | added := member
    · exact .inl before
    · exact .inr (Rewriter.folderChange_ok_iff.mp ⟨change, named⟩ root (.inl added))

/-- A change that adds only roots that are not known, each once, and removes only known ones. -/
def IsOrderly (known : Set Url) : Telling → Prop
  | .greeting _ => False
  | .change diff => diff.added.Nodup ∧ diff.removed.Nodup ∧
      (∀ root ∈ diff.added, root ∉ known) ∧ ∀ root ∈ diff.removed, root ∈ known

/-- Tellings one after the other, each orderly when it is made. -/
def AreOrderly (known : Set Url) : List Telling → Prop
  | [] => True
  | telling :: rest => telling.IsOrderly known ∧ AreOrderly (telling.apply known) rest

/-- What is known after two histories is known by following the second from what the first has left. -/
theorem known_append (first second : List Telling) :
    known (first ++ second) = second.foldl apply (known first) := List.foldl_append

/-- Two orderly histories make up one, if the second is orderly from what is known after the first. -/
theorem areOrderly_append {known : Set Url} {first second : List Telling}
    (before : AreOrderly known first) (after : AreOrderly (first.foldl apply known) second) :
    AreOrderly known (first ++ second) := by
  induction first generalizing known with
  | nil => exact after
  | cons telling first ih => exact ⟨before.1, ih before.2 after⟩

end Telling

/-- Whether the messages about folders on a connection are the wording of a history. -/
def Connection.HasTold {η : Type} (rewriter : Rewriter) (connection : Connection η)
    (history : List Telling) : Prop :=
  List.Forall₂ (Telling.Says rewriter) history connection.news

namespace Connection.HasTold

variable {η : Type} {rewriter : Rewriter} {c d : Connection η} {history : List Telling}

/-- What says nothing of folders leaves the history as it is. -/
theorem of_news (told : c.HasTold rewriter history) (news : d.news = c.news) :
    d.HasTold rewriter history := by
  unfold Connection.HasTold
  rw [news]
  exact told

/-- A message about folders adds its telling to the history. -/
theorem concat (told : c.HasTold rewriter history) {telling : Telling} {message : Message}
    (worded : telling.Says rewriter message) (news : d.news = c.news ++ [message]) :
    d.HasTold rewriter (history ++ [telling]) := by
  unfold Connection.HasTold
  rw [news]
  exact List.rel_append told (.cons worded .nil)

/-- A server knows only of roots that it can be told of, whatever its history, as it knows none at the
start. -/
theorem names (told : c.HasTold rewriter history) {root : Url} (known : root ∈ Telling.known history) :
    rewriter.Names root := by
  suffices each : ∀ (start : Set Url), root ∈ history.foldl Telling.apply start →
      root ∈ start ∨ rewriter.Names root from
    (each ∅ known).resolve_left (Set.notMem_empty root)
  unfold Connection.HasTold at told
  generalize c.news = news at told
  clear known
  induction told with
  | nil => exact fun start member => .inl member
  | @cons telling message history news worded _ ih =>
    intro start member
    obtain before | named := ih _ member
    · exact worded.names before
    · exact .inr named

end Connection.HasTold

/-! ## Borrowers -/

namespace Folders

/-- The count of a root is set, and no other is touched. A count of zero is not kept, so that the root is
not found any more. -/
theorem lookup_setBorrowers (folders : Folders) (root other : Url) (count : Nat) :
    (folders.setBorrowers root count).lent.lookup other =
      if other = root then (if count = 0 then none else some count)
      else folders.lent.lookup other := by
  unfold setBorrowers
  by_cases same : other = root
  · subst same
    by_cases zero : count = 0
    · simp only [zero, if_true, lookup_filter_self]
    · simp only [zero, if_false, if_true, List.lookup_append, lookup_filter_self, Option.none_or,
        List.lookup_cons, beq_self_eq_true]
  · have kept := lookup_filter_ne folders.lent same
    by_cases zero : count = 0
    · simp only [zero, if_true, same, if_false, kept]
    · simp only [zero, same, if_false, List.lookup_append, kept, List.lookup_cons,
        beq_eq_false_iff_ne.mpr same, List.lookup_nil, Option.or_none]

/-- The count of a root that is set is its count afterwards, be it zero or not. -/
theorem borrowers_setBorrowers (folders : Folders) (root other : Url) (count : Nat) :
    (folders.setBorrowers root count).borrowers other =
      if other = root then count else folders.borrowers other := by
  unfold borrowers
  rw [lookup_setBorrowers]
  by_cases same : other = root <;> by_cases zero : count = 0 <;> simp [same, zero]

/-- A root is lent after its count was set just if that is not zero. What holds of other roots stays. -/
theorem isLent_setBorrowers (folders : Folders) (root other : Url) (count : Nat) :
    (folders.setBorrowers root count).isLent other =
      if other = root then decide (count ≠ 0) else folders.isLent other := by
  unfold isLent
  rw [lookup_setBorrowers]
  by_cases same : other = root <;> by_cases zero : count = 0 <;> simp [same, zero]

/-- What the server is to know of the roots. -/
def told (folders : Folders) : Set Url :=
  {root | root ∈ folders.announced ∨ folders.isLent root = true}

/-! ## What is told when -/

variable {η : Type} {rewriter : Rewriter} {c d : Connection η} {history : List Telling}
  {folders after : Folders} {root : Url}

/-- A connection on which a change was told is at a later time: it has sent one message more. -/
theorem tell_later {change : FolderChange} (sent : tell c change = .ok d) : c.Later d :=
  Connection.send_later sent

/-- A change that was sent is told: its notification is the wording of the change, and the history grows by
it. -/
theorem tell_told {change : FolderChange} {diff : RootDiff}
    (worded : rewriter.folderChange diff = .ok change) (sent : tell c change = .ok d)
    (told : c.HasTold rewriter history) : d.HasTold rewriter (history ++ [.change diff]) :=
  told.concat ⟨change, worded, rfl⟩ (Connection.send_news sent)

/-- On an open connection every change can be told. -/
theorem tell_of_isOpen (opened : c.isOpen = true) (change : FolderChange) :
    ∃ d, tell c change = .ok d := Connection.send_of_isOpen opened _

/-- A root that is lent was announced by the host, or it gets one borrower more, and the server is
told of it if it is the first. -/
theorem lend_cases {loan : Option Loan} (lent : folders.lend rewriter c root = .ok (loan, after, d)) :
    (root ∈ folders.announced ∧ loan = none ∧ after = folders ∧ d = c) ∨
      (root ∉ folders.announced ∧ ∃ folder, rewriter.folder root = .ok folder ∧
        loan = some ⟨root, folder⟩ ∧
        after = folders.setBorrowers root (folders.borrowers root + 1) ∧
        (folders.isLent root = true ∧ d = c ∨
          folders.isLent root = false ∧ tell c ⟨[folder], []⟩ = .ok d)) := by
  unfold lend at lent
  split at lent
  next known =>
    cases lent
    exact .inl ⟨known, rfl, rfl, rfl⟩
  next unknown =>
    refine .inr ⟨unknown, ?_⟩
    split at lent
    · cases lent
    next folder named =>
      dsimp only at lent
      split at lent
      next held =>
        cases lent
        exact ⟨folder, named, rfl, rfl, .inl ⟨held, rfl⟩⟩
      next free =>
        split at lent
        · cases lent
        next sent =>
          cases lent
          exact ⟨folder, named, rfl, rfl, .inr ⟨Bool.eq_false_iff.mpr free, sent⟩⟩

/-- A root cannot be lent if it has no name or nothing can be told. These are the only reasons, so that a
visit that is refused has met one of them. -/
theorem lend_error {failure : ClientError} (refused : folders.lend rewriter c root = .error failure) :
    ¬ rewriter.Names root ∨ c.isOpen = false := by
  unfold lend at refused
  split at refused
  · cases refused
  · split at refused
    next failure unnamed =>
      refine .inl fun ⟨folder, named⟩ => ?_
      rw [unnamed] at named
      cases named
    next folder named =>
      refine .inr (Bool.eq_false_iff.mpr fun opened => ?_)
      obtain ⟨d, sent⟩ := tell_of_isOpen opened ⟨[folder], []⟩
      dsimp only at refused
      rw [sent] at refused
      split at refused <;> cases refused

/-- A loan that is given back leaves one borrower less. The server is told if it was the last one
and the host has not got the root. -/
theorem giveBack_cases (folders : Folders) (c : Connection η) (loan : Loan) :
    (folders.giveBack c loan).1 =
        folders.setBorrowers loan.root (folders.borrowers loan.root - 1) ∧
      ((folders.isLent loan.root = false ∨ folders.borrowers loan.root - 1 ≠ 0 ∨
            loan.root ∈ folders.announced) ∧ (folders.giveBack c loan).2 = c ∨
        folders.isLent loan.root = true ∧ folders.borrowers loan.root - 1 = 0 ∧
          loan.root ∉ folders.announced ∧
          (tell c ⟨[], [loan.folder]⟩ = .ok (folders.giveBack c loan).2 ∨
            ∃ failure event, tell c ⟨[], [loan.folder]⟩ = .error failure ∧
              (folders.giveBack c loan).2 = c.record event)) := by
  unfold giveBack
  dsimp only
  split
  next kept =>
    rw [Bool.not_eq_true'] at kept
    exact ⟨rfl, .inl ⟨kept, rfl⟩⟩
  next given =>
    simp only [Bool.not_eq_true', not_or, not_not, Bool.not_eq_false] at given
    obtain ⟨held, last, unknown⟩ := given
    split
    next sent => exact ⟨rfl, .inr ⟨held, last, unknown, .inl sent⟩⟩
    next failed => exact ⟨rfl, .inr ⟨held, last, unknown, .inr ⟨_, _, failed, rfl⟩⟩⟩

/-- A connection on which something was lent is at a later time, whether or not its server was told of it.
-/
theorem lend_later {loan : Option Loan}
    (lent : folders.lend rewriter c root = .ok (loan, after, d)) : c.Later d := by
  obtain ⟨-, -, -, rfl⟩ | ⟨-, folder, -, -, -, ⟨-, rfl⟩ | ⟨-, sent⟩⟩ := lend_cases lent
  · exact .refl d
  · exact .refl d
  · exact tell_later sent

/-- A connection on which a loan was given back is at a later time, even if the telling failed, which the
host only logs. -/
theorem giveBack_later (folders : Folders) (c : Connection η) (loan : Loan) :
    c.Later (folders.giveBack c loan).2 := by
  obtain ⟨-, ⟨-, same⟩ | ⟨-, -, -, sent | ⟨failure, event, -, noted⟩⟩⟩ := giveBack_cases folders c loan
  · rw [same]
    exact .refl c
  · exact tell_later sent
  · rw [noted]
    exact (Connection.record_beside event).toLater

/-- The change that a look at the host's roots finds, without the roots that are lent. -/
def change (folders : Folders) (before roots : List Url) : RootDiff :=
  (RootDiff.between before roots).without folders.isLent

/-- A look adds the roots that are new since the last one, unless somebody borrows them. -/
theorem mem_added_change {before roots : List Url} :
    root ∈ (folders.change before roots).added ↔
      root ∈ roots ∧ root ∉ before ∧ folders.isLent root = false := by
  simp [change, RootDiff.without, RootDiff.between, RootDiff.mem_missingFrom, and_assoc]

/-- A look removes the roots that have gone since the last one, unless somebody borrows them. -/
theorem mem_removed_change {before roots : List Url} :
    root ∈ (folders.change before roots).removed ↔
      root ∈ before ∧ root ∉ roots ∧ folders.isLent root = false := by
  simp [change, RootDiff.without, RootDiff.between, RootDiff.mem_missingFrom, and_assoc]

/-- A change names each root once on either side, since what is left out of a list without doubles leaves
one. -/
theorem nodup_change (folders : Folders) (before roots : List Url) :
    (folders.change before roots).added.Nodup ∧ (folders.change before roots).removed.Nodup :=
  ⟨(RootDiff.nodup_missingFrom ..).filter _, (RootDiff.nodup_missingFrom ..).filter _⟩

/-- What a look at the host's roots tells the server, as long as it can be told anything. -/
def tellings (folders : Folders) (rewriter : Rewriter) (before roots : List Url) : List Telling :=
  let change := folders.change before roots
  match rewriter.folderChange change with
  | .ok _ => if change.isEmpty then [] else [.change change]
  | .error _ => []

/-- After a look the roots of now count as announced, whether or not the server could be told of them. -/
theorem reconcile_folders (folders : Folders) (rewriter : Rewriter) (c : Connection η)
    (before roots : List Url) :
    (folders.reconcile rewriter c before roots).1 = { folders with announced := roots } := by
  unfold reconcile
  dsimp only
  split
  · rfl
  · split <;> rfl

/-- After a look the connection is at a later time: it has sent the change, or logged that it cannot be
told, or there was nothing to tell. -/
theorem reconcile_later (folders : Folders) (rewriter : Rewriter) (c : Connection η)
    (before roots : List Url) : c.Later (folders.reconcile rewriter c before roots).2 := by
  unfold reconcile
  dsimp only
  split
  · exact .refl c
  · split
    next published =>
      unfold publish at published
      split at published
      · cases published
      · exact tell_later published
    next => exact (Connection.record_beside _).toLater

/-- On an open connection a look at the host's roots tells the server just this. A change that cannot be
told is logged, which the server does not see. -/
theorem reconcile_told (opened : c.isOpen = true) (told : c.HasTold rewriter history)
    (folders : Folders) (before roots : List Url) :
    (folders.reconcile rewriter c before roots).2.HasTold rewriter
      (history ++ folders.tellings rewriter before roots) := by
  unfold reconcile tellings
  dsimp only
  rw [← change]
  generalize folders.change before roots = change
  by_cases none : change.isEmpty = true
  · rw [if_pos none, if_pos none]
    split <;> rw [List.append_nil] <;> exact told
  · rw [if_neg none, if_neg none]
    unfold publish
    cases worded : rewriter.folderChange change with
    | error failure =>
      rw [List.append_nil]
      exact told.of_news (Connection.record_beside _).news
    | ok message =>
      obtain ⟨d, sent⟩ := tell_of_isOpen opened message
      simp only [sent]
      exact tell_told worded sent told

end Folders

end LanguageClient
