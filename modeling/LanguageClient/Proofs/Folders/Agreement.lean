import LanguageClient.Proofs.Folders.Ledger
import LanguageClient.Proofs.Folders.Steady

/-!
# The server and its client agree

Once the roots were looked at and the server knows just what the client has announced and lent, it does
so at any time after that, whatever the host, the visitors and the tasks do and in whatever order, as
long as the connection is open. Nothing is added twice and nothing withdrawn that is not known, a root
is lent as often as visits borrow it, and when all changes were looked at and nobody visits, the server
knows just the roots of the host.
-/

namespace LanguageClient

namespace World

/-- The roots that a run notices. -/
def noticed (w : World) : List Move → Set Url
  | [] => ∅
  | move :: moves => w.notices move ∪ (w.after move).noticed moves

variable {w : World} {rewriter : Rewriter} {ghosts : Set Url} {history : List Telling}

/-- A run of tactful moves keeps the ledger. What the moves notice adds up, and what they tell is orderly if
it was orderly after each; the host must give names to all the roots that it comes to have. -/
theorem Ledger.run {moves : List Move} (tactful : ∀ move ∈ moves, move.isTactful = true)
    (names : ∀ move ∈ moves, move.Names rewriter) :
    ∀ {w noticed history}, Ledger rewriter ghosts noticed history w → w.Sharing →
      Ledger.Next rewriter ghosts noticed (w.noticed moves) history (w.run moves) := by
  induction moves with
  | nil => exact fun ledger _ => ledger.same
  | cons move moves ih =>
    intro w noticed history ledger sharing
    have first := ledger.after sharing (tactful move List.mem_cons_self)
      (names move List.mem_cons_self)
    exact first.trans fun ledger =>
      ih (fun later member => tactful later (List.mem_cons_of_mem _ member))
        (fun later member => names later (List.mem_cons_of_mem _ member)) ledger
        (sharing.after (tactful move List.mem_cons_self))

/-- As long as its session is shared, a client that follows the roots runs: while it is registered nothing
is followed yet, and when it has ended nothing is shared any more. -/
theorem Sharing.runs (sharing : w.Sharing) (looked : w.HasLooked) {n : Nat} {s : Session}
    (shares : w.Shares n s) : w.phase = .running := by
  by_contra unready
  by_cases gone : w.phase = .over
  · have alone := sharing.ended gone
    rw [shares.1] at alone
    cases alone
  · rw [hasLooked_iff, sharing.unready unready gone] at looked
    rcases looked with looked | looked <;> cases looked

/-- Where the server knows what the client has announced and lent, nothing is left to be noticed. So the
ledger can be opened there without ghosts, and it has not to go back to the greeting. -/
theorem Sharing.ledger_of_agreed (sharing : w.Sharing) (looked : w.following = .ongoing)
    (named : ∀ root ∈ w.host.roots, w.options.rewriter.Names root) (told : w.HasTold history)
    (level : Telling.known history = w.folders.told) :
    w.Ledger w.options.rewriter ∅ Set.univ history := by
  obtain ⟨n, s, shares, said⟩ := told
  refine ⟨rfl, named, fun alone => ?_, fun _ _ _ => trivial, fun absent => ?_, fun fresh => ?_, ?_⟩
  · cases shares.1.symm.trans alone
  · cases looked.symm.trans absent
  · cases looked.symm.trans fresh
  · intro m t shares' _
    obtain ⟨rfl, rfl⟩ := shares.eq shares'
    refine ⟨said, fun root => ?_⟩
    have same := sharing.ongoing (sharing.followed (.inr looked))
      (by rw [looked]; exact Following.noConfusion)
    have nothing : ¬ (root ∈ (∅ : Set Url) ∧ root ∉ Set.univ) := fun ghost => ghost.1
    rw [level, same, or_iff_left nothing]
    exact Iff.rfl

/-- If no change waits and nobody visits, what was announced and lent is what the host has: nothing is lent
then, and the last look was at the roots of now. -/
theorem Sharing.told_eq (sharing : w.Sharing) (running : w.phase = .running) (looked : w.HasLooked)
    (quiet : w.changes = ⟨0, false⟩) (idle : ∀ visit ∈ w.visits, visit.stage = .over) :
    w.folders.told = {root | root ∈ w.host.roots} := by
  have following : w.following = .ongoing := by
    refine (hasLooked_iff.mp looked).resolve_right fun stopped => ?_
    have ended := sharing.stopped running stopped
    rw [quiet] at ended
    cases ended
  have same := sharing.ongoing running (by rw [following]; exact Following.noConfusion)
  have caught := sharing.caughtUp following quiet
  ext root
  change root ∈ w.folders.announced ∨ w.folders.isLent root = true ↔ root ∈ w.host.roots
  rw [← same, caught, sharing.unlent idle, or_iff_left Bool.false_ne_true]

/-- Whatever happens after the server and the client agreed on the roots, they agree. -/
theorem run_agrees {options : ClientOptions} (multi : options.config.isMultiRoot = true)
    {past later : List Move} (tactful : ∀ move ∈ past ++ later, move.isTactful = true)
    {w v : World} (reached : (start options).run past = w) (ran : w.run later = v)
    (looked : w.following = .ongoing) (told : w.HasTold history)
    (level : Telling.known history = w.folders.told)
    (named : ∀ root ∈ w.host.roots, w.options.rewriter.Names root)
    (names : ∀ move ∈ later, move.Names w.options.rewriter) (connected : v.IsConnected) :
    ∃ more, v.HasTold (history ++ more) ∧ Telling.known (history ++ more) = v.folders.told ∧
      Telling.AreOrderly (Telling.known history) more ∧
      (∀ root, v.folders.borrowers root = v.borrowings root) ∧
      (v.changes = ⟨0, false⟩ → (∀ visit ∈ v.visits, visit.stage = .over) →
        Telling.known (history ++ more) = {root | root ∈ v.host.roots}) := by
  have kind : ∀ move ∈ later, move.isTactful = true := fun move member =>
    tactful move (List.mem_append_right _ member)
  have sharing : w.Sharing := reached ▸ run_sharing multi fun move member =>
    tactful move (List.mem_append_left _ member)
  -- nothing counts as unnoticed, so the ledger has no ghosts from here on
  have ledger := sharing.ledger_of_agreed looked named told level
  obtain ⟨more, ledger', orderly⟩ := Ledger.run kind names ledger sharing
  have sharing' : Sharing v := ran ▸ run_induction Sharing
    (fun _ _ tactful sharing => sharing.after tactful) kind sharing
  have looked' : v.HasLooked := ran ▸ hasLooked_run kind sharing (hasLooked_iff.mpr (.inl looked))
  rw [ran, Set.univ_union] at ledger'
  obtain ⟨n, s, shares, opened⟩ := connected
  obtain ⟨said, known⟩ := ledger'.books n s shares opened
  have running' := sharing'.runs looked' shares
  have fresh : v.following ≠ .fresh := by
    intro fresh
    rw [hasLooked_iff, fresh] at looked'
    rcases looked' with looked | looked <;> cases looked
  have same := sharing'.ongoing running' fresh
  have all : Telling.known (history ++ more) = v.folders.told := by
    ext root
    have nothing : ¬ (root ∈ (∅ : Set Url) ∧ root ∉ Set.univ) := fun ghost => ghost.1
    rw [known, same, or_iff_left nothing]
    exact Iff.rfl
  refine ⟨more, ⟨n, s, shares, ledger'.naming ▸ said⟩, all, ?_, sharing'.counted, ?_⟩
  · exact orderly (Set.empty_subset _)
  · intro quiet idle
    exact all.trans (sharing'.told_eq running' looked' quiet idle)

/-- A visitor borrows a root, the host adopts it meanwhile and drops it afterwards. -/
def Sample.borrowed : List Move :=
  [.roots [Sample.here], .visit "guest" Sample.there, .poll (.visit 0), .roots [Sample.there],
    .poll .reconciler, .verdict 0 (.ok .null), .poll (.visit 0), .roots [Sample.here],
    .poll .reconciler]

/-- A run in which the host adopts the visitor's root and drops it again meets all that is asked for. At its
end the visitor is done, and the server knows just the one root that the host has then. -/
theorem run_agrees_borrowed : (Sample.followed.run Sample.borrowed).IsConnected ∧
    ∃ more, (Sample.followed.run Sample.borrowed).HasTold ([.greeting []] ++ more) ∧
      Telling.AreOrderly (Telling.known [.greeting []]) more ∧
      Telling.known ([.greeting []] ++ more) = {root | root ∈ [Sample.here]} := by
  have multi : Sample.options.config.isMultiRoot = true := rfl
  have tactful : ∀ move ∈ (Sample.greeted ++ Sample.answered) ++ Sample.borrowed,
      move.isTactful = true := by decide
  have reached : (start Sample.options).run (Sample.greeted ++ Sample.answered) = Sample.followed :=
    rfl
  have ran : Sample.followed.run Sample.borrowed = Sample.followed.run Sample.borrowed := rfl
  have looked : Sample.followed.following = .ongoing := by decide
  have named : ∀ root ∈ Sample.followed.host.roots, Sample.followed.options.rewriter.Names root := by
    decide
  have names : ∀ move ∈ Sample.borrowed, move.Names Sample.followed.options.rewriter := by decide
  have connected : (Sample.followed.run Sample.borrowed).IsConnected := by decide
  obtain ⟨more, said, -, orderly, -, all⟩ :=
    run_agrees multi tactful reached ran looked hasTold_followed known_followed named names
      connected
  have roots : (Sample.followed.run Sample.borrowed).host.roots = [Sample.here] := by decide
  exact ⟨connected, more, said, orderly, roots ▸ all (by decide) (by decide)⟩

end World

end LanguageClient
