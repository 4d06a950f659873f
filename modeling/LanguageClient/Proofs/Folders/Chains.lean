import LanguageClient.Proofs.Folders.Telling

/-!
# Changes from list to list

The client sees the roots of its host as one list after the other, and acts on the changes between them
alone. Here it is shown that nothing is lost in that: whatever the lists, one who starts with the roots of the
first list and follows each change ends with the roots of the last. `RootDiff.Fits` says in which shape each
change comes.

Only the changes as such are meant. What is lent to a server and left out of them, and what of them a server
is told, is told elsewhere.
-/

namespace LanguageClient

namespace RootDiff

/-- The changes from a list to the next, and so on from each list to the one after it. -/
def along (first : List Url) : List (List Url) → List RootDiff
  | [] => []
  | next :: rest => between first next :: along next rest

/-- A change in its proper shape: each root once, in the order in which the roots are first found in their
list, and on no side that the lists do not bear out. -/
structure Fits (before after : List Url) (diff : RootDiff) : Prop where
  addedOnce : diff.added.Nodup
  removedOnce : diff.removed.Nodup
  apart : diff.added.Disjoint diff.removed
  addedInOrder : diff.added.Pairwise fun root next => after.idxOf root < after.idxOf next
  removedInOrder : diff.removed.Pairwise fun root next => before.idxOf root < before.idxOf next
  addedNew : ∀ root ∈ diff.added, root ∈ after ∧ root ∉ before
  removedGone : ∀ root ∈ diff.removed, root ∈ before ∧ root ∉ after

variable {before after : List Url} {root : Url}

/-- What is added by the change between two lists is what the later one has and the earlier one has not. -/
theorem mem_added : root ∈ (between before after).added ↔ root ∈ after ∧ root ∉ before := by
  rw [between, mem_missingFrom, and_iff_left List.not_mem_nil]

/-- What is removed by the change between two lists is what the earlier one has and the later one has not.
-/
theorem mem_removed : root ∈ (between before after).removed ↔ root ∈ before ∧ root ∉ after := by
  rw [between, mem_missingFrom, and_iff_left List.not_mem_nil]

/-- What is found in the rest of a list stands in the order of the whole list, if what stands before the
rest is passed over. The induction is on the rest, and the passed part grows at its end by each root that is
looked at. -/
theorem inOrder_missingFrom {other found : List Url} (front source : List Url)
    (passed : ∀ root ∈ front, root ∈ other ∨ root ∈ found) :
    (missingFrom other found source).Pairwise fun root next =>
      (front ++ source).idxOf root < (front ++ source).idxOf next := by
  induction source generalizing front found with
  | nil => exact .nil
  | cons first source ih =>
    rw [List.append_cons]
    unfold missingFrom
    split
    next known =>
      refine ih (front ++ [first]) fun root member => ?_
      rcases List.mem_append.mp member with before | last
      · exact passed root before
      · exact List.mem_singleton.mp last ▸ known
    next unknown =>
      have unseen : first ∉ front := fun member => unknown (passed first member)
      have later : ∀ root ∈ front ++ [first], root ∈ other ∨ root ∈ first :: found := by
        intro root member
        rcases List.mem_append.mp member with before | last
        · exact (passed root before).imp_right (List.mem_cons_of_mem first)
        · exact .inr (List.mem_singleton.mp last ▸ List.mem_cons_self)
      refine List.pairwise_cons.mpr ⟨fun next member => ?_, ih (front ++ [first]) later⟩
      have beyond : next ∉ front ++ [first] := fun seen =>
        (mem_missingFrom.mp member).2.elim fun notOther notFound =>
          (later next seen).elim notOther notFound
      rw [List.idxOf_append_of_notMem beyond, ← List.append_cons, List.idxOf_append_of_notMem unseen,
        List.idxOf_cons_self, List.length_append, List.length_singleton]
      omega

/-- The change between two lists has its proper shape, whatever the lists: a root that a list holds twice is
found once, where it stands first. -/
theorem between_fits (before after : List Url) : (between before after).Fits before after where
  addedOnce := nodup_missingFrom before [] after
  removedOnce := nodup_missingFrom after [] before
  apart := fun _ come gone => (mem_added.mp come).2 (mem_removed.mp gone).1
  addedInOrder := inOrder_missingFrom [] after nofun
  removedInOrder := inOrder_missingFrom [] before nofun
  addedNew := fun _ => mem_added.mp
  removedGone := fun _ => mem_removed.mp

/-- The change between two lists is empty just if they hold the same roots. Their order plays no part in it,
nor how often they hold a root. -/
theorem isEmpty_between_iff (before after : List Url) :
    (between before after).isEmpty = true ↔ ∀ root, root ∈ before ↔ root ∈ after := by
  rw [isEmpty, Bool.and_eq_true, List.isEmpty_iff, List.isEmpty_iff, List.eq_nil_iff_forall_not_mem,
    List.eq_nil_iff_forall_not_mem, ← forall_and]
  refine forall_congr' fun root => ?_
  rw [mem_added, mem_removed]
  tauto

/-- One who knows the roots of a list and follows the change to the next knows those of the next. -/
theorem apply_between (before after : List Url) :
    Telling.apply {root | root ∈ before} (.change (between before after)) = {root | root ∈ after} := by
  ext root
  have come : root ∈ (between before after).added ↔ root ∈ after ∧ root ∉ before := mem_added
  have gone : root ∈ (between before after).removed ↔ root ∈ before ∧ root ∉ after := mem_removed
  simp only [Telling.apply, Set.mem_ofPred_eq, come, gone]
  tauto

/-- One who knows the roots of the first list and follows the changes along the others knows the roots of
the last in the end, by induction on the lists. -/
theorem foldl_along (first : List Url) (rest : List (List Url)) :
    ((along first rest).map Telling.change).foldl Telling.apply {root | root ∈ first} =
      {root | root ∈ (first :: rest).getLast (List.cons_ne_nil first rest)} := by
  induction rest generalizing first with
  | nil => rfl
  | cons next rest ih =>
    rw [along, List.map_cons, List.foldl_cons, apply_between, ih next]
    rfl

/-- Along any lists of roots the changes lead from the roots of the first to those of the last. Each change has
its proper shape, is empty just if nothing has come or gone, and depends on the lists only by the roots that
they hold, not by their order or by how often they list each. -/
theorem along_leads :
    (∀ (first : List Url) (rest : List (List Url)),
      ((along first rest).map Telling.change).foldl Telling.apply {root | root ∈ first} =
        {root | root ∈ (first :: rest).getLast (List.cons_ne_nil first rest)}) ∧
    (∀ before after : List Url, (between before after).Fits before after ∧
      ((between before after).isEmpty = true ↔ ∀ root, root ∈ before ↔ root ∈ after)) ∧
    ∀ before before' after after' : List Url,
      (∀ root, root ∈ before ↔ root ∈ before') → (∀ root, root ∈ after ↔ root ∈ after') →
      ∀ root, (root ∈ (between before after).added ↔ root ∈ (between before' after').added) ∧
        (root ∈ (between before after).removed ↔ root ∈ (between before' after').removed) := by
  refine ⟨foldl_along, fun before after => ⟨between_fits before after, isEmpty_between_iff before after⟩, ?_⟩
  intro before before' after after' sameBefore sameAfter root
  rw [mem_added, mem_added, mem_removed, mem_removed, sameBefore root, sameAfter root]
  exact ⟨Iff.rfl, Iff.rfl⟩

/-- Three roots of a host. -/
def Sample.one : Url := ⟨"file:///one"⟩

def Sample.two : Url := ⟨"file:///two"⟩

def Sample.three : Url := ⟨"file:///three"⟩

/-- Two of the roots, the first of them twice. -/
def Sample.doubled : List Url := [one, two, one]

/-- Lists that follow on it. -/
def Sample.later : List (List Url) := [[two, two], [three, one, three]]

/-- Along lists with doubled roots: the changes themselves, where they lead, and that lists with the same
roots in another order give the same changes. -/
theorem along_leads_doubled :
    along Sample.doubled Sample.later =
      [⟨[], [Sample.one]⟩, ⟨[Sample.three, Sample.one], [Sample.two]⟩] ∧
    (((along Sample.doubled Sample.later).map Telling.change).foldl Telling.apply
      {root | root ∈ Sample.doubled} = {root | root ∈ [Sample.three, Sample.one, Sample.three]}) ∧
    ∀ root, (root ∈ (between Sample.doubled [Sample.three]).added ↔
        root ∈ (between [Sample.two, Sample.one] [Sample.three, Sample.three]).added) ∧
      (root ∈ (between Sample.doubled [Sample.three]).removed ↔
        root ∈ (between [Sample.two, Sample.one] [Sample.three, Sample.three]).removed) := by
  obtain ⟨leads, -, alike⟩ := along_leads
  have older : ∀ root : Url, root ∈ Sample.doubled ↔ root ∈ [Sample.two, Sample.one] := by
    intro root
    simp only [Sample.doubled, List.mem_cons, List.not_mem_nil]
    tauto
  have newer : ∀ root : Url, root ∈ [Sample.three] ↔ root ∈ [Sample.three, Sample.three] := by
    intro root
    simp only [List.mem_cons, List.not_mem_nil, or_self_left]
  exact ⟨by decide, leads _ _, alike _ _ _ _ older newer⟩

end RootDiff

end LanguageClient
