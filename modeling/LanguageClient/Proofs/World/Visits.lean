import LanguageClient.Client.Visiting

/-!
# The list of visits

A visit goes from stage to stage in its place in the list, and the last stage that it was brought to is
the one that counts.
-/

namespace LanguageClient

namespace World

variable {w : World}

/-- An entry of a changed list is one that was not changed, or the changed one. The invariants of visits and
openings are stated for all members of their lists, and this splits such a member. -/
theorem mem_modify {α : Type} {entries : List α} {number : Nat} {change : α → α} {entry : α}
    (member : entry ∈ entries.modify number change) :
    entry ∈ entries ∨ ∃ old, entries[number]? = some old ∧ entry = change old := by
  obtain ⟨place, found⟩ := List.mem_iff_getElem?.mp member
  rw [List.getElem?_modify] at found
  cases old : entries[place]? with
  | none => rw [old] at found; cases found
  | some before =>
    rw [old] at found
    by_cases here : number = place
    · subst here
      simp only [if_true, Option.map_eq_map, Option.map_some, Option.some.injEq] at found
      exact .inr ⟨before, old, found.symm⟩
    · simp only [here, if_false, Option.map_eq_map, Option.map_some, Option.some.injEq] at found
      exact .inl (found ▸ List.mem_of_getElem? old)

/-- The changed entry is a member of the changed list, whatever the change. -/
theorem mem_modify_self {α : Type} {entries : List α} {number : Nat} {entry : α}
    (found : entries[number]? = some entry) (change : α → α) :
    change entry ∈ entries.modify number change := by
  refine List.mem_of_getElem? (i := number) ?_
  simp [found]

/-- An entry is in the changed list still, unless it is the one that was changed. -/
theorem mem_modify_or_eq {α : Type} {entries : List α} {number : Nat} {entry other : α}
    (found : entries[number]? = some entry) (change : α → α) (member : other ∈ entries) :
    other ∈ entries.modify number change ∨ other = entry := by
  obtain ⟨place, at_place⟩ := List.mem_iff_getElem?.mp member
  by_cases here : number = place
  · subst here
    exact .inr (Option.some.inj (at_place.symm.trans found))
  · refine .inl (List.mem_of_getElem? (i := place) ?_)
    simp [here, at_place]

/-- The visit that goes on is at its new stage, with its label, root and verdict as they were. -/
theorem setVisit_found {number : Nat} {visit : Visit} (found : w.visits[number]? = some visit)
    (stage : VisitStage) :
    (w.setVisit number stage).visits[number]? = some { visit with stage } := by
  simp [setVisit, found]

/-- A change that leaves the entry as it is leaves the list as it is. -/
theorem modify_same {α : Type} {entries : List α} {number : Nat} {entry : α}
    (found : entries[number]? = some entry) {change : α → α} (same : change entry = entry) :
    entries.modify number change = entries := by
  apply List.ext_getElem?
  intro place
  rw [List.getElem?_modify]
  by_cases here : number = place
  · subst here
    simp [found, same]
  · simp [here]

/-- A visit that stays at its stage leaves all as it is. Polling a visitor that is not done, and a visit
whose server has not answered, come to this. -/
theorem setVisit_same {number : Nat} {visit : Visit} (found : w.visits[number]? = some visit) :
    w.setVisit number visit.stage = w := by
  unfold setVisit
  rw [modify_same found rfl]

/-- What a visit was brought to before does not count, only the last stage does. A visit that ends as soon
as it has begun goes through both in one step. -/
theorem setVisit_setVisit (w : World) (number : Nat) (first second : VisitStage) :
    (w.setVisit number first).setVisit number second = w.setVisit number second := by
  unfold setVisit
  dsimp only
  rw [List.modify_modify_eq]
  rfl

/-- The opening whose result is there: it is in the list, and it has come to an end with just that session
or none. -/
theorem exists_of_openingResult? {number : Nat} {session : Option Nat}
    (came : w.openingResult? number = some session) :
    ∃ o, w.openings[number]? = some o ∧ o.stage = .finished session := by
  unfold openingResult? at came
  split at came
  next result finished =>
    cases came
    exact Option.map_eq_some_iff.mp finished
  next => cases came

end World

end LanguageClient
