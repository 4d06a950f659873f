import Mathlib.Data.List.Forall2

/-!
# Lists that are mapped with failures

A list is mapped by something that may fail, and the first failure is what comes of it. The results stand in
the order of the items (`mapM_eq_ok_iff`), and what fails is the first item that does
(`mapM_eq_error_iff`).
-/

namespace LanguageClient

variable {α β ε : Type} {f : α → Except ε β} {items : List α} {results : List β} {fault : ε}

/-- A list is mapped with success if every item is, and the results then stand in the order of the items:
each is what its own item gave. -/
theorem mapM_eq_ok_iff : items.mapM f = .ok results ↔
    List.Forall₂ (fun item result => f item = .ok result) items results := by
  induction items generalizing results with
  | nil => simp [List.mapM_nil, pure, Except.pure, eq_comm]
  | cons item items ih =>
    rw [List.mapM_cons, List.forall₂_cons_left_iff]
    cases first : f item with
    | error fault => simp [bind, Except.bind]
    | ok result =>
      cases rest : items.mapM f with
      | error fault => simp [bind, Except.bind, ← ih, rest]
      | ok others => simp [bind, Except.bind, pure, Except.pure, ← ih, rest, eq_comm]

/-- Every item of a list has a partner in a list that is related to it item by item. This forgets the order,
which the callers do not need. -/
theorem exists_of_forall₂ {holds : α → β → Prop} (all : List.Forall₂ holds items results) {item : α}
    (inside : item ∈ items) : ∃ result, holds item result := by
  induction all with
  | nil => cases inside
  | cons first _ ih =>
    rcases List.mem_cons.mp inside with rfl | inside
    · exact ⟨_, first⟩
    · exact ih inside

/-- A list fails with the first of its items that fails: all items in front of it succeed, and what comes
behind it has no part in the failure. -/
theorem mapM_eq_error_iff : items.mapM f = .error fault ↔ ∃ before item after,
    items = before ++ item :: after ∧ (∀ other ∈ before, ∃ result, f other = .ok result) ∧
      f item = .error fault := by
  induction items with
  | nil => simp [List.mapM_nil, pure, Except.pure]
  | cons item items ih =>
    -- the first item fails, or the failing one is among the rest
    rw [List.mapM_cons]
    cases first : f item with
    | error sooner =>
      constructor
      · rintro ⟨⟩
        exact ⟨[], item, items, rfl, nofun, first⟩
      · rintro ⟨before, failing, after, parts, fine, fails⟩
        cases before with
        | nil =>
          cases parts
          cases first.symm.trans fails
          rfl
        | cons other before =>
          cases parts
          obtain ⟨result, done⟩ := fine item List.mem_cons_self
          cases first.symm.trans done
    | ok result =>
      have rest : (do let results ← items.mapM f; pure (result :: results)) = .error fault ↔
          items.mapM f = .error fault := by
        cases items.mapM f <;> simp [bind, Except.bind, pure, Except.pure]
      refine rest.trans (ih.trans ?_)
      constructor
      · rintro ⟨before, failing, after, rfl, fine, fails⟩
        exact ⟨item :: before, failing, after, rfl, List.forall_mem_cons.mpr ⟨⟨result, first⟩, fine⟩, fails⟩
      · rintro ⟨before, failing, after, parts, fine, fails⟩
        cases before with
        | nil =>
          cases parts
          cases first.symm.trans fails
        | cons other before =>
          cases parts
          exact ⟨before, failing, after, rfl, fun other inside => fine other (List.mem_cons_of_mem _ inside),
            fails⟩

/-- A list does not fail if none of its items does. Unlike `mapM_eq_ok_iff` this says nothing of the
results, and so needs no list of them. -/
theorem exists_mapM_ok_iff :
    (∃ results, items.mapM f = .ok results) ↔ ∀ item ∈ items, ∃ result, f item = .ok result := by
  constructor
  · rintro ⟨results, done⟩ item inside
    exact exists_of_forall₂ (mapM_eq_ok_iff.mp done) inside
  · intro each
    cases done : items.mapM f with
    | ok results => exact ⟨results, rfl⟩
    | error fault =>
      obtain ⟨before, item, after, rfl, -, fails⟩ := mapM_eq_error_iff.mp done
      obtain ⟨result, fine⟩ := each item (List.mem_append_right _ List.mem_cons_self)
      cases fails.symm.trans fine

end LanguageClient
