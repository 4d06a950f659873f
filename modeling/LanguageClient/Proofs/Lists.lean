import Mathlib.Data.List.Nodup

/-!
# Lists that grow and lists of keys

What stands in a list that got one more item is what stood there before, or the new item
(`getElem?_concat_iff`).

A table is a list of keys with values, and the first value of a key is the one that is found. Where no key
stands twice, what is found under a key is what stands with it (`lookup_of_mem`, `mem_of_lookup`).
-/

namespace LanguageClient

variable {α β : Type}

/-- What stands in a list that got one item more stood there before, or it is the new item and stands at the
end. Calls, feeds, jobs, sessions and visits are all numbered in this way. -/
theorem getElem?_concat_iff {items : List α} {last item : α} {n : Nat} :
    (items ++ [last])[n]? = some item ↔
      items[n]? = some item ∨ n = items.length ∧ last = item := by
  rw [List.getElem?_append]
  split
  next inside => exact ⟨.inl, fun found => found.resolve_right fun last => by omega⟩
  next beyond =>
    have nothing : items[n]? = none := List.getElem?_eq_none (Nat.le_of_not_lt beyond)
    rw [List.getElem?_singleton, nothing]
    by_cases here : n = items.length
    · simp [here]
    · have apart : n - items.length ≠ 0 := by omega
      simp [here, apart]

/-! ## Tables -/

section Lookup

variable [BEq α] [LawfulBEq α] {entries : List (α × β)} {key : α} {value : β}

/-- What is found under a key stands in the table with that key. No hypothesis on the keys is needed in this
direction. -/
theorem mem_of_lookup (found : entries.lookup key = some value) : (key, value) ∈ entries := by
  obtain ⟨before, later, split, -⟩ := List.lookup_eq_some_iff.mp found
  rw [split]
  exact List.mem_append_right _ List.mem_cons_self

/-- Where keys are told apart, what stands with a key is what is found under it. Without the hypothesis an
earlier entry could hide it. -/
theorem lookup_of_mem (keys : (entries.map Prod.fst).Nodup) (member : (key, value) ∈ entries) :
    entries.lookup key = some value := by
  induction entries with
  | nil => cases member
  | cons entry entries ih =>
    rw [List.map_cons, List.nodup_cons] at keys
    rw [List.lookup_cons]
    rcases List.mem_cons.mp member with rfl | member
    · simp
    · have apart : (key == entry.1) = false := by
        refine beq_eq_false_iff_ne.mpr ?_
        intro same
        exact keys.1 (same ▸ List.mem_map_of_mem (f := Prod.fst) member)
      rw [apart]
      exact ih keys.2 member

/-- Nothing is found under what is no key. -/
theorem lookup_eq_none : entries.lookup key = none ↔ key ∉ entries.map Prod.fst := by
  refine List.lookup_eq_none_iff.trans ⟨fun absent member => ?_, fun absent entry member => ?_⟩
  · obtain ⟨entry, known, rfl⟩ := List.mem_map.mp member
    exact bne_iff_ne.mp (absent entry known) rfl
  · refine bne_iff_ne.mpr fun same => absent ?_
    exact same ▸ List.mem_map_of_mem (f := Prod.fst) member

/-- A key that is new is told apart from the others. It is how a table keeps its keys distinct when an entry
is added at its end. -/
theorem keys_concat (keys : (entries.map Prod.fst).Nodup) (unknown : entries.lookup key = none)
    (value : β) : ((entries ++ [(key, value)]).map Prod.fst).Nodup := by
  rw [List.map_append]
  exact keys.append (List.nodup_singleton _)
    (List.disjoint_singleton.mpr (lookup_eq_none.mp unknown))

end Lookup

section Filter

variable [DecidableEq α] {key other : α}

/-- Taking one key out of a table leaves the others: what was found under another key is found there still.
-/
theorem lookup_filter_ne (entries : List (α × β)) (different : other ≠ key) :
    (entries.filter fun entry => entry.1 ≠ key).lookup other = entries.lookup other := by
  induction entries with
  | nil => rfl
  | cons entry entries ih =>
    obtain ⟨name, value⟩ := entry
    rw [List.filter_cons]
    by_cases same : name = key
    · subst same
      rw [if_neg (by simp), ih, List.lookup_cons, beq_eq_false_iff_ne.mpr different]
    · rw [if_pos (by simpa using same), List.lookup_cons, List.lookup_cons, ih]

/-- Nothing is found under a key that was taken out, however many entries had it before. -/
theorem lookup_filter_self {entries : List (α × β)} :
    (entries.filter fun entry => entry.1 ≠ key).lookup key = none := by
  rw [List.lookup_eq_none_iff]
  intro entry member
  have other : entry.1 ≠ key := of_decide_eq_true (List.mem_filter.mp member).2
  exact bne_iff_ne.mpr other.symm

end Filter

end LanguageClient
