import LanguageClient.Proofs.Lists
import LanguageClient.Registrations

/-!
# Giving back what the host has handed out

The host numbers what it hands out. `Balanced` says that somebody holds or has given back each number
that it got, once in all: what is held no more was given back exactly once.

A table of registrations holds the providers of its ids: what is taken off the table is what is given
back.
-/

namespace LanguageClient

/-! ## Giving back -/

/-- Each of the numbers that somebody has got is held or was given back, once in all. -/
structure Balanced (mine : Nat → Prop) (held returned : List Nat) : Prop where
  own : ∀ number ∈ held, mine number
  once : ∀ number, mine number → held.count number + returned.count number = 1

namespace Balanced

variable {mine : Nat → Prop} {held held' returned gone : List Nat}

/-- Something new is handed out: it is held once and was never given back. It must not have been given back
before it was known, which is what the second hypothesis is for. -/
theorem grant (balanced : Balanced mine held returned) {number : Nat} (new : ¬ mine number)
    (unreturned : number ∉ returned) :
    Balanced (fun other => mine other ∨ other = number) (number :: held) returned where
  own other member := by
    rcases List.mem_cons.mp member with same | member
    · exact .inr same
    · exact .inl (balanced.own other member)
  once other known := by
    rcases known with known | rfl
    · have apart : number ≠ other := fun same => new (same ▸ known)
      rw [List.count_cons_of_ne apart]
      exact balanced.once other known
    · have unheld : other ∉ held := fun member => new (balanced.own other member)
      rw [List.count_cons_self, List.count_eq_zero.mpr unheld, List.count_eq_zero.mpr unreturned]

/-- Some of what is held is given back. The split counts with repetition, so nothing is given back twice in
one step. -/
theorem giveBack (balanced : Balanced mine held returned) (split : held.Perm (gone ++ held')) :
    Balanced mine held' (returned ++ gone) where
  own number member := balanced.own number (split.mem_iff.mpr (List.mem_append_right _ member))
  once number known := by
    have once := balanced.once number known
    have counts := split.count_eq number
    rw [List.count_append] at counts ⊢
    omega

/-- Others give back what is theirs, and that is nothing to this account. -/
theorem aside (balanced : Balanced mine held returned) (others : ∀ number ∈ gone, ¬ mine number) :
    Balanced mine held (returned ++ gone) where
  own := balanced.own
  once number known := by
    have absent : number ∉ gone := fun member => others number member known
    rw [List.count_append, List.count_eq_zero.mpr absent]
    exact balanced.once number known

/-- In which order things are held does not matter, as they are only counted. -/
theorem perm (balanced : Balanced mine held returned) (same : held.Perm held') :
    Balanced mine held' returned where
  own number member := balanced.own number (same.mem_iff.mpr member)
  once number known := by
    rw [← same.count_eq number]
    exact balanced.once number known

/-- The account is the same for whoever has got the same numbers. -/
theorem congr {yours : Nat → Prop} (balanced : Balanced mine held returned)
    (same : ∀ number, yours number ↔ mine number) : Balanced yours held returned where
  own number member := (same number).mpr (balanced.own number member)
  once number known := balanced.once number ((same number).mp known)

/-- Who holds nothing has given everything back, once. This is how the end of a session turns into a
statement about the host. -/
theorem settled (balanced : Balanced mine [] returned) {number : Nat} (known : mine number) :
    returned.count number = 1 := by
  have once := balanced.once number known
  simpa using once

end Balanced

/-! ## Registrations -/

namespace Registrations

variable {table : Registrations} {id other : RegistrationId} {active : ActiveRegistration}

/-- Each id stands for one thing. -/
def IsKeyed (table : Registrations) : Prop := (table.entries.map Prod.fst).Nodup

theorem isKeyed_empty : empty.IsKeyed := List.nodup_nil

theorem IsKeyed.erase (keyed : table.IsKeyed) (id : RegistrationId) : (table.erase id).IsKeyed :=
  keyed.sublist (List.Sublist.map _ List.filter_sublist)

/-- An id that is put into a table was taken off it first, so it stands for one thing there. -/
theorem IsKeyed.insert (keyed : table.IsKeyed) (id : RegistrationId)
    (active : ActiveRegistration) : (table.insert id active).IsKeyed :=
  keys_concat (keyed.erase id) lookup_filter_self active

/-- Nothing happens when an id is taken off that stands for nothing. -/
theorem erase_of_none (free : table.find? id = none) : table.erase id = table := by
  unfold erase
  congr 1
  refine List.filter_eq_self.mpr fun entry member => decide_eq_true ?_
  rintro rfl
  exact lookup_eq_none.mp free (List.mem_map_of_mem (f := Prod.fst) member)

/-- What the table holds is what an id stands for, and the rest. It is where keys that are told apart are
needed, since an id that stood there twice would lose both. -/
theorem perm_erase (keyed : table.IsKeyed) (found : table.find? id = some active) :
    table.providers.Perm ([active.provider] ++ (table.erase id).providers) := by
  obtain ⟨before, later, split, absent⟩ := List.lookup_eq_some_iff.mp found
  obtain ⟨entries⟩ := table
  dsimp only at split
  subst split
  have others : ∀ entry ∈ before ++ later, decide (entry.1 ≠ id) = true := by
    intro entry member
    refine decide_eq_true ?_
    unfold IsKeyed at keyed
    rw [List.map_append, List.map_cons] at keyed
    have apart := (List.nodup_middle.mp keyed).notMem
    intro same
    rw [← List.map_append] at apart
    exact apart (List.mem_map.mpr ⟨entry, member, same⟩)
  have kept : (before ++ (id, active) :: later).filter (fun entry => decide (entry.1 ≠ id)) =
      before ++ later := by
    rw [List.filter_append, List.filter_cons_of_neg (by simp), ← List.filter_append]
    exact List.filter_eq_self.mpr others
  unfold providers erase
  dsimp only
  rw [kept, List.map_append, List.map_cons, List.map_append]
  exact List.perm_middle

/-- A free id that is put into a table adds its provider behind the others and displaces none. -/
theorem providers_insert (free : table.find? id = none) :
    (table.insert id active).providers = table.providers ++ [active.provider] := by
  unfold insert
  rw [erase_of_none free]
  simp [providers]

/-- What an id stands for when another was taken off is what it stood for before, and the one that was taken
off stands for nothing. -/
theorem find?_erase (table : Registrations) (id other : RegistrationId) :
    (table.erase id).find? other = if other = id then none else table.find? other := by
  unfold find? erase
  induction table.entries with
  | nil => simp
  | cons entry entries ih =>
    obtain ⟨key, active⟩ := entry
    by_cases taken : key = id
    · rw [List.filter_cons_of_neg (by simp [taken]), ih, List.lookup_cons]
      by_cases same : other = id
      · rw [if_pos same, if_pos same]
      · have apart : (other == key) = false := beq_eq_false_iff_ne.mpr (taken ▸ same)
        rw [if_neg same, if_neg same, apart]
    · rw [List.filter_cons_of_pos (by simp [taken]), List.lookup_cons, List.lookup_cons, ih]
      by_cases same : other = key
      · have apart : other ≠ id := same ▸ taken
        rw [if_neg apart, if_neg apart]
      · rw [beq_eq_false_iff_ne.mpr same]

/-- What an id stands for when one was put in: the new one stands for what it was given, and the others for
what they did. -/
theorem find?_insert (table : Registrations) (id other : RegistrationId)
    (active : ActiveRegistration) :
    (table.insert id active).find? other =
      if other = id then some active else table.find? other := by
  have erased := table.find?_erase id other
  unfold find? at erased ⊢
  unfold insert
  rw [List.lookup_append, erased]
  by_cases same : other = id
  · simp [same]
  · simp [same, List.lookup_cons, beq_eq_false_iff_ne.mpr same]

end Registrations

end LanguageClient
