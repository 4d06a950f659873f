import LanguageClient.Protocol.Location
import LanguageClient.Rewriter
import Mathlib.Data.List.Forall2

/-!
# Decoding what was rewritten

A payload is rewritten as a tree, by the keys of its fields, and decoded afterwards, by the names of
records. `Rewriter.Turns` is what a value becomes at its place, which is a key or none: the items of
an array stand under no key, also where the array is a record. Records are found where they were
(`slots_turn`), each field turned at its own place, so a decoder that reads no text says the same
before and after (`Blind`).
-/

namespace LanguageClient

namespace Rewriter

variable {rewriter : Rewriter} {direction : Direction} {names : List String}
  {place : Option String} {value turned : Json}

/-! ## What a value becomes -/

/-- What a value becomes at its place, if nothing in it fails. -/
def Turns (rewriter : Rewriter) (direction : Direction) (names : List String) :
    Option String → Json → Json → Prop
  | none, value, turned => rewriter.rewrite direction names value = (turned, none)
  | some key, value, turned => rewriter.rewriteField direction names key value = (turned, none)

/-- Whether a text at the place is an address. -/
def Addressed (names : List String) : Option String → Bool
  | none => false
  | some key => names.contains key

/-- If nothing in an array fails, each of its items turns, at no key. -/
theorem rewriteItems_turns {items turned : List Json}
    (done : rewriter.rewriteItems direction names items = (turned, none)) :
    List.Forall₂ (rewriter.Turns direction names none) items turned := by
  induction items generalizing turned with
  | nil =>
    cases done
    exact .nil
  | cons item items ih =>
    unfold rewriteItems at done
    split at done
    next => cases done
    next written first =>
      cases rest : rewriter.rewriteItems direction names items with
      | mk written failure =>
        rw [rest] at done
        cases done
        exact .cons first (ih rest)

/-- If nothing in an object fails, each of its fields turns at its own key, and the keys stay where they
are. -/
theorem rewriteFields_turns {fields turned : List (String × Json)}
    (done : rewriter.rewriteFields direction names fields = (turned, none)) :
    List.Forall₂ (fun before after => before.1 = after.1 ∧
      rewriter.Turns direction names (some before.1) before.2 after.2) fields turned := by
  induction fields generalizing turned with
  | nil =>
    cases done
    exact .nil
  | cons field fields ih =>
    unfold rewriteFields at done
    split at done
    next => cases done
    next written first =>
      cases rest : rewriter.rewriteFields direction names fields with
      | mk written failure =>
        rw [rest] at done
        cases done
        exact .cons ⟨rfl, first⟩ (ih rest)

/-- What the parts of a value become, whatever its place. Only a text depends on the place; arrays and
objects turn part by part, and the rest stays as it is. -/
theorem Turns.cases (turns : rewriter.Turns direction names place value turned) :
    match value with
    | .str text => ∃ written, turned = .str written ∧
        (if Addressed names place then rewriter.convertText direction text else .ok text) = .ok written
    | .arr items => ∃ written, turned = .arr written ∧
        List.Forall₂ (rewriter.Turns direction names none) items written
    | .obj fields => ∃ written, turned = .obj written ∧
        List.Forall₂ (fun before after => before.1 = after.1 ∧
          rewriter.Turns direction names (some before.1) before.2 after.2) fields written
    | other => turned = other := by
  cases value with
  | null | bool | num => cases place <;> cases turns <;> rfl
  | str text =>
    cases place with
    | none =>
      cases turns
      exact ⟨text, rfl, rfl⟩
    | some key =>
      -- only a string has to do with the name that it stands under
      simp only [Turns, rewriteField] at turns
      by_cases named : key ∈ names
      · have addressed : Addressed names (some key) = true := List.contains_iff_mem.mpr named
        simp only [named, if_true] at turns
        split at turns
        next written converted =>
          cases turns
          exact ⟨written, rfl, by rw [addressed]; exact converted⟩
        next => cases turns
      · have addressed : ¬ Addressed names (some key) = true :=
          fun contained => named (List.contains_iff_mem.mp contained)
        simp only [named, if_false] at turns
        cases turns
        exact ⟨text, rfl, if_neg addressed⟩
  | arr items =>
    cases done : rewriter.rewriteItems direction names items with
    | mk written failure =>
      cases place <;>
      · simp only [Turns, rewrite, rewriteField, done] at turns
        cases turns
        exact ⟨written, rfl, rewriteItems_turns done⟩
  | obj fields =>
    cases done : rewriter.rewriteFields direction names fields with
    | mk written failure =>
      cases place <;>
      · simp only [Turns, rewrite, rewriteField, done] at turns
        cases turns
        exact ⟨written, rfl, rewriteFields_turns done⟩

/-! ## Records -/

/-- What a field of a record becomes at its place. -/
inductive SlotTurns (rewriter : Rewriter) (direction : Direction) (names : List String)
    (place : Option String) : Json.Slot → Json.Slot → Prop
  | present {value turned : Json} (turns : rewriter.Turns direction names place value turned) :
    SlotTurns rewriter direction names place (.present value) (.present turned)
  | missing : SlotTurns rewriter direction names place .missing .missing
  | beyond : SlotTurns rewriter direction names place .beyond .beyond

/-- What the fields of a record become, each at its place. -/
inductive SlotsTurn (rewriter : Rewriter) (direction : Direction) (names : List String) :
    List (Option String) → List Json.Slot → List Json.Slot → Prop
  | nil : SlotsTurn rewriter direction names [] [] []
  | cons {place : Option String} {places : List (Option String)} {slot turned : Json.Slot}
      {slots rest : List Json.Slot} (head : rewriter.SlotTurns direction names place slot turned)
      (tail : SlotsTurn rewriter direction names places slots rest) :
    SlotsTurn rewriter direction names (place :: places) (slot :: slots) (turned :: rest)

/-- The place of a field of a record, which is a key only where the record is an object. -/
def placeIn : Json → String → Option String
  | .obj _, name => some name
  | _, _ => none

/-- Fields are found where they were, as rewriting keeps the keys and their order, also where a key occurs
twice. -/
theorem lookup_turns {fields turned : List (String × Json)} (name : String)
    (turns : List.Forall₂ (fun before after => before.1 = after.1 ∧
      rewriter.Turns direction names (some before.1) before.2 after.2) fields turned) :
    match Json.lookup name fields, Json.lookup name turned with
    | none, none => True
    | some value, some turned => rewriter.Turns direction names (some name) value turned
    | _, _ => False := by
  induction turns with
  | nil => trivial
  | @cons before after fields turned head _ ih =>
    obtain ⟨same, turns⟩ := head
    by_cases found : before.1 = name
    · have there : after.1 = name := same ▸ found
      simp only [Json.lookup, found, there, if_true]
      exact found ▸ turns
    · have elsewhere : ¬ after.1 = name := same ▸ found
      simp only [Json.lookup, found, elsewhere, if_false]
      exact ih

/-- The items of an array that is a record, of which the last may be left out. All of them are at no key,
which is why an address in such a record is not converted. -/
theorem items_turn {items turned : List Json}
    (turns : List.Forall₂ (rewriter.Turns direction names none) items turned) (absent : Nat) :
    rewriter.SlotsTurn direction names (List.replicate (items.length + absent) none)
      (items.map .present ++ List.replicate absent .beyond)
      (turned.map .present ++ List.replicate absent .beyond) := by
  induction turns with
  | nil =>
    rw [List.length_nil, Nat.zero_add, List.map_nil, List.nil_append]
    induction absent with
    | zero => exact .nil
    | succ absent ih => exact .cons .beyond ih
  | @cons item _ items _ head _ ih =>
    rw [List.length_cons, Nat.add_right_comm]
    exact .cons (.present head) ih

/-- A record is found where it was, and its fields turn each at its place. A value that is no such record
turns into one that is none either. -/
theorem slots_turn (turns : rewriter.Turns direction names place value turned)
    (wanted : List String) :
    match value.slots? wanted, turned.slots? wanted with
    | none, none => True
    | some slots, some turned =>
      rewriter.SlotsTurn direction names (wanted.map (placeIn value)) slots turned
    | _, _ => False := by
  have become := turns.cases
  -- only an object has names; the items of an array are taken in order and have none
  cases value with
  | null | bool | num =>
    cases become
    trivial
  | str text =>
    obtain ⟨written, rfl, -⟩ := become
    trivial
  | obj fields =>
    obtain ⟨written, rfl, parts⟩ := become
    simp only [Json.slots?]
    induction wanted with
    | nil => exact .nil
    | cons name wanted ih =>
      refine .cons ?_ ih
      have found := lookup_turns name parts
      cases before : Json.lookup name fields <;> cases after : Json.lookup name written <;>
        simp only [before, after] at found ⊢
      · exact .missing
      · exact .present found
  | arr items =>
    obtain ⟨written, rfl, parts⟩ := become
    have same := parts.length_eq
    simp only [Json.slots?, ← same]
    by_cases long : wanted.length < items.length
    · simp only [long, if_true]
    · simp only [long, if_false]
      have counted : items.length + (wanted.length - items.length) = wanted.length := by omega
      have places : wanted.map (placeIn (.arr items)) = List.replicate wanted.length none :=
        List.map_const' ..
      rw [places]
      simpa only [counted] using items_turn parts (wanted.length - items.length)

/-- A record of two fields before and after, with the fields named. The decoders of ranges, positions and
locations start from this. -/
theorem slots_turn_pair (turns : rewriter.Turns direction names place value turned)
    (first second : String) :
    (value.slots? [first, second] = none ∧ turned.slots? [first, second] = none) ∨
      ∃ a b a' b', value.slots? [first, second] = some [a, b] ∧
        turned.slots? [first, second] = some [a', b'] ∧
        rewriter.SlotTurns direction names (placeIn value first) a a' ∧
        rewriter.SlotTurns direction names (placeIn value second) b b' := by
  have found := slots_turn turns [first, second]
  cases before : value.slots? [first, second] <;> cases after : turned.slots? [first, second] <;>
    simp only [before, after] at found
  · exact .inl ⟨rfl, rfl⟩
  · cases found with
    | cons one rest =>
      cases rest with
      | cons two rest =>
        cases rest
        exact .inr ⟨_, _, _, _, rfl, rfl, one, two⟩

/-! ## Decoders that read no text -/

/-- A decoder that says the same of a value and of what the value becomes. -/
def Blind {α : Type} (rewriter : Rewriter) (direction : Direction) (names : List String)
    (decode : Json → Option α) : Prop :=
  ∀ place value turned, rewriter.Turns direction names place value turned →
    decode turned = decode value

/-- A field that has to be there is read the same before and after by a decoder that is blind to the
rewriting. -/
theorem SlotTurns.required {α : Type} {decode : Json → Option α} {slot turned : Json.Slot}
    (turns : rewriter.SlotTurns direction names place slot turned)
    (blind : rewriter.Blind direction names decode) :
    turned.required decode = slot.required decode := by
  cases turns with
  | present turns => exact blind _ _ _ turns
  | missing | beyond => rfl

/-- What turns is null just if it was null before. -/
theorem Turns.isNull (turns : rewriter.Turns direction names place value turned) :
    turned.isNull = value.isNull := by
  have become := turns.cases
  cases value with
  | null | bool | num =>
    cases become
    rfl
  | str | arr | obj =>
    obtain ⟨_, rfl, -⟩ := become
    rfl

/-- The same for a field that may be missing or null. -/
theorem SlotTurns.optional {α : Type} {decode : Json → Option α} {slot turned : Json.Slot}
    (turns : rewriter.SlotTurns direction names place slot turned)
    (blind : rewriter.Blind direction names decode) :
    turned.optional decode = slot.optional decode := by
  cases turns with
  | present turns =>
    simp only [Json.Slot.optional, Json.Slot.optionalIn, turns.isNull, blind _ _ _ turns]
  | missing | beyond => rfl

/-- A number is read the same, as no number is rewritten and nothing turns into one. -/
theorem blind_uint32 : rewriter.Blind direction names Json.uint32? := by
  intro place value turned turns
  have become := turns.cases
  cases value with
  | null | bool | num =>
    cases become
    rfl
  | str | arr | obj =>
    obtain ⟨_, rfl, -⟩ := become
    rfl

/-- A position has no address in it, so it is read the same, whether it is an object or an array. -/
theorem blind_position : rewriter.Blind direction names Position.ofJson? := by
  intro place value turned turns
  unfold Position.ofJson?
  obtain ⟨before, after⟩ | ⟨_, _, _, _, before, after, line, character⟩ :=
    slots_turn_pair turns "line" "character"
  · rw [before, after]
  · rw [before, after]
    simp only [Option.bind_eq_bind, Option.bind_some, line.required blind_uint32,
      character.required blind_uint32]

/-- Nor has a range, whose two positions are read the same. -/
theorem blind_range : rewriter.Blind direction names Range.ofJson? := by
  intro place value turned turns
  unfold Range.ofJson?
  obtain ⟨before, after⟩ | ⟨_, _, _, _, before, after, start, stop⟩ :=
    slots_turn_pair turns "start" "end"
  · rw [before, after]
  · rw [before, after]
    simp only [Option.bind_eq_bind, Option.bind_some, start.required blind_position,
      stop.required blind_position]

end Rewriter

end LanguageClient
