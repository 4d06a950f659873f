import LanguageClient.Json

/-!
# Decoding records

A record is written as an object with a field for each name, or as an array of the field values in
their order. An object may have other fields, which do not count; an array may not be longer than
the record. A shorter array leaves its last fields out, and only a field with a default may be left
out like that, whereas an optional field may also be missing from an object.

`Dialect` says what differs between the formats a record can come from.
-/

namespace LanguageClient

/-- How a format writes nothing. -/
structure Dialect where
  /-- Whether `null` for an optional field says that the field is absent. -/
  nullIsAbsent : Bool
  /-- Whether a value may stand for the empty content of a variant. -/
  isUnit : Json → Bool

namespace Json

/-- What JSON text says. -/
def dialect : Dialect := { nullIsAbsent := true, isUnit := isNull }

/-- A field of a record as it was found. -/
inductive Slot where
  | present (value : Json)
  /-- The object has no such field. -/
  | missing
  /-- The array ends before the field. -/
  | beyond
  deriving DecidableEq, Repr

/-- The fields of a record with the given names. -/
def slots? (names : List String) : Json → Option (List Slot)
  | .obj fields =>
    some (names.map fun name =>
      match lookup name fields with
      | some value => .present value
      | none => .missing)
  | .arr items =>
    if names.length < items.length then none
    else some (items.map .present ++ List.replicate (names.length - items.length) .beyond)
  | _ => none

namespace Slot

/-- A field that has to be there. -/
def required {α : Type} (decode : Json → Option α) : Slot → Option α
  | .present value => decode value
  | _ => none

/-- A field that may be absent, as the dialect says. -/
def optionalIn {α : Type} (dialect : Dialect) (decode : Json → Option α) : Slot → Option (Option α)
  | .present value =>
    if dialect.nullIsAbsent ∧ value.isNull then some none else (decode value).map some
  | .missing => some none
  | .beyond => none

/-- A field that may be absent or `null`. -/
def optional {α : Type} (decode : Json → Option α) (slot : Slot) : Option (Option α) :=
  slot.optionalIn dialect decode

/-- A field that has a value when it is left out. -/
def orElse {α : Type} (value : α) (decode : Slot → Option α) : Slot → Option α
  | .present found => decode (.present found)
  | _ => some value

end Slot

def string? : Json → Option String
  | .str text => some text
  | _ => none

def bool? : Json → Option Bool
  | .bool value => some value
  | _ => none

def int? : Json → Option Int
  | .num (.int n) => some n
  | _ => none

/-- An integer between the two bounds. -/
def intWithin? (low high : Int) (value : Json) : Option Int := do
  let n ← value.int?
  if low ≤ n ∧ n ≤ high then some n else none

def int64? (value : Json) : Option Int64 :=
  (value.intWithin? leastInteger greatestInteger).map Int64.ofInt

def int32? (value : Json) : Option Int32 :=
  (value.intWithin? (-(Nat.pow 2 31 : Int)) ((Nat.pow 2 31 : Int) - 1)).map Int32.ofInt

def uint32? (value : Json) : Option UInt32 :=
  (value.intWithin? 0 ((Nat.pow 2 32 : Int) - 1)).map fun n => UInt32.ofNat n.toNat

/-- A floating-point number; an integer is rounded to one. -/
def binary64? : Json → Option Binary64
  | .num (.float x) => some x
  | .num (.int n) => Binary64.ofNat? (n < 0) n.natAbs
  | _ => none

def any? (value : Json) : Option Json := some value

def list? {α : Type} (decode : Json → Option α) : Json → Option (List α)
  | .arr items => items.mapM decode
  | _ => none

/-- A list is read value by value: whatever is in the list that was read was read from some item of it. -/
theorem list?_mem {α : Type} {decode : Json → Option α} {value : Json} {found : List α}
    (read : list? decode value = some found) {entry : α} (member : entry ∈ found) :
    ∃ item, decode item = some entry := by
  cases value with
  | arr items =>
    simp only [list?] at read
    induction items generalizing found with
    | nil =>
      cases read
      cases member
    | cons item items ih =>
      simp only [List.mapM_cons, Option.bind_eq_bind, Option.bind_eq_some_iff] at read
      obtain ⟨first, decoded, rest, others, same⟩ := read
      cases same
      rcases List.mem_cons.mp member with rfl | member
      · exact ⟨item, decoded⟩
      · exact ih member others
  | _ => cases read

/-- The same of a field that has to be there and holds a list. -/
theorem required_list?_mem {α : Type} {decode : Json → Option α} {slot : Slot}
    {found : List α} (read : slot.required (list? decode) = some found) {entry : α}
    (member : entry ∈ found) : ∃ item, decode item = some entry := by
  cases slot with
  | present value => exact list?_mem read member
  | _ => cases read

/-- The name of a variant without content: the text itself, or an object with that one key. -/
def variant? (dialect : Dialect) : Json → Option String
  | .str name => some name
  | .obj [(name, content)] => if dialect.isUnit content then some name else none
  | _ => none

end Json

end LanguageClient
