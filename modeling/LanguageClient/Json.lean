import LanguageClient.Binary64

/-!
# JSON values

The payloads of the protocol. An object is a list of fields in increasing key order without a
repeated key, so that two objects with the same fields are the same value. `Json.object` and
`Json.insert` keep that order, and `Json.Sorted` states it of a whole tree.

A number is an integer, or a binary floating-point number. Only integers between `-2 ^ 63` and
`2 ^ 64 - 1` come out of JSON text as integers.
-/

namespace LanguageClient

/-- A JSON number. -/
inductive Number where
  | int (value : Int)
  | float (value : Binary64)
  deriving DecidableEq, Repr

/-- A JSON value. -/
inductive Json where
  | null
  | bool (value : Bool)
  | num (value : Number)
  | str (text : String)
  | arr (items : List Json)
  | obj (fields : List (String × Json))
  deriving Inhabited, Repr

namespace Json

/-! ## Decidable equality -/

mutual

def decEq : (a b : Json) → Decidable (a = b)
  | .null, .null => isTrue rfl
  | .bool a, .bool b => if h : a = b then isTrue (h ▸ rfl) else isFalse (by simpa using h)
  | .num a, .num b => if h : a = b then isTrue (h ▸ rfl) else isFalse (by simpa using h)
  | .str a, .str b => if h : a = b then isTrue (h ▸ rfl) else isFalse (by simpa using h)
  | .arr a, .arr b =>
    match decEqItems a b with
    | isTrue h => isTrue (h ▸ rfl)
    | isFalse h => isFalse (by simpa using h)
  | .obj a, .obj b =>
    match decEqFields a b with
    | isTrue h => isTrue (h ▸ rfl)
    | isFalse h => isFalse (by simpa using h)
  | .null, .bool _ | .null, .num _ | .null, .str _ | .null, .arr _ | .null, .obj _
  | .bool _, .null | .bool _, .num _ | .bool _, .str _ | .bool _, .arr _ | .bool _, .obj _
  | .num _, .null | .num _, .bool _ | .num _, .str _ | .num _, .arr _ | .num _, .obj _
  | .str _, .null | .str _, .bool _ | .str _, .num _ | .str _, .arr _ | .str _, .obj _
  | .arr _, .null | .arr _, .bool _ | .arr _, .num _ | .arr _, .str _ | .arr _, .obj _
  | .obj _, .null | .obj _, .bool _ | .obj _, .num _ | .obj _, .str _ | .obj _, .arr _ =>
    isFalse (by intro h; cases h)

def decEqItems : (a b : List Json) → Decidable (a = b)
  | [], [] => isTrue rfl
  | [], _ :: _ | _ :: _, [] => isFalse (by intro h; cases h)
  | x :: xs, y :: ys =>
    match decEq x y, decEqItems xs ys with
    | isTrue h, isTrue h' => isTrue (h ▸ h' ▸ rfl)
    | isFalse h, _ => isFalse (by intro e; cases e; exact h rfl)
    | _, isFalse h => isFalse (by intro e; cases e; exact h rfl)

def decEqFields : (a b : List (String × Json)) → Decidable (a = b)
  | [], [] => isTrue rfl
  | [], _ :: _ | _ :: _, [] => isFalse (by intro h; cases h)
  | (k, x) :: xs, (l, y) :: ys =>
    match instDecidableEqString k l, decEq x y, decEqFields xs ys with
    | isTrue h, isTrue h', isTrue h'' => isTrue (h ▸ h' ▸ h'' ▸ rfl)
    | isFalse h, _, _ => isFalse (by intro e; cases e; exact h rfl)
    | _, isFalse h, _ => isFalse (by intro e; cases e; exact h rfl)
    | _, _, isFalse h => isFalse (by intro e; cases e; exact h rfl)

end

instance : DecidableEq Json := decEq

/-! ## Objects -/

/-- Puts a field in its place; the value of an equal key is replaced. -/
def insert (key : String) (value : Json) : List (String × Json) → List (String × Json)
  | [] => [(key, value)]
  | (k, v) :: rest =>
    if key < k then (key, value) :: (k, v) :: rest
    else if key = k then (key, value) :: rest
    else (k, v) :: insert key value rest

/-- The fields in key order; of several with one key the last counts. -/
def sortFields (fields : List (String × Json)) : List (String × Json) :=
  fields.foldl (fun sorted field => insert field.1 field.2 sorted) []

/-- The object with the given fields. -/
def object (fields : List (String × Json)) : Json := .obj (sortFields fields)

/-- The value of the first field with the given key. -/
def lookup (key : String) : List (String × Json) → Option Json
  | [] => none
  | (k, v) :: rest => if k = key then some v else lookup key rest

/-- The value of a field; none for a value that is no object. -/
def get? (value : Json) (key : String) : Option Json :=
  match value with
  | .obj fields => lookup key fields
  | _ => none

def isNull : Json → Bool
  | .null => true
  | _ => false

def int (value : Int) : Json := .num (.int value)

/-- The value under a key, or no field at all. -/
def field? (key : String) : Option Json → List (String × Json)
  | none => []
  | some value => [(key, value)]

/-! ## Sorted trees and number ranges -/

mutual

/-- Every object of the tree has its fields in strictly increasing key order. -/
def Sorted : Json → Prop
  | .arr items => SortedItems items
  | .obj fields => (fields.map Prod.fst).Pairwise (· < ·) ∧ SortedFields fields
  | _ => True

def SortedItems : List Json → Prop
  | [] => True
  | item :: rest => item.Sorted ∧ SortedItems rest

def SortedFields : List (String × Json) → Prop
  | [] => True
  | field :: rest => field.2.Sorted ∧ SortedFields rest

end

/-- The least integer of 64 bits with a sign. -/
def leastInteger : Int := -(Nat.pow 2 63 : Int)

/-- The greatest integer of 64 bits with a sign. -/
def greatestInteger : Int := (Nat.pow 2 63 : Int) - 1

/-- The greatest integer of 64 bits without a sign. -/
def greatestNatural : Int := (Nat.pow 2 64 : Int) - 1

mutual

/-- Every number of the tree is an integer that JSON text keeps as one. -/
def Integral : Json → Prop
  | .num (.int n) => leastInteger ≤ n ∧ n ≤ greatestNatural
  | .num (.float _) => False
  | .arr items => IntegralItems items
  | .obj fields => IntegralFields fields
  | _ => True

def IntegralItems : List Json → Prop
  | [] => True
  | item :: rest => item.Integral ∧ IntegralItems rest

def IntegralFields : List (String × Json) → Prop
  | [] => True
  | field :: rest => field.2.Integral ∧ IntegralFields rest

end

mutual

/-- The number of arrays and objects around the innermost value. -/
def depth : Json → Nat
  | .arr items => depthItems items + 1
  | .obj fields => depthFields fields + 1
  | _ => 0

def depthItems : List Json → Nat
  | [] => 0
  | item :: rest => max item.depth (depthItems rest)

def depthFields : List (String × Json) → Nat
  | [] => 0
  | field :: rest => max field.2.depth (depthFields rest)

end

mutual

/-- Whether every integer of the tree is one that JSON text keeps as an integer. -/
def inRange : Json → Bool
  | .num (.int n) => decide (leastInteger ≤ n ∧ n ≤ greatestNatural)
  | .arr items => inRangeItems items
  | .obj fields => inRangeFields fields
  | _ => true

def inRangeItems : List Json → Bool
  | [] => true
  | item :: rest => item.inRange && inRangeItems rest

def inRangeFields : List (String × Json) → Bool
  | [] => true
  | field :: rest => field.2.inRange && inRangeFields rest

end

end Json

end LanguageClient
