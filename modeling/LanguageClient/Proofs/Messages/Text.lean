import LanguageClient.Json.Parser
import LanguageClient.Json.Printer

/-!
# Reading back what was written

The reader takes back the text of every value whose numbers are integers of 64 bits and that is not
nested too deep (`Json.parse?_text`). Since it puts the fields of an object in key order, what it gives
is the value itself if its fields are in that order already (`Json.ordered_of_sorted`), and else the
value with its fields in order (`Json.ordered`).

Nothing is said of numbers that are no integers of 64 bits: their text is read as a floating-point
number, which need not be the one that was written.
-/

namespace LanguageClient

namespace Json

variable {rest : List Char}

/-! ## Digits -/

/-- Whether what follows a number cannot be a part of it. -/
def EndsNumber (rest : List Char) : Prop :=
  ∀ c ∈ rest.head?, c.isDigit = false ∧ c ≠ '.' ∧ c ≠ 'e' ∧ c ≠ 'E'

/-- The end of a text ends a number. -/
theorem endsNumber_nil : EndsNumber [] := by
  rintro c ⟨⟩

/-- So does what follows a value inside an array or an object. -/
theorem endsNumber_cons {c : Char} (mark : c = ',' ∨ c = ']' ∨ c = '\x7d') :
    EndsNumber (c :: rest) := by
  rintro d same
  cases Option.some.inj same
  rcases mark with rfl | rfl | rfl <;> decide

/-- The digits in front are all of the digits, if what follows ends the number. -/
theorem spanDigits_append {digits : List Char} (all : ∀ c ∈ digits, c.isDigit = true)
    (ends : EndsNumber rest) : spanDigits (digits ++ rest) = (digits, rest) := by
  induction digits with
  | nil =>
    cases rest with
    | nil => rfl
    | cons c rest => simp only [List.nil_append, spanDigits, (ends c rfl).1, Bool.false_eq_true, if_false]
  | cons c digits ih =>
    have digit := all c List.mem_cons_self
    have others := ih fun d member => all d (List.mem_cons_of_mem _ member)
    simp only [List.cons_append, spanDigits, digit, others, if_true]

/-- A number does not get smaller by more digits. -/
theorem le_ofDigitChars (digits : List Char) (n : Nat) : n ≤ Nat.ofDigitChars 10 digits n := by
  induction digits generalizing n with
  | nil => exact Nat.le_refl n
  | cons c digits ih =>
    rw [Nat.ofDigitChars_cons]
    have later := ih (10 * n + (c.toNat - '0'.toNat))
    omega

/-- Digits of a number that fits 64 bits all count, so that none is left over for an exponent. The induction
is on the digits, and every number on the way fits because the last one does. -/
theorem accumulate_eq {digits : List Char} {n : Nat}
    (fits : (Nat.ofDigitChars 10 digits n : Int) ≤ greatestNatural) :
    accumulate n digits = (Nat.ofDigitChars 10 digits n, 0) := by
  induction digits generalizing n with
  | nil => rfl
  | cons c digits ih =>
    rw [Nat.ofDigitChars_cons] at fits ⊢
    have value : 10 * n + (c.toNat - '0'.toNat) = n * 10 + digitValue c := by
      rw [Nat.mul_comm]
      rfl
    rw [value] at fits ⊢
    have small := le_ofDigitChars digits (n * 10 + digitValue c)
    unfold accumulate
    dsimp only
    rw [if_neg (by omega)]
    exact ih fits

/-- The digits of a number start with a zero only if there is nothing else. -/
theorem toDigits_zero {m : Nat} {digits : List Char} (zero : Nat.toDigits 10 m = '0' :: digits) :
    digits = [] := by
  induction m using Nat.strongRecOn generalizing digits with
  | ind m ih =>
    by_cases small : m < 10
    · rw [Nat.toDigits_of_lt_base small] at zero
      exact (List.cons.inj zero).2.symm
    · rw [Nat.toDigits_of_base_le (by decide) (by omega)] at zero
      cases front : Nat.toDigits 10 (m / 10) with
      | nil => exact absurd front Nat.toDigits_ne_nil
      | cons c others =>
        rw [front, List.cons_append] at zero
        obtain ⟨rfl, -⟩ := List.cons.inj zero
        have alone := ih (m / 10) (by omega) front
        have value : Nat.ofDigitChars 10 (Nat.toDigits 10 (m / 10)) 0 = m / 10 :=
          Nat.ofDigitChars_toDigits (by decide) (by decide)
        rw [front, alone] at value
        have none : m / 10 = 0 := value.symm
        omega

/-- The digits of a natural number are read as a whole number. A leading zero would stop the reader, but
there is none unless it is all there is. -/
theorem wholeDigits?_toDigits (m : Nat) (ends : EndsNumber rest) :
    wholeDigits? (Nat.toDigits 10 m ++ rest) = some (Nat.toDigits 10 m, rest) := by
  have all : ∀ c ∈ Nat.toDigits 10 m, c.isDigit = true := fun c member =>
    Nat.isDigit_of_mem_toDigits (by decide) (by decide) member
  unfold wholeDigits?
  rw [spanDigits_append all ends]
  split
  next none => exact absurd (Prod.mk.inj none).1 Nat.toDigits_ne_nil
  next zero =>
    cases toDigits_zero (Prod.mk.inj zero).1
  next same =>
    obtain ⟨rfl, rfl⟩ := Prod.mk.inj same
    rfl

/-- Digits that fit 64 bits with their sign are read as an integer, to which no fraction and no exponent
belongs. -/
theorem unsignedNumber?_toDigits {negative : Bool} {m : Nat} {n : Number}
    (fits : (m : Int) ≤ greatestNatural) (read : integer? negative m = some n)
    (ends : EndsNumber rest) :
    unsignedNumber? negative (Nat.toDigits 10 m ++ rest) = some (n, rest) := by
  have value : Nat.ofDigitChars 10 (Nat.toDigits 10 m) 0 = m :=
    Nat.ofDigitChars_toDigits (by decide) (by decide)
  have whole : accumulate 0 (Nat.toDigits 10 m) = (m, 0) := by
    rw [accumulate_eq (by rw [value]; exact fits), value]
  unfold unsignedNumber?
  simp only [wholeDigits?_toDigits m ends, Option.bind_eq_bind, Option.bind_some, whole]
  split
  next => exact absurd rfl (ends _ rfl).2.1
  next => exact absurd rfl (ends _ rfl).2.2.1
  next => exact absurd rfl (ends _ rfl).2.2.2
  next => rw [if_pos trivial, read, Option.bind_some]

/-- A negative number is shown by a sign and the digits of its opposite. -/
theorem numberChars_negSucc (m : Nat) :
    numberChars (.int (.negSucc m)) = '-' :: Nat.toDigits 10 (m + 1) := by
  have shown : toString (Int.negSucc m) = "-" ++ (m + 1).repr := rfl
  rw [numberChars, shown, String.toList_append, Nat.toList_repr]
  rfl

/-- The text of an integer is read as that integer, whatever follows, if it cannot be taken for more of the
number. The sign decides which of the two ranges the digits have to fit. -/
theorem number?_int {n : Int} (fits : Integral (int n)) (ends : EndsNumber rest) :
    number? (numberChars (.int n) ++ rest) = some (.int n, rest) := by
  obtain ⟨low, high⟩ := fits
  cases n with
  | ofNat m =>
    have written : numberChars (.int (.ofNat m)) = Nat.toDigits 10 m := Nat.toList_repr
    rw [written]
    have read : unsignedNumber? false (Nat.toDigits 10 m ++ rest) = some (.int m, rest) :=
      unsignedNumber?_toDigits high rfl ends
    unfold number?
    split
    next same =>
      cases digits : Nat.toDigits 10 m with
      | nil => exact absurd digits Nat.toDigits_ne_nil
      | cons c others =>
        rw [digits, List.cons_append] at same
        have digit : c.isDigit = true :=
          Nat.isDigit_of_mem_toDigits (by decide) (by decide) (digits ▸ List.mem_cons_self)
        rw [(List.cons.inj same).1] at digit
        exact absurd digit (by decide)
    next => exact read
  | negSucc m =>
    have least : (m : Int) + 1 ≤ (Nat.pow 2 63 : Int) := by
      unfold leastInteger at low
      omega
    have below : (Nat.pow 2 63 : Int) ≤ greatestNatural := by decide
    have inside : ¬ (m + 1 = 0 ∨ Nat.pow 2 63 < m + 1) := by omega
    have signed : integer? true (m + 1) = some (.int (.negSucc m)) := by
      unfold integer?
      rw [if_pos rfl, if_neg inside]
      rfl
    have fits : ((m + 1 : Nat) : Int) ≤ greatestNatural := by omega
    rw [numberChars_negSucc]
    exact unsignedNumber?_toDigits fits signed ends

/-! ## Strings -/

/-- A hexadecimal digit is read as its value. -/
theorem hexValue?_hexDigit : ∀ n < 16, hexValue? (hexDigit n) = some n := by decide

/-- The code of a character is read as the character. No half of a pair is the code of one. -/
theorem charOf?_toNat (c : Char) : charOf? c.toNat = some c := by
  have valid : c.toNat.isValidChar := c.valid
  have same := Char.ofNat_toNat c
  unfold Char.ofNat at same
  rw [dif_pos valid] at same
  unfold charOf?
  rw [dif_pos valid, same]

/-- A control character comes out of its code. It is below 32, so the first two of the four digits are
zeros. -/
theorem unicodeEscape?_control {c : Char} (control : c.toNat < 32) :
    unicodeEscape? ('0' :: '0' :: hexDigit (c.toNat / 16) :: hexDigit (c.toNat % 16) :: rest) =
      some (c, rest) := by
  have value : ((0 * 16 + 0) * 16 + c.toNat / 16) * 16 + c.toNat % 16 = c.toNat := by omega
  have four : hexFour? ('0' :: '0' :: hexDigit (c.toNat / 16) :: hexDigit (c.toNat % 16) :: rest) =
      some (c.toNat, rest) := by
    have zero : hexValue? '0' = some 0 := rfl
    simp only [hexFour?, zero, hexValue?_hexDigit _ (show c.toNat / 16 < 16 by omega),
      hexValue?_hexDigit _ (show c.toNat % 16 < 16 by omega), Option.bind_eq_bind,
      Option.bind_some, value]
  unfold unicodeEscape?
  simp only [four, Option.bind_eq_bind, Option.bind_some]
  rw [if_neg (by omega), if_neg (by omega), charOf?_toNat]
  rfl

/-- A character comes out of the text that stands for it: a short escape, a code, or the character itself.
One step of the reader is enough for each. -/
theorem stringBody_escape (c : Char) (fuel : Nat) (rest : List Char) :
    stringBody (fuel + 1) (escape c ++ rest) =
      (stringBody fuel rest).map fun (cs, rest) => (c :: cs, rest) := by
  unfold escape
  iterate 7
    split
    next short =>
      subst short
      exact (Option.map_eq_bind ..).symm
  split
  next control =>
    simp only [List.cons_append, List.nil_append, stringBody, unicodeEscape?_control control,
      Option.bind_eq_bind, Option.bind_some]
    exact (Option.map_eq_bind ..).symm
  next quote backslash _ _ _ _ _ plain =>
    rw [List.singleton_append, stringBody]
    · rw [if_neg]
      · exact (Option.map_eq_bind ..).symm
      · simpa [backslash] using plain
    · exact quote
    · rintro d others same -
      exact backslash same

/-- The characters of a text come out one after the other, up to the quote after them. By induction on the
text, with one unit of fuel for each. -/
theorem stringBody_flatMap {text : List Char} {fuel : Nat} (enough : text.length < fuel)
    (rest : List Char) :
    stringBody fuel (text.flatMap escape ++ '"' :: rest) = some (text, rest) := by
  induction text generalizing fuel with
  | nil =>
    cases fuel with
    | zero => cases enough
    | succ fuel => rfl
  | cons c text ih =>
    cases fuel with
    | zero => cases enough
    | succ fuel =>
      rw [List.flatMap_cons, List.append_assoc, stringBody_escape,
        ih (Nat.lt_of_succ_lt_succ enough)]
      rfl

/-- A text in quotes with something behind it, as the reader meets it. -/
theorem quote_append (text : List Char) (rest : List Char) :
    quote text ++ rest = '"' :: (text.flatMap escape ++ '"' :: rest) := by
  simp only [quote, List.cons_append, List.append_assoc, List.nil_append]

/-- A text between quotes comes out of them, whatever follows it. No character of the escaped text is a
quote by itself, so the reader does not stop before the end. -/
theorem stringBody_quote (text : List Char) (rest : List Char) :
    stringBody ((text.flatMap escape ++ '"' :: rest).length + 1)
      (text.flatMap escape ++ '"' :: rest) = some (text, rest) := by
  refine stringBody_flatMap ?_ rest
  have longer : text.length ≤ (text.flatMap escape).length := by
    induction text with
    | nil => exact Nat.le_refl 0
    | cons c text ih =>
      have some_ : 0 < (escape c).length := by
        unfold escape
        repeat' split
        all_goals exact Nat.succ_pos _
      rw [List.flatMap_cons, List.length_append, List.length_cons]
      omega
  rw [List.length_append]
  omega

/-! ## Values -/

mutual

/-- The value with the fields of every object in key order. -/
def ordered : Json → Json
  | .null => .null
  | .bool b => .bool b
  | .num n => .num n
  | .str s => .str s
  | .arr items => .arr (orderedItems items)
  | .obj fields => object (orderedFields fields)

def orderedItems : List Json → List Json
  | [] => []
  | item :: rest => item.ordered :: orderedItems rest

def orderedFields : List (String × Json) → List (String × Json)
  | [] => []
  | field :: rest => (field.1, field.2.ordered) :: orderedFields rest

end

/-- Nothing is skipped in front of a character that is no blank. -/
theorem skipBlanks_cons {c : Char} (solid : isBlank c = false) :
    skipBlanks (c :: rest) = c :: rest := by
  unfold skipBlanks
  rw [if_neg (by rw [solid]; exact Bool.false_ne_true)]

/-- The first character of a number. -/
def StartsNumber (c : Char) : Prop := c = '-' ∨ c.isDigit = true

/-- A number starts with no character that is neither a sign nor a digit. -/
theorem StartsNumber.ne {c d : Char} (starts : StartsNumber c) (other : ¬ (d = '-' ∨ d.isDigit = true)) :
    c ≠ d := by
  rintro rfl
  exact other starts

/-- In particular it does not start with a blank. -/
theorem StartsNumber.solid {c : Char} (starts : StartsNumber c) : isBlank c = false := by
  simp only [isBlank, Bool.or_eq_false_iff, decide_eq_false_iff_not]
  exact ⟨⟨⟨starts.ne (by decide), starts.ne (by decide)⟩, starts.ne (by decide)⟩,
    starts.ne (by decide)⟩

/-- What starts like a number is read as one: its first character begins no other kind of value. -/
theorem value?_number {c : Char} (starts : StartsNumber c) (fuel depth : Nat) (rest : List Char) :
    value? (fuel + 1) depth (c :: rest) =
      (number? (c :: rest)).map fun (n, rest) => (.num n, rest) := by
  unfold value?
  rw [skipBlanks_cons starts.solid]
  split
  next none => cases none
  iterate 6
    next same => exact absurd (List.cons.inj same).1 (starts.ne (by decide))
  next d others _ _ _ _ _ _ same =>
    obtain ⟨rfl, rfl⟩ := List.cons.inj same
    rw [if_pos (by rw [Bool.or_eq_true, decide_eq_true_eq]; exact starts)]
    exact (Option.map_eq_bind ..).symm

/-- The text of an integer starts as a number does, with a sign or with a digit. -/
theorem numberChars_int (n : Int) : ∃ c others, numberChars (.int n) = c :: others ∧ StartsNumber c := by
  cases n with
  | ofNat m =>
    have written : numberChars (.int (.ofNat m)) = Nat.toDigits 10 m := Nat.toList_repr
    cases digits : Nat.toDigits 10 m with
    | nil => exact absurd digits Nat.toDigits_ne_nil
    | cons c others =>
      have digit : c.isDigit = true :=
        Nat.isDigit_of_mem_toDigits (by decide) (by decide) (digits ▸ List.mem_cons_self)
      exact ⟨c, others, written.trans digits, .inr digit⟩
  | negSucc m => exact ⟨'-', _, numberChars_negSucc m, .inl rfl⟩

/-- The text of a value starts with no blank and closes no array. -/
theorem toChars_cons (v : Json) (integral : v.Integral) :
    ∃ c others, v.toChars = c :: others ∧ isBlank c = false ∧ c ≠ ']' := by
  match v with
  | .null => exact ⟨_, _, rfl, by decide, by decide⟩
  | .bool true => exact ⟨_, _, rfl, by decide, by decide⟩
  | .bool false => exact ⟨_, _, rfl, by decide, by decide⟩
  | .num (.int n) =>
    obtain ⟨c, others, written, starts⟩ := numberChars_int n
    exact ⟨c, others, written, starts.solid, starts.ne (by decide)⟩
  | .num (.float _) => exact integral.elim
  | .str s => exact ⟨_, _, rfl, by decide, by decide⟩
  | .arr items => exact ⟨_, _, rfl, by decide, by decide⟩
  | .obj fields => exact ⟨_, _, rfl, by decide, by decide⟩

/-- The text of some items starts as that of the first. -/
theorem itemsChars_cons {item : Json} (integral : item.Integral) (items : List Json) :
    ∃ c others, itemsChars (item :: items) = c :: others ∧ isBlank c = false ∧ c ≠ ']' := by
  obtain ⟨c, others, written, solid, open_⟩ := toChars_cons item integral
  cases items with
  | nil => exact ⟨c, others, written, solid, open_⟩
  | cons next items =>
    refine ⟨c, others ++ ',' :: itemsChars (next :: items), ?_, solid, open_⟩
    rw [itemsChars, written, List.cons_append]
    exact List.cons_ne_nil _ _

/-- The text of some fields starts with the quote of the first key. -/
theorem fieldsChars_cons (field : String × Json) (fields : List (String × Json)) :
    ∃ others, fieldsChars (field :: fields) = '"' :: others := by
  cases fields with
  | nil => exact ⟨_, rfl⟩
  | cons next fields => exact ⟨_, rfl⟩

/-- What starts with a quote is read as a text. -/
theorem value?_quote (fuel depth : Nat) (rest : List Char) :
    value? (fuel + 1) depth ('"' :: rest) = stringBody (rest.length + 1) rest >>=
      fun (text, rest) => some (.str (String.ofList text), rest) := rfl

/-- What starts with a bracket is read as an array, one level deeper. -/
theorem value?_bracket (fuel depth : Nat) (rest : List Char) :
    value? (fuel + 1) depth ('[' :: rest) =
      if depth ≤ 1 then none
      else
        match skipBlanks rest with
        | ']' :: rest => some (.arr [], rest)
        | rest => items? fuel (depth - 1) rest >>= fun (items, rest) => some (.arr items, rest) := rfl

/-- What starts with a brace is read as an object, one level deeper. -/
theorem value?_brace (fuel depth : Nat) (rest : List Char) :
    value? (fuel + 1) depth ('\x7b' :: rest) =
      if depth ≤ 1 then none
      else
        match skipBlanks rest with
        | '\x7d' :: rest => some (.obj [], rest)
        | rest => fields? fuel (depth - 1) rest >>= fun (fields, rest) => some (object fields, rest) :=
  rfl

/-- What stands between brackets is read as the items of an array. -/
theorem value?_items {c : Char} (solid : isBlank c = false) (open_ : c ≠ ']') {fuel depth : Nat}
    (deeper : 1 < depth) {items : List Json} {others rest : List Char}
    (read : items? fuel (depth - 1) (c :: others) = some (items, rest)) :
    value? (fuel + 1) depth ('[' :: c :: others) = some (.arr items, rest) := by
  rw [value?_bracket, if_neg (by omega), skipBlanks_cons solid]
  split
  next same => exact absurd (List.cons.inj same).1 open_
  next => rw [read]; rfl

/-- What stands between braces is read as the fields of an object. -/
theorem value?_fields {fuel depth : Nat} (deeper : 1 < depth) {fields : List (String × Json)}
    {others rest : List Char}
    (read : fields? fuel (depth - 1) ('"' :: others) = some (fields, rest)) :
    value? (fuel + 1) depth ('\x7b' :: '"' :: others) = some (object fields, rest) := by
  rw [value?_brace, if_neg (by omega), skipBlanks_cons (by decide)]
  exact congrArg (fun read => read >>= fun (fields, rest) => some (object fields, rest)) read

/-- An item that a bracket follows is the last. -/
theorem items?_last {fuel depth : Nat} {chars : List Char} {item : Json}
    (read : value? fuel depth chars = some (item, ']' :: rest)) :
    items? (fuel + 1) depth chars = some ([item], rest) := by
  rw [items?, read]
  rfl

/-- After an item that a comma follows, the others are read. -/
theorem items?_more {fuel depth : Nat} {chars others : List Char} {item : Json} {items : List Json}
    (read : value? fuel depth chars = some (item, ',' :: others))
    (more : items? fuel depth others = some (items, rest)) :
    items? (fuel + 1) depth chars = some (item :: items, rest) := by
  rw [items?, read, Option.bind_eq_bind, Option.bind_some]
  dsimp only
  rw [skipBlanks_cons (by decide)]
  exact congrArg (fun read => read >>= fun (items, rest) => some (item :: items, rest)) more

/-- What a field and those after it are read as, after the key. -/
def fieldsAfter? (fuel depth : Nat) (key : String) (chars : List Char) :
    Option (List (String × Json) × List Char) :=
  value? fuel depth chars >>= fun (value, rest) =>
    match skipBlanks rest with
    | '\x7d' :: rest => some ([(key, value)], rest)
    | ',' :: rest => fields? fuel depth rest >>= fun (fields, rest) =>
        some ((key, value) :: fields, rest)
    | _ => none

/-- A field is read from its quote on: the key, a colon, the value, and then the others or the end. -/
theorem fields?_open (fuel depth : Nat) (rest : List Char) :
    fields? (fuel + 1) depth ('"' :: rest) = stringBody (rest.length + 1) rest >>=
      fun (key, rest) =>
        match skipBlanks rest with
        | ':' :: rest => fieldsAfter? fuel depth (String.ofList key) rest
        | _ => none := rfl

/-- A key in quotes is read as the key, and the rest as what follows it. -/
theorem fields?_quote (fuel depth : Nat) (key : String) (chars : List Char) :
    fields? (fuel + 1) depth (quote key.toList ++ ':' :: chars) =
      fieldsAfter? fuel depth key chars := by
  rw [quote_append, fields?_open, stringBody_quote, Option.bind_eq_bind, Option.bind_some]
  dsimp only
  rw [skipBlanks_cons (by decide), String.ofList_toList]
  rfl

/-- A field that a brace follows is the last. -/
theorem fields?_last {fuel depth : Nat} {key : String} {value : Json} {chars : List Char}
    (read : value? fuel depth chars = some (value, '\x7d' :: rest)) :
    fields? (fuel + 1) depth (quote key.toList ++ ':' :: chars) = some ([(key, value)], rest) := by
  rw [fields?_quote, fieldsAfter?, read]
  rfl

/-- After a field that a comma follows, the others are read. -/
theorem fields?_more {fuel depth : Nat} {key : String} {value : Json} {chars others : List Char}
    {fields : List (String × Json)} (read : value? fuel depth chars = some (value, ',' :: others))
    (more : fields? fuel depth others = some (fields, rest)) :
    fields? (fuel + 1) depth (quote key.toList ++ ':' :: chars) =
      some ((key, value) :: fields, rest) := by
  rw [fields?_quote, fieldsAfter?, read, Option.bind_eq_bind, Option.bind_some]
  dsimp only
  rw [skipBlanks_cons (by decide)]
  exact congrArg (fun read => read >>= fun (fields, rest) =>
    some ((key, value) :: fields, rest)) more

/-- Items are shown with commas between them. -/
theorem itemsChars_more (item next : Json) (items : List Json) :
    itemsChars (item :: next :: items) = item.toChars ++ ',' :: itemsChars (next :: items) := rfl

/-- Fields are shown with commas between them, each with a colon behind its key. -/
theorem fieldsChars_more (field next : String × Json) (fields : List (String × Json)) :
    fieldsChars (field :: next :: fields) =
      quote field.1.toList ++ ':' :: field.2.toChars ++ ',' :: fieldsChars (next :: fields) := rfl

/-- An array with something behind it, as the reader meets it. -/
theorem toChars_arr_append (items : List Json) (rest : List Char) :
    (Json.arr items).toChars ++ rest = '[' :: (itemsChars items ++ ']' :: rest) := by
  simp only [toChars, List.cons_append, List.append_assoc, List.nil_append]

/-- An object with something behind it, as the reader meets it. -/
theorem toChars_obj_append (fields : List (String × Json)) (rest : List Char) :
    (Json.obj fields).toChars ++ rest = '\x7b' :: (fieldsChars fields ++ '\x7d' :: rest) := by
  simp only [toChars, List.cons_append, List.append_assoc, List.nil_append]

mutual

/-- The text of a value is read as the value with its fields in order, whatever follows that is no part
of a number. -/
theorem value?_toChars (v : Json) (integral : v.Integral) {fuel depth : Nat} {rest : List Char}
    (enough : v.toChars.length < fuel) (shallow : v.depth < depth) (ends : EndsNumber rest) :
    value? fuel depth (v.toChars ++ rest) = some (v.ordered, rest) := by
  obtain ⟨fuel, rfl⟩ : ∃ left, fuel = left + 1 := ⟨fuel - 1, by omega⟩
  -- on the value, together with the lists of items and fields, which are read by the two companions
  match v with
  | .null => rfl
  | .bool true => rfl
  | .bool false => rfl
  | .num (.int n) =>
    obtain ⟨c, others, written, starts⟩ := numberChars_int n
    have read := number?_int integral ends
    rw [written, List.cons_append] at read
    rw [toChars, written, List.cons_append, value?_number starts, read]
    rfl
  | .num (.float _) => exact integral.elim
  | .str s =>
    have read := stringBody_quote s.toList rest
    rw [toChars, quote_append, value?_quote, read, Option.bind_eq_bind, Option.bind_some]
    dsimp only
    rw [String.ofList_toList, ordered]
  | .arr [] =>
    have deeper : ¬ depth ≤ 1 := by
      simp only [Json.depth, depthItems] at shallow
      omega
    rw [toChars_arr_append, itemsChars, List.nil_append, value?_bracket, if_neg deeper]
    rfl
  | .arr (item :: items) =>
    simp only [Json.depth] at shallow
    simp only [toChars, List.length_cons, List.length_append, List.length_nil] at enough
    have read : items? fuel (depth - 1) (itemsChars (item :: items) ++ ']' :: rest) =
        some (orderedItems (item :: items), rest) :=
      items?_itemsChars (item :: items) (List.cons_ne_nil _ _) integral (by omega) (by omega)
    obtain ⟨c, others, written, solid, open_⟩ := itemsChars_cons integral.1 items
    rw [written, List.cons_append] at read
    rw [toChars_arr_append, written, List.cons_append]
    exact value?_items solid open_ (by omega) read
  | .obj [] =>
    have deeper : ¬ depth ≤ 1 := by
      simp only [Json.depth, depthFields] at shallow
      omega
    rw [toChars_obj_append, fieldsChars, List.nil_append, value?_brace, if_neg deeper]
    rfl
  -- an object is read like an array, with a name before each value
  | .obj (field :: fields) =>
    simp only [Json.depth] at shallow
    simp only [toChars, List.length_cons, List.length_append, List.length_nil] at enough
    have read : fields? fuel (depth - 1) (fieldsChars (field :: fields) ++ '\x7d' :: rest) =
        some (orderedFields (field :: fields), rest) :=
      fields?_fieldsChars (field :: fields) (List.cons_ne_nil _ _) integral (by omega) (by omega)
    obtain ⟨others, written⟩ := fieldsChars_cons field fields
    rw [written, List.cons_append] at read
    rw [toChars_obj_append, written, List.cons_append]
    exact value?_fields (by omega) read

/-- The items of an array are read up to its bracket. Each takes a unit of fuel, of which its text has
enough. -/
theorem items?_itemsChars (items : List Json) (some_ : items ≠ []) (integral : IntegralItems items)
    {fuel depth : Nat} {rest : List Char} (enough : (itemsChars items).length + 1 < fuel)
    (shallow : depthItems items < depth) :
    items? fuel depth (itemsChars items ++ ']' :: rest) = some (orderedItems items, rest) := by
  obtain ⟨fuel, rfl⟩ : ∃ left, fuel = left + 1 := ⟨fuel - 1, by omega⟩
  match items with
  | [] => exact absurd rfl some_
  | [item] =>
    simp only [depthItems] at shallow
    rw [itemsChars] at enough ⊢
    exact items?_last (value?_toChars item integral.1 (by omega) (by omega)
      (endsNumber_cons (.inr (.inl rfl))))
  | item :: next :: items =>
    rw [depthItems] at shallow
    rw [itemsChars_more] at enough ⊢
    simp only [List.length_append, List.length_cons] at enough
    rw [List.append_assoc, List.cons_append]
    exact items?_more
      (value?_toChars item integral.1 (by omega) (by omega) (endsNumber_cons (.inl rfl)))
      (items?_itemsChars (next :: items) (List.cons_ne_nil _ _) integral.2 (by omega) (by omega))

/-- The fields of an object are read up to its brace, each under its key. -/
theorem fields?_fieldsChars (fields : List (String × Json)) (some_ : fields ≠ [])
    (integral : IntegralFields fields) {fuel depth : Nat} {rest : List Char}
    (enough : (fieldsChars fields).length + 1 < fuel) (shallow : depthFields fields < depth) :
    fields? fuel depth (fieldsChars fields ++ '\x7d' :: rest) =
      some (orderedFields fields, rest) := by
  obtain ⟨fuel, rfl⟩ : ∃ left, fuel = left + 1 := ⟨fuel - 1, by omega⟩
  match fields with
  | [] => exact absurd rfl some_
  | [field] =>
    simp only [depthFields] at shallow
    simp only [fieldsChars, List.length_append, List.length_cons] at enough
    rw [fieldsChars, List.append_assoc, List.cons_append]
    exact fields?_last (value?_toChars field.2 integral.1 (by omega) (by omega)
      (endsNumber_cons (.inr (.inr rfl))))
  | field :: next :: fields =>
    rw [depthFields] at shallow
    rw [fieldsChars_more] at enough ⊢
    simp only [List.length_append, List.length_cons] at enough
    rw [List.append_assoc, List.append_assoc, List.cons_append, List.cons_append]
    exact fields?_more
      (value?_toChars field.2 integral.1 (by omega) (by omega) (endsNumber_cons (.inl rfl)))
      (fields?_fieldsChars (next :: fields) (List.cons_ne_nil _ _) integral.2 (by omega) (by omega))

end

/-- The text of a value is read as the value with its fields in order. -/
theorem parse?_text {v : Json} (integral : v.Integral) (shallow : v.depth < nestingLimit) :
    parse? v.text = some v.ordered := by
  have read := value?_toChars v integral (Nat.lt_succ_self _) shallow endsNumber_nil
  rw [List.append_nil] at read
  rw [parse?, text, String.toList_ofList, parseChars?, read]
  rfl

/-! ## Values whose fields are in order -/

/-- A field whose key is greater than every other comes last, since it is compared with each of them in
turn. -/
theorem insert_of_lt {key : String} {value : Json} {fields : List (String × Json)}
    (greater : ∀ field ∈ fields, field.1 < key) :
    insert key value fields = fields ++ [(key, value)] := by
  induction fields with
  | nil => rfl
  | cons field fields ih =>
    have first := greater field List.mem_cons_self
    have others := ih fun other member => greater other (List.mem_cons_of_mem _ member)
    have apart : key ≠ field.1 := by
      rintro rfl
      exact String.lt_irrefl _ first
    rw [insert, if_neg (String.lt_asymm first), if_neg apart, others]
    rfl

/-- Fields in increasing order stay where they are: each is greater than all that were inserted before, and
so comes last. -/
theorem foldl_insert {sorted fields : List (String × Json)}
    (increasing : ((sorted ++ fields).map Prod.fst).Pairwise (· < ·)) :
    fields.foldl (fun sorted field => insert field.1 field.2 sorted) sorted = sorted ++ fields := by
  induction fields generalizing sorted with
  | nil => exact (List.append_nil _).symm
  | cons field fields ih =>
    have greater : ∀ other ∈ sorted, other.1 < field.1 := by
      intro other member
      rw [List.map_append, List.pairwise_append] at increasing
      exact increasing.2.2 other.1 (List.mem_map_of_mem member) field.1 List.mem_cons_self
    rw [List.append_cons] at increasing
    rw [List.foldl_cons, insert_of_lt greater, ih increasing, ← List.append_cons]

/-- Fields in order are put in order by leaving them. -/
theorem sortFields_of_sorted {fields : List (String × Json)}
    (increasing : (fields.map Prod.fst).Pairwise (· < ·)) : sortFields fields = fields :=
  foldl_insert increasing

mutual

/-- A value whose fields are in order is left as it is. -/
theorem ordered_of_sorted (v : Json) (sorted : v.Sorted) : v.ordered = v := by
  match v with
  | .null | .bool _ | .num _ | .str _ => rfl
  | .arr items => rw [ordered, orderedItems_of_sorted items sorted]
  | .obj fields =>
    have same := orderedFields_of_sorted fields sorted.2
    rw [ordered, same, object, sortFields_of_sorted sorted.1]

/-- Items whose fields are in order are left as they are. -/
theorem orderedItems_of_sorted (items : List Json) (sorted : SortedItems items) :
    orderedItems items = items := by
  match items with
  | [] => rfl
  | item :: items =>
    rw [orderedItems, ordered_of_sorted item sorted.1, orderedItems_of_sorted items sorted.2]

/-- So are fields whose own fields are in order. -/
theorem orderedFields_of_sorted (fields : List (String × Json)) (sorted : SortedFields fields) :
    orderedFields fields = fields := by
  match fields with
  | [] => rfl
  | field :: fields =>
    rw [orderedFields, ordered_of_sorted field.2 sorted.1,
      orderedFields_of_sorted fields sorted.2]

end

end Json

end LanguageClient
