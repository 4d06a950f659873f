import LanguageClient.Proofs.Rewriting.Decoding
import LanguageClient.Proofs.Rewriting.Prefixes
import LanguageClient.Proofs.Traversal

/-!
# The addresses of a payload

A payload consists of its addresses, which are the texts directly under one of the given keys, at any
depth, and of all the rest, its skeleton (`Json.eq_of_skeleton`). To rewrite it is to convert its
addresses one after the other in the order in which the payload is walked, up to the first that fails
(`Rewriter.turn_converts`): the skeleton stays, the addresses in front of the failure are the converted
ones, and the failing one and those behind it stay as they were (`Rewriter.rewriteAll_addresses`). A text
in an array is no address, whatever the key of the array.

A payload comes back if the two directions undo each other and the texts are in normal form, those on the
way out and those on the way back: in between, a converted URL is only a text, and has to be read again.

A client that refuses some URLs on its own account rewrites a payload just if it has no such address and
can be rewritten without the refusal, and to the same result then (`Rewriter.rewriteAll_refusing`).
-/

namespace LanguageClient

namespace Json

open Rewriter (Addressed)

/-! ## Addresses and skeleton -/

mutual

/-- The addresses in a value at a place, in the order in which it is walked. -/
def addresses (names : List String) (place : Option String) : Json → List String
  | .str text => if Addressed names place then [text] else []
  | .arr items => itemAddresses names items
  | .obj fields => fieldAddresses names fields
  | .null | .bool _ | .num _ => []

def itemAddresses (names : List String) : List Json → List String
  | [] => []
  | item :: rest => addresses names none item ++ itemAddresses names rest

def fieldAddresses (names : List String) : List (String × Json) → List String
  | [] => []
  | (key, value) :: rest => addresses names (some key) value ++ fieldAddresses names rest

end

mutual

/-- A value at a place with its addresses blotted out. -/
def skeleton (names : List String) (place : Option String) : Json → Json
  | .str text => .str (if Addressed names place then "" else text)
  | .arr items => .arr (itemSkeletons names items)
  | .obj fields => .obj (fieldSkeletons names fields)
  | .null => .null
  | .bool b => .bool b
  | .num n => .num n

def itemSkeletons (names : List String) : List Json → List Json
  | [] => []
  | item :: rest => skeleton names none item :: itemSkeletons names rest

def fieldSkeletons (names : List String) : List (String × Json) → List (String × Json)
  | [] => []
  | (key, value) :: rest => (key, skeleton names (some key) value) :: fieldSkeletons names rest

end

variable {names : List String} {place : Option String} {a b : Json}

mutual

/-- Skeleton and addresses leave nothing open, whatever comes after the addresses. The texts behind are what
carries the induction over the items and fields: a value takes its addresses from the front of the list and
leaves the rest to those that follow. -/
theorem eq_of_addresses {xs ys : List String} (a b : Json) (place : Option String)
    (shape : a.skeleton names place = b.skeleton names place)
    (texts : a.addresses names place ++ xs = b.addresses names place ++ ys) : a = b ∧ xs = ys := by
  match a, b with
  | .null, .null => exact ⟨rfl, texts⟩
  | .bool _, .bool _ | .num _, .num _ =>
    simp only [skeleton, Json.bool.injEq, Json.num.injEq] at shape
    exact ⟨by rw [shape], texts⟩
  | .str _, .str _ =>
    simp only [skeleton, addresses, Json.str.injEq] at shape texts
    split at texts
    · obtain ⟨same, rest⟩ := List.cons.inj texts
      exact ⟨by rw [same], rest⟩
    next plain =>
      rw [if_neg plain, if_neg plain] at shape
      exact ⟨by rw [shape], texts⟩
  | .arr items, .arr others =>
    simp only [skeleton, addresses, Json.arr.injEq] at shape texts
    obtain ⟨same, rest⟩ := eq_of_itemAddresses items others shape texts
    exact ⟨by rw [same], rest⟩
  | .obj fields, .obj others =>
    simp only [skeleton, addresses, Json.obj.injEq] at shape texts
    obtain ⟨same, rest⟩ := eq_of_fieldAddresses fields others shape texts
    exact ⟨by rw [same], rest⟩
  | .null, .bool _ | .null, .num _ | .null, .str _ | .null, .arr _ | .null, .obj _
  | .bool _, .null | .bool _, .num _ | .bool _, .str _ | .bool _, .arr _ | .bool _, .obj _
  | .num _, .null | .num _, .bool _ | .num _, .str _ | .num _, .arr _ | .num _, .obj _
  | .str _, .null | .str _, .bool _ | .str _, .num _ | .str _, .arr _ | .str _, .obj _
  | .arr _, .null | .arr _, .bool _ | .arr _, .num _ | .arr _, .str _ | .arr _, .obj _
  | .obj _, .null | .obj _, .bool _ | .obj _, .num _ | .obj _, .str _ | .obj _, .arr _ =>
    simp only [skeleton, reduceCtorEq] at shape

/-- The same for the items of an array, which take their addresses one after the other. -/
theorem eq_of_itemAddresses {xs ys : List String} (items others : List Json)
    (shape : itemSkeletons names items = itemSkeletons names others)
    (texts : itemAddresses names items ++ xs = itemAddresses names others ++ ys) :
    items = others ∧ xs = ys := by
  match items, others with
  | [], [] => exact ⟨rfl, texts⟩
  | [], _ :: _ | _ :: _, [] => simp only [itemSkeletons, reduceCtorEq] at shape
  | item :: items, other :: others =>
    obtain ⟨head, tail⟩ := List.cons.inj shape
    simp only [itemAddresses, List.append_assoc] at texts
    obtain ⟨first, texts⟩ := eq_of_addresses item other none head texts
    obtain ⟨rest, same⟩ := eq_of_itemAddresses items others tail texts
    exact ⟨by rw [first, rest], same⟩

/-- The same for the fields of an object, each at its own key. -/
theorem eq_of_fieldAddresses {xs ys : List String} (fields others : List (String × Json))
    (shape : fieldSkeletons names fields = fieldSkeletons names others)
    (texts : fieldAddresses names fields ++ xs = fieldAddresses names others ++ ys) :
    fields = others ∧ xs = ys := by
  match fields, others with
  | [], [] => exact ⟨rfl, texts⟩
  | [], _ :: _ | _ :: _, [] => simp only [fieldSkeletons, reduceCtorEq] at shape
  | (key, value) :: fields, (name, other) :: others =>
    obtain ⟨head, tail⟩ := List.cons.inj shape
    obtain ⟨rfl, head⟩ := Prod.mk.inj head
    simp only [fieldAddresses, List.append_assoc] at texts
    obtain ⟨first, texts⟩ := eq_of_addresses value other (some key) head texts
    obtain ⟨rest, same⟩ := eq_of_fieldAddresses fields others tail texts
    exact ⟨by rw [first, rest], same⟩

end

/-- A value is its skeleton and its addresses, so a theorem that gives both says what the value is. -/
theorem eq_of_skeleton (shape : a.skeleton names place = b.skeleton names place)
    (texts : a.addresses names place = b.addresses names place) : a = b := by
  have texts : a.addresses names place ++ [] = b.addresses names place ++ [] := by
    rw [List.append_nil, List.append_nil, texts]
  exact (eq_of_addresses a b place shape texts).1

end Json

namespace Rewriter

variable {rewriter : Rewriter} {direction : Direction} {names : List String}

/-! ## One address after the other -/

/-- The texts with their addresses converted, up to the first failure. -/
def convertEach (rewriter : Rewriter) (direction : Direction) :
    List String → List String × Option ConversionError
  | [] => ([], none)
  | text :: rest =>
    match rewriter.convertText direction text with
    | .ok moved =>
      let (rest, failure) := rewriter.convertEach direction rest
      (moved :: rest, failure)
    | .error failure => (text :: rest, some failure)

/-- Texts behind a failure stay as they are; without one, the second list is converted after the first, and
any failure is its own. -/
theorem convertEach_append (first second : List String) :
    rewriter.convertEach direction (first ++ second) =
      match rewriter.convertEach direction first with
      | (moved, none) =>
        (moved ++ (rewriter.convertEach direction second).1,
          (rewriter.convertEach direction second).2)
      | (moved, some failure) => (moved ++ second, some failure) := by
  induction first with
  | nil => rfl
  | cons text first ih =>
    simp only [List.cons_append, convertEach]
    cases rewriter.convertText direction text with
    | error failure => rfl
    | ok moved =>
      simp only [ih]
      cases rewriter.convertEach direction first with
      | mk moved failure => cases failure <;> rfl

/-- Without a failure every text is converted, which is the conversion of a list as a whole. -/
theorem convertEach_eq_none_iff {texts moved : List String} :
    rewriter.convertEach direction texts = (moved, none) ↔
      texts.mapM (rewriter.convertText direction) = .ok moved := by
  induction texts generalizing moved with
  | nil =>
    rw [convertEach, List.mapM_nil]
    constructor <;> rintro ⟨⟩ <;> rfl
  | cons text texts ih =>
    rw [convertEach, List.mapM_cons]
    cases rewriter.convertText direction text with
    | error failure => exact ⟨nofun, nofun⟩
    | ok first =>
      cases each : rewriter.convertEach direction texts with
      | mk others failure =>
        cases failure with
        | none =>
          rw [ih.mp each]
          constructor <;> rintro ⟨⟩ <;> rfl
        | some failure =>
          cases all : texts.mapM (rewriter.convertText direction) with
          | error failure => exact ⟨nofun, nofun⟩
          | ok others =>
            rw [ih.mpr all] at each
            cases each

/-- With a failure the texts in front of the failing one are converted, and the others are as they were. By
induction on the texts: the first one fails itself, or is converted and the failure is further on. -/
theorem convertEach_eq_some_iff {texts shown : List String} {failure : ConversionError} :
    rewriter.convertEach direction texts = (shown, some failure) ↔
      ∃ before text after moved, texts = before ++ text :: after ∧
        before.mapM (rewriter.convertText direction) = .ok moved ∧
        rewriter.convertText direction text = .error failure ∧ shown = moved ++ text :: after := by
  constructor
  · intro each
    induction texts generalizing shown with
    | nil => cases each
    | cons text texts ih =>
      rw [convertEach] at each
      cases first : rewriter.convertText direction text with
      | error cause =>
        rw [first] at each
        cases each
        exact ⟨[], text, texts, [], rfl, rfl, first, rfl⟩
      | ok moved =>
        cases rest : rewriter.convertEach direction texts with
        | mk others cause =>
          rw [first, rest] at each
          cases each
          obtain ⟨before, failing, after, others, rfl, all, fails, rfl⟩ := ih rest
          refine ⟨text :: before, failing, after, moved :: others, rfl, ?_, fails, rfl⟩
          rw [List.mapM_cons, first, all]
          rfl
  · rintro ⟨before, text, after, moved, rfl, all, fails, rfl⟩
    rw [convertEach_append, convertEach_eq_none_iff.mpr all]
    simp only [convertEach, fails]

/-! ## Rewriting a payload -/

/-- What a value at a place becomes, up to the first failure. -/
def turn (rewriter : Rewriter) (direction : Direction) (names : List String) :
    Option String → Json → Json × Option ConversionError
  | none => rewriter.rewrite direction names
  | some key => rewriter.rewriteField direction names key

/-- A text is converted where it is an address, and stays as it is elsewhere. -/
theorem turn_str (place : Option String) (text : String) :
    rewriter.turn direction names place (.str text) =
      if Addressed names place then
        match rewriter.convertText direction text with
        | .ok moved => (.str moved, none)
        | .error failure => (.str text, some failure)
      else (.str text, none) := by
  cases place with
  | none => rfl
  | some key =>
    by_cases named : key ∈ names
    · have addressed : Addressed names (some key) = true := List.contains_iff_mem.mpr named
      cases converted : rewriter.convertText direction text with
      | ok moved => simp only [turn, rewriteField, if_pos named, if_pos addressed, converted]
      | error failure => simp only [turn, rewriteField, if_pos named, if_pos addressed, converted]
    · have plain : ¬ Addressed names (some key) = true :=
        fun addressed => named (List.contains_iff_mem.mp addressed)
      simp only [turn, rewriteField, if_neg named, if_neg plain]

/-- An array turns into what its items turn into, wherever it stands: its items stand under no key. -/
theorem turn_arr (place : Option String) (items : List Json) :
    rewriter.turn direction names place (.arr items) =
      (.arr (rewriter.rewriteItems direction names items).1,
        (rewriter.rewriteItems direction names items).2) := by
  cases place <;> rfl

/-- An object turns into what its fields turn into, wherever it stands. -/
theorem turn_obj (place : Option String) (fields : List (String × Json)) :
    rewriter.turn direction names place (.obj fields) =
      (.obj (rewriter.rewriteFields direction names fields).1,
        (rewriter.rewriteFields direction names fields).2) := by
  cases place <;> rfl

mutual

/-- To rewrite a value is to convert its addresses one after the other; its skeleton stays. By induction on
the value, together with its items and its fields. -/
theorem turn_converts (value : Json) (place : Option String) :
    (rewriter.turn direction names place value).1.skeleton names place = value.skeleton names place ∧
    ((rewriter.turn direction names place value).1.addresses names place,
      (rewriter.turn direction names place value).2) =
        rewriter.convertEach direction (value.addresses names place) := by
  match value with
  | .null | .bool _ | .num _ => cases place <;> exact ⟨rfl, rfl⟩
  | .str text =>
    rw [turn_str]
    by_cases addressed : Addressed names place = true
    · cases converted : rewriter.convertText direction text <;>
        simp only [addressed, if_true, Json.skeleton, Json.addresses, convertEach, converted,
          and_self]
    · simp only [addressed, Bool.false_eq_true, if_false, Json.skeleton, Json.addresses, convertEach,
        and_self]
  | .arr items =>
    rw [turn_arr]
    obtain ⟨shape, texts⟩ := rewriteItems_converts items
    exact ⟨congrArg Json.arr shape, texts⟩
  | .obj fields =>
    rw [turn_obj]
    obtain ⟨shape, texts⟩ := rewriteFields_converts fields
    exact ⟨congrArg Json.obj shape, texts⟩

/-- The items of an array are rewritten up to the first failure, and those behind it keep their addresses.
-/
theorem rewriteItems_converts (items : List Json) :
    Json.itemSkeletons names (rewriter.rewriteItems direction names items).1 =
      Json.itemSkeletons names items ∧
    (Json.itemAddresses names (rewriter.rewriteItems direction names items).1,
      (rewriter.rewriteItems direction names items).2) =
        rewriter.convertEach direction (Json.itemAddresses names items) := by
  match items with
  | [] => exact ⟨rfl, rfl⟩
  | item :: rest =>
    obtain ⟨head, first⟩ := turn_converts item none
    obtain ⟨tail, others⟩ := rewriteItems_converts rest
    rw [Json.itemAddresses, convertEach_append, ← first, ← others, rewriteItems]
    cases turned : rewriter.turn direction names none item with
    | mk moved failure =>
      have rewritten : rewriter.rewrite direction names item = (moved, failure) := turned
      rw [turned] at head
      rw [rewritten]
      cases failure with
      | some failure => exact ⟨congrArg (· :: _) head, rfl⟩
      | none => exact ⟨congrArg₂ List.cons head tail, rfl⟩

/-- The same for the fields of an object, in the order of the keys. -/
theorem rewriteFields_converts (fields : List (String × Json)) :
    Json.fieldSkeletons names (rewriter.rewriteFields direction names fields).1 =
      Json.fieldSkeletons names fields ∧
    (Json.fieldAddresses names (rewriter.rewriteFields direction names fields).1,
      (rewriter.rewriteFields direction names fields).2) =
        rewriter.convertEach direction (Json.fieldAddresses names fields) := by
  match fields with
  | [] => exact ⟨rfl, rfl⟩
  | (key, value) :: rest =>
    obtain ⟨head, first⟩ := turn_converts value (some key)
    obtain ⟨tail, others⟩ := rewriteFields_converts rest
    rw [Json.fieldAddresses, convertEach_append, ← first, ← others, rewriteFields]
    cases turned : rewriter.turn direction names (some key) value with
    | mk moved failure =>
      have rewritten : rewriter.rewriteField direction names key value = (moved, failure) := turned
      rw [turned] at head
      rw [rewritten]
      cases failure with
      | some failure => exact ⟨congrArg (fun value => (key, value) :: _) head, rfl⟩
      | none => exact ⟨congrArg₂ (fun value rest => (key, value) :: rest) head tail, rfl⟩

end

/-- The case of a payload, which stands at no key. -/
theorem rewrite_converts (rewriter : Rewriter) (direction : Direction) (names : List String) (value : Json) :
    (rewriter.rewrite direction names value).1.skeleton names none = value.skeleton names none ∧
    ((rewriter.rewrite direction names value).1.addresses names none,
      (rewriter.rewrite direction names value).2) =
        rewriter.convertEach direction (value.addresses names none) :=
  turn_converts value none

/-- What is rewritten has the skeleton of the payload, and its addresses are the converted ones. By
`Json.eq_of_skeleton` there is only one such result. -/
theorem rewriteAll_eq_ok_iff {value result : Json} :
    rewriter.rewriteAll direction names value = .ok result ↔
      result.skeleton names none = value.skeleton names none ∧
      (value.addresses names none).mapM (rewriter.convertText direction) =
        .ok (result.addresses names none) := by
  obtain ⟨shape, texts⟩ := rewrite_converts rewriter direction names value
  rw [← convertEach_eq_none_iff, ← texts, rewriteAll]
  cases done : rewriter.rewrite direction names value with
  | mk shown failure =>
    rw [done] at shape
    cases failure with
    | some failure => simp only [reduceCtorEq, Prod.mk.injEq, and_false]
    | none =>
      constructor
      · rintro ⟨⟩
        exact ⟨shape, rfl⟩
      · rintro ⟨same, each⟩
        exact congrArg Except.ok
          (Json.eq_of_skeleton (shape.trans same.symm) (Prod.mk.inj each).1)

/-- A payload is refused for an address that is not converted where those in front of it are. The premises
speak of the addresses alone, so the failure of one rewriter can be carried over to another. -/
theorem rewriteAll_fails {value : Json} {before after moved : List String} {text : String}
    {failure : ConversionError} (parts : value.addresses names none = before ++ text :: after)
    (all : before.mapM (rewriter.convertText direction) = .ok moved)
    (fails : rewriter.convertText direction text = .error failure) :
    rewriter.rewriteAll direction names value = .error failure := by
  have texts := (rewrite_converts rewriter direction names value).2
  have each := convertEach_eq_some_iff.mpr ⟨before, text, after, moved, parts, all, fails, rfl⟩
  rw [rewriteAll]
  cases done : rewriter.rewrite direction names value with
  | mk shown cause =>
    rw [done] at texts
    obtain ⟨-, rfl⟩ := Prod.mk.inj (texts.trans each)
    rfl

/-- A payload is refused for its first address that is not converted. What was rewritten until then has the
skeleton of the payload and the addresses in front converted. -/
theorem rewriteAll_eq_error_iff {value : Json} {failure : ConversionError} :
    rewriter.rewriteAll direction names value = .error failure ↔
      ∃ before text after moved, value.addresses names none = before ++ text :: after ∧
        before.mapM (rewriter.convertText direction) = .ok moved ∧
        rewriter.convertText direction text = .error failure ∧
        (rewriter.rewrite direction names value).1.skeleton names none =
          value.skeleton names none ∧
        (rewriter.rewrite direction names value).1.addresses names none =
          moved ++ text :: after := by
  constructor
  · obtain ⟨shape, texts⟩ := rewrite_converts rewriter direction names value
    rw [rewriteAll]
    cases done : rewriter.rewrite direction names value with
    | mk shown cause =>
      rw [done] at shape texts
      intro refused
      cases cause with
      | none => cases refused
      | some cause =>
        cases refused
        obtain ⟨before, text, after, moved, parts, all, fails, left⟩ :=
          convertEach_eq_some_iff.mp texts.symm
        exact ⟨before, text, after, moved, parts, all, fails, shape, left⟩
  · rintro ⟨before, text, after, moved, parts, all, fails, -, -⟩
    exact rewriteAll_fails parts all fails

/-! ## Addresses that are refused -/

/-- The URL starts with the text that is refused, if there is one. -/
def Refuses (refused : Option String) (url : Url) : Prop :=
  ∃ front ∈ refused, front.toList <+: url.text.toList

/-- A conversion that refuses some URLs is the conversion for the others, and names what it refuses. -/
theorem guarded_eq (refused : Option String) (convert : Url → Except ConversionError Url) (url : Url) :
    (Refuses refused url ∧ refusing.guarded refused convert url = .error (.unmappable url.text)) ∨
      (¬ Refuses refused url ∧ refusing.guarded refused convert url = convert url) := by
  cases refused with
  | none => exact .inr ⟨nofun, rfl⟩
  | some front =>
    simp only [refusing.guarded, Refuses, Option.mem_some_iff, exists_eq_left']
    cases strips : stripFront? front.toList url.text.toList with
    | none => exact .inr ⟨stripFront?_eq_none_iff.mp strips, rfl⟩
    | some tail => exact .inl ⟨⟨tail, (stripFront?_eq_some_iff.mp strips).symm⟩, rfl⟩

/-- The text says a URL that is refused. -/
def IsRefused (refused : Option String) (text : String) : Prop :=
  ∃ url, Url.read text = .ok url ∧ Refuses refused url

variable {refused : Direction → Option String}

/-- Each direction refuses what it was told to refuse, apart from the other. -/
theorem convert_refusing : (rewriter.refusing (refused .toServer) (refused .toClient)).convert direction =
    refusing.guarded (refused direction) (rewriter.convert direction) := by
  cases direction <;> rfl

/-- A text is converted by a rewriter that refuses some URLs just if it says none of these and the rewriter
that is guarded converts it, and then to the same. -/
theorem convertText_refusing_eq_ok_iff {text moved : String} :
    (rewriter.refusing (refused .toServer) (refused .toClient)).convertText direction text = .ok moved ↔
      ¬ IsRefused (refused direction) text ∧ rewriter.convertText direction text = .ok moved := by
  simp only [convertText, convert_refusing, IsRefused]
  cases Url.read text with
  | error failure => simp [bind, Except.bind, Except.map]
  | ok url =>
    rcases guarded_eq (refused direction) (rewriter.convert direction) url with
      ⟨refuses, fails⟩ | ⟨admits, same⟩
    · simp [bind, Except.bind, Except.map, refuses, fails]
    · simp [bind, Except.bind, admits, same]

/-- A text is not converted because it is refused, with its URL named, or as the rewriter that is guarded
does not convert it. -/
theorem convertText_refusing_eq_error {text : String} {failure : ConversionError}
    (fails : (rewriter.refusing (refused .toServer) (refused .toClient)).convertText direction text =
      .error failure) :
    (∃ url, Url.read text = .ok url ∧ Refuses (refused direction) url ∧
        failure = .unmappable url.text) ∨
      rewriter.convertText direction text = .error failure := by
  simp only [convertText, convert_refusing] at fails ⊢
  cases read : Url.read text with
  | error cause =>
    rw [read] at fails
    exact .inr fails
  | ok url =>
    rw [read] at fails
    rcases guarded_eq (refused direction) (rewriter.convert direction) url with
      ⟨refuses, guarded⟩ | ⟨-, same⟩
    · simp only [bind, Except.bind, guarded] at fails
      cases fails
      exact .inl ⟨url, rfl, refuses, rfl⟩
    · simp only [bind, Except.bind, same] at fails
      exact .inr fails

/-- What a client refuses on its own account does nothing to payloads that have no such address: they are
rewritten as they are without it. A payload with such an address is refused, for it or for what is in
front of it: the failure names a URL that is refused, or is the one that there is without the refusal. -/
theorem rewriteAll_refusing (rewriter : Rewriter) (refused : Direction → Option String)
    (direction : Direction) (names : List String) (value : Json) :
    let guarded := rewriter.refusing (refused .toServer) (refused .toClient)
    (∀ result, guarded.rewriteAll direction names value = .ok result ↔
      (∀ text ∈ value.addresses names none, ¬ IsRefused (refused direction) text) ∧
        rewriter.rewriteAll direction names value = .ok result) ∧
    (∀ failure, guarded.rewriteAll direction names value = .error failure →
      (∃ text ∈ value.addresses names none, ∃ url, Url.read text = .ok url ∧
        Refuses (refused direction) url ∧ failure = .unmappable url.text) ∨
      rewriter.rewriteAll direction names value = .error failure) := by
  constructor
  · intro result
    rw [rewriteAll_eq_ok_iff, rewriteAll_eq_ok_iff, mapM_eq_ok_iff, mapM_eq_ok_iff]
    simp only [convertText_refusing_eq_ok_iff, List.forall₂_and_left]
    exact and_left_comm
  · intro failure fails
    obtain ⟨before, text, after, moved, parts, all, failing, -, -⟩ := rewriteAll_eq_error_iff.mp fails
    rcases convertText_refusing_eq_error failing with ⟨url, read, refuses, named⟩ | unmoved
    · refine .inl ⟨text, ?_, url, read, refuses, named⟩
      rw [parts]
      exact List.mem_append_right _ List.mem_cons_self
    · rw [mapM_eq_ok_iff] at all
      have unguarded := all.imp fun _ _ converted => (convertText_refusing_eq_ok_iff.mp converted).2
      exact .inr (rewriteAll_fails parts (mapM_eq_ok_iff.mpr unguarded) unmoved)

/-! ## There and back -/

/-- A text in normal form whose URL is converted, by way of a text that reads back, and comes back. -/
def Returns (rewriter : Rewriter) (direction : Direction) (text : String) : Prop :=
  ∃ url moved : Url, url.text = text ∧ url.ReadsBack ∧ rewriter.convert direction url = .ok moved ∧
    moved.ReadsBack ∧ rewriter.convert direction.back moved = .ok url

/-- A text in normal form is converted as the URL that it says. -/
theorem convertText_of_readsBack {url moved : Url} (readsBack : url.ReadsBack)
    (converted : rewriter.convert direction url = .ok moved) :
    rewriter.convertText direction url.text = .ok moved.text := by
  simp only [convertText, read_of_readsBack readsBack, bind, Except.bind, converted, Except.map]

/-- Texts that come back one by one come back as a list. -/
theorem mapM_returns {texts : List String} (returns : ∀ text ∈ texts, rewriter.Returns direction text) :
    ∃ moved, texts.mapM (rewriter.convertText direction) = .ok moved ∧
      moved.mapM (rewriter.convertText direction.back) = .ok texts := by
  induction texts with
  | nil => exact ⟨[], rfl, rfl⟩
  | cons text texts ih =>
    obtain ⟨first, others⟩ := List.forall_mem_cons.mp returns
    obtain ⟨url, moved, rfl, readsBack, there, normal, back⟩ := first
    obtain ⟨rest, gone, returned⟩ := ih others
    refine ⟨moved.text :: rest, ?_, ?_⟩
    · rw [List.mapM_cons, convertText_of_readsBack readsBack there, gone]
      rfl
    · rw [List.mapM_cons, convertText_of_readsBack normal back, returned]
      rfl

/-- A payload comes back if its addresses do: the payload on the way has the same skeleton, and its
addresses are the converted ones. -/
theorem rewriteAll_back {value : Json}
    (returns : ∀ text ∈ value.addresses names none, rewriter.Returns direction text) :
    ∃ sent, rewriter.rewriteAll direction names value = .ok sent ∧
      rewriter.rewriteAll direction.back names sent = .ok value := by
  obtain ⟨moved, gone, returned⟩ := mapM_returns returns
  obtain ⟨shape, texts⟩ := rewrite_converts rewriter direction names value
  rw [convertEach_eq_none_iff.mpr gone] at texts
  obtain ⟨addresses, -⟩ := Prod.mk.inj texts
  refine ⟨(rewriter.rewrite direction names value).1, ?_, ?_⟩
  · exact rewriteAll_eq_ok_iff.mpr ⟨shape, addresses ▸ gone⟩
  · exact rewriteAll_eq_ok_iff.mpr ⟨shape.symm, addresses ▸ returned⟩

/-- A payload that is rewritten keeps its skeleton, and each of its addresses is converted. It is refused
just if an address is not converted, for the first of them; what is left behind then has the addresses in
front of that one converted and the others as they were. If every address comes back, so does the
payload. -/
theorem rewriteAll_addresses (rewriter : Rewriter) (direction : Direction) (names : List String)
    (value : Json) :
    (∀ result, rewriter.rewriteAll direction names value = .ok result ↔
      result.skeleton names none = value.skeleton names none ∧
      (value.addresses names none).mapM (rewriter.convertText direction) =
        .ok (result.addresses names none)) ∧
    (∀ failure, rewriter.rewriteAll direction names value = .error failure ↔
      ∃ before text after moved, value.addresses names none = before ++ text :: after ∧
        before.mapM (rewriter.convertText direction) = .ok moved ∧
        rewriter.convertText direction text = .error failure ∧
        (rewriter.rewrite direction names value).1.skeleton names none =
          value.skeleton names none ∧
        (rewriter.rewrite direction names value).1.addresses names none =
          moved ++ text :: after) ∧
    ((∀ text ∈ value.addresses names none, rewriter.Returns direction text) →
      ∃ sent, rewriter.rewriteAll direction names value = .ok sent ∧
        rewriter.rewriteAll direction.back names sent = .ok value) :=
  ⟨fun _ => rewriteAll_eq_ok_iff, fun _ => rewriteAll_eq_error_iff, rewriteAll_back⟩

/-- Texts under keys in objects of an array, and a text in an array under a key. -/
def nested : Json :=
  .obj [("items", .arr [.obj [("uri", .str "git://host/app?abc#src/a.ts")], .str "memfs:/project/b.ts"]),
    ("targetUri", .str "memfs:/project/c.ts"), ("uri", .arr [.str "memfs:/project/d.ts"])]

/-- A nested payload whose two addresses lie under two mappings of different kinds: both are converted, and
the way back gives the payload again. -/
theorem rewriteAll_addresses_nested :
    nested.addresses linkNames none = ["git://host/app?abc#src/a.ts", "memfs:/project/c.ts"] ∧
    ∃ sent, (ofMappings mounted).rewriteAll .toServer linkNames nested = .ok sent ∧
      sent.addresses linkNames none = ["file:///workspace/src/a.ts", "file:///other/c.ts"] ∧
      (ofMappings mounted).rewriteAll .toClient linkNames sent = .ok nested := by
  have listed : nested.addresses linkNames none =
      ["git://host/app?abc#src/a.ts", "memfs:/project/c.ts"] := by rfl
  obtain ⟨succeeds, -, back⟩ :=
    rewriteAll_addresses (ofMappings mounted) .toServer linkNames nested
  obtain ⟨sent, gone, returned⟩ := back (by
    rw [listed]
    refine List.forall_mem_cons.mpr ⟨?_, List.forall_mem_singleton.mpr ?_⟩
    · exact ⟨⟨"git://host/app?abc#src/a.ts"⟩, ⟨"file:///workspace/src/a.ts"⟩, rfl, by rfl, by rfl,
        by rfl, by rfl⟩
    · exact ⟨⟨"memfs:/project/c.ts"⟩, ⟨"file:///other/c.ts"⟩, rfl, by rfl, by rfl, by rfl, by rfl⟩)
  refine ⟨listed, sent, gone, ?_, returned⟩
  have converted := ((succeeds sent).mp gone).2
  rw [listed] at converted
  exact (Except.ok.inj converted).symm

end Rewriter

end LanguageClient
