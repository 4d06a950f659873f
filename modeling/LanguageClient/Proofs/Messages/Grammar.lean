import LanguageClient.Proofs.Messages.RoundTrip

/-!
# The grammar of messages

Which values are messages, and what they say. An object with a method is a request if it has an id that is not
`null`, and a notification if it has none. An object without a method is a response, and so is an array of two
to four values, which are the parts of a response in their order. `Message.Grammar` derives the messages from the
values that say them, and `Message.ofJson?_grammar` says that a value is read as a message just if the grammar
derives it.

A part that may be left out may be `null` as well, and counts as absent then. Fields that the grammar does not
name play no part in what is read.

This is the grammar of values. Which texts are values, and whether a response answers anything, is not said here.
-/

namespace LanguageClient

/-! ## The grammar -/

/-- A part that may be left out, and holds nothing where it is left out or `null`. -/
inductive Json.Optionally {α : Type} (grammar : Json → α → Prop) : Option Json → Option α → Prop where
  | absent : Optionally grammar none none
  | null : Optionally grammar (some .null) none
  | present {value : Json} {part : α} (derived : grammar value part) :
      Optionally grammar (some value) (some part)

/-- An id is an integer of 64 bits or a text. -/
inductive RequestId.Grammar : Json → RequestId → Prop where
  | number (n : Int64) : Grammar (Json.int n.toInt) (.number n)
  | text (s : String) : Grammar (.str s) (.text s)

/-- An error is an object with a code and a message, or the array of these; data may come with them. -/
inductive ResponseError.Grammar : Json → ResponseError → Prop where
  | object {fields : List (String × Json)} {code : Int64} {message : String}
      (coded : Json.lookup "code" fields = some (Json.int code.toInt))
      (worded : Json.lookup "message" fields = some (.str message)) :
      Grammar (.obj fields) ⟨code, message, Json.noticed (Json.lookup "data" fields)⟩
  | items (code : Int64) (message : String) (data : Option Json) :
      Grammar (.arr (Json.int code.toInt :: .str message :: data.toList)) ⟨code, message, Json.noticed data⟩

/-- What a value says, if it is a message. -/
inductive Message.Grammar : Json → Message → Prop where
  | request {fields : List (String × Json)} {jsonrpc method : String} {name : Json} {id : RequestId}
      (version : Json.lookup "jsonrpc" fields = some (.str jsonrpc))
      (called : Json.lookup "method" fields = some (.str method))
      (named : Json.lookup "id" fields = some name) (identified : RequestId.Grammar name id) :
      Grammar (.obj fields)
        (.request ⟨jsonrpc, id, method, Json.noticed (Json.lookup "params" fields)⟩)
  | notification {fields : List (String × Json)} {jsonrpc method : String}
      (version : Json.lookup "jsonrpc" fields = some (.str jsonrpc))
      (called : Json.lookup "method" fields = some (.str method))
      (unnamed : Json.lookup "id" fields = none ∨ Json.lookup "id" fields = some .null) :
      Grammar (.obj fields)
        (.notification ⟨jsonrpc, method, Json.noticed (Json.lookup "params" fields)⟩)
  | response {fields : List (String × Json)} {jsonrpc : String} {id : Option RequestId}
      {error : Option ResponseError}
      (uncalled : Json.lookup "method" fields = none)
      (version : Json.lookup "jsonrpc" fields = some (.str jsonrpc))
      (identified : Json.Optionally RequestId.Grammar (Json.lookup "id" fields) id)
      (failed : Json.Optionally ResponseError.Grammar (Json.lookup "error" fields) error) :
      Grammar (.obj fields)
        (.response ⟨jsonrpc, id, Json.noticed (Json.lookup "result" fields), error⟩)
  | items {jsonrpc : String} {name : Json} {rest : List Json} {id : Option RequestId}
      {error : Option ResponseError} (short : rest.length ≤ 2)
      (identified : Json.Optionally RequestId.Grammar (some name) id)
      (failed : Json.Optionally ResponseError.Grammar rest[1]? error) :
      Grammar (.arr (.str jsonrpc :: name :: rest)) (.response ⟨jsonrpc, id, Json.noticed rest[0]?, error⟩)

/-! ## Parts -/

namespace Json

variable {α : Type} {v : Json} {part : Option Json} {decode : Json → Option α}

/-- A value is read as a text just if it is that text. -/
theorem string?_eq_some_iff {s : String} : v.string? = some s ↔ v = .str s := by
  cases v <;> simp [string?]

/-- A value is read as an integer of 64 bits just if it is the number that is written for it. There is no
other number with the same value. -/
theorem int64?_eq_some_iff {n : Int64} : v.int64? = some n ↔ v = int n.toInt := by
  constructor
  · intro read
    obtain ⟨k, within, rfl⟩ := Option.map_eq_some_iff.mp read
    obtain ⟨k', whole, bounds⟩ := Option.bind_eq_some_iff.mp within
    split at bounds
    next inside =>
      cases bounds
      have kept : (Int64.ofInt k).toInt = k :=
        Int64.toInt_ofInt_of_le inside.1 (Int.lt_of_le_sub_one inside.2)
      rw [kept]
      cases v with
      | num number =>
        cases number with
        | int k => cases whole; rfl
        | float => cases whole
      | _ => cases whole
    next => cases bounds
  · rintro rfl
    exact int64?_int n

/-- What was found in a slot. -/
def Slot.part? : Slot → Option Json
  | .present value => some value
  | _ => none

/-- What stands in the slot of a part is the part. -/
theorem part?_slotOf (part : Option Json) : (slotOf part).part? = part := by
  cases part <;> rfl

/-- An array is no longer than the record that it is read as. -/
theorem slots?_long {names : List String} {items : List Json} (long : names.length < items.length) :
    (arr items).slots? names = none := if_pos long

/-- A field that has to be there is read from what stands in its slot. -/
theorem required_eq_some_iff {slot : Slot} {found : α} : slot.required decode = some found ↔
    ∃ value, slot.part? = some value ∧ decode value = some found := by
  cases slot <;> simp [Slot.required, Slot.part?]

/-- A part that may be left out and may be anything is read from whatever stands in its slot, `null`
counting as nothing. -/
theorem orElse_any (slot : Slot) :
    slot.orElse none (Slot.optional any?) = some (noticed slot.part?) := by
  cases slot with
  | present value => exact orElse_slotOf (some value)
  | missing => rfl
  | beyond => rfl

section Optionally

variable {grammar : Json → α → Prop} {found : Option α}
  (reads : ∀ value part, decode value = some part ↔ grammar value part) (null : decode .null = none)

include reads null

/-- A part that may be `null` is read from a value just as the grammar derives it. The decoder must follow
the grammar for the rest, and refuse `null` itself. -/
theorem optional_present_iff {value : Json} :
    (Slot.present value).optional decode = some found ↔ Optionally grammar (some value) found := by
  have there (some_ : value.isNull = false) : (Slot.present value).optional decode = some found ↔
      Optionally grammar (some value) found := by
    rw [Slot.optional, Slot.optionalIn, if_neg (fun both => by rw [some_] at both; cases both.2),
      Option.map_eq_some_iff]
    constructor
    · rintro ⟨part, decoded, rfl⟩
      exact .present ((reads _ _).mp decoded)
    · rintro (_ | _ | derived)
      · cases some_
      · exact ⟨_, (reads _ _).mpr derived, rfl⟩
  cases value with
  | null =>
    constructor
    · intro read
      cases read
      exact .null
    · rintro (_ | _ | derived)
      · rfl
      · cases null.symm.trans ((reads _ _).mpr derived)
  | _ => exact there rfl

/-- The same where the part may be missing, as a field of an object. -/
theorem optional_slotOf_iff {part : Option Json} :
    (slotOf part).optional decode = some found ↔ Optionally grammar part found := by
  cases part with
  | some value => exact optional_present_iff reads null
  | none =>
    constructor
    · intro read
      cases read
      exact .absent
    · rintro ⟨⟩
      rfl

/-- The same for any slot, the place behind the end of an array included. -/
theorem orElse_optional_iff {slot : Slot} :
    slot.orElse none (Slot.optional decode) = some found ↔ Optionally grammar slot.part? found := by
  have nothing : (slotOf none).optional decode = some found ↔ Optionally grammar none found :=
    optional_slotOf_iff reads null
  cases slot with
  | present value => exact optional_present_iff reads null
  | missing => exact nothing
  | beyond => exact nothing

end Optionally

end Json

/-! ## Ids and errors -/

/-- A value is read as an id just as the grammar of ids derives it: no value is both a number and a text. -/
theorem RequestId.ofJson?_eq_some_iff (v : Json) (id : RequestId) :
    ofJson? v = some id ↔ Grammar v id := by
  constructor
  · intro read
    rcases Option.or_eq_some_iff.mp read with read | ⟨-, read⟩
    · obtain ⟨n, decoded, rfl⟩ := Option.map_eq_some_iff.mp read
      rw [Json.int64?_eq_some_iff.mp decoded]
      exact .number n
    · obtain ⟨s, decoded, rfl⟩ := Option.map_eq_some_iff.mp read
      rw [Json.string?_eq_some_iff.mp decoded]
      exact .text s
  · intro derived
    cases derived with
    | number n => exact ofJson?_toJson (.number n)
    | text s => rfl

/-- No id is `null`, so a request is never taken for a notification. -/
theorem RequestId.Grammar.ne_null {v : Json} {id : RequestId} (derived : Grammar v id) : v ≠ .null := by
  cases derived <;> exact nofun

namespace ResponseError

/-- What a record in the slots of an error says: its code and its message have to be there and have their
shape, and the data are whatever is there and is not null. -/
theorem ofJson?_of_slots {code message data : Json.Slot} {v : Json} {e : ResponseError}
    (found : v.slots? ["code", "message", "data"] = some [code, message, data]) :
    ofJson? v = some e ↔ code.part? = some (Json.int e.code.toInt) ∧
      message.part? = some (.str e.message) ∧ Json.noticed data.part? = e.data := by
  unfold ofJson?
  rw [found]
  simp only [Option.bind_eq_bind, Option.bind_some, Json.orElse_any, Option.bind_eq_some_iff,
    Option.some.injEq, Json.required_eq_some_iff, Json.int64?_eq_some_iff, Json.string?_eq_some_iff,
    exists_eq_right]
  constructor
  · rintro ⟨n, coded, s, worded, rfl⟩
    exact ⟨coded, worded, rfl⟩
  · rintro ⟨coded, worded, known⟩
    exact ⟨e.code, coded, e.message, worded, by rw [known]⟩

/-- A value is read as an error just as the grammar of errors derives it. By cases on the value: the object
and the array of two or three items are the only ones with slots. -/
theorem ofJson?_eq_some_iff (v : Json) (e : ResponseError) : ofJson? v = some e ↔ Grammar v e := by
  constructor
  · intro read
    cases v with
    | obj fields =>
      obtain ⟨coded, worded, known⟩ := (ofJson?_of_slots (Json.slots?_obj ..)).mp read
      rw [Json.part?_slotOf] at coded worded known
      obtain ⟨code, message, data⟩ := e
      cases known
      exact .object coded worded
    | arr items =>
      obtain ⟨code, message, data⟩ := e
      -- an array has two items or three; with fewer a part is missing, and with more none is read
      rcases items with _ | ⟨first, _ | ⟨second, _ | ⟨third, _ | ⟨fourth, rest⟩⟩⟩⟩
      · cases read
      · obtain ⟨-, worded, -⟩ := (ofJson?_of_slots rfl).mp read
        cases worded
      · obtain ⟨coded, worded, known⟩ := (ofJson?_of_slots rfl).mp read
        cases coded
        cases worded
        cases known
        exact .items code message none
      · obtain ⟨coded, worded, known⟩ := (ofJson?_of_slots rfl).mp read
        cases coded
        cases worded
        cases known
        exact .items code message (some third)
      · rw [ofJson?, Json.slots?_long (by simp)] at read
        cases read
    | _ => cases read
  · intro derived
    cases derived with
    | object coded worded =>
      refine (ofJson?_of_slots (Json.slots?_obj ..)).mpr ?_
      rw [Json.part?_slotOf, Json.part?_slotOf, Json.part?_slotOf]
      exact ⟨coded, worded, rfl⟩
    | items code message data =>
      cases data with
      | none => exact (ofJson?_of_slots rfl).mpr ⟨rfl, rfl, rfl⟩
      | some data => exact (ofJson?_of_slots rfl).mpr ⟨rfl, rfl, rfl⟩

end ResponseError

/-! ## Messages -/

/-- What an object has to have under its keys to be read as a request. -/
theorem Request.ofJson?_obj_iff {fields : List (String × Json)} {r : Request} :
    ofJson? (.obj fields) = some r ↔ Json.lookup "jsonrpc" fields = some (.str r.jsonrpc) ∧
      (∃ name, Json.lookup "id" fields = some name ∧ RequestId.Grammar name r.id) ∧
      Json.lookup "method" fields = some (.str r.method) ∧
      Json.noticed (Json.lookup "params" fields) = r.params := by
  unfold ofJson?
  rw [Json.slots?_obj]
  simp only [List.map_cons, List.map_nil, Option.bind_eq_bind, Option.bind_some, Json.orElse_any,
    Option.bind_eq_some_iff, Option.some.injEq, Json.required_eq_some_iff, Json.string?_eq_some_iff,
    exists_eq_right, Json.part?_slotOf, RequestId.ofJson?_eq_some_iff]
  constructor
  · rintro ⟨jsonrpc, version, id, named, method, called, rfl⟩
    exact ⟨version, named, called, rfl⟩
  · rintro ⟨version, named, called, known⟩
    exact ⟨r.jsonrpc, version, r.id, named, r.method, called, by rw [known]⟩

/-- The same for a notification, which is read without a look at its id. -/
theorem Notification.ofJson?_obj_iff {fields : List (String × Json)} {n : Notification} :
    ofJson? (.obj fields) = some n ↔ Json.lookup "jsonrpc" fields = some (.str n.jsonrpc) ∧
      Json.lookup "method" fields = some (.str n.method) ∧
      Json.noticed (Json.lookup "params" fields) = n.params := by
  unfold ofJson?
  rw [Json.slots?_obj]
  simp only [List.map_cons, List.map_nil, Option.bind_eq_bind, Option.bind_some, Json.orElse_any,
    Option.bind_eq_some_iff, Option.some.injEq, Json.required_eq_some_iff, Json.string?_eq_some_iff,
    exists_eq_right, Json.part?_slotOf]
  constructor
  · rintro ⟨jsonrpc, version, method, called, rfl⟩
    exact ⟨version, called, rfl⟩
  · rintro ⟨version, called, known⟩
    exact ⟨n.jsonrpc, version, n.method, called, by rw [known]⟩

namespace Response

/-- What a record in the slots of a response says: the version has to be there, the id may be null, and the
result and the error are what is there and is not null. -/
theorem ofJson?_of_slots {jsonrpc id result error : Json.Slot} {v : Json} {r : Response}
    (found : v.slots? ["jsonrpc", "id", "result", "error"] = some [jsonrpc, id, result, error]) :
    ofJson? v = some r ↔ jsonrpc.part? = some (.str r.jsonrpc) ∧
      id.optional RequestId.ofJson? = some r.id ∧ Json.noticed result.part? = r.result ∧
      Json.Optionally ResponseError.Grammar error.part? r.error := by
  unfold ofJson?
  rw [found]
  simp only [Option.bind_eq_bind, Option.bind_some, Json.orElse_any, Option.bind_eq_some_iff,
    Option.some.injEq, Json.required_eq_some_iff, Json.string?_eq_some_iff, exists_eq_right,
    Json.orElse_optional_iff ResponseError.ofJson?_eq_some_iff rfl]
  constructor
  · rintro ⟨jsonrpc, version, id, identified, error, failed, rfl⟩
    exact ⟨version, identified, rfl, failed⟩
  · rintro ⟨version, identified, known, failed⟩
    exact ⟨r.jsonrpc, version, r.id, identified, r.error, failed, by rw [known]⟩

/-- The same for a response, each part of which but the version may be left out. -/
theorem ofJson?_obj_iff {fields : List (String × Json)} {r : Response} :
    ofJson? (.obj fields) = some r ↔ Json.lookup "jsonrpc" fields = some (.str r.jsonrpc) ∧
      Json.Optionally RequestId.Grammar (Json.lookup "id" fields) r.id ∧
      Json.noticed (Json.lookup "result" fields) = r.result ∧
      Json.Optionally ResponseError.Grammar (Json.lookup "error" fields) r.error := by
  rw [ofJson?_of_slots (Json.slots?_obj ..)]
  simp only [Json.part?_slotOf, Json.optional_slotOf_iff RequestId.ofJson?_eq_some_iff rfl]

/-- An array is a response if it has a text, an id and at most two more parts. -/
theorem ofJson?_arr_iff {items : List Json} {r : Response} :
    ofJson? (.arr items) = some r ↔ ∃ name rest, items = .str r.jsonrpc :: name :: rest ∧
      rest.length ≤ 2 ∧ Json.Optionally RequestId.Grammar (some name) r.id ∧
      Json.noticed rest[0]? = r.result ∧ Json.Optionally ResponseError.Grammar rest[1]? r.error := by
  have listed {first name : Json} {rest : List Json} {result error : Json.Slot}
      (found : (Json.arr (first :: name :: rest)).slots? ["jsonrpc", "id", "result", "error"] =
        some [.present first, .present name, result, error])
      (third : result.part? = rest[0]?) (fourth : error.part? = rest[1]?) :
      ofJson? (.arr (first :: name :: rest)) = some r ↔ first = .str r.jsonrpc ∧
        Json.Optionally RequestId.Grammar (some name) r.id ∧ Json.noticed rest[0]? = r.result ∧
        Json.Optionally ResponseError.Grammar rest[1]? r.error := by
    rw [ofJson?_of_slots found, third, fourth,
      Json.optional_present_iff RequestId.ofJson?_eq_some_iff rfl]
    exact and_congr_left fun _ => Option.some_inj
  have each {first name : Json} {rest : List Json} (short : rest.length ≤ 2) :
      ofJson? (.arr (first :: name :: rest)) = some r ↔ first = .str r.jsonrpc ∧
        Json.Optionally RequestId.Grammar (some name) r.id ∧ Json.noticed rest[0]? = r.result ∧
        Json.Optionally ResponseError.Grammar rest[1]? r.error := by
    rcases rest with _ | ⟨third, _ | ⟨fourth, _ | ⟨fifth, rest⟩⟩⟩
    · exact listed rfl rfl rfl
    · exact listed rfl rfl rfl
    · exact listed rfl rfl rfl
    · simp at short
  constructor
  · intro read
    rcases items with _ | ⟨first, _ | ⟨name, rest⟩⟩
    · cases read
    · obtain ⟨-, identified, -⟩ := (ofJson?_of_slots rfl).mp read
      cases identified
    · by_cases short : rest.length ≤ 2
      · obtain ⟨rfl, parts⟩ := (each short).mp read
        exact ⟨name, rest, rfl, short, parts⟩
      · rw [ofJson?, Json.slots?_long (by simp; omega)] at read
        cases read
  · rintro ⟨name, rest, rfl, short, parts⟩
    exact (each short).mpr ⟨rfl, parts⟩

end Response

namespace Message

/-- An object is read by its method and its id. -/
theorem ofJson?_obj (fields : List (String × Json)) : ofJson? (.obj fields) =
    if (Json.lookup "method" fields).isSome then
      if Json.lookup "id" fields = none ∨ Json.lookup "id" fields = some .null then
        (Notification.ofJson? (.obj fields)).map .notification
      else (Request.ofJson? (.obj fields)).map .request
    else (Response.ofJson? (.obj fields)).map .response := by
  have unnamed : (((Json.obj fields).get? "id").getD .null).isNull = true ↔
      Json.lookup "id" fields = none ∨ Json.lookup "id" fields = some .null := by
    rw [Json.get?]
    cases Json.lookup "id" fields with
    | none => simp [Json.isNull]
    | some name => cases name <;> simp [Json.isNull]
  exact ite_congr rfl (fun _ => ite_congr (propext unnamed) (fun _ => rfl) fun _ => rfl) fun _ => rfl

/-- A value is read as a message just if the grammar derives it. From left to right the rule is chosen by
the method and the id of an object, or by the value being an array; from right to left each rule is read
back. -/
theorem ofJson?_eq_some_iff (v : Json) (m : Message) : ofJson? v = some m ↔ Grammar v m := by
  constructor
  · intro read
    cases v with
    | obj fields =>
      rw [ofJson?_obj] at read
      -- a method makes it a request or a notification, and the id tells these two apart
      split at read
      · split at read
        next unnamed =>
          obtain ⟨n, decoded, rfl⟩ := Option.map_eq_some_iff.mp read
          obtain ⟨version, called, known⟩ := Notification.ofJson?_obj_iff.mp decoded
          obtain ⟨jsonrpc, method, params⟩ := n
          cases known
          exact .notification version called unnamed
        next =>
          obtain ⟨r, decoded, rfl⟩ := Option.map_eq_some_iff.mp read
          obtain ⟨version, ⟨name, named, identified⟩, called, known⟩ := Request.ofJson?_obj_iff.mp decoded
          obtain ⟨jsonrpc, id, method, params⟩ := r
          cases known
          exact .request version called named identified
      next uncalled =>
        obtain ⟨r, decoded, rfl⟩ := Option.map_eq_some_iff.mp read
        obtain ⟨version, identified, known, failed⟩ := Response.ofJson?_obj_iff.mp decoded
        obtain ⟨jsonrpc, id, result, error⟩ := r
        cases known
        exact .response (by simpa using uncalled) version identified failed
    | arr items =>
      obtain ⟨r, decoded, rfl⟩ := Option.map_eq_some_iff.mp read
      obtain ⟨name, rest, rfl, short, identified, known, failed⟩ := Response.ofJson?_arr_iff.mp decoded
      obtain ⟨jsonrpc, id, result, error⟩ := r
      cases known
      exact .items short identified failed
    | _ => cases read
  · intro derived
    cases derived with
    | @request fields _ _ _ _ version called named identified =>
      -- an id that is null would have made it a notification, but no identifier is written as null
      have there : ¬ (Json.lookup "id" fields = none ∨ Json.lookup "id" fields = some .null) := by
        rw [named]
        rintro (none_ | null)
        · cases none_
        · exact identified.ne_null (Option.some.inj null)
      rw [ofJson?_obj, if_pos (by rw [called]; rfl), if_neg there,
        (Request.ofJson?_obj_iff (r := ⟨_, _, _, _⟩)).mpr ⟨version, ⟨_, named, identified⟩, called, rfl⟩]
      rfl
    | notification version called unnamed =>
      rw [ofJson?_obj, if_pos (by rw [called]; rfl), if_pos unnamed,
        (Notification.ofJson?_obj_iff (n := ⟨_, _, _⟩)).mpr ⟨version, called, rfl⟩]
      rfl
    | response uncalled version identified failed =>
      rw [ofJson?_obj, if_neg (by rw [uncalled]; exact Bool.false_ne_true),
        (Response.ofJson?_obj_iff (r := ⟨_, _, _, _⟩)).mpr ⟨version, identified, rfl, failed⟩]
      rfl
    | @items jsonrpc _ _ _ _ short identified failed =>
      have decoded := (Response.ofJson?_arr_iff (r := ⟨jsonrpc, _, _, _⟩)).mpr
        ⟨_, _, rfl, short, identified, rfl, failed⟩
      exact congrArg (Option.map Message.response) decoded

end Message

/-! ## Fields without a name in the grammar -/

section Unknown

variable {fields others : List (String × Json)}

/-- Objects that agree under the names of a record are the same to who reads the record. -/
theorem Json.slots?_congr {names : List String}
    (same : ∀ key ∈ names, lookup key fields = lookup key others) :
    (obj fields).slots? names = (obj others).slots? names := by
  rw [slots?_obj, slots?_obj]
  exact congrArg some (List.map_congr_left fun name member => congrArg slotOf (same name member))

/-- Fields that an error does not name make no difference to it. -/
theorem ResponseError.ofJson?_congr
    (same : ∀ key ∈ ["code", "message", "data"], Json.lookup key fields = Json.lookup key others) :
    ofJson? (.obj fields) = ofJson? (.obj others) := by
  rw [ofJson?, ofJson?, Json.slots?_congr same]

/-- Nor do fields that no message names, whichever kind of message the object is. -/
theorem Message.ofJson?_congr (same : ∀ key ∈ ["jsonrpc", "id", "method", "params", "result", "error"],
      Json.lookup key fields = Json.lookup key others) :
    ofJson? (.obj fields) = ofJson? (.obj others) := by
  have among {names : List String}
      (known : names ⊆ ["jsonrpc", "id", "method", "params", "result", "error"]) :
      (Json.obj fields).slots? names = (Json.obj others).slots? names :=
    Json.slots?_congr fun key member => same key (known member)
  have request : Request.ofJson? (.obj fields) = Request.ofJson? (.obj others) := by
    rw [Request.ofJson?, Request.ofJson?, among (by decide)]
  have notification : Notification.ofJson? (.obj fields) = Notification.ofJson? (.obj others) := by
    rw [Notification.ofJson?, Notification.ofJson?, among (by decide)]
  have response : Response.ofJson? (.obj fields) = Response.ofJson? (.obj others) := by
    rw [Response.ofJson?, Response.ofJson?, among (by decide)]
  rw [ofJson?_obj, ofJson?_obj, same "method" (by decide), same "id" (by decide), request, notification,
    response]

end Unknown

namespace Message

/-- A value is read as a message just if the grammar derives the message from it, and a field that the
grammar does not name makes no difference, in a message or in the error of a response. -/
theorem ofJson?_grammar :
    (∀ (v : Json) (m : Message), ofJson? v = some m ↔ Grammar v m) ∧
    (∀ fields others : List (String × Json),
      (∀ key ∈ ["jsonrpc", "id", "method", "params", "result", "error"],
        Json.lookup key fields = Json.lookup key others) →
      ofJson? (.obj fields) = ofJson? (.obj others)) ∧
    ∀ fields others : List (String × Json),
      (∀ key ∈ ["code", "message", "data"], Json.lookup key fields = Json.lookup key others) →
      ResponseError.ofJson? (.obj fields) = ResponseError.ofJson? (.obj others) :=
  ⟨ofJson?_eq_some_iff, fun _ _ => ofJson?_congr, fun _ _ => ResponseError.ofJson?_congr⟩

/-- An object with a method, an id and params that are `null`. -/
def Sample.asked : List (String × Json) :=
  [("id", .str "a"), ("jsonrpc", .str protocolVersion), ("method", .str "m"), ("params", .null)]

/-- A request with an extra field, an error with one, and an array that is a response. -/
theorem ofJson?_grammar_asked :
    ofJson? (.obj Sample.asked) = some (.request ⟨protocolVersion, .text "a", "m", none⟩) ∧
    ofJson? (.obj (("extra", .bool true) :: Sample.asked)) = ofJson? (.obj Sample.asked) ∧
    ResponseError.ofJson? (.obj [("code", Json.int 1), ("extra", .null), ("message", .str "no")]) =
      ResponseError.ofJson? (.obj [("code", Json.int 1), ("message", .str "no")]) ∧
    ofJson? (.arr [.str protocolVersion, .null, .null, .arr [Json.int (-32603), .str "no"]]) =
      some (.response ⟨protocolVersion, none, none, some ⟨-32603, "no", none⟩⟩) ∧
    ¬ Grammar (.arr [.str protocolVersion]) (.response ⟨protocolVersion, none, none, none⟩) := by
  obtain ⟨derives, unknown, unknown'⟩ := ofJson?_grammar
  refine ⟨?_, unknown _ _ (by decide), unknown' _ _ (by decide), ?_, ?_⟩
  · exact (derives _ _).mpr (.request rfl rfl rfl (.text "a"))
  · exact (derives _ _).mpr (.items (by decide) .null (.present (.items (-32603) "no" none)))
  · rw [← derives]
    exact nofun

end Message

end LanguageClient
