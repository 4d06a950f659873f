import LanguageClient.Message
import LanguageClient.Proofs.Messages.Text

/-!
# Messages there and back

A message is read back as it was written, but for a payload that is `null`: that is written out and read
as one that is absent (`Message.decodeBytes_encode`). A message that was read has no such payload, so it
survives being written and read again, whatever form it was first read from.
-/

namespace LanguageClient

namespace Json

variable {v x : Json} {key other : String} {fields : List (String × Json)}

/-! ## Fields -/

/-- A key under which something is found is one of the keys. -/
theorem mem_keys_of_lookup (found : lookup key fields = some x) : key ∈ fields.map Prod.fst := by
  induction fields with
  | nil => cases found
  | cons field fields ih =>
    rw [lookup] at found
    split at found
    next same => exact same ▸ List.mem_cons_self
    next => exact List.mem_cons_of_mem _ (ih found)

/-- A field that is put in is found under its key, whatever was there before. -/
theorem lookup_insert_self (key : String) (value : Json) (fields : List (String × Json)) :
    lookup key (insert key value fields) = some value := by
  induction fields with
  | nil => simp only [insert, lookup, if_true]
  | cons field fields ih =>
    unfold insert
    split
    · simp only [lookup, if_true]
    · split
      · simp only [lookup, if_true]
      next apart => rw [lookup, if_neg (Ne.symm apart), ih]

/-- Nothing changes under the other keys, wherever the new field is put among them. -/
theorem lookup_insert_of_ne (apart : key ≠ other) (value : Json) (fields : List (String × Json)) :
    lookup other (insert key value fields) = lookup other fields := by
  induction fields with
  | nil => simp only [insert, lookup, if_neg apart]
  | cons field fields ih =>
    unfold insert
    split
    · rw [lookup, if_neg apart]
    · split
      next same => rw [lookup, lookup, if_neg apart, if_neg (same ▸ apart)]
      next => rw [lookup, lookup, ih]

/-- A field that is put in is found there, and nothing else changes. -/
theorem lookup_insert (key other : String) (value : Json) (fields : List (String × Json)) :
    lookup other (insert key value fields) =
      if key = other then some value else lookup other fields := by
  split
  next same => rw [same, lookup_insert_self]
  next apart => rw [lookup_insert_of_ne apart]

/-- The order of fields does not matter to who looks for one, if no key is repeated. -/
theorem lookup_sortFields (distinct : (fields.map Prod.fst).Nodup) (key : String) :
    lookup key (sortFields fields) = lookup key fields := by
  suffices each : ∀ sorted, lookup key (fields.foldl
      (fun sorted field => insert field.1 field.2 sorted) sorted) =
        (lookup key fields).or (lookup key sorted) from
    (each []).trans (Option.or_none ..)
  induction fields with
  | nil => exact fun sorted => rfl
  | cons field fields ih =>
    intro sorted
    rw [List.map_cons, List.nodup_cons] at distinct
    rw [List.foldl_cons, ih distinct.2, lookup_insert, lookup]
    split
    next same =>
      have fresh : lookup key fields = none := by
        cases found : lookup key fields with
        | none => rfl
        | some value => exact absurd (same ▸ mem_keys_of_lookup found) distinct.1
      rw [fresh]
      rfl
    next => rfl

/-! ## Parts of a value -/

/-- A value that JSON text keeps as it is: its fields are in order, and its numbers are integers of 64
bits. -/
structure IsTextual (v : Json) : Prop where
  sorted : v.Sorted
  integral : v.Integral

/-- A value that stands inside another. -/
structure IsPart (x v : Json) : Prop where
  textual : v.IsTextual → x.IsTextual
  depth : x.depth < v.depth

/-- A part of a part is a part, and deeper still. -/
theorem IsPart.trans {y : Json} (inner : y.IsPart x) (outer : x.IsPart v) : y.IsPart v :=
  ⟨inner.textual ∘ outer.textual, Nat.lt_trans inner.depth outer.depth⟩

/-- An item stands inside its array, be it the first one or one that is found further down. -/
theorem isPart_of_mem_items {items : List Json} (member : x ∈ items) : x.IsPart (.arr items) := by
  suffices inside : (SortedItems items → x.Sorted) ∧ (IntegralItems items → x.Integral) ∧
      x.depth ≤ depthItems items from
    ⟨fun textual => ⟨inside.1 textual.sorted, inside.2.1 textual.integral⟩,
      Nat.lt_succ_of_le inside.2.2⟩
  induction items with
  | nil => cases member
  | cons item items ih =>
    rcases List.mem_cons.mp member with rfl | member
    · exact ⟨And.left, And.left, Nat.le_max_left _ _⟩
    · obtain ⟨sorted, integral, depth⟩ := ih member
      exact ⟨sorted ∘ And.right, integral ∘ And.right, Nat.le_trans depth (Nat.le_max_right _ _)⟩

/-- The value of a field stands inside its object. The first field with the key is the one that is found,
and the induction is on those in front of it. -/
theorem isPart_of_lookup (found : lookup key fields = some x) : x.IsPart (.obj fields) := by
  suffices inside : (SortedFields fields → x.Sorted) ∧ (IntegralFields fields → x.Integral) ∧
      x.depth ≤ depthFields fields from
    ⟨fun textual => ⟨inside.1 textual.sorted.2, inside.2.1 textual.integral⟩,
      Nat.lt_succ_of_le inside.2.2⟩
  induction fields with
  | nil => cases found
  | cons field fields ih =>
    rw [lookup] at found
    split at found
    · cases found
      exact ⟨And.left, And.left, Nat.le_max_left _ _⟩
    · obtain ⟨sorted, integral, depth⟩ := ih found
      exact ⟨sorted ∘ And.right, integral ∘ And.right, Nat.le_trans depth (Nat.le_max_right _ _)⟩

/-- What is found in a field of a record is a part of it. -/
theorem isPart_of_slot {names : List String} {slots : List Slot} (read : v.slots? names = some slots)
    (member : .present x ∈ slots) : x.IsPart v := by
  unfold slots? at read
  split at read
  next fields =>
    cases read
    obtain ⟨name, -, found⟩ := List.mem_map.mp member
    split at found
    next value known =>
      cases found
      exact isPart_of_lookup known
    next => cases found
  next items =>
    split at read
    · cases read
    · cases read
      rcases List.mem_append.mp member with member | member
      · obtain ⟨item, inside, same⟩ := List.mem_map.mp member
        cases same
        exact isPart_of_mem_items inside
      · cases List.eq_of_mem_replicate member
  next => cases read

/-- A record is nested. -/
theorem depth_pos_of_slots {names : List String} {slots : List Slot}
    (read : v.slots? names = some slots) : 0 < v.depth := by
  unfold slots? at read
  split at read
  next => exact Nat.succ_pos _
  next => exact Nat.succ_pos _
  next => cases read

/-- The numbers of an object are integers if those of each of its fields are. -/
theorem integralFields_iff : IntegralFields fields ↔ ∀ field ∈ fields, field.2.Integral := by
  induction fields with
  | nil => exact ⟨fun _ _ member => (List.not_mem_nil member).elim, fun _ => trivial⟩
  | cons field fields ih => rw [IntegralFields, ih, List.forall_mem_cons]

/-- An object is as deep as its fields let it be. -/
theorem depth_obj_le_iff {limit : Nat} :
    (Json.obj fields).depth ≤ limit ↔ 0 < limit ∧ ∀ field ∈ fields, field.2.depth < limit := by
  rw [depth]
  induction fields with
  | nil =>
    rw [depthFields]
    exact ⟨fun positive => ⟨positive, fun _ member => (List.not_mem_nil member).elim⟩, And.left⟩
  | cons field fields ih =>
    rw [depthFields, List.forall_mem_cons, and_left_comm, ← ih]
    omega

/-! ## Absent parts -/

/-- A part that is read back: `null` counts as absent. -/
def noticed (part : Option Json) : Option Json := part.filter fun value => !value.isNull

/-- A part is read back as it is unless it is `null`. -/
theorem noticed_eq_iff {part : Option Json} : noticed part = part ↔ part ≠ some .null := by
  cases part with
  | none => simp only [noticed, Option.filter_none, ne_eq, reduceCtorEq, not_false_eq_true]
  | some value => cases value <;> simp [noticed, isNull]

/-- The slot of a part, as it is found in an object. -/
def slotOf (part : Option Json) : Slot :=
  match part with
  | some value => .present value
  | none => .missing

/-- The slots of an object are what is found under the names. -/
theorem slots?_obj (names : List String) (fields : List (String × Json)) :
    (obj fields).slots? names = some (names.map fun name => slotOf (lookup name fields)) := rfl

/-- What the record finds that reads an object whose fields were put in order. -/
theorem slots?_object (distinct : (fields.map Prod.fst).Nodup) (names : List String) :
    (object fields).slots? names = some (names.map fun name => slotOf (lookup name fields)) := by
  refine congrArg some (List.map_congr_left fun name _ => ?_)
  exact congrArg slotOf (lookup_sortFields distinct name)

/-- A part that may be left out is read back as it was noticed, whether it was written or not. -/
theorem orElse_slotOf (part : Option Json) :
    (slotOf part).orElse none (Slot.optional any?) = some (noticed part) := by
  cases part with
  | none => rfl
  | some value => cases value <;> rfl

/-- What is found and is not `null` is read as a part that is there. -/
theorem optional_present {α : Type} {decode : Json → Option α} {part : α}
    (some_ : v.isNull = false) (read : decode v = some part) :
    (Slot.present v).optional decode = some (some part) := by
  rw [Slot.optional, Slot.optionalIn, if_neg (by rw [some_]; exact fun both => nomatch both.2), read]
  rfl

/-- A part that was read stood in its slot and is not `null`. -/
theorem slot_of_orElse {α : Type} {decode : Json → Option α} {part : α} {slot : Slot}
    (read : slot.orElse none (Slot.optional decode) = some (some part)) :
    ∃ x, slot = .present x ∧ x ≠ .null ∧ decode x = some part := by
  cases slot with
  | present x =>
    rw [Slot.orElse, Slot.optional, Slot.optionalIn] at read
    split at read
    · cases read
    next some_ =>
      obtain ⟨found, decoded, same⟩ := Option.map_eq_some_iff.mp read
      cases same
      refine ⟨x, rfl, ?_, decoded⟩
      rintro rfl
      exact some_ ⟨rfl, rfl⟩
  | missing => cases read
  | beyond => cases read

/-- A field that is written for a part has the part for its value. -/
theorem mem_of_field? {part : Option Json} {field : String × Json} (member : field ∈ field? key part) :
    field.2 ∈ part := by
  cases part with
  | none => cases member
  | some value => rw [List.mem_singleton.mp member]; rfl

/-- The fields of two stretches are put in order inside, stretch by stretch. -/
theorem orderedFields_append (fields more : List (String × Json)) :
    orderedFields (fields ++ more) = orderedFields fields ++ orderedFields more := by
  induction fields with
  | nil => rfl
  | cons field fields ih => rw [List.cons_append, orderedFields, orderedFields, ih, List.cons_append]

/-- So is the field of a part that may be left out. -/
theorem orderedFields_field? (key : String) (part : Option Json) :
    orderedFields (field? key part) = field? key (part.map ordered) := by
  cases part <;> rfl

/-- A part that is in order stays as it is, if there is one. -/
theorem map_ordered {part : Option Json} (kept : ∀ value ∈ part, value.ordered = value) :
    part.map ordered = part := by
  cases part with
  | none => rfl
  | some value => exact congrArg some (kept value rfl)

/-- What is found among fields with one more at their end that may be left out. -/
theorem lookup_append_field? (fields : List (String × Json)) (last : String) (part : Option Json)
    (key : String) : lookup key (fields ++ field? last part) =
      (lookup key fields).or (if last = key then part else none) := by
  induction fields with
  | nil => cases part <;> simp only [List.nil_append, field?, lookup, Option.none_or, ite_self]
  | cons field fields ih =>
    rw [List.cons_append, lookup, lookup, ih]
    split <;> rfl

/-- Putting the fields of an object in order changes nothing for who looks for a key. -/
theorem get?_object (distinct : (fields.map Prod.fst).Nodup) (key : String) :
    (object fields).get? key = lookup key fields := lookup_sortFields distinct key

/-- An integer of 64 bits is read back as it was written. -/
theorem int64?_int (n : Int64) : (int n.toInt).int64? = some n := by
  have low : leastInteger ≤ n.toInt := n.le_toInt
  have high : n.toInt ≤ greatestInteger := Int.le_sub_one_of_lt n.toInt_lt
  simp only [int, int64?, intWithin?, int?, low, high, Option.bind_eq_bind, Option.bind_some,
    and_self, if_true, Option.map_some, Int64.ofInt_toInt]

/-- What is written for an integer of 64 bits is one. -/
theorem integral_int (n : Int64) : (int n.toInt).Integral :=
  ⟨n.le_toInt, Int.le_trans (Int.le_sub_one_of_lt n.toInt_lt) (by decide)⟩

end Json

/-! ## Records -/

/-- An id has no fields to put in order. -/
theorem RequestId.ordered_toJson (id : RequestId) : id.toJson.ordered = id.toJson := by
  cases id <;> rfl

/-- No id is written as `null`, which would be read as one that is absent. -/
theorem RequestId.isNull_toJson (id : RequestId) : id.toJson.isNull = false := by
  cases id <;> rfl

/-- An id is read back as it was written, the number as a number and the text as a text. -/
theorem RequestId.ofJson?_toJson (id : RequestId) : ofJson? id.toJson = some id := by
  cases id with
  | text s => rfl
  | number n => rw [ofJson?, toJson, Json.int64?_int]; rfl

namespace ResponseError

/-- The error as it is read back. -/
def noticed (error : ResponseError) : ResponseError :=
  { error with data := Json.noticed error.data }

/-- An error is read back with its data as they were noticed. Its fields are put in order by the reader, so
data whose fields are in order are kept. -/
theorem ofJson?_toJson {error : ResponseError} (kept : ∀ data ∈ error.data, data.ordered = data) :
    ofJson? error.toJson.ordered = some error.noticed := by
  let base : List (String × Json) :=
    [("code", Json.int error.code.toInt), ("message", .str error.message)]
  have written : error.toJson.ordered = Json.object (base ++ Json.field? "data" error.data) := by
    rw [toJson, Json.ordered, Json.orderedFields_append, Json.orderedFields_field?,
      Json.map_ordered kept]
    rfl
  have distinct : ((base ++ Json.field? "data" error.data).map Prod.fst).Nodup := by
    cases error.data <;> simp [base, Json.field?]
  have found : (Json.object (base ++ Json.field? "data" error.data)).slots?
      ["code", "message", "data"] = some [.present (Json.int error.code.toInt),
        .present (.str error.message), Json.slotOf error.data] := by
    rw [Json.slots?_object distinct]
    simp only [List.map_cons, List.map_nil, Json.lookup_append_field?]
    rfl
  rw [written]
  unfold ofJson?
  rw [found, Option.bind_eq_bind, Option.bind_some]
  simp only [Json.Slot.required, Json.int64?_int, Json.string?, Json.orElse_slotOf]
  rfl

/-- An error is one level deeper than its data, if it has any. -/
theorem depth_toJson {error : ResponseError} {limit : Nat} (positive : 0 < limit)
    (shallow : ∀ data ∈ error.data, data.depth < limit) : error.toJson.depth ≤ limit := by
  refine Json.depth_obj_le_iff.mpr ⟨positive, fun field member => ?_⟩
  rcases List.mem_append.mp member with flat | data
  · simp only [List.mem_cons, List.not_mem_nil, or_false] at flat
    rcases flat with rfl | rfl <;> exact positive
  · exact shallow _ (Json.mem_of_field? data)

/-- The numbers of an error are integers if those of its data are, as the code is one. -/
theorem integral_toJson {error : ResponseError} (integral : ∀ data ∈ error.data, data.Integral) :
    error.toJson.Integral := by
  refine Json.integralFields_iff.mpr fun field member => ?_
  rcases List.mem_append.mp member with flat | data
  · simp only [List.mem_cons, List.not_mem_nil, or_false] at flat
    rcases flat with rfl | rfl
    · exact Json.integral_int _
    · trivial
  · exact integral _ (Json.mem_of_field? data)

end ResponseError

namespace Message

/-- The payloads of a message. -/
def payloads : Message → List Json
  | .request r => r.params.toList
  | .notification n => n.params.toList
  | .response r => r.result.toList ++ (r.error.bind ResponseError.data).toList

/-- The data of the error of a response are a payload of it. -/
theorem data_mem_payloads {r : Response} {e : ResponseError} (failed : r.error = some e) {data : Json}
    (at_ : data ∈ e.data) : data ∈ (Message.response r).payloads := by
  refine List.mem_append_right _ (Option.mem_toList.mpr ?_)
  rw [failed]
  exact at_

/-- The message as it is read back. -/
def noticed : Message → Message
  | .request r => .request { r with params := Json.noticed r.params }
  | .notification n => .notification { n with params := Json.noticed n.params }
  | .response r => .response { r with
      result := Json.noticed r.result, error := r.error.map ResponseError.noticed }

/-- A request is read back with its params as they were noticed. -/
theorem ofJson?_request {r : Request} (kept : ∀ p ∈ r.params, p.ordered = p) :
    ofJson? (toJson (.request r)).ordered = some (noticed (.request r)) := by
  let base : List (String × Json) :=
    [("jsonrpc", .str r.jsonrpc), ("id", r.id.toJson), ("method", .str r.method)]
  have written : (toJson (.request r)).ordered =
      Json.object (base ++ Json.field? "params" r.params) := by
    rw [toJson, Json.ordered, Json.orderedFields_append, Json.orderedFields_field?,
      Json.map_ordered kept]
    simp only [Json.orderedFields, Json.ordered, r.id.ordered_toJson, base]
  have distinct : ((base ++ Json.field? "params" r.params).map Prod.fst).Nodup := by
    cases r.params <;> simp [base, Json.field?]
  have found : (Json.object (base ++ Json.field? "params" r.params)).slots?
      ["jsonrpc", "id", "method", "params"] = some [.present (.str r.jsonrpc),
        .present r.id.toJson, .present (.str r.method), Json.slotOf r.params] := by
    rw [Json.slots?_object distinct]
    simp only [List.map_cons, List.map_nil, Json.lookup_append_field?]
    rfl
  rw [written, ofJson?, Json.get?_object distinct, Json.get?_object distinct]
  simp only [Json.lookup_append_field?]
  have method : Json.lookup "method" base = some (.str r.method) := rfl
  have id : Json.lookup "id" base = some r.id.toJson := rfl
  simp only [method, id, Option.some_or, Option.isSome_some, if_true, Option.getD_some,
    r.id.isNull_toJson, Bool.false_eq_true, if_false]
  unfold Request.ofJson?
  rw [found, Option.bind_eq_bind, Option.bind_some]
  simp only [Json.Slot.required, RequestId.ofJson?_toJson, Json.string?, Json.orElse_slotOf]
  rfl

/-- A notification is read back in the same way, having no id that would make it a request. -/
theorem ofJson?_notification {n : Notification} (kept : ∀ p ∈ n.params, p.ordered = p) :
    ofJson? (toJson (.notification n)).ordered = some (noticed (.notification n)) := by
  let base : List (String × Json) := [("jsonrpc", .str n.jsonrpc), ("method", .str n.method)]
  have written : (toJson (.notification n)).ordered =
      Json.object (base ++ Json.field? "params" n.params) := by
    rw [toJson, Json.ordered, Json.orderedFields_append, Json.orderedFields_field?,
      Json.map_ordered kept]
    rfl
  have distinct : ((base ++ Json.field? "params" n.params).map Prod.fst).Nodup := by
    cases n.params <;> simp [base, Json.field?]
  have found : (Json.object (base ++ Json.field? "params" n.params)).slots?
      ["jsonrpc", "method", "params"] = some [.present (.str n.jsonrpc),
        .present (.str n.method), Json.slotOf n.params] := by
    rw [Json.slots?_object distinct]
    simp only [List.map_cons, List.map_nil, Json.lookup_append_field?]
    rfl
  rw [written, ofJson?, Json.get?_object distinct, Json.get?_object distinct]
  simp only [Json.lookup_append_field?]
  have method : Json.lookup "method" base = some (.str n.method) := rfl
  have id : (Json.lookup "id" base).or (if "params" = "id" then n.params else none) = none := rfl
  simp only [method, id, Option.some_or, Option.isSome_some, if_true, Option.getD_none, Json.isNull]
  unfold Notification.ofJson?
  rw [found, Option.bind_eq_bind, Option.bind_some]
  simp only [Json.Slot.required, Json.string?, Json.orElse_slotOf]
  rfl

/-- A response is read back with its result and its error as they were noticed. It has no method, so it is
taken for nothing else. -/
theorem ofJson?_response {r : Response} (kept : ∀ p ∈ r.result, p.ordered = p)
    (told : ∀ e ∈ r.error, ∀ data ∈ e.data, data.ordered = data) :
    ofJson? (toJson (.response r)).ordered = some (noticed (.response r)) := by
  let base : List (String × Json) :=
    [("jsonrpc", .str r.jsonrpc), ("id", (r.id.map RequestId.toJson).getD .null)]
  let error : Option Json := r.error.map fun e => e.toJson.ordered
  have written : (toJson (.response r)).ordered = Json.object
      (base ++ Json.field? "result" r.result ++ Json.field? "error" error) := by
    rw [toJson, Json.ordered, Json.orderedFields_append, Json.orderedFields_append,
      Json.orderedFields_field?, Json.orderedFields_field?, Json.map_ordered kept, Option.map_map]
    have id : ((r.id.map RequestId.toJson).getD .null).ordered =
        (r.id.map RequestId.toJson).getD .null := by
      cases r.id with
      | none => rfl
      | some id => exact id.ordered_toJson
    simp only [Json.orderedFields, Json.ordered, id, base]
    rfl
  -- the fields are in any order in the text, but each is there once, so they can be looked up by
  -- name
  have distinct : ((base ++ Json.field? "result" r.result ++ Json.field? "error" error).map
      Prod.fst).Nodup := by
    cases r.result <;> cases error <;> simp [base, Json.field?]
  let fields := base ++ Json.field? "result" r.result ++ Json.field? "error" error
  have result : Json.lookup "result" fields = r.result := by
    rw [Json.lookup_append_field?, Json.lookup_append_field?]
    exact Option.or_none ..
  have failure : Json.lookup "error" fields = error := by
    rw [Json.lookup_append_field?, Json.lookup_append_field?]
    rfl
  have jsonrpc : Json.lookup "jsonrpc" fields = some (.str r.jsonrpc) := rfl
  have id : Json.lookup "id" fields = some ((r.id.map RequestId.toJson).getD .null) := rfl
  have method : Json.lookup "method" fields = none := by
    rw [Json.lookup_append_field?, Json.lookup_append_field?]
    rfl
  have found : (Json.object fields).slots? ["jsonrpc", "id", "result", "error"] =
      some [.present (.str r.jsonrpc), .present ((r.id.map RequestId.toJson).getD .null),
        Json.slotOf r.result, Json.slotOf error] := by
    rw [Json.slots?_object distinct, List.map_cons, List.map_cons, List.map_cons, List.map_cons,
      jsonrpc, id, result, failure]
    rfl
  have named : (Json.Slot.present ((r.id.map RequestId.toJson).getD .null)).optional
      RequestId.ofJson? = some r.id := by
    cases r.id with
    | none => rfl
    | some id => exact Json.optional_present id.isNull_toJson id.ofJson?_toJson
  -- an error that is written is read again, apart from data of null, which are not noticed
  have failed : (Json.slotOf error).orElse none (Json.Slot.optional ResponseError.ofJson?) =
      some (r.error.map ResponseError.noticed) := by
    cases known : r.error with
    | none => simp only [error, known]; rfl
    | some e =>
      simp only [error, known]
      exact Json.optional_present rfl (ResponseError.ofJson?_toJson (told e known))
  rw [written, ofJson?, Json.get?_object distinct, method]
  simp only [Option.isSome_none, Bool.false_eq_true, if_false]
  unfold Response.ofJson?
  rw [found, Option.bind_eq_bind, Option.bind_some]
  simp only [Json.Slot.required, Json.string?, Json.orElse_slotOf, named, failed]
  rfl

/-- A message whose payloads have their fields in order is read back, but for payloads that are `null`. -/
theorem ofJson?_toJson {m : Message} (sorted : ∀ p ∈ m.payloads, p.Sorted) :
    ofJson? m.toJson.ordered = some m.noticed := by
  have kept : ∀ p ∈ m.payloads, p.ordered = p := fun p member =>
    p.ordered_of_sorted (sorted p member)
  cases m with
  | request r => exact ofJson?_request fun p at_ => kept p (Option.mem_toList.mpr at_)
  | notification n => exact ofJson?_notification fun p at_ => kept p (Option.mem_toList.mpr at_)
  | response r =>
    refine ofJson?_response (fun p at_ => ?_) fun e known data at_ => ?_
    · exact kept p (List.mem_append_left _ (Option.mem_toList.mpr at_))
    · exact kept data (data_mem_payloads known at_)

/-- A message is read back as it is just if none of its payloads is `null`. -/
theorem noticed_eq_iff {m : Message} : m.noticed = m ↔ Json.null ∉ m.payloads := by
  cases m with
  | request r =>
    rw [payloads, Option.mem_toList, ← ne_eq, ← Json.noticed_eq_iff]
    cases r
    simp only [noticed, request.injEq, Request.mk.injEq, true_and]
  | notification n =>
    rw [payloads, Option.mem_toList, ← ne_eq, ← Json.noticed_eq_iff]
    cases n
    simp only [noticed, notification.injEq, Notification.mk.injEq, true_and]
  | response r =>
    rw [payloads, List.mem_append, not_or, Option.mem_toList, Option.mem_toList, ← ne_eq,
      ← ne_eq, ← Json.noticed_eq_iff]
    obtain ⟨jsonrpc, id, result, error⟩ := r
    simp only [noticed, response.injEq, Response.mk.injEq, true_and]
    refine and_congr_right fun _ => ?_
    cases error with
    | none => simp only [Option.map_none, Option.bind_none, ne_eq, reduceCtorEq, not_false_eq_true]
    | some e =>
      rw [Option.map_some, Option.some.injEq, Option.bind_some, ← Json.noticed_eq_iff]
      cases e
      simp only [ResponseError.noticed, ResponseError.mk.injEq, true_and]

/-- The fields of a message: flat ones, its payloads, and the error of a response. -/
theorem toJson_fields (m : Message) : ∃ fields, m.toJson = .obj fields ∧ ∀ field ∈ fields,
    (field.2.depth = 0 ∧ field.2.Integral) ∨ field.2 ∈ m.payloads ∨
      ∃ r e, m = .response r ∧ r.error = some e ∧ field.2 = e.toJson := by
  have named (id : RequestId) : id.toJson.depth = 0 ∧ id.toJson.Integral := by
    cases id with
    | number n => exact ⟨rfl, Json.integral_int n⟩
    | text s => exact ⟨rfl, trivial⟩
  cases m with
  | request r =>
    refine ⟨_, rfl, fun field member => ?_⟩
    -- the fields that every request has are flat, and its params are what it carries; so for the
    -- other two kinds
    rcases List.mem_append.mp member with flat | params
    · simp only [List.mem_cons, List.not_mem_nil, or_false] at flat
      rcases flat with rfl | rfl | rfl
      · exact .inl ⟨rfl, trivial⟩
      · exact .inl (named r.id)
      · exact .inl ⟨rfl, trivial⟩
    · exact .inr (.inl (Option.mem_toList.mpr (Json.mem_of_field? params)))
  | notification n =>
    refine ⟨_, rfl, fun field member => ?_⟩
    rcases List.mem_append.mp member with flat | params
    · simp only [List.mem_cons, List.not_mem_nil, or_false] at flat
      rcases flat with rfl | rfl
      · exact .inl ⟨rfl, trivial⟩
      · exact .inl ⟨rfl, trivial⟩
    · exact .inr (.inl (Option.mem_toList.mpr (Json.mem_of_field? params)))
  | response r =>
    refine ⟨_, rfl, fun field member => ?_⟩
    rcases List.mem_append.mp member with member | error
    · rcases List.mem_append.mp member with flat | result
      · simp only [List.mem_cons, List.not_mem_nil, or_false] at flat
        rcases flat with rfl | rfl
        · exact .inl ⟨rfl, trivial⟩
        · refine .inl ?_
          cases r.id with
          | none => exact ⟨rfl, trivial⟩
          | some id => exact named id
      · exact .inr (.inl (List.mem_append_left _
          (Option.mem_toList.mpr (Json.mem_of_field? result))))
    · obtain ⟨e, known, same⟩ := Option.map_eq_some_iff.mp (Json.mem_of_field? error)
      exact .inr (.inr ⟨r, e, rfl, known, same.symm⟩)

/-- The numbers of a message are integers if those of its payloads are. -/
theorem integral_toJson {m : Message} (integral : ∀ p ∈ m.payloads, p.Integral) :
    m.toJson.Integral := by
  obtain ⟨fields, written, each⟩ := m.toJson_fields
  rw [written]
  refine Json.integralFields_iff.mpr fun field member => ?_
  rcases each field member with ⟨-, flat⟩ | payload | ⟨r, e, rfl, known, same⟩
  · exact flat
  · exact integral _ payload
  · rw [same]
    exact ResponseError.integral_toJson fun data at_ => integral data (data_mem_payloads known at_)

/-- A message is one level deeper than its payloads, and two than the data of an error. -/
theorem depth_toJson {m : Message} {limit : Nat} (positive : 0 < limit)
    (payloads : ∀ p ∈ m.payloads, p.depth < limit)
    (errors : ∀ r e, m = .response r → r.error = some e → e.toJson.depth < limit) :
    m.toJson.depth ≤ limit := by
  obtain ⟨fields, written, each⟩ := m.toJson_fields
  rw [written]
  refine Json.depth_obj_le_iff.mpr ⟨positive, fun field member => ?_⟩
  rcases each field member with ⟨flat, -⟩ | payload | ⟨r, e, known, failed, same⟩
  · rw [flat]
    exact positive
  · exact payloads _ payload
  · rw [same]
    exact errors r e known failed

/-- What is read from the bytes of a message. -/
theorem decodeBytes_encode_eq {m : Message} (textual : ∀ p ∈ m.payloads, p.IsTextual)
    (shallow : m.toJson.depth < Json.nestingLimit) :
    decodeBytes m.encode.toUTF8 = .ok m.noticed := by
  have read : Json.parse? m.encode = some m.toJson.ordered :=
    Json.parse?_text (integral_toJson fun p member => (textual p member).integral) shallow
  have bytes : String.fromUTF8? m.encode.toUTF8 = some m.encode := dif_pos m.encode.isValidUTF8
  rw [decodeBytes, bytes]
  dsimp only
  rw [decode, read]
  dsimp only
  rw [ofJson?_toJson fun p member => (textual p member).sorted]

/-! ## What was read -/

end Message

/-- A payload that was read stood in the value and is not `null`. -/
def Json.Yields (v p : Json) : Prop := p.IsPart v ∧ p ≠ .null

/-- A payload that was read from a slot stood in the value that has the slot. -/
theorem Json.yields_of_slot {v p : Json} {names : List String} {slots : List Json.Slot}
    {slot : Json.Slot} (found : v.slots? names = some slots) (member : slot ∈ slots)
    (read : slot.orElse none (Json.Slot.optional Json.any?) = some (some p)) : v.Yields p := by
  obtain ⟨x, rfl, some_, same⟩ := Json.slot_of_orElse read
  cases same
  exact ⟨Json.isPart_of_slot found member, some_⟩

/-- The params of a request that was read stood in its value, which is nested. -/
theorem Request.ofJson?_yields {v : Json} {r : Request} (read : ofJson? v = some r) :
    0 < v.depth ∧ ∀ p ∈ r.params, v.Yields p := by
  simp only [ofJson?, Option.bind_eq_bind, Option.bind_eq_some_iff] at read
  obtain ⟨slots, found, read⟩ := read
  split at read
  next =>
    simp only [Option.bind_eq_some_iff] at read
    obtain ⟨_, -, _, -, _, -, params, known, same⟩ := read
    cases same
    refine ⟨Json.depth_pos_of_slots found, fun p at_ => ?_⟩
    cases at_
    exact Json.yields_of_slot found (by simp) known
  next => cases read

/-- So did those of a notification, which differs from a request only in that it has no id to be read. -/
theorem Notification.ofJson?_yields {v : Json} {n : Notification} (read : ofJson? v = some n) :
    0 < v.depth ∧ ∀ p ∈ n.params, v.Yields p := by
  simp only [ofJson?, Option.bind_eq_bind, Option.bind_eq_some_iff] at read
  obtain ⟨slots, found, read⟩ := read
  split at read
  next =>
    simp only [Option.bind_eq_some_iff] at read
    obtain ⟨_, -, _, -, params, known, same⟩ := read
    cases same
    refine ⟨Json.depth_pos_of_slots found, fun p at_ => ?_⟩
    cases at_
    exact Json.yields_of_slot found (by simp) known
  next => cases read

/-- And the data of an error. A value from which one was read is a record, so its depth is not zero. -/
theorem ResponseError.ofJson?_yields {v : Json} {e : ResponseError} (read : ofJson? v = some e) :
    0 < v.depth ∧ ∀ data ∈ e.data, v.Yields data := by
  simp only [ofJson?, Option.bind_eq_bind, Option.bind_eq_some_iff] at read
  obtain ⟨slots, found, read⟩ := read
  split at read
  next =>
    simp only [Option.bind_eq_some_iff] at read
    obtain ⟨_, -, _, -, data, known, same⟩ := read
    cases same
    refine ⟨Json.depth_pos_of_slots found, fun p at_ => ?_⟩
    cases at_
    exact Json.yields_of_slot found (by simp) known
  next => cases read

/-- And the result of a response. Its error was read from a part of the value, so the data stood in that. -/
theorem Response.ofJson?_yields {v : Json} {r : Response} (read : ofJson? v = some r) :
    0 < v.depth ∧ (∀ p ∈ r.result, v.Yields p) ∧
      ∀ e ∈ r.error, ∃ x : Json, x.IsPart v ∧ ResponseError.ofJson? x = some e := by
  simp only [ofJson?, Option.bind_eq_bind, Option.bind_eq_some_iff] at read
  obtain ⟨slots, found, read⟩ := read
  split at read
  next =>
    simp only [Option.bind_eq_some_iff] at read
    obtain ⟨_, -, _, -, result, known, error, failed, same⟩ := read
    cases same
    refine ⟨Json.depth_pos_of_slots found, fun p at_ => ?_, fun e at_ => ?_⟩
    · cases at_
      exact Json.yields_of_slot found (by simp) known
    · cases at_
      obtain ⟨x, rfl, -, decoded⟩ := Json.slot_of_orElse failed
      exact ⟨x, Json.isPart_of_slot found (by simp), decoded⟩
  next => cases read

namespace Message

/-- A message that was read is no deeper than what it was read from, and its payloads stood in that. -/
theorem ofJson?_yields {v : Json} {m : Message} (read : ofJson? v = some m) :
    m.toJson.depth ≤ v.depth ∧ ∀ p ∈ m.payloads, v.Yields p := by
  unfold ofJson? at read
  split at read
  · split at read
    · obtain ⟨n, decoded, same⟩ := Option.map_eq_some_iff.mp read
      cases same
      obtain ⟨positive, params⟩ := n.ofJson?_yields decoded
      have payloads : ∀ p ∈ (notification n).payloads, v.Yields p := fun p member =>
        params p (Option.mem_toList.mp member)
      refine ⟨depth_toJson positive (fun p member => (payloads p member).1.depth) ?_, payloads⟩
      rintro r e ⟨⟩
    · obtain ⟨r, decoded, same⟩ := Option.map_eq_some_iff.mp read
      cases same
      obtain ⟨positive, params⟩ := r.ofJson?_yields decoded
      have payloads : ∀ p ∈ (request r).payloads, v.Yields p := fun p member =>
        params p (Option.mem_toList.mp member)
      refine ⟨depth_toJson positive (fun p member => (payloads p member).1.depth) ?_, payloads⟩
      rintro r e ⟨⟩
  · obtain ⟨r, decoded, same⟩ := Option.map_eq_some_iff.mp read
    cases same
    obtain ⟨positive, result, error⟩ := r.ofJson?_yields decoded
    have payloads : ∀ p ∈ (response r).payloads, v.Yields p := by
      intro p member
      rcases List.mem_append.mp member with member | member
      · exact result p (Option.mem_toList.mp member)
      · obtain ⟨e, failed, data⟩ := Option.bind_eq_some_iff.mp (Option.mem_toList.mp member)
        obtain ⟨x, inside, decoded⟩ := error e failed
        obtain ⟨part, some_⟩ := (e.ofJson?_yields decoded).2 p data
        exact ⟨part.trans inside, some_⟩
    refine ⟨depth_toJson positive (fun p member => (payloads p member).1.depth) ?_, payloads⟩
    rintro r e ⟨⟩ failed
    obtain ⟨x, inside, decoded⟩ := error e failed
    obtain ⟨some_, data⟩ := e.ofJson?_yields decoded
    have shallow := ResponseError.depth_toJson some_ fun d at_ => (data d at_).1.depth
    exact Nat.lt_of_le_of_lt shallow inside.depth

/-- A message comes back from its bytes just if none of its payloads is `null`; and a message that was
read from any value comes back. -/
theorem decodeBytes_encode :
    (∀ m : Message, (∀ p ∈ m.payloads, p.IsTextual) → m.toJson.depth < Json.nestingLimit →
      (decodeBytes m.encode.toUTF8 = .ok m ↔ Json.null ∉ m.payloads)) ∧
    ∀ (v : Json) (m : Message), v.IsTextual → v.depth < Json.nestingLimit → ofJson? v = some m →
      decodeBytes m.encode.toUTF8 = .ok m := by
  have whole : ∀ m : Message, (∀ p ∈ m.payloads, p.IsTextual) →
      m.toJson.depth < Json.nestingLimit →
      (decodeBytes m.encode.toUTF8 = .ok m ↔ Json.null ∉ m.payloads) := by
    intro m textual shallow
    rw [decodeBytes_encode_eq textual shallow, Except.ok.injEq, noticed_eq_iff]
  refine ⟨whole, fun v m textual shallow read => ?_⟩
  obtain ⟨depth, payloads⟩ := ofJson?_yields read
  have parts : ∀ p ∈ m.payloads, p.IsTextual := fun p member => (payloads p member).1.textual textual
  exact (whole m parts (Nat.lt_of_le_of_lt depth shallow)).mpr fun null => (payloads _ null).2 rfl

/-- A failure with data, as an array. -/
def Sample.failureItems : Json :=
  .arr [.str protocolVersion, Json.int 4, .null,
    .arr [Json.int (-32603), .str "no", .obj [("a", .null), ("b", Json.int 7)]]]

def Sample.failure : Message :=
  .response ⟨protocolVersion, some (.number 4), none,
    some ⟨-32603, "no", some (.obj [("a", .null), ("b", Json.int 7)])⟩⟩

/-- A request whose params are `null`. -/
def Sample.vacant : Message := .request ⟨protocolVersion, .text "x", "shutdown", some .null⟩

/-- A failure that came as an array is sent on as an object and read back; a request with params that are
`null` is not. -/
theorem decodeBytes_encode_failure :
    Sample.failureItems.IsTextual ∧ Sample.failureItems.depth < Json.nestingLimit ∧
    ofJson? Sample.failureItems = some Sample.failure ∧
    decodeBytes Sample.failure.encode.toUTF8 = .ok Sample.failure ∧
    (∀ p ∈ Sample.vacant.payloads, p.IsTextual) ∧
    Sample.vacant.toJson.depth < Json.nestingLimit ∧
    decodeBytes Sample.vacant.encode.toUTF8 ≠ .ok Sample.vacant := by
  have failure : Sample.failureItems.IsTextual :=
    ⟨⟨trivial, trivial, trivial,
        ⟨trivial, trivial, ⟨(by decide : ["a", "b"].Pairwise (· < ·)), trivial, trivial, trivial⟩,
          trivial⟩, trivial⟩,
      ⟨trivial, Json.integral_int 4, trivial,
        ⟨Json.integral_int (-32603), trivial, ⟨trivial, Json.integral_int 7, trivial⟩, trivial⟩,
        trivial⟩⟩
  have vacant : ∀ p ∈ Sample.vacant.payloads, p.IsTextual := by
    intro p member
    cases List.mem_singleton.mp member
    exact ⟨trivial, trivial⟩
  refine ⟨failure, by decide, rfl, ?_, vacant, by decide, ?_⟩
  · exact decodeBytes_encode.2 Sample.failureItems Sample.failure failure (by decide) rfl
  · rw [ne_eq, decodeBytes_encode.1 Sample.vacant vacant (by decide)]
    exact not_not_intro List.mem_cons_self

end Message

end LanguageClient
