import LanguageClient.Proofs.Reporting.Desk

/-!
# Boards that stand for desks

A session handles its notifications one after the other, so its board is at rest between two of them,
or one of them waits for the host. A board at rest stands for a desk (`ProgressBoard.Stands`): each token
has a slot of its own, and the slot holds the reporter that the token has at the desk. While a notification
waits for the host (`ProgressBoard.Asks`), its token has one more slot, which is the last. A board that
was closed stands for nothing any more.

What a notification does to a board and what it does to the desk is the same, and so is what the host is
told. The reporters of a board are completed in the order of their tokens, which is that in which the
reporters were made.
-/

namespace LanguageClient

/-- A token of a board at rest. -/
structure ProgressRow where
  token : String
  slot : Nat
  reporter : Nat

namespace ProgressRow

/-- What the board keeps of a token. -/
def place (row : ProgressRow) : String × Nat := (row.token, row.slot)

/-- What the desk keeps of a token. -/
def entry (row : ProgressRow) : String × Nat := (row.token, row.reporter)

/-- What is found under a token is found in its row, whichever part of the rows is kept with the tokens. The
board keeps the slots and the desk the reporters. -/
theorem lookup_map {rows : List ProgressRow} {token : String} {value : ProgressRow → Nat} :
    (rows.map fun row => (row.token, value row)).lookup token =
      (rows.find? fun row => row.token = token).map value := by
  induction rows with
  | nil => rfl
  | cons row rows ih =>
    rw [List.map_cons, List.lookup_cons, List.find?_cons]
    by_cases same : row.token = token
    · simp [same]
    · have apart : (token == row.token) = false := beq_eq_false_iff_ne.mpr fun equal => same equal.symm
      simp only [apart, same, decide_false, ih]

/-- The slot that a board has for a token is that of the row. -/
theorem slot_lookup {rows : List ProgressRow} {token : String} :
    (rows.map place).lookup token = (rows.find? fun row => row.token = token).map slot := lookup_map

/-- Forgetting a token forgets its row, on the board and at the desk alike. -/
theorem filter_map {rows : List ProgressRow} {token : String} {value : ProgressRow → Nat} :
    ((rows.map fun row => (row.token, value row)).filter fun entry => entry.1 ≠ token) =
      (rows.filter fun row => row.token ≠ token).map fun row => (row.token, value row) := by
  rw [List.filter_map]
  rfl

end ProgressRow

namespace ProgressBoard

variable {suffix : String} {board : ProgressBoard} {desk : Desk} {call slot : Nat}
  {params : ProgressParams} {rows : List ProgressRow}

/-- The slots of the tokens of a board hold the reporters of its rows, and the last tokens of the board
are others. -/
structure Holds (board : ProgressBoard) (rows : List ProgressRow) (others : List (String × Nat)) :
    Prop where
  tokens : board.tokens = rows.map ProgressRow.place ++ others
  keys : (board.tokens.map Prod.fst).Nodup
  places : (board.tokens.map Prod.snd).Nodup
  bounded : ∀ place ∈ board.tokens.map Prod.snd, place < board.slots.length
  ready : ∀ row ∈ rows, board.slots[row.slot]? = some (.ready (some row.reporter))

/-- A board at rest that stands for a desk. -/
structure Stands (suffix : String) (board : ProgressBoard) (desk : Desk) : Prop where
  suffix : board.suffix = suffix
  unclosed : board.isClosed = false ∧ desk.isClosed = false
  holds : ∃ rows, board.Holds rows [] ∧ desk.live = rows.map ProgressRow.entry

/-- A board that stands for a desk, but for a notification that waits for the host. -/
structure Asks (suffix : String) (board : ProgressBoard) (desk : Desk) (call : Nat)
    (params : ProgressParams) : Prop where
  suffix : board.suffix = suffix
  unclosed : board.isClosed = false ∧ desk.isClosed = false
  holds : ∃ rows slot, board.Holds rows [(params.id, slot)] ∧ desk.live = rows.map ProgressRow.entry ∧
    board.calls[call]? = some ⟨params, .creating slot⟩ ∧ board.slots[slot]? = some .creating

/-- A new board stands for a fresh desk: neither knows of a token. -/
theorem stands_new (suffix : String) : (new suffix).Stands suffix .fresh :=
  ⟨rfl, ⟨rfl, rfl⟩, [], ⟨rfl, List.nodup_nil, List.nodup_nil, by simp [new], by simp⟩, rfl⟩

/-! ## Rows -/

/-- No two rows have the same slot. -/
theorem Holds.places_rows {others : List (String × Nat)} (holds : board.Holds rows others) :
    (rows.map ProgressRow.slot).Nodup := by
  have places := holds.places
  rw [holds.tokens, List.map_append, List.map_map] at places
  exact places.of_append_left

/-- The token that waits for the host has a slot of its own: it is found under the token, and no row has
that token or that slot. -/
theorem Holds.last {token : String} (holds : board.Holds rows [(token, slot)]) :
    board.tokens.lookup token = some slot ∧ token ∉ rows.map ProgressRow.token ∧
      slot ∉ rows.map ProgressRow.slot := by
  have keys := holds.keys
  have places := holds.places
  rw [holds.tokens, List.map_append, List.map_map] at keys places
  refine ⟨lookup_of_mem holds.keys ?_, ?_, ?_⟩
  · rw [holds.tokens]
    exact List.mem_append_right _ List.mem_cons_self
  · exact fun known => (List.nodup_append'.mp keys).2.2 known List.mem_cons_self
  · exact fun known => (List.nodup_append'.mp places).2.2 known List.mem_cons_self

/-- The row of a live token: on the board it gives the slot, at the desk the reporter. -/
theorem Stands.row (stands : board.Stands suffix desk) {reporter : Nat}
    (live : desk.reporter? params.id = some reporter) :
    ∃ rows row, board.Holds rows [] ∧ desk.live = rows.map ProgressRow.entry ∧ row ∈ rows ∧
      row.token = params.id ∧ row.reporter = reporter ∧
      board.tokens.lookup params.id = some row.slot := by
  obtain ⟨rows, holds, entries⟩ := stands.holds
  have found : (rows.find? fun row => row.token = params.id).map ProgressRow.reporter =
      some reporter := by
    rw [← ProgressRow.lookup_map]
    exact (congrArg (List.lookup params.id) entries.symm).trans live
  obtain ⟨row, at_row, known⟩ := Option.map_eq_some_iff.mp found
  refine ⟨rows, row, holds, entries, List.mem_of_find?_eq_some at_row, ?_, known, ?_⟩
  · simpa using List.find?_some at_row
  · rw [holds.tokens, List.append_nil]
    exact ProgressRow.slot_lookup.trans (by rw [at_row]; rfl)

/-- A token that is absent at the desk is absent on the board as well. -/
theorem Stands.absent (stands : board.Stands suffix desk) (absent : desk.reporter? params.id = none) :
    board.tokens.lookup params.id = none := by
  obtain ⟨rows, holds, entries⟩ := stands.holds
  have missing : (rows.find? fun row => row.token = params.id).map ProgressRow.reporter = none := by
    rw [← ProgressRow.lookup_map]
    exact (congrArg (List.lookup params.id) entries.symm).trans absent
  rw [holds.tokens, List.append_nil]
  exact ProgressRow.slot_lookup.trans (by rw [Option.map_eq_none_iff.mp missing]; rfl)

/-! ## Telling -/

/-- A notification is done if it says so. One that leaves it open is not. -/
theorem isDone_iff : params.isDone = true ↔ params.done = some true := by
  unfold ProgressParams.isDone
  cases params.done <;> simp

/-- When a reporter is updated, in the words of the desk: the notification has a percentage or a message, or
it is not done. -/
theorem hasUpdate_iff : params.hasUpdate = true ∨ (!params.isDone) = true ↔
    params.percentage.isSome ∨ params.message.isSome ∨ params.done ≠ some true := by
  rw [Bool.not_eq_true', Bool.eq_false_iff, Ne, isDone_iff]
  unfold ProgressParams.hasUpdate
  rw [Bool.or_eq_true, or_assoc]

/-- What a notification tells a reporter. -/
def heard (params : ProgressParams) (reporter : Nat) : List ReporterEvent :=
  if params.percentage.isSome ∨ params.message.isSome ∨ params.done ≠ some true then
    [.update reporter params.percentage params.message]
  else []

/-- What a notification does to the reporter of its token: it hears of what is new, and if the work is done
it is completed, its slot is emptied and the token is forgotten. -/
theorem Holds.deliver_eq (holds : board.Holds rows []) (unclosed : board.isClosed = false)
    {row : ProgressRow} (member : row ∈ rows) (named : row.token = params.id) (call : Nat) :
    board.deliver call row.slot params =
      if params.done = some true then
        ({ board.mark call (.finished none) with
            tokens := board.tokens.filter fun entry => entry.1 ≠ params.id
            slots := board.slots.set row.slot (.ready none) },
          heard params row.reporter ++ [.complete row.reporter])
      else (board.mark call (.finished none), heard params row.reporter) := by
  have ready := holds.ready row member
  have live : board.live? row.slot = some row.reporter := live?_eq_some.mpr ready
  have known : board.tokens.lookup params.id = some row.slot := by
    refine lookup_of_mem holds.keys ?_
    rw [holds.tokens, ← named, List.append_nil]
    exact List.mem_map_of_mem (f := ProgressRow.place) member
  have updates : board.updates row.slot params = heard params row.reporter := by
    unfold ProgressBoard.updates heard
    rw [live]
    exact if_congr hasUpdate_iff rfl rfl
  have evicted : (board.mark call (.finished none)).evict params.id row.slot =
      { board.mark call (.finished none) with
        tokens := board.tokens.filter fun entry => entry.1 ≠ params.id } := if_pos known
  have completed : ((board.mark call (.finished none)).evict params.id row.slot).complete row.slot =
      ({ board.mark call (.finished none) with
          tokens := board.tokens.filter fun entry => entry.1 ≠ params.id
          slots := board.slots.set row.slot (.ready none) }, [.complete row.reporter]) := by
    have still : ((board.mark call (.finished none)).evict params.id row.slot).live? row.slot =
        some row.reporter := by
      rw [evicted]
      exact live
    unfold complete
    rw [still, evicted]
    rfl
  rw [ProgressBoard.deliver_eq unclosed, updates, completed]
  exact if_congr isDone_iff rfl rfl

/-- The other tokens keep their reporters when one is forgotten and its slot emptied, because no two rows
share a token or a slot. -/
theorem Holds.forget (holds : board.Holds rows []) {row : ProgressRow} (member : row ∈ rows)
    (calls : List ProgressCall) :
    { board with
      calls
      tokens := board.tokens.filter fun entry => entry.1 ≠ row.token
      slots := board.slots.set row.slot (.ready none) }.Holds
        (rows.filter fun other => other.token ≠ row.token) [] := by
  have tokens : board.tokens = rows.map ProgressRow.place := by
    rw [holds.tokens, List.append_nil]
  refine ⟨?_, ?_, ?_, ?_, ?_⟩
  · rw [List.append_nil, tokens]
    exact ProgressRow.filter_map
  · exact holds.keys.sublist (List.filter_sublist.map Prod.fst)
  · exact holds.places.sublist (List.filter_sublist.map Prod.snd)
  · intro place known
    rw [List.length_set]
    exact holds.bounded place ((List.filter_sublist.map Prod.snd).subset known)
  · intro other kept
    obtain ⟨known, apart⟩ := List.mem_filter.mp kept
    have elsewhere : row.slot ≠ other.slot := by
      intro same
      have equal := List.inj_on_of_nodup_map holds.places_rows member known same
      simp [equal] at apart
    rw [List.getElem?_set_ne elsewhere]
    exact holds.ready other known

/-- A new token gets a slot behind the others, so the slots of the rows hold what they held. -/
theorem Holds.enter (holds : board.Holds rows []) {token : String}
    (unknown : board.tokens.lookup token = none) (content : ReporterSlot)
    (calls : List ProgressCall) :
    { board with
      calls
      slots := board.slots ++ [content]
      tokens := board.tokens ++ [(token, board.slots.length)] }.Holds rows
        [(token, board.slots.length)] := by
  have tokens : board.tokens = rows.map ProgressRow.place := by
    rw [holds.tokens, List.append_nil]
  refine ⟨congrArg (· ++ _) tokens, keys_concat holds.keys unknown _, ?_, ?_, ?_⟩
  · rw [List.map_append]
    refine List.Nodup.append holds.places (List.nodup_singleton _) ?_
    intro place known last
    have before := holds.bounded place known
    rw [List.mem_singleton.mp last] at before
    exact Nat.lt_irrefl _ before
  · intro place known
    rw [List.length_append, List.length_singleton]
    rcases List.mem_append.mp (List.map_append ▸ known) with old | new
    · exact Nat.lt_succ_of_lt (holds.bounded place old)
    · rw [List.mem_singleton.mp new]
      exact Nat.lt_succ_self _
  · intro row member
    have before : row.slot < board.slots.length := holds.bounded row.slot (by
      rw [tokens]
      exact List.mem_map.mpr ⟨row.place, List.mem_map_of_mem (f := ProgressRow.place) member, rfl⟩)
    exact (List.getElem?_append_left before).trans (holds.ready row member)

/-- The rows are read off the tokens and the slots, so how far a call is does not matter to them. -/
theorem Holds.marked {others : List (String × Nat)} (holds : board.Holds rows others)
    (call : Nat) (stage : ProgressStage) : (board.mark call stage).Holds rows others :=
  ⟨holds.tokens, holds.keys, holds.places, holds.bounded, holds.ready⟩

/-- A board stands for the same desk when only a call has gone on. -/
theorem Stands.marked (stands : board.Stands suffix desk) (call : Nat) (stage : ProgressStage) :
    (board.mark call stage).Stands suffix desk :=
  have ⟨rows, holds, entries⟩ := stands.holds
  ⟨stands.suffix, stands.unclosed, rows, holds.marked call stage, entries⟩

/-- A call that is finished, and what the host said if it refused. A session learns by this that the
notification is dealt with. -/
theorem ending?_mark {found : ProgressCall} (known : board.calls[call]? = some found)
    (refusal : Option HostError) :
    (board.mark call (.finished refusal)).ending? call = some refusal := by
  unfold ending?
  rw [getElem?_mark, known]
  simp

/-- A notification of a live token does to the board what it does to the desk. The two tell the reporter the
same events, and the call is finished. -/
theorem Stands.deliver (stands : board.Stands suffix desk) {reporter : Nat}
    (live : desk.reporter? params.id = some reporter) {found : ProgressCall}
    (known : board.calls[call]? = some found) :
    ∃ slot, board.tokens.lookup params.id = some slot ∧
      board.slots[slot]? = some (.ready (some reporter)) ∧
      (board.deliver call slot params).1.Stands suffix (desk.tell params).1 ∧
      (board.deliver call slot params).2.map HostEvent.reporter = (desk.tell params).2 ∧
      (board.deliver call slot params).1.ending? call = some none := by
  obtain ⟨rows, row, holds, entries, member, named, same, place⟩ := stands.row live
  have ready := holds.ready row member
  rw [same] at ready
  refine ⟨row.slot, place, ready, ?_⟩
  have hears : (heard params reporter).map HostEvent.reporter = Desk.updates params reporter := by
    unfold heard Desk.updates
    split <;> rfl
  have ended := ending?_mark known none
  rw [holds.deliver_eq stands.unclosed.1 member named, same]
  unfold Desk.tell
  rw [live]
  dsimp only
  split
  · refine ⟨⟨stands.suffix, stands.unclosed, rows.filter fun other => other.token ≠ row.token, ?_, ?_⟩,
      ?_, ended⟩
    · rw [← named]
      exact holds.forget member _
    · dsimp only
      rw [entries, ← named]
      exact ProgressRow.filter_map
    · rw [List.map_append, hears]
      rfl
  · exact ⟨stands.marked call _, hears, ended⟩

/-! ## Notifications -/

/-- A board that is closed takes no notice of a notification: it is finished as soon as it has begun, and
nobody is told of it. -/
theorem begin_of_closed (closed : board.isClosed = true) {begun : ProgressBoard}
    (begins : board.begin params = (call, begun)) :
    begun.isClosed = true ∧ begun.advance call = (begun, []) ∧ begun.ending? call = some none := by
  unfold ProgressBoard.begin at begins
  rw [if_pos closed] at begins
  cases begins
  have last : (board.calls ++ [⟨params, .finished none⟩])[board.calls.length]? =
      some ⟨params, .finished none⟩ := List.getElem?_concat_length ..
  unfold advance ending?
  simp only [last]
  exact ⟨closed, trivial, trivial⟩

/-- A notification of a live token goes to its reporter at once, without asking the host for anything. It
begins in the slot of the token, which is ready. -/
theorem Stands.begin_live (stands : board.Stands suffix desk) {reporter : Nat}
    (live : desk.reporter? params.id = some reporter) {begun : ProgressBoard}
    (begins : board.begin params = (call, begun)) :
    (begun.advance call).1.Stands suffix (desk.tell params).1 ∧
      (begun.advance call).2.map HostEvent.reporter = (desk.tell params).2 ∧
      (begun.advance call).1.ending? call = some none := by
  obtain ⟨rows, holds, entries⟩ := stands.holds
  obtain ⟨rows', row, -, -, -, -, -, place⟩ := stands.row live
  unfold ProgressBoard.begin slotOf at begins
  rw [if_neg (by rw [stands.unclosed.1]; exact Bool.false_ne_true), place] at begins
  cases begins
  let begun : ProgressBoard :=
    { board with calls := board.calls ++ [⟨params, .waiting row.slot⟩] }
  have last : begun.calls[board.calls.length]? = some ⟨params, .waiting row.slot⟩ :=
    List.getElem?_concat_length ..
  have stands' : begun.Stands suffix desk :=
    ⟨stands.suffix, stands.unclosed, rows,
      ⟨holds.tokens, holds.keys, holds.places, holds.bounded, holds.ready⟩, entries⟩
  obtain ⟨slot, known, ready, delivered⟩ := stands'.deliver live last
  cases place.symm.trans known
  have advanced : begun.advance board.calls.length =
      begun.deliver board.calls.length row.slot params := by
    unfold advance
    rw [last]
    dsimp only
    rw [ready]
  change (begun.advance _).1.Stands suffix _ ∧ _
  rw [advanced]
  exact delivered

/-- A notification of an absent token waits for the host. Its token has a new slot behind the others, and no
reporter has heard of anything. -/
theorem Stands.begin_absent (stands : board.Stands suffix desk)
    (absent : desk.reporter? params.id = none) {begun : ProgressBoard}
    (begins : board.begin params = (call, begun)) :
    (begun.advance call).1.Asks suffix desk call params ∧ (begun.advance call).2 = [] := by
  obtain ⟨rows, holds, entries⟩ := stands.holds
  have unknown := stands.absent absent
  let place := board.slots.length
  let begun : ProgressBoard := { board with
    slots := board.slots ++ [.vacant]
    tokens := board.tokens ++ [(params.id, place)]
    calls := board.calls ++ [⟨params, .waiting place⟩] }
  unfold ProgressBoard.begin slotOf at begins
  rw [if_neg (by rw [stands.unclosed.1]; exact Bool.false_ne_true), unknown] at begins
  cases begins
  have last : begun.calls[board.calls.length]? = some ⟨params, .waiting place⟩ :=
    List.getElem?_concat_length ..
  have vacant : begun.slots[place]? = some .vacant := List.getElem?_concat_length ..
  let creating : ProgressBoard := { begun with slots := board.slots ++ [.creating] }
  have put : begun.put place .creating = creating := by
    have filled : (board.slots ++ [ReporterSlot.vacant]).set board.slots.length .creating =
        board.slots ++ [.creating] := by simp
    exact congrArg (fun slots => { begun with slots }) filled
  have advanced : begun.advance board.calls.length =
      (creating.mark board.calls.length (.creating place), []) := by
    unfold advance
    rw [last]
    dsimp only
    rw [vacant]
    dsimp only
    rw [put]
  change (begun.advance _).1.Asks suffix _ _ _ ∧ _
  rw [advanced]
  refine ⟨⟨stands.suffix, stands.unclosed, rows, place,
    (holds.enter unknown .creating _).marked _ _, entries, ?_, List.getElem?_concat_length ..⟩, rfl⟩
  rw [getElem?_mark]
  change Option.map _ begun.calls[board.calls.length]? = _
  rw [last]
  simp

/-! ## What the host says -/

/-- A notification that waits for the host is where it was when it is advanced again, and wants a reporter
with its title and the suffix of the board. -/
theorem Asks.asked (asks : board.Asks suffix desk call params) :
    (board.calls[call]?).map ProgressCall.params = some params ∧
      board.advance call = (board, []) ∧ board.ending? call = none ∧
      board.wanted? call = some (Desk.title suffix params) := by
  obtain ⟨rows, slot, -, -, found, -⟩ := asks.holds
  unfold advance ending? wanted?
  simp only [found, asks.suffix, Option.map_some]
  exact ⟨trivial, trivial, trivial, rfl⟩

/-- The token of a notification that waits for the host is absent at the desk, as its slot has no row. -/
theorem Asks.absent (asks : board.Asks suffix desk call params) :
    desk.reporter? params.id = none := by
  obtain ⟨rows, slot, holds, entries, -⟩ := asks.holds
  rw [Desk.reporter?_eq_none, Desk.tokens, entries, List.map_map]
  exact holds.last.2.1

/-- What a refusal comes to where the token has just this slot: the slot is vacant, the token is forgotten,
and the call is finished with what the host said. -/
theorem refused_eq (found : board.calls[call]? = some ⟨params, .creating slot⟩)
    (known : board.tokens.lookup params.id = some slot) (refusal : HostError) :
    board.refused call refusal = { board.put slot .vacant with
      tokens := board.tokens.filter fun entry => entry.1 ≠ params.id }.mark call
        (.finished (some refusal)) := by
  have evicted : (board.put slot .vacant).evict params.id slot = { board.put slot .vacant with
      tokens := board.tokens.filter fun entry => entry.1 ≠ params.id } := if_pos known
  unfold ProgressBoard.refused
  rw [found]
  dsimp only
  rw [evicted]

/-- The host refuses: the token is absent again, as if nothing had been asked, and the board stands for the
desk that it stood for before. -/
theorem Asks.refused (asks : board.Asks suffix desk call params) (refusal : HostError) :
    (board.refused call refusal).Stands suffix desk ∧
      (board.refused call refusal).ending? call = some (some refusal) := by
  obtain ⟨rows, slot, holds, entries, found, creating⟩ := asks.holds
  obtain ⟨known, fresh, apart⟩ := holds.last
  have forgotten : (board.tokens.filter fun entry => entry.1 ≠ params.id) =
      rows.map ProgressRow.place := by
    rw [holds.tokens, List.filter_append, List.filter_eq_self.mpr, List.filter_eq_nil_iff.mpr,
      List.append_nil]
    · rintro entry last
      rw [List.mem_singleton.mp last]
      simp
    · rintro entry member
      obtain ⟨row, there, rfl⟩ := List.mem_map.mp member
      exact decide_eq_true fun same => fresh (List.mem_map.mpr ⟨row, there, same⟩)
  have refused := refused_eq found known refusal
  rw [forgotten] at refused
  have fewer : (rows.map ProgressRow.place).Sublist board.tokens := by
    rw [holds.tokens]
    exact List.sublist_append_left ..
  rw [refused]
  refine ⟨⟨asks.suffix, asks.unclosed, rows, ⟨(List.append_nil _).symm, ?_, ?_, ?_, ?_⟩, entries⟩, ?_⟩
  · exact holds.keys.sublist (fewer.map Prod.fst)
  · exact holds.places.sublist (fewer.map Prod.snd)
  · intro place kept
    change place < (board.slots.set slot .vacant).length
    rw [List.length_set]
    exact holds.bounded place ((fewer.map Prod.snd).subset kept)
  · intro row member
    have elsewhere : slot ≠ row.slot := by
      rintro rfl
      exact apart (List.mem_map_of_mem (f := ProgressRow.slot) member)
    change (board.slots.set slot .vacant)[row.slot]? = _
    rw [List.getElem?_set_ne elsewhere]
    exact holds.ready row member
  · have still : { board.put slot .vacant with tokens := rows.map ProgressRow.place }.calls[call]? =
        some ⟨params, .creating slot⟩ := found
    exact ending?_mark still _

/-- The host has made a reporter: the token is live, and the reporter hears of the notification. The slot
that waited becomes the last row, which is where the desk puts a new token too. -/
theorem Asks.created (asks : board.Asks suffix desk call params) (reporter : Nat) :
    (board.created call reporter).1.Stands suffix ((desk.opened params reporter).tell params).1 ∧
      (board.created call reporter).2.map HostEvent.reporter =
        ((desk.opened params reporter).tell params).2 ∧
      (board.created call reporter).1.ending? call = some none := by
  obtain ⟨rows, slot, holds, entries, found, creating⟩ := asks.holds
  obtain ⟨filled, -, apart⟩ := holds.last
  have inside := (List.getElem?_eq_some_iff.mp creating).1
  have stands : (board.put slot (.ready (some reporter))).Stands suffix
      (desk.opened params reporter) := by
    refine ⟨asks.suffix, asks.unclosed, rows ++ [⟨params.id, slot, reporter⟩],
      ⟨?_, holds.keys, holds.places, ?_, ?_⟩, ?_⟩
    · change board.tokens = _
      rw [holds.tokens, List.map_append, List.append_nil]
      rfl
    · intro place known
      change place < (board.slots.set slot _).length
      rw [List.length_set]
      exact holds.bounded place known
    · intro row member
      change (board.slots.set slot _)[row.slot]? = _
      rcases List.mem_append.mp member with old | new
      · have elsewhere : slot ≠ row.slot := by
          rintro rfl
          exact apart (List.mem_map_of_mem (f := ProgressRow.slot) old)
        rw [List.getElem?_set_ne elsewhere]
        exact holds.ready row old
      · rw [List.mem_singleton.mp new]
        exact List.getElem?_set_self inside
    · rw [List.map_append, ← entries]
      rfl
  -- the row of the new reporter is found, since there was none for its token
  have live : (desk.opened params reporter).reporter? params.id = some reporter := by
    have absent := asks.absent
    unfold Desk.reporter? Desk.opened at *
    rw [List.lookup_append, absent]
    simp
  obtain ⟨place, known, -, delivered⟩ := stands.deliver live found
  cases filled.symm.trans known
  unfold ProgressBoard.created
  rw [found]
  exact delivered

/-! ## The end -/

/-- The end of a board as a fold over its slots, with the projections that the lemma below works on. -/
theorem completeAll_eq (board : ProgressBoard) :
    board.completeAll = (board.tokens.map Prod.snd).foldl
      (fun (found : ProgressBoard × List ReporterEvent) slot =>
        ((found.1.complete slot).1, found.2 ++ (found.1.complete slot).2))
      ({ board with tokens := [], isClosed := true }, []) := rfl

/-- Completing the reporters of several rows completes each of them, in their order. By induction on the
rows: as their slots are told apart, the reporters of the rows behind are still there, and a slot of no row
is not touched. -/
theorem completeEach_rows (rows : List ProgressRow) (board : ProgressBoard)
    (events : List ReporterEvent) (places : (rows.map ProgressRow.slot).Nodup)
    (ready : ∀ row ∈ rows, board.slots[row.slot]? = some (.ready (some row.reporter))) :
    ∃ slots, (rows.map ProgressRow.slot).foldl
        (fun (found : ProgressBoard × List ReporterEvent) slot =>
          ((found.1.complete slot).1, found.2 ++ (found.1.complete slot).2)) (board, events) =
      ({ board with slots }, events ++ rows.map fun row => .complete row.reporter) ∧
      ∀ slot, slot ∉ rows.map ProgressRow.slot → slots[slot]? = board.slots[slot]? := by
  induction rows generalizing board events with
  | nil => exact ⟨board.slots, by simp, fun _ _ => rfl⟩
  | cons row rows ih =>
    rw [List.map_cons, List.nodup_cons] at places
    have first : board.complete row.slot =
        (board.put row.slot (.ready none), [.complete row.reporter]) := by
      have live : board.live? row.slot = some row.reporter :=
        live?_eq_some.mpr (ready row List.mem_cons_self)
      unfold complete
      rw [live]
    have others : ∀ other ∈ rows, (board.put row.slot (.ready none)).slots[other.slot]? =
        some (.ready (some other.reporter)) := by
      intro other member
      have elsewhere : row.slot ≠ other.slot := fun same =>
        places.1 (same ▸ List.mem_map_of_mem (f := ProgressRow.slot) member)
      exact (List.getElem?_set_ne elsewhere).trans (ready other (List.mem_cons_of_mem _ member))
    obtain ⟨slots, completed, kept⟩ := ih (board.put row.slot (.ready none))
      (events ++ [.complete row.reporter]) places.2 others
    refine ⟨slots, ?_, ?_⟩
    · rw [List.map_cons, List.foldl_cons, first, completed, List.append_assoc]
      rfl
    · intro slot absent
      rw [List.map_cons, List.mem_cons, not_or] at absent
      rw [kept slot absent.2]
      exact List.getElem?_set_ne (Ne.symm absent.1)

/-- The end of a board at rest completes the reporters of all live tokens, in the order in which they were
made, which is what the desk does. -/
theorem Stands.completeAll (stands : board.Stands suffix desk) :
    board.completeAll.1.isClosed = true ∧
      board.completeAll.2.map HostEvent.reporter = desk.tearDown.2 := by
  obtain ⟨rows, holds, entries⟩ := stands.holds
  have slots : board.tokens.map Prod.snd = rows.map ProgressRow.slot := by
    rw [holds.tokens, List.append_nil, List.map_map]
    rfl
  obtain ⟨slots', completed, -⟩ := completeEach_rows rows { board with tokens := [], isClosed := true }
    [] holds.places_rows holds.ready
  have all : board.completeAll = ({ board with tokens := [], isClosed := true, slots := slots' },
      rows.map fun row => .complete row.reporter) := by
    rw [completeAll_eq, slots]
    exact completed
  rw [all]
  refine ⟨rfl, ?_⟩
  unfold Desk.tearDown
  rw [entries, List.map_map, List.map_map]
  rfl

/-- So does the end of a board on which a notification waits for the host. The slot that waits has no
reporter to complete; one that the host makes for it then is completed at once. -/
theorem Asks.completeAll (asks : board.Asks suffix desk call params) :
    board.completeAll.1.isClosed = true ∧
      board.completeAll.2.map HostEvent.reporter = desk.tearDown.2 ∧
      board.completeAll.1.calls = board.calls ∧
      ∀ reporter, (board.completeAll.1.created call reporter).1.isClosed = true ∧
        (board.completeAll.1.created call reporter).2 = [.complete reporter] ∧
        (board.completeAll.1.created call reporter).1.ending? call = some none := by
  obtain ⟨rows, slot, holds, entries, found, creating⟩ := asks.holds
  have slots : board.tokens.map Prod.snd = rows.map ProgressRow.slot ++ [slot] := by
    rw [holds.tokens, List.map_append, List.map_map]
    rfl
  have apart := holds.last.2.2
  obtain ⟨slots', completed, kept⟩ := completeEach_rows rows
    { board with tokens := [], isClosed := true } [] holds.places_rows holds.ready
  have still : slots'[slot]? = some .creating := (kept slot apart).trans creating
  have all : board.completeAll = ({ board with tokens := [], isClosed := true, slots := slots' },
      rows.map fun row => .complete row.reporter) := by
    rw [completeAll_eq, slots, List.foldl_append, completed]
    have nothing : ({ board with tokens := [], isClosed := true, slots := slots' } :
        ProgressBoard).complete slot = ({ board with
          tokens := [], isClosed := true, slots := slots' }, []) := by
      unfold complete live?
      dsimp only
      rw [still]
    rw [List.foldl_cons, List.foldl_nil, nothing, List.append_nil, List.nil_append]
  rw [all]
  refine ⟨rfl, ?_, rfl, fun reporter => ?_⟩
  · unfold Desk.tearDown
    rw [entries, List.map_map, List.map_map]
    rfl
  · have there : slot < slots'.length := (List.getElem?_eq_some_iff.mp still).1
    unfold ProgressBoard.created
    dsimp only
    rw [found]
    unfold ProgressBoard.deliver complete live?
    simp only [put, mark, if_true, List.getElem?_set_self there]
    exact ⟨trivial, trivial, ending?_mark found none⟩

end ProgressBoard

end LanguageClient
