import LanguageClient.Progress
import LanguageClient.Proofs.Session.Balance

/-!
# Reporters on a progress board

A board holds the reporters of its slots, and gives a reporter back by completing it. A session
handles one notification at a time, so its board is `Orderly`: all notifications but one were handled
to the end. Then every reporter, and every slot that one is being made for, belongs to a token; so
completing the reporters of all tokens completes every reporter that there is.
-/

namespace LanguageClient

/-- Replacing an entry of a list exchanges what it contributes. It is stated as a permutation of sums, so no
subtraction is needed. -/
theorem flatMap_set_perm {α β : Type} {f : α → List β} {entries : List α} {place : Nat}
    {old : α} (found : entries[place]? = some old) (new : α) :
    (f old ++ (entries.set place new).flatMap f).Perm (f new ++ entries.flatMap f) := by
  induction entries generalizing place with
  | nil => simp at found
  | cons entry entries ih =>
    cases place with
    | zero =>
      simp only [List.getElem?_cons_zero, Option.some.injEq] at found
      subst found
      simp only [List.set_cons_zero, List.flatMap_cons]
      rw [← List.append_assoc, ← List.append_assoc]
      exact List.perm_append_comm.append_right _
    | succ place =>
      have rest := ih (by simpa using found)
      simp only [List.set_cons_succ, List.flatMap_cons]
      refine (List.perm_append_comm_assoc ..).trans ?_
      exact (rest.append_left _).trans (List.perm_append_comm_assoc ..)

/-! ## What a board holds -/

/-- The reporter that a slot holds, if it holds one. -/
def ReporterSlot.held : ReporterSlot → List Nat
  | .ready (some reporter) => [reporter]
  | _ => []

/-- Whether a slot holds a reporter or is to hold one. -/
def ReporterSlot.isTaken : ReporterSlot → Bool
  | .creating | .ready (some _) => true
  | _ => false

/-- What is left in a slot when its reporter is completed. -/
def ReporterSlot.emptied : ReporterSlot → ReporterSlot
  | .ready _ => .ready none
  | content => content

/-- The reporter that an event is about. -/
def ReporterEvent.about : ReporterEvent → Nat
  | .update reporter _ _ | .complete reporter => reporter

/-- The reporters that are completed. -/
def completions (events : List ReporterEvent) : List Nat :=
  events.flatMap fun
    | .complete reporter => [reporter]
    | .update _ _ _ => []

/-- What is completed in two stretches of events is what is completed in the one and in the other. -/
theorem completions_append (first second : List ReporterEvent) :
    completions (first ++ second) = completions first ++ completions second := List.flatMap_append

namespace ProgressBoard

variable {board : ProgressBoard} {busy : Option Nat} {call slot : Nat} {params : ProgressParams}

/-- The reporters of all slots. -/
def reporters (board : ProgressBoard) : List Nat := board.slots.flatMap ReporterSlot.held

/-- A board on which at most one notification is being handled. -/
structure Orderly (busy : Option Nat) (board : ProgressBoard) : Prop where
  keys : (board.tokens.map Prod.fst).Nodup
  kept : ∀ {slot : Nat} {content : ReporterSlot}, board.slots[slot]? = some content →
    content.isTaken = true → ∃ token, (token, slot) ∈ board.tokens
  handled : ∀ {number : Nat} {call : ProgressCall}, board.calls[number]? = some call →
    busy ≠ some number → ∃ refusal, call.stage = .finished refusal
  waiting : ∀ {number : Nat} {params : ProgressParams} {slot : Nat},
    board.calls[number]? = some ⟨params, .waiting slot⟩ → (params.id, slot) ∈ board.tokens
  creating : ∀ {number : Nat} {params : ProgressParams} {slot : Nat},
    board.calls[number]? = some ⟨params, .creating slot⟩ →
      (params.id, slot) ∈ board.tokens ∧ board.slots[slot]? = some .creating

/-- A board is orderly if every notification was handled to the end. What is asked of notifications in hand
is then asked of none. -/
theorem Orderly.idle (keys : (board.tokens.map Prod.fst).Nodup)
    (kept : ∀ {slot : Nat} {content : ReporterSlot}, board.slots[slot]? = some content →
      content.isTaken = true → ∃ token, (token, slot) ∈ board.tokens)
    (finished : ∀ {number : Nat} {call : ProgressCall}, board.calls[number]? = some call →
      ∃ refusal, call.stage = .finished refusal) : board.Orderly none where
  keys := keys
  kept := kept
  handled found _ := finished found
  waiting found := by
    obtain ⟨_, same⟩ := finished found
    cases same
  creating found := by
    obtain ⟨_, same⟩ := finished found
    cases same

/-- A board is orderly if every notification but one was handled to the end, and the slot that this one
waits for or is to fill belongs to its token. -/
theorem Orderly.single (current : ProgressCall) (keys : (board.tokens.map Prod.fst).Nodup)
    (kept : ∀ {slot : Nat} {content : ReporterSlot}, board.slots[slot]? = some content →
      content.isTaken = true → ∃ token, (token, slot) ∈ board.tokens)
    (others : ∀ {number : Nat} {found : ProgressCall}, board.calls[number]? = some found →
      (∃ refusal, found.stage = .finished refusal) ∨ number = call ∧ found = current)
    (waits : ∀ slot, current.stage = .waiting slot → (current.params.id, slot) ∈ board.tokens)
    (creates : ∀ slot, current.stage = .creating slot →
      (current.params.id, slot) ∈ board.tokens ∧ board.slots[slot]? = some .creating) :
    board.Orderly (some call) where
  keys := keys
  kept := kept
  handled found apart := by
    obtain finished | ⟨rfl, -⟩ := others found
    · exact finished
    · exact absurd rfl apart
  waiting found := by
    obtain ⟨_, same⟩ | ⟨-, rfl⟩ := others found
    · cases same
    · exact waits _ rfl
  creating found := by
    obtain ⟨_, same⟩ | ⟨-, rfl⟩ := others found
    · cases same
    · exact creates _ rfl

/-- On a board where nothing is in hand, every notification was handled to the end. -/
theorem Orderly.finished (orderly : board.Orderly none) {number : Nat} {call : ProgressCall}
    (found : board.calls[number]? = some call) : ∃ refusal, call.stage = .finished refusal :=
  orderly.handled found (Option.some_ne_none number).symm

theorem orderly_new (suffix : String) : (new suffix).Orderly none :=
  .idle List.nodup_nil nofun nofun

/-- Nothing is being handled when the one notification was handled to the end. So the next may be taken up.
-/
theorem Orderly.settled (orderly : board.Orderly (some call)) {refusal : Option HostError}
    (ended : board.ending? call = some refusal) : board.Orderly none := by
  refine ⟨orderly.keys, orderly.kept, ?_, orderly.waiting, orderly.creating⟩
  intro number found at_number _
  by_cases same : call = number
  · subst same
    unfold ending? at ended
    rw [at_number] at ended
    obtain ⟨params, stage⟩ := found
    cases stage with
    | finished refusal => exact ⟨refusal, rfl⟩
    | waiting | creating => cases ended
  · exact orderly.handled at_number fun busy => same (Option.some.inj busy)

/-- What becomes of the reporters that are held: some are completed, and the others are kept. -/
structure Exchanges (held : List Nat) (events : List ReporterEvent) (kept : List Nat) : Prop where
  split : held.Perm (completions events ++ kept)
  about : ∀ event ∈ events, event.about ∈ held

theorem Exchanges.refl (held : List Nat) : Exchanges held [] held := ⟨.refl held, by simp⟩

theorem Exchanges.of_perm {held kept : List Nat} (same : held.Perm kept) :
    Exchanges held [] kept := ⟨same, by simp⟩

/-- What is kept at first is split by what happens next, and the events of both are about what was held. -/
theorem Exchanges.trans {held kept left : List Nat} {events more : List ReporterEvent}
    (first : Exchanges held events kept) (second : Exchanges kept more left) :
    Exchanges held (events ++ more) left := by
  refine ⟨?_, ?_⟩
  · rw [completions_append, List.append_assoc]
    exact first.split.trans (second.split.append_left _)
  · intro event member
    rcases List.mem_append.mp member with member | member
    · exact first.about event member
    · exact first.split.mem_iff.mpr (List.mem_append_right _ (second.about event member))

/-- What replacing the content of a slot does to the reporters: the old content gives up what it held, and
the new one brings its own. -/
theorem reporters_put {old : ReporterSlot} (found : board.slots[slot]? = some old)
    (new : ReporterSlot) :
    (old.held ++ (board.put slot new).reporters).Perm (new.held ++ board.reporters) :=
  flatMap_set_perm found new

/-- A slot has a live reporter just if it is ready and not emptied. -/
theorem live?_eq_some {reporter : Nat} :
    board.live? slot = some reporter ↔ board.slots[slot]? = some (.ready (some reporter)) := by
  unfold live?
  constructor
  · intro live
    split at live
    next content found => rw [found, live]
    next => cases live
  · intro found
    rw [found]

/-- The reporters of a board are those that its slots hold. -/
theorem mem_reporters {reporter : Nat} :
    reporter ∈ board.reporters ↔ ∃ slot, board.live? slot = some reporter := by
  refine List.mem_flatMap.trans ⟨?_, ?_⟩
  · rintro ⟨content, member, held⟩
    obtain ⟨slot, found⟩ := List.mem_iff_getElem?.mp member
    refine ⟨slot, live?_eq_some.mpr (found.trans (congrArg some ?_))⟩
    match content, held with
    | .ready (some _), held => rw [List.mem_singleton.mp held]
  · rintro ⟨slot, live⟩
    exact ⟨_, List.mem_of_getElem? (live?_eq_some.mp live), List.mem_singleton_self _⟩

/-- A reporter that is completed is held no more. A slot without one exchanges nothing. -/
theorem complete_exchanges (board : ProgressBoard) (slot : Nat) :
    Exchanges board.reporters (board.complete slot).2 (board.complete slot).1.reporters := by
  unfold complete
  split
  next reporter live =>
    refine ⟨(reporters_put (live?_eq_some.mp live) (.ready none)).symm, ?_⟩
    intro event member
    rw [List.mem_singleton.mp member]
    exact mem_reporters.mpr ⟨slot, live⟩
  next => exact .refl _

/-! ## Marks and tokens -/

@[simp] theorem reporters_mark (board : ProgressBoard) (call : Nat) (stage : ProgressStage) :
    (board.mark call stage).reporters = board.reporters := rfl

/-- To forget a token leaves the slots alone, and with them the reporters that they hold. -/
@[simp] theorem slots_evict (board : ProgressBoard) (token : String) (slot : Nat) :
    (board.evict token slot).slots = board.slots := by
  unfold evict
  split <;> rfl

/-- To forget a token leaves the notifications alone, also those of the token. -/
@[simp] theorem calls_evict (board : ProgressBoard) (token : String) (slot : Nat) :
    (board.evict token slot).calls = board.calls := by
  unfold evict
  split <;> rfl

/-- Forgetting a token and marking a notification may be exchanged, as they change different parts of the
board. -/
theorem mark_evict (board : ProgressBoard) (token : String) (slot call : Nat)
    (stage : ProgressStage) :
    (board.evict token slot).mark call stage = (board.mark call stage).evict token slot := by
  unfold evict mark
  split <;> rfl

/-- Forgetting a token and filling a slot may be exchanged as well. -/
theorem put_evict (board : ProgressBoard) (token : String) (place slot : Nat)
    (content : ReporterSlot) :
    (board.evict token place).put slot content = (board.put slot content).evict token place := by
  unfold evict put
  split <;> rfl

/-- Forgetting a token does not close the board. -/
@[simp] theorem isClosed_evict (board : ProgressBoard) (token : String) (slot : Nat) :
    (board.evict token slot).isClosed = board.isClosed := by
  unfold evict
  split <;> rfl

/-- Forgetting a token gives no reporter back. Where this matters, the reporter was completed before. -/
@[simp] theorem reporters_evict (board : ProgressBoard) (token : String) (slot : Nat) :
    (board.evict token slot).reporters = board.reporters :=
  congrArg (List.flatMap ReporterSlot.held) (slots_evict ..)

/-- Marking a notification changes its stage, and no other notification. -/
theorem getElem?_mark (board : ProgressBoard) (call number : Nat) (stage : ProgressStage) :
    (board.mark call stage).calls[number]? = (board.calls[number]?).map fun found =>
      if call = number then { found with stage } else found := by
  simp only [mark, List.getElem?_modify]
  rfl

/-- The busy notification is finished. Nothing more is asked of its slot, so the board is orderly with
nothing in hand. -/
theorem Orderly.finish (orderly : board.Orderly (some call)) (refusal : Option HostError) :
    (board.mark call (.finished refusal)).Orderly none := by
  have others {number : Nat} {found : ProgressCall}
      (marked : (board.mark call (.finished refusal)).calls[number]? = some found) :
      ∃ refusal, found.stage = .finished refusal := by
    rw [getElem?_mark] at marked
    obtain ⟨before, known, rfl⟩ := Option.map_eq_some_iff.mp marked
    by_cases same : call = number
    · rw [if_pos same]
      exact ⟨refusal, rfl⟩
    · rw [if_neg same]
      exact orderly.handled known fun busy => same (Option.some.inj busy)
  exact .idle orderly.keys orderly.kept others

/-- The tokens that are left are told apart as before. -/
theorem keys_evict (keys : (board.tokens.map Prod.fst).Nodup) (token : String) (slot : Nat) :
    ((board.evict token slot).tokens.map Prod.fst).Nodup := by
  unfold evict
  split
  · exact keys.sublist (List.filter_sublist.map Prod.fst)
  · exact keys

/-- What is left of the tokens when one was forgotten: all the others. The token must have had this slot,
for one that has got another slot meanwhile is kept. -/
theorem mem_tokens_evict (keys : (board.tokens.map Prod.fst).Nodup) {token : String}
    (known : (token, slot) ∈ board.tokens) {entry : String × Nat} :
    entry ∈ (board.evict token slot).tokens ↔ entry ∈ board.tokens ∧ entry.1 ≠ token := by
  unfold evict
  rw [if_pos (lookup_of_mem keys known)]
  simp

/-- A slot that is free now, and the token that it belonged to, are forgotten. No other token had the slot's
reporter, as it has none. -/
theorem Orderly.vacate (orderly : board.Orderly none) {content : ReporterSlot}
    (free : content.isTaken = false) {token : String} (known : (token, slot) ∈ board.tokens) :
    ((board.put slot content).evict token slot).Orderly none := by
  have tokens {entry : String × Nat} :
      entry ∈ ((board.put slot content).evict token slot).tokens ↔
        entry ∈ board.tokens ∧ entry.1 ≠ token :=
    (board.put slot content).mem_tokens_evict orderly.keys known
  refine .idle ((board.put slot content).keys_evict orderly.keys ..) ?_
    (calls_evict (board.put slot content) .. ▸ orderly.finished)
  · intro other found at_other taken
    rw [slots_evict, put, List.getElem?_set] at at_other
    by_cases same : slot = other
    · subst same
      rw [if_pos rfl] at at_other
      split at at_other
      · cases at_other
        rw [free] at taken
        cases taken
      · cases at_other
    · rw [if_neg same] at at_other
      obtain ⟨name, member⟩ := orderly.kept at_other taken
      refine ⟨name, tokens.mpr ⟨member, ?_⟩⟩
      rintro rfl
      have first := lookup_of_mem orderly.keys member
      have second := lookup_of_mem orderly.keys known
      exact same (Option.some.inj (second.symm.trans first))

/-! ## Steps of an open board -/

/-- A token has a slot when it is looked for: the one that it had, or a new one that is vacant. Reporters
are the same in both cases. -/
theorem Orderly.slotOf (orderly : board.Orderly none) (token : String) :
    (board.slotOf token).2.Orderly none ∧
      (token, (board.slotOf token).1) ∈ (board.slotOf token).2.tokens ∧
      (board.slotOf token).2.reporters = board.reporters ∧
      (board.slotOf token).2.isClosed = board.isClosed := by
  unfold ProgressBoard.slotOf
  split
  next slot known => exact ⟨orderly, mem_of_lookup known, rfl, rfl⟩
  next unknown =>
    refine ⟨.idle (keys_concat orderly.keys unknown _) ?_ orderly.finished,
      List.mem_append_right _ List.mem_cons_self, ?_, rfl⟩
    · intro other content at_other taken
      obtain before | ⟨-, rfl⟩ := getElem?_concat_iff.mp at_other
      · obtain ⟨token, member⟩ := orderly.kept before taken
        exact ⟨token, List.mem_append_left _ member⟩
      · cases taken
    · simp [reporters, ReporterSlot.held]

/-- A notification is taken up that waits for the slot of its token. It is the one in hand from now on. -/
theorem Orderly.enroll (orderly : board.Orderly none) (known : (params.id, slot) ∈ board.tokens) :
    Orderly (some board.calls.length)
      { board with calls := board.calls ++ [⟨params, .waiting slot⟩] } := by
  refine .single ⟨params, .waiting slot⟩ orderly.keys orderly.kept
    (fun {number found} at_number => ?_) (fun _ same => ProgressStage.waiting.inj same ▸ known)
    (fun _ same => nomatch same)
  obtain before | ⟨last, rfl⟩ := getElem?_concat_iff.mp at_number
  · exact .inl (orderly.finished before)
  · exact .inr ⟨last, rfl⟩

/-- A notification arrives when no other is being handled. It gets a slot and waits for it, on a board that
is still open. -/
theorem Orderly.begin (orderly : board.Orderly none) (unclosed : board.isClosed = false)
    (params : ProgressParams) :
    (board.begin params).2.Orderly (some (board.begin params).1) ∧
      (board.begin params).2.reporters = board.reporters ∧
      (board.begin params).2.isClosed = false := by
  obtain ⟨orderly, known, reporters, closed⟩ := orderly.slotOf params.id
  unfold ProgressBoard.begin
  rw [if_neg (by rw [unclosed]; exact Bool.false_ne_true)]
  exact ⟨orderly.enroll known, reporters, closed.trans unclosed⟩

/-- A slot of a token gets another content. As it belongs to a token, whatever it holds can be found again
at the end. -/
theorem Orderly.fill (orderly : board.Orderly none) {token : String}
    (known : (token, slot) ∈ board.tokens) (content : ReporterSlot) :
    (board.put slot content).Orderly none := by
  refine .idle orderly.keys (fun {other found} at_other taken => ?_) orderly.finished
  by_cases same : slot = other
  · exact ⟨token, same ▸ known⟩
  · rw [put, List.getElem?_set, if_neg same] at at_other
    exact orderly.kept at_other taken

/-- What a notification tells the reporter of its slot. -/
def updates (board : ProgressBoard) (slot : Nat) (params : ProgressParams) : List ReporterEvent :=
  match board.live? slot with
  | some reporter =>
    if params.hasUpdate ∨ !params.isDone then
      [ReporterEvent.update reporter params.percentage params.message]
    else []
  | none => []

/-- On a closed board a notification is not passed on: the reporter that was made for it is completed at
once. -/
theorem deliver_of_closed (closed : board.isClosed = true) (call slot : Nat)
    (params : ProgressParams) :
    board.deliver call slot params = (board.mark call (.finished none)).complete slot :=
  if_pos closed

/-- On an open board a notification updates the reporter of its slot, and completes it, and forgets the
token, if it says that the work is done. -/
theorem deliver_eq (unclosed : board.isClosed = false) (call slot : Nat) (params : ProgressParams) :
    board.deliver call slot params =
      if params.isDone then
        ((((board.mark call (.finished none)).evict params.id slot).complete slot).1,
          board.updates slot params ++
            (((board.mark call (.finished none)).evict params.id slot).complete slot).2)
      else (board.mark call (.finished none), board.updates slot params) := by
  have still : ¬ (board.mark call (.finished none)).isClosed = true := by
    rw [show (board.mark call (.finished none)).isClosed = board.isClosed from rfl, unclosed]
    exact Bool.false_ne_true
  unfold deliver
  dsimp only
  rw [if_neg still]
  rfl

/-- Updates complete nothing, and go to a reporter that is held. If there is none in the slot, none is told.
-/
theorem updates_exchanges (board : ProgressBoard) (slot : Nat) (params : ProgressParams) :
    Exchanges board.reporters (board.updates slot params) board.reporters := by
  unfold updates
  split
  next reporter live =>
    split
    · refine ⟨.refl _, ?_⟩
      intro event member
      rw [List.mem_singleton.mp member]
      exact mem_reporters.mpr ⟨slot, live⟩
    · exact .refl _
  next => exact .refl _

/-- A notification that is delivered goes to a reporter that is held, and completes at most this one. -/
theorem deliver_exchanges (board : ProgressBoard) (call slot : Nat) (params : ProgressParams) :
    Exchanges board.reporters (board.deliver call slot params).2
      (board.deliver call slot params).1.reporters := by
  cases closed : board.isClosed with
  | true =>
    rw [deliver_of_closed closed]
    exact complete_exchanges (board.mark call (.finished none)) slot
  | false =>
    rw [deliver_eq closed]
    split
    · have completed := complete_exchanges ((board.mark call (.finished none)).evict params.id slot) slot
      rw [reporters_evict, reporters_mark] at completed
      exact (board.updates_exchanges slot params).trans completed
    · exact board.updates_exchanges slot params

/-- A slot that is ready is empty once its reporter is completed, also if it was empty before. -/
theorem complete_eq {reporter : Option Nat} (ready : board.slots[slot]? = some (.ready reporter)) :
    (board.complete slot).1 = board.put slot (.ready none) := by
  unfold complete live?
  rw [ready]
  cases reporter with
  | some reporter => rfl
  | none =>
    have same : board.slots.set slot (.ready none) = board.slots := by
      obtain ⟨inside, found⟩ := List.getElem?_eq_some_iff.mp ready
      rw [← found]
      exact List.set_getElem_self inside
    unfold put
    rw [same]

/-- Delivering a notification neither closes the board nor opens it again, not even if it is the last of its
token. -/
theorem isClosed_deliver (board : ProgressBoard) (call slot : Nat) (params : ProgressParams) :
    (board.deliver call slot params).1.isClosed = board.isClosed := by
  have completed (board : ProgressBoard) : (board.complete slot).1.isClosed = board.isClosed := by
    unfold complete
    split <;> rfl
  unfold deliver
  dsimp only
  split
  · exact completed _
  split
  · exact (completed _).trans (isClosed_evict ..)
  · rfl

/-- What a notification that is delivered does to the board, in one equation for the three ways in which it
can come out. -/
theorem deliver_fst {reporter : Option Nat} (ready : board.slots[slot]? = some (.ready reporter)) :
    (board.deliver call slot params).1 =
      if board.isClosed then (board.mark call (.finished none)).put slot (.ready none)
      else if params.isDone then
        ((board.mark call (.finished none)).evict params.id slot).put slot (.ready none)
      else board.mark call (.finished none) := by
  cases closed : board.isClosed with
  | true =>
    rw [deliver_of_closed closed]
    exact complete_eq ready
  | false =>
    have still : ((board.mark call (.finished none)).evict params.id slot).slots[slot]? =
        some (.ready reporter) := by
      rw [slots_evict]
      exact ready
    rw [deliver_eq closed, complete_eq still]
    split <;> rfl

/-- A notification is delivered to a slot that is ready. If the work is done, slot and token go together,
and the board stays orderly. -/
theorem deliver_orderly (unclosed : board.isClosed = false)
    (orderly : (board.mark call (.finished none)).Orderly none) {reporter : Option Nat}
    (ready : board.slots[slot]? = some (.ready reporter)) (known : (params.id, slot) ∈ board.tokens) :
    (board.deliver call slot params).1.Orderly none := by
  rw [deliver_fst ready, if_neg (by rw [unclosed]; exact Bool.false_ne_true)]
  split
  · rw [put_evict]
    exact orderly.vacate rfl known
  · exact orderly

/-- A board on which nothing is in hand is orderly whatever notification is named as busy, because that one
need not be finished. -/
theorem Orderly.weaken (orderly : board.Orderly none) : board.Orderly busy :=
  ⟨orderly.keys, orderly.kept, fun found _ => orderly.handled found (by simp), orderly.waiting,
    orderly.creating⟩

/-- The busy notification asks the host for the reporter of its slot. The slot is taken from then on and
belongs to its token. -/
theorem Orderly.ask (orderly : board.Orderly (some call))
    (found : board.calls[call]? = some ⟨params, .waiting slot⟩)
    (vacant : board.slots[slot]? = some .vacant) :
    ((board.put slot .creating).mark call (.creating slot)).Orderly (some call) := by
  have known := orderly.waiting found
  have inside := (List.getElem?_eq_some_iff.mp vacant).1
  refine .single ⟨params, .creating slot⟩ orderly.keys (fun {other content} at_other taken => ?_)
    (fun {number marked} at_number => ?_) (fun _ same => nomatch same) (fun _ same => ?_)
  · by_cases same : slot = other
    · exact ⟨params.id, same ▸ known⟩
    · simp only [put, mark, List.getElem?_set, if_neg same] at at_other
      exact orderly.kept at_other taken
  · rw [getElem?_mark] at at_number
    obtain ⟨before, at_before, rfl⟩ := Option.map_eq_some_iff.mp at_number
    by_cases busy : call = number
    · subst busy
      cases at_before.symm.trans found
      exact .inr ⟨rfl, if_pos rfl⟩
    · rw [if_neg busy]
      exact .inl (orderly.handled at_before fun same => busy (Option.some.inj same))
  · cases same
    exact ⟨known, List.getElem?_set_self inside⟩

/-- The busy notification goes on: it is delivered, asks the host, or has nothing to do. Reporters are
exchanged by what is told, and the board stays open. -/
theorem Orderly.advance (orderly : board.Orderly (some call)) (unclosed : board.isClosed = false) :
    (board.advance call).1.Orderly (some call) ∧
      Exchanges board.reporters (board.advance call).2 (board.advance call).1.reporters ∧
      (board.advance call).1.isClosed = false := by
  unfold ProgressBoard.advance
  split
  next params slot found =>
    have known := orderly.waiting found
    split
    next reporter ready =>
      have delivered := deliver_orderly unclosed (orderly.finish none) ready known
      exact ⟨delivered.weaken, board.deliver_exchanges call slot params,
        (isClosed_deliver ..).trans unclosed⟩
    next vacant =>
      exact ⟨orderly.ask found vacant, .of_perm (reporters_put vacant .creating).symm, unclosed⟩
    next => exact ⟨orderly, .refl _, unclosed⟩
  next => exact ⟨orderly, .refl _, unclosed⟩

/-- The host has made the reporter of the busy notification. It is held for a moment at least, since the
notification is delivered to it at once. -/
theorem Orderly.created (orderly : board.Orderly (some call)) (unclosed : board.isClosed = false)
    {title : Option String} (wanted : board.wanted? call = some title) (reporter : Nat) :
    (board.created call reporter).1.Orderly (some call) ∧
      Exchanges (reporter :: board.reporters) (board.created call reporter).2
        (board.created call reporter).1.reporters ∧
      (board.created call reporter).1.isClosed = false := by
  unfold wanted? at wanted
  split at wanted
  next params slot found =>
    obtain ⟨known, creating⟩ := orderly.creating found
    have inside := (List.getElem?_eq_some_iff.mp creating).1
    have filled : ((board.put slot (.ready (some reporter))).mark call (.finished none)).Orderly
        none := (orderly.finish none).fill known _
    have ready : (board.put slot (.ready (some reporter))).slots[slot]? =
        some (.ready (some reporter)) := by
      simp [put, inside]
    have delivered :=
      (board.put slot (.ready (some reporter))).deliver_orderly unclosed filled ready known
    unfold ProgressBoard.created
    rw [found]
    refine ⟨delivered.weaken, ?_, (isClosed_deliver ..).trans unclosed⟩
    have granted := reporters_put creating (.ready (some reporter))
    exact (Exchanges.of_perm granted.symm).trans (deliver_exchanges ..)
  next => cases wanted

/-- The host has refused the reporter of the busy notification. The slot is vacant again and the token
forgotten, so the next notification of the token starts anew. -/
theorem Orderly.refused (orderly : board.Orderly (some call)) (unclosed : board.isClosed = false)
    {title : Option String} (wanted : board.wanted? call = some title) (refusal : HostError) :
    (board.refused call refusal).Orderly (some call) ∧
      Exchanges board.reporters [] (board.refused call refusal).reporters ∧
      (board.refused call refusal).isClosed = false := by
  unfold wanted? at wanted
  split at wanted
  next params slot found =>
    obtain ⟨known, creating⟩ := orderly.creating found
    unfold ProgressBoard.refused
    rw [found]
    dsimp only
    rw [mark_evict]
    refine ⟨((orderly.finish _).vacate rfl known).weaken, ?_, (isClosed_evict ..).trans unclosed⟩
    rw [reporters_evict]
    exact .of_perm (reporters_put creating .vacant).symm
  next => cases wanted

/-! ## The end -/

/-- Completing empties one slot if it is ready, and leaves the others. -/
theorem getElem?_complete (board : ProgressBoard) (slot other : Nat) :
    (board.complete slot).1.slots[other]? =
      if slot = other then (board.slots[other]?).map ReporterSlot.emptied
      else board.slots[other]? := by
  unfold complete
  split
  next reporter live =>
    have found := live?_eq_some.mp live
    have inside := (List.getElem?_eq_some_iff.mp found).1
    rw [put, List.getElem?_set]
    split
    next same =>
      rw [← same, found]
      rfl
    next => rfl
  next unheld =>
    split
    next same =>
      subst same
      cases found : board.slots[slot]? with
      | none => rfl
      | some content =>
        unfold live? at unheld
        rw [found] at unheld
        cases content with
        | ready reporter =>
          cases unheld
          rfl
        | vacant | creating => rfl
    next => rfl

/-- Completing tells the host of nothing but completions. -/
theorem complete_told (board : ProgressBoard) (slot : Nat) :
    ∀ event ∈ (board.complete slot).2, event = .complete event.about := by
  unfold complete
  split
  · intro event member
    rw [List.mem_singleton.mp member]
    rfl
  · rintro event ⟨⟩

/-- Completing the reporters of several slots empties these slots. The events so far are an argument, as the
induction on the slots needs it general. -/
theorem completeEach_eq (slots : List Nat) (board : ProgressBoard) (events : List ReporterEvent) :
    ∃ contents more, slots.foldl (fun (found : ProgressBoard × List ReporterEvent) slot =>
        ((found.1.complete slot).1, found.2 ++ (found.1.complete slot).2)) (board, events) =
      ({ board with slots := contents }, events ++ more) ∧
      Exchanges board.reporters more (contents.flatMap ReporterSlot.held) ∧
      (∀ event ∈ more, event = .complete event.about) ∧
      ∀ slot, contents[slot]? =
        if slot ∈ slots then (board.slots[slot]?).map ReporterSlot.emptied
        else board.slots[slot]? := by
  induction slots generalizing board events with
  | nil => exact ⟨board.slots, [], by simp, .refl _, by simp, by simp⟩
  | cons slot slots ih =>
    obtain ⟨contents, more, completed, exchanges, told, emptied⟩ :=
      ih (board.complete slot).1 (events ++ (board.complete slot).2)
    have kept : { (board.complete slot).1 with slots := contents } =
        { board with slots := contents } := by
      unfold complete
      split <;> rfl
    refine ⟨contents, (board.complete slot).2 ++ more, ?_, ?_, ?_, ?_⟩
    · rw [List.foldl_cons, completed, kept, List.append_assoc]
    · exact (board.complete_exchanges slot).trans exchanges
    · intro event member
      exact (List.mem_append.mp member).elim (board.complete_told slot event) (told event)
    · intro other
      rw [emptied, getElem?_complete]
      by_cases same : slot = other
      · simp only [same, if_true, List.mem_cons_self, Option.map_map]
        split
        · refine congrArg (Option.map · _) (funext fun content => ?_)
          cases content <;> rfl
        · rfl
      · simp only [same, if_false, List.mem_cons, Ne.symm same, false_or]

/-- Completing the reporters of all tokens empties their slots, and only completions are told. -/
theorem completeAll_empties (board : ProgressBoard) :
    ∃ contents events, board.completeAll =
        ({ board with slots := contents, tokens := [], isClosed := true }, events) ∧
      Exchanges board.reporters events (contents.flatMap ReporterSlot.held) ∧
      (∀ event ∈ events, event = .complete event.about) ∧
      ∀ slot, contents[slot]? = if slot ∈ board.tokens.map Prod.snd then
        (board.slots[slot]?).map ReporterSlot.emptied else board.slots[slot]? := by
  obtain ⟨contents, events, completed, rest⟩ := completeEach_eq (board.tokens.map Prod.snd)
    { board with tokens := [], isClosed := true } []
  exact ⟨contents, events, completed, rest⟩

/-- Completing the reporters of all tokens completes every reporter. This is where a reporter without a
token would be lost, and an orderly board has none. -/
theorem Orderly.completeAll (orderly : board.Orderly busy) :
    Exchanges board.reporters board.completeAll.2 [] ∧ board.completeAll.1.reporters = [] ∧
      board.completeAll.1.isClosed = true := by
  obtain ⟨contents, events, completed, exchanges, -, emptied⟩ := board.completeAll_empties
  have empty : contents.flatMap ReporterSlot.held = [] := by
    refine List.flatMap_eq_nil_iff.mpr fun content member => ?_
    obtain ⟨slot, found⟩ := List.mem_iff_getElem?.mp member
    rw [emptied] at found
    split at found
    · obtain ⟨before, -, rfl⟩ := Option.map_eq_some_iff.mp found
      cases before <;> rfl
    next other =>
      -- A reporter that is left would be in the slot of no token, and there is no such slot.
      cases content with
      | vacant | creating => rfl
      | ready reporter =>
        cases reporter with
        | none => rfl
        | some reporter =>
          obtain ⟨token, known⟩ := orderly.kept found rfl
          exact absurd (List.mem_map_of_mem (f := Prod.snd) known) other
  rw [completed]
  exact ⟨empty ▸ exchanges, empty, rfl⟩

end ProgressBoard

end LanguageClient
