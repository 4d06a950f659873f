import LanguageClient.Proofs.Connection.Runs

/-!
# Answers

What a response, the end of the connection and the reading of what has arrived do to a call. A
response decides the call that waits for its id, and it concerns no other call; closing decides all
that is waited for. What is decided stays as it is.
-/

namespace LanguageClient

/-- An outcome is final: to settle a call twice with one outcome is to settle it once. Closing may meet a
call more than once among what is waited for. -/
theorem Call.settled_settled (call : Call) (outcome : Outcome) :
    (call.settled outcome).settled outcome = call.settled outcome := by
  by_cases final : call.isAbandoned ∨ call.outcome.isSome
  · simp only [Call.settled, if_pos final]
  · simp only [Call.settled, if_neg final, Option.isSome_some, or_true, if_true]

namespace Connection

variable {η : Type} {c d : Connection η}
variable {number other : Nat} {method : String} {verdict : Option (Option Outcome)}

/-! ## Responses -/

/-- Who is found to wait for an id is among those that are waited for. -/
theorem mem_of_waitingFor? {id : RequestId} {number : Nat}
    (waits : c.waitingFor? id = some number) : (id, number) ∈ c.pending := mem_of_lookup waits

/-- Where nobody is found to wait for an id, there is no entry for it at all, as the first entry of an id
would be found. -/
theorem not_mem_of_waitingFor? {id : RequestId} (idle : c.waitingFor? id = none) (number : Nat) :
    (id, number) ∉ c.pending :=
  fun member => lookup_eq_none.mp idle (List.mem_map_of_mem (f := Prod.fst) member)

/-- What is waited for after an id was forgotten is what was waited for before under any other id. -/
theorem mem_pending_forget {id : RequestId} {entry : RequestId × Nat} :
    entry ∈ (c.forget id).pending ↔ entry ∈ c.pending ∧ entry.1 ≠ id := by
  simp only [forget, List.mem_filter, decide_eq_true_eq]

/-- To settle a call changes what stands under its number, and nothing else in the list of calls. -/
theorem calls_settle (number other : Nat) (outcome : Outcome) :
    (c.settle number outcome).calls[other]? =
      (c.calls[other]?).map fun call => if number = other then call.settled outcome else call := by
  simp only [settle, signal, List.getElem?_modify]
  rfl

/-- The other calls are left alone when one is settled. It is the half of `calls_settle` that frames use. -/
theorem calls_settle_of_ne {number other : Nat} (apart : number ≠ other) (outcome : Outcome) :
    (c.settle number outcome).calls[other]? = c.calls[other]? := by
  simp only [calls_settle, if_neg apart, Option.map_id']

/-- Forgetting an id takes the call with it out of what is waited for, so the outcome that it is given
breaks nothing that is said of those who wait. -/
theorem Sound.forget_settle (sound : c.Sound) {number : Nat} (outcome : Outcome) :
    ((c.forget (.number (idAt number))).settle number outcome).Sound where
  next := by
    simp only [settle, signal, forget, List.length_modify]
    exact sound.next
  id {other call} found := by
    rw [calls_settle] at found
    obtain ⟨before, known, rfl⟩ := Option.map_eq_some_iff.mp found
    have same := sound.id known
    unfold Call.settled
    split
    · split <;> exact same
    · exact same
  waits entry member := by
    obtain ⟨known, renamed⟩ := mem_pending_forget.mp member
    obtain ⟨named, call, found, undecided⟩ := sound.waits entry known
    refine ⟨named, call, ?_, undecided⟩
    refine (calls_settle_of_ne ?_ outcome).trans found
    rintro rfl
    exact renamed named
  idle finished := by
    have idle := sound.idle finished
    simp only [settle, signal, forget, idle, List.filter_nil]
  writer := sound.writer

/-- An id that is waited for is that of its call, and the call is there. So an entry can be found from the
number of its call as well. -/
theorem Sound.named (sound : c.Sound) {id : RequestId} {number : Nat}
    (waits : c.waitingFor? id = some number) :
    id = .number (idAt number) ∧ number < c.calls.length := by
  obtain ⟨named, call, found, -⟩ := sound.waits _ (mem_of_waitingFor? waits)
  exact ⟨named, (List.getElem?_eq_some_iff.mp found).1⟩

/-- A response keeps the invariant, whether it is for a call, for nobody, or has no id. -/
theorem Sound.complete (sound : c.Sound) (response : Response) : (c.complete response).Sound := by
  unfold Connection.complete
  split
  · exact sound.alike (alike_note ..)
  next id _ =>
    split
    · exact sound.alike (alike_note ..)
    next number waits =>
      rw [(sound.named waits).1]
      exact sound.forget_settle _

/-- A call that stands in any way has been made, so its number is below the number of calls. -/
theorem Stands.lt (stands : c.Stands number method verdict) : number < c.calls.length := by
  cases verdict with
  | none => exact (List.getElem?_eq_some_iff.mp stands.1).1
  | some => exact (List.getElem?_eq_some_iff.mp stands.choose_spec.1).1

/-- A response that another call waits for. As the ids differ, the entry of this call stays, and so does the
call. -/
theorem Stands.other_settled (stands : c.Stands number method verdict) (apart : other ≠ number)
    (renamed : idAt other ≠ idAt number) (outcome : Outcome) :
    ((c.forget (.number (idAt other))).settle other outcome).Stands number method verdict := by
  cases verdict with
  | none =>
    refine ⟨(calls_settle_of_ne apart outcome).trans stands.1, ?_⟩
    exact mem_pending_forget.mpr ⟨stands.2, fun same => renamed (RequestId.number.inj same).symm⟩
  | some =>
    obtain ⟨isAbandoned, found, idle⟩ := stands
    refine ⟨isAbandoned, (calls_settle_of_ne apart outcome).trans found, fun kept entry member => ?_⟩
    exact idle kept entry (mem_pending_forget.mp member).1

/-- The response that the call itself waits for decides it. Its id is not waited for afterwards, so no
second response can reach it. -/
theorem Stands.self_settled (stands : c.Stands number method none) (sound : c.Sound)
    (outcome : Outcome) :
    ((c.forget (.number (idAt number))).settle number outcome).Stands number method
      (some (some outcome)) := by
  refine ⟨false, ?_, fun _ entry member same => ?_⟩
  · have found : (c.forget (.number (idAt number))).calls[number]? = _ := stands.1
    rw [calls_settle, found]
    simp only [Option.map_some, if_true, Call.settled, Bool.false_eq_true, Option.isSome_none,
      or_self, if_false]
  · obtain ⟨known, renamed⟩ := mem_pending_forget.mp member
    rw [(sound.waits entry known).1, same] at renamed
    exact renamed rfl

/-- A call that is decided gets no other outcome, even if its id is still waited for, which is the case of a
call that was abandoned. -/
theorem Stands.settled_again {verdict : Option Outcome}
    (stands : c.Stands number method (some verdict)) {id : RequestId}
    (waits : (id, other) ∈ c.pending) (outcome : Outcome) :
    ((c.forget id).settle other outcome).Stands number method (some verdict) := by
  obtain ⟨isAbandoned, found, idle⟩ := stands
  refine ⟨isAbandoned, ?_, fun kept entry member => idle kept entry (mem_pending_forget.mp member).1⟩
  have same : (c.forget id).calls[number]? = _ := found
  rw [calls_settle, same, Option.map_some]
  split
  next hit =>
    cases isAbandoned with
    | true => simp only [Call.settled, true_or, if_true]
    | false => exact absurd hit (idle rfl _ waits)
  next => rfl

/-- A response decides the call that waits for its id, and concerns no other. Ids that are distinct as
numbers are needed here, and with them the bound on the calls. -/
theorem Stands.complete (stands : c.Stands number method verdict) (sound : c.Sound)
    (few : c.calls.length ≤ 2 ^ 64) (response : Response) :
    (c.complete response).Stands number method
      (verdict.or ((Event.answered response).verdict number (idAt number) method)) := by
  unfold Connection.complete
  -- a response without an id, or for no call that waits, is only logged
  split
  next unnamed =>
    have silent : (Event.answered response).verdict number (idAt number) method = none := by
      simp only [Event.verdict, unnamed, reduceCtorEq, if_false]
    rw [silent, Option.or_none]
    exact stands.alike (alike_note ..)
  next id named =>
    split
    next idle =>
      have unmoved : verdict.or ((Event.answered response).verdict number (idAt number) method) =
          verdict := by
        cases verdict with
        | some => rfl
        | none =>
          refine if_neg fun same => ?_
          cases named.symm.trans same
          exact not_mem_of_waitingFor? idle _ stands.2
      rw [unmoved]
      exact stands.alike (alike_note ..)
    next other waits =>
      obtain ⟨rfl, known⟩ := sound.named waits
      cases verdict with
      | some => exact stands.settled_again (mem_of_waitingFor? waits) _
      | none =>
        dsimp only
        by_cases same : other = number
        · subst same
          have decided : (Event.answered response).verdict other (idAt other) method =
              some (some (outcomeOf response method)) := if_pos named
          have asked : (c.calls[other]?.map Call.method).getD "" = method := by
            rw [stands.1]; rfl
          rw [decided, Option.none_or, asked]
          exact stands.self_settled sound _
        -- there are no more calls than ids, so that two calls never wait under one
        · have renamed : idAt other ≠ idAt number := fun equal =>
            same (idAt_inj (by omega) (Nat.lt_of_lt_of_le stands.lt few) equal)
          have silent : (Event.answered response).verdict number (idAt number) method = none := by
            refine if_neg fun equal => renamed ?_
            exact RequestId.number.inj (Option.some.inj (named.symm.trans equal))
          rw [silent, Option.none_or]
          exact stands.other_settled same renamed _

/-! ## Dispatching and closing -/

/-- Messages of the server keep the invariant. Only responses have to do with calls at all. -/
theorem Sound.dispatch (sound : c.Sound) (message : Message) : (c.dispatch message).Sound := by
  cases message with
  | request asked => exact sound.alike (alike_answer asked)
  | response response => exact sound.complete response
  | notification said => exact sound.alike ⟨rfl, rfl, rfl, rfl, rfl⟩

/-- A response adds no call and takes none away. -/
theorem length_calls_complete (response : Response) :
    (c.complete response).calls.length = c.calls.length := by
  unfold Connection.complete
  split
  · rfl
  · split
    · rfl
    · exact List.length_modify ..

/-- No message of the server adds a call, as calls are requests of this side. -/
theorem length_calls_dispatch (message : Message) :
    (c.dispatch message).calls.length = c.calls.length := by
  cases message with
  | request asked => rw [dispatch, (alike_answer asked).calls]
  | response response => exact length_calls_complete response
  | notification => rfl

/-- A message takes a call on by the event that it is: a response may decide it, and the other two kinds are
no events. -/
theorem Stands.dispatch (stands : c.Stands number method verdict) (sound : c.Sound)
    (few : c.calls.length ≤ 2 ^ 64) (message : Message) :
    (c.dispatch message).Stands number method
      (verdict.or ((eventOf message).toList.findSome? (Event.verdict number (idAt number) method))) := by
  cases message with
  | request asked =>
    simp only [eventOf, Option.toList_none, List.findSome?_nil, Option.or_none]
    exact stands.alike (alike_answer asked)
  | notification said =>
    simp only [eventOf, Option.toList_none, List.findSome?_nil, Option.or_none]
    exact stands.alike ⟨rfl, rfl, rfl, rfl, rfl⟩
  | response response =>
    simp only [eventOf, Option.toList_some, List.findSome?_singleton]
    exact stands.complete sound few response

/-- Several messages, one after the other: the first response for the call decides it. The induction is on
the messages. -/
theorem Stands.dispatchAll (messages : List Message) (stands : c.Stands number method verdict)
    (sound : c.Sound) (few : c.calls.length ≤ 2 ^ 64) :
    (messages.foldl Connection.dispatch c).Stands number method (verdict.or
      ((messages.filterMap eventOf).findSome? (Event.verdict number (idAt number) method))) := by
  induction messages generalizing c verdict with
  | nil =>
    rw [List.filterMap_nil, List.findSome?_nil, Option.or_none]
    exact stands
  | cons message messages ih =>
    have first := ih (stands.dispatch sound few message) (sound.dispatch message)
      (by rw [length_calls_dispatch]; exact few)
    have split : (message :: messages).filterMap eventOf =
        (eventOf message).toList ++ messages.filterMap eventOf := by
      rw [List.filterMap_cons]
      cases eventOf message <;> rfl
    rw [split, List.findSome?_append, ← Option.or_assoc]
    exact first

/-- Messages that are handled one after the other keep the invariant, each by `Sound.dispatch`. -/
theorem Sound.dispatchAll (messages : List Message) (sound : c.Sound) :
    (messages.foldl Connection.dispatch c).Sound := by
  induction messages generalizing c with
  | nil => exact sound
  | cons message messages ih => exact ih (sound.dispatch message)

/-- What several settlements with one outcome do to a call: it is settled if it is among them, and is the
same otherwise. How often it is among them does not matter. -/
theorem calls_foldl_settle (entries : List (RequestId × Nat)) (outcome : Outcome) (number : Nat) :
    (entries.foldl (fun c entry => c.settle entry.2 outcome) c).calls[number]? =
      (c.calls[number]?).map fun call =>
        if number ∈ entries.map Prod.snd then call.settled outcome else call := by
  induction entries generalizing c with
  | nil => simp only [List.foldl_nil, List.map_nil, List.not_mem_nil, if_false, Option.map_id']
  | cons entry entries ih =>
    rw [List.foldl_cons, ih, calls_settle, Option.map_map]
    congr 1
    funext call
    simp only [Function.comp_apply, List.map_cons, List.mem_cons, eq_comm (a := number)]
    by_cases hit : entry.2 = number
    · simp only [hit, true_or, if_true, Call.settled_settled]
      split <;> rfl
    · simp only [hit, false_or, if_false]

/-- The end of a connection: nothing is waited for, and nothing is sent any more. -/
structure Ends (c d : Connection η) : Prop where
  length : d.calls.length = c.calls.length
  pending : d.pending = []
  nextId : d.nextId = c.nextId
  isOver : d.isOver = true
  writer : d.outgoing.hasWriter = false

/-- Settling adds no call and takes none away, however many are settled. -/
theorem length_foldl_settle (entries : List (RequestId × Nat)) (outcome : Outcome) :
    (entries.foldl (fun c entry => c.settle entry.2 outcome) c).calls.length = c.calls.length := by
  induction entries generalizing c with
  | nil => rfl
  | cons entry entries ih => exact ih.trans (List.length_modify ..)

/-- Settling changes neither what is waited for nor the counter of ids. The entries were taken out before.
-/
theorem foldl_settle_pending (entries : List (RequestId × Nat)) (outcome : Outcome) :
    (entries.foldl (fun c entry => c.settle entry.2 outcome) c).pending = c.pending ∧
      (entries.foldl (fun c entry => c.settle entry.2 outcome) c).nextId = c.nextId := by
  induction entries generalizing c with
  | nil => exact ⟨rfl, rfl⟩
  | cons entry entries ih => exact ih

/-- A connection that is over is not closed again. So the hook runs once, and nothing is said twice. -/
theorem close_of_isOver (finished : c.isOver = true) : c.close = c := by
  unfold close
  rw [isOver, Bool.or_eq_true] at finished
  exact if_pos finished

/-- What closing does on a connection that is there: pending calls fail, feeds end, pipes are let go, and a
word goes into the log. -/
theorem close_of_running (running : c.isOver = false) : c.close =
    (((({ c with isClosed := true }.signal [.closed]).failPending).endFeeds).letGo).note .info
      "connection closed" [] := by
  unfold close
  simp only [isOver, Bool.or_eq_false_iff] at running
  exact if_neg (by simp only [running.1, running.2, Bool.false_eq_true, or_self, not_false_iff])

/-- A connection that is over is not released again, nor is one released that was closed. -/
theorem release_of_isOver (finished : c.isOver = true) : c.release = c := by
  unfold release
  rw [isOver, Bool.or_eq_true] at finished
  exact if_pos finished

/-- What release does on a connection that is there. No call is failed, since nobody is left who could ask
for it. -/
theorem release_of_running (running : c.isOver = false) : c.release =
    ({ c with isReleased := true, pending := [] }.endFeeds.letGo).signal [.closed] := by
  unfold release
  simp only [isOver, Bool.or_eq_false_iff] at running
  exact if_neg (by simp only [running.1, running.2, Bool.false_eq_true, or_self, not_false_iff])

/-- Closing decides all that is waited for. A call without an entry, which is one that was decided, is left
as it is. -/
theorem calls_close (running : c.isOver = false) (number : Nat) :
    c.close.calls[number]? = (c.calls[number]?).map fun call =>
      if number ∈ c.pending.map Prod.snd then call.settled (.error .connectionClosed) else call := by
  rw [close_of_running running]
  exact calls_foldl_settle c.pending (.error .connectionClosed) number

/-- A connection that is closed has come to its end: nothing is waited for, no way to send is left, and
there are as many calls as before. -/
theorem ends_close (running : c.isOver = false) : c.Ends c.close := by
  have ended := c.isOver_close
  have writer := congrArg Pipe.hasWriter (outgoing_close running)
  rw [close_of_running running] at ended writer ⊢
  have failed := foldl_settle_pending (c := { ({ c with isClosed := true }.signal [.closed] :
    Connection η) with pending := [] }) c.pending (.error .connectionClosed)
  exact ⟨length_foldl_settle c.pending (.error .connectionClosed), failed.1, failed.2, ended, writer⟩

/-- Closing adds no call, whether or not the connection is there to be closed. -/
theorem length_calls_close (c : Connection η) : c.close.calls.length = c.calls.length := by
  by_cases ended : c.isOver = true
  · rw [close_of_isOver ended]
  · exact (ends_close (Bool.eq_false_iff.mpr ended)).length

/-- A connection that is released has come to its end in the same sense as one that is closed. -/
theorem ends_release (running : c.isOver = false) : c.Ends c.release := by
  rw [release_of_running running]
  exact ⟨rfl, rfl, rfl, Bool.or_true _, rfl⟩

/-- The invariant holds at the end of a connection if the calls kept their ids, since nothing is waited for
there. -/
theorem Sound.ends (sound : c.Sound) (ends : c.Ends d)
    (id : ∀ {number : Nat} {call : Call}, d.calls[number]? = some call → call.id = idAt number) :
    d.Sound where
  next := by rw [ends.nextId, ends.length]; exact sound.next
  id := id
  waits := by
    rw [ends.pending]
    exact fun entry member => absurd member List.not_mem_nil
  idle _ := ends.pending
  writer := by rw [ends.writer, ends.isOver]; rfl

/-- Closing keeps the invariant. The calls that it fails are those that waited, and afterwards none does. -/
theorem Sound.close (sound : c.Sound) : c.close.Sound := by
  by_cases ended : c.isOver = true
  · rw [close_of_isOver ended]
    exact sound
  · have running := Bool.eq_false_iff.mpr ended
    refine sound.ends (ends_close running) fun {number call} found => ?_
    rw [calls_close running] at found
    obtain ⟨before, known, rfl⟩ := Option.map_eq_some_iff.mp found
    have same := sound.id known
    unfold Call.settled
    split
    · split <;> exact same
    · exact same

/-- A connection that nobody holds any more is sound when it ends: its calls are those that were there. -/
theorem Sound.release (sound : c.Sound) : c.release.Sound := by
  by_cases ended : c.isOver = true
  · rw [release_of_isOver ended]
    exact sound
  · have running := Bool.eq_false_iff.mpr ended
    refine sound.ends (ends_release running) fun {number call} found => ?_
    rw [release_of_running running] at found
    exact sound.id found

/-- A call that waits does so on a connection that is not over, as nothing is waited for on one that is. -/
theorem Stands.running (stands : c.Stands number method none) (sound : c.Sound) :
    c.isOver = false := by
  refine Bool.eq_false_iff.mpr fun ended => ?_
  have member := stands.2
  rw [sound.idle ended] at member
  exact List.not_mem_nil member

/-- Closing decides a call that waits: it fails with the connection. A call that was decided before keeps
its verdict. -/
theorem Stands.close (stands : c.Stands number method verdict) (sound : c.Sound) :
    c.close.Stands number method (verdict.or (some (some (.error .connectionClosed)))) := by
  by_cases ended : c.isOver = true
  · rw [close_of_isOver ended]
    cases verdict with
    | some => exact stands
    | none => exact absurd (ended.symm.trans (stands.running sound)) Bool.noConfusion
  · have running := Bool.eq_false_iff.mpr ended
    have nobody : ∀ entry ∈ c.close.pending, entry.2 ≠ number := by
      rw [(ends_close running).pending]
      exact fun entry member => absurd member List.not_mem_nil
    cases verdict with
    | none =>
      refine ⟨false, ?_, fun _ => nobody⟩
      have waits : number ∈ c.pending.map Prod.snd := List.mem_map_of_mem stands.2
      rw [calls_close running, stands.1, Option.map_some, if_pos waits]
      rfl
    | some =>
      obtain ⟨isAbandoned, found, others⟩ := stands
      refine ⟨isAbandoned, ?_, fun _ => nobody⟩
      rw [calls_close running, found, Option.map_some]
      split
      next waits =>
        obtain ⟨entry, member, same⟩ := List.mem_map.mp waits
        cases isAbandoned with
        | true => rfl
        | false => exact absurd same (others rfl entry member)
      next => rfl

/-- Releasing decides a call that waits as well, but without an outcome: nobody will ever be told. -/
theorem Stands.release (stands : c.Stands number method verdict) (sound : c.Sound) :
    c.release.Stands number method (verdict.or (some none)) := by
  by_cases ended : c.isOver = true
  · rw [release_of_isOver ended]
    cases verdict with
    | some => exact stands
    | none => exact absurd (ended.symm.trans (stands.running sound)) Bool.noConfusion
  · rw [release_of_running (Bool.eq_false_iff.mpr ended)]
    cases verdict with
    | none => exact ⟨false, stands.1, fun _ _ member => absurd member List.not_mem_nil⟩
    | some =>
      obtain ⟨isAbandoned, found, -⟩ := stands
      exact ⟨isAbandoned, found, fun _ _ member => absurd member List.not_mem_nil⟩

/-! ## Reading -/

/-- An answer goes into the pipe to the server and leaves the one from it alone. -/
theorem incoming_reply (response : Response) : (c.reply response).incoming = c.incoming := by
  unfold reply send
  split
  next d sent =>
    split at sent
    · split at sent
      · cases sent
        rfl
      · cases sent
    · cases sent
  next => rfl

/-- Handling a message takes nothing from what has arrived. The reader has taken all of it before. -/
theorem incoming_dispatch (message : Message) : (c.dispatch message).incoming = c.incoming := by
  cases message with
  | request asked =>
    rw [dispatch, answer]
    split
    · exact incoming_reply ..
    · rfl
  | response response =>
    rw [dispatch, complete]
    split
    · rfl
    · split <;> rfl
  | notification => rfl

/-- Handling messages does not touch the pipe from the server, so whether the server is gone can be read off
before them. -/
theorem incoming_dispatchAll (messages : List Message) :
    (messages.foldl Connection.dispatch c).incoming = c.incoming := by
  induction messages generalizing c with
  | nil => rfl
  | cons message messages ih => exact ih.trans (incoming_dispatch message)

/-- However many messages are handled, no call is added by them. -/
theorem length_calls_dispatchAll (messages : List Message) :
    (messages.foldl Connection.dispatch c).calls.length = c.calls.length := by
  induction messages generalizing c with
  | nil => rfl
  | cons message messages ih => exact ih.trans (length_calls_dispatch message)

/-- A connection whose reader has taken all that had arrived. -/
def taken (c : Connection η) : Connection η :=
  { c with incoming := { c.incoming with waiting := [] } }

theorem alike_taken : c.Alike c.taken := ⟨rfl, rfl, rfl, rfl, rfl⟩

/-- What the reader does when it runs: all that has arrived is handled in order, and the connection is
closed if the server is gone. -/
theorem read_of_running (running : c.reader = .running) :
    c.read = if c.incoming.hasWriter then c.incoming.waiting.foldl dispatch c.taken
      else (c.incoming.waiting.foldl dispatch c.taken).close := by
  have kept : (c.incoming.waiting.foldl dispatch c.taken).incoming.hasWriter =
      c.incoming.hasWriter := by
    rw [incoming_dispatchAll]
    rfl
  rw [← kept]
  unfold read
  split
  next => rfl
  next resting => exact absurd running resting

/-- Where no reader runs nothing is handled, and the end of the server is not noticed. -/
theorem read_of_not_running (resting : c.reader ≠ .running) : c.read = c := by
  unfold read
  split
  next running => exact absurd running resting
  next => rfl

/-- Handling what has arrived keeps the invariant, with the end of the connection if the server is gone. -/
theorem Sound.read (sound : c.Sound) : c.read.Sound := by
  by_cases running : c.reader = .running
  · rw [read_of_running running]
    have handled := (sound.alike alike_taken).dispatchAll c.incoming.waiting
    split
    · exact handled
    · exact handled.close
  · rw [read_of_not_running running]
    exact sound

/-- Handling what has arrived takes a call on by the responses in their order, and then by the end of the
connection if the server is gone. So a response that came before the end still counts. -/
theorem Stands.read (stands : c.Stands number method verdict) (sound : c.Sound)
    (few : c.calls.length ≤ 2 ^ 64) :
    c.read.Stands number method (verdict.or
      ((c.events .read).findSome? (Event.verdict number (idAt number) method))) := by
  by_cases running : c.reader = .running
  · have handled := (stands.alike alike_taken).dispatchAll c.incoming.waiting
      (sound.alike alike_taken) few
    simp only [read_of_running running, events, if_pos running, List.findSome?_append]
    split
    · rw [List.findSome?_nil, Option.or_none]
      exact handled
    · rw [← Option.or_assoc]
      exact handled.close ((sound.alike alike_taken).dispatchAll _)
  · simp only [read_of_not_running running, events, if_neg running, List.findSome?_nil,
      Option.or_none]
    exact stands

end Connection

end LanguageClient
