import LanguageClient.Proofs.Connection.Answers

/-!
# The calls of a connection

The first event that concerns a call decides it, and no other event does. A request adds a call under
the next id, which nobody waits for, and every move takes the calls on by its own events; so a run
takes them on by all of them. `run_correlates` puts this together.
-/

namespace LanguageClient

namespace Connection

variable {η : Type} {c d : Connection η}
variable {number other : Nat} {method : String} {verdict : Option (Option Outcome)}

/-! ## Requests -/

/-- The message that asks the server. -/
def asking (c : Connection η) (method : String) (params : Json) : Message :=
  .request (Request.make (.number c.nextId) method (some params))

/-- What a request does: the call is added, with its outcome if that is known at once. -/
structure Asks (c d : Connection η) (method : String) (outcome : Option Outcome) : Prop where
  calls : d.calls = c.calls ++ [⟨c.nextId, method, outcome, false⟩]
  pending : d.pending = c.pending ++
    if outcome = none then [(.number c.nextId, c.calls.length)] else []
  nextId : d.nextId = c.nextId + 1
  isOver : d.isOver = c.isOver
  writer : d.outgoing.hasWriter = c.outgoing.hasWriter

/-- As long as there are ids left, nobody waits for the next one. For the ids that are waited for are those
of earlier calls, and the counter has not come round to them. -/
theorem Sound.fresh (sound : c.Sound) (few : c.calls.length < 2 ^ 64) :
    c.waitingFor? (.number c.nextId) = none := by
  cases waits : c.waitingFor? (.number c.nextId) with
  | none => rfl
  | some number =>
    obtain ⟨named, known⟩ := sound.named waits
    rw [sound.next] at named
    have same := idAt_inj few (by omega) (RequestId.number.inj named)
    omega

/-- To change the last item of a list is to change what was added. It is stated for lists, as the numbers of
calls are lengths. -/
theorem modify_append_last {α : Type} (values : List α) (last : α) (change : α → α) :
    (values ++ [last]).modify values.length change = values ++ [change last] := by
  induction values with
  | nil => rfl
  | cons value values ih => exact congrArg (value :: ·) ih

/-- The connection on which a call waits for its response, before the request is sent. -/
def asked (c : Connection η) (method : String) : Connection η :=
  { (c.enroll method none).2 with
    pending := c.pending ++ [(.number c.nextId, c.calls.length)] }

/-- A request that could not be sent leaves its call with the failure. Its id, which was fresh, is taken
back from what is waited for. -/
theorem asks_unsent (fresh : c.waitingFor? (.number c.nextId) = none) (method : String)
    (failure : ClientError) :
    c.Asks (((c.asked method).forget (.number c.nextId)).settle c.calls.length (.error failure))
      method (some (.error failure)) where
  calls := modify_append_last c.calls _ _
  pending := by
    rw [if_neg (Option.some_ne_none _), List.append_nil]
    have others : c.pending.filter (fun entry => entry.1 ≠ .number c.nextId) = c.pending := by
      refine List.filter_eq_self.mpr fun entry member => decide_eq_true ?_
      rintro named
      exact not_mem_of_waitingFor? fresh entry.2 (named ▸ member)
    refine (List.filter_append ..).trans ?_
    rw [others, List.filter_cons_of_neg (by simp only [ne_eq, not_true_eq_false, decide_false,
      Bool.false_eq_true, not_false_iff]), List.filter_nil, List.append_nil]
  nextId := rfl
  isOver := rfl
  writer := rfl

/-- With a fresh id no older call is displaced, so a request on an open connection is one send and one
failure if that fails. -/
theorem request_of_fresh (opened : c.isClosed = false)
    (fresh : c.waitingFor? (.number c.nextId) = none) (method : String) (params : Json) :
    (c.request method params).2 =
      match (c.asked method).send (c.asking method params) with
      | .ok sent => sent
      | .error failure =>
        ((c.asked method).forget (.number c.nextId)).settle c.calls.length (.error failure) := by
  unfold request
  dsimp only
  rw [opened, fresh, if_neg Bool.false_ne_true]
  change (match (c.asked method).send (c.asking method params) with
    | .ok sent => (c.calls.length, sent)
    | .error failure => (c.calls.length,
        ((c.asked method).forget (.number c.nextId)).settle c.calls.length (.error failure))).2 = _
  cases (c.asked method).send (c.asking method params) <;> rfl

/-- What comes of a request at once: a call with the next id, which has failed already if the connection is
over or nobody reads, and is waited for otherwise. -/
theorem asks_request (sound : c.Sound) (few : c.calls.length < 2 ^ 64) (method : String)
    (params : Json) : c.Asks (c.request method params).2 method (c.sequel method []) := by
  have fresh := sound.fresh few
  by_cases closed : c.isClosed = true
  · have ended : c.isOver = true := by simp only [isOver, closed, Bool.true_or]
    unfold request sequel
    rw [if_pos closed, if_pos ended]
    exact ⟨rfl, (List.append_nil _).symm, rfl, rfl, rfl⟩
  · rw [request_of_fresh (Bool.eq_false_iff.mpr closed) fresh]
    have writer : (c.asked method).outgoing.hasWriter = !c.isOver := sound.writer
    unfold send
    by_cases ended : c.isOver = true
    · rw [writer, ended]
      simp only [sequel, ended, Bool.not_true, Bool.false_eq_true, if_false, if_true]
      exact asks_unsent fresh method _
    · have running := Bool.eq_false_iff.mpr ended
      rw [writer, running]
      simp only [sequel, running, Bool.not_false, Bool.false_eq_true, if_false, if_true, Pipe.send]
      by_cases listening : c.outgoing.hasReader = true
      · have kept : (c.asked method).outgoing.hasReader = true := listening
        simp only [kept, listening, if_true]
        exact ⟨rfl, rfl, rfl, rfl, rfl⟩
      · have kept : ¬ (c.asked method).outgoing.hasReader = true := listening
        simp only [kept, listening, Bool.false_eq_true, if_false]
        exact asks_unsent fresh method _

/-- A request keeps the calls sound. The new call has the id that its number says, and it is waited for only
if it has no outcome. -/
theorem Sound.asks {outcome : Option Outcome} (sound : c.Sound)
    (asks : c.Asks d method outcome) (decided : c.isOver = true → outcome ≠ none) : d.Sound where
  next := by
    rw [asks.nextId, asks.calls, sound.next, List.length_append]
    exact idAt_succ _
  id {number call} found := by
    rw [asks.calls, List.getElem?_append, List.getElem?_singleton] at found
    split at found
    · exact sound.id found
    · split at found
      next inside last =>
        cases found
        have newest : number = c.calls.length := by omega
        rw [newest]
        exact sound.next
      next => cases found
  waits entry member := by
    rw [asks.pending] at member
    rw [asks.calls]
    obtain known | new := List.mem_append.mp member
    · obtain ⟨named, call, found, undecided⟩ := sound.waits entry known
      refine ⟨named, call, ?_, undecided⟩
      rw [List.getElem?_append_left (List.getElem?_eq_some_iff.mp found).1]
      exact found
    · split at new
      next undecided =>
        cases List.mem_singleton.mp new
        rw [sound.next]
        exact ⟨rfl, _, List.getElem?_concat_length, undecided⟩
      next => cases new
  idle ended := by
    rw [asks.isOver] at ended
    rw [asks.pending, sound.idle ended, if_neg (decided ended)]
    rfl
  writer := by rw [asks.writer, asks.isOver]; exact sound.writer

/-- On a connection that is over a call fails at once, whatever happens later. -/
theorem sequel_of_isOver (ended : c.isOver = true) (method : String) (events : List Event) :
    c.sequel method events = some (.error .connectionClosed) := if_pos ended

/-- Requests keep the invariant as long as there are ids left. The bound is used for the id of the new call
alone. -/
theorem Sound.request (sound : c.Sound) (few : c.calls.length < 2 ^ 64) (method : String)
    (params : Json) : (c.request method params).2.Sound := by
  refine sound.asks (asks_request sound few method params) fun ended => ?_
  rw [sequel_of_isOver ended]
  exact Option.some_ne_none _

/-- A new call leaves the older ones alone: it stands behind them, and what is waited for is added to and
not changed. -/
theorem Stands.asks {outcome : Option Outcome} {asked : String}
    (stands : c.Stands number method verdict) (asks : c.Asks d asked outcome) :
    d.Stands number method verdict := by
  have found : d.calls[number]? = c.calls[number]? := by
    rw [asks.calls, List.getElem?_append_left stands.lt]
  cases verdict with
  | none =>
    refine ⟨found.trans stands.1, ?_⟩
    rw [asks.pending]
    exact List.mem_append_left _ stands.2
  | some =>
    have older := stands.lt
    obtain ⟨isAbandoned, known, idle⟩ := stands
    refine ⟨isAbandoned, found.trans known, fun kept entry member => ?_⟩
    rw [asks.pending] at member
    obtain member | new := List.mem_append.mp member
    · exact idle kept entry member
    · split at new
      next =>
        cases List.mem_singleton.mp new
        exact Nat.ne_of_gt older
      next => cases new

/-- How a call stands that was just made: it waits, or it is decided by what was known at once. From here
its own events take it on. -/
theorem Sound.stands {outcome : Option Outcome} (sound : c.Sound)
    (asks : c.Asks d method outcome) : d.Stands c.calls.length method (outcome.map some) := by
  have found : d.calls[c.calls.length]? = some ⟨idAt c.calls.length, method, outcome, false⟩ := by
    rw [asks.calls, ← sound.next]
    exact List.getElem?_concat_length
  cases outcome with
  | none =>
    refine ⟨found, ?_⟩
    rw [asks.pending, sound.next]
    exact List.mem_append_right _ List.mem_cons_self
  | some outcome =>
    refine ⟨false, found, fun _ entry member => ?_⟩
    rw [asks.pending, if_neg (Option.some_ne_none _), List.append_nil] at member
    obtain ⟨-, call, known, -⟩ := sound.waits entry member
    exact Nat.ne_of_lt (List.getElem?_eq_some_iff.mp known).1

/-! ## Runs of calls -/

/-- That nobody waits for a call any more leaves its id among those that are waited for, and the call
without an outcome, so the invariant holds on. -/
theorem Sound.abandon (sound : c.Sound) (other : Nat) : (c.abandon other).Sound where
  next := by
    simp only [Connection.abandon, List.length_modify]
    exact sound.next
  id {number call} found := by
    simp only [Connection.abandon, List.getElem?_modify] at found
    obtain ⟨before, known, rfl⟩ := Option.map_eq_some_iff.mp found
    have same := sound.id known
    split <;> exact same
  waits entry member := by
    obtain ⟨named, call, found, undecided⟩ := sound.waits entry member
    refine ⟨named, if other = entry.2 then call.abandoned else call, ?_, ?_⟩
    · simp only [Connection.abandon, List.getElem?_modify, found]
      rfl
    · split <;> exact undecided
  idle := sound.idle
  writer := sound.writer

/-- To abandon a call decides that there will be no outcome, unless there is one already. Other calls are
not concerned. -/
theorem Stands.abandon (stands : c.Stands number method verdict) (other : Nat) :
    (c.abandon other).Stands number method
      (verdict.or ((Event.abandoned other).verdict number (idAt number) method)) := by
  have left : (c.abandon other).calls[number]? = (c.calls[number]?).map fun call =>
      if other = number then call.abandoned else call := List.getElem?_modify ..
  cases verdict with
  | none =>
    rw [stands.1, Option.map_some] at left
    rw [Option.none_or, Event.verdict]
    split
    next same =>
      rw [if_pos same] at left
      exact ⟨true, left, fun kept => Bool.noConfusion kept⟩
    next apart =>
      rw [if_neg apart] at left
      exact ⟨left, stands.2⟩
  | some =>
    obtain ⟨isAbandoned, found, idle⟩ := stands
    rw [found, Option.map_some] at left
    rw [Option.some_or]
    split at left
    · exact ⟨true, left, fun kept => Bool.noConfusion kept⟩
    · exact ⟨isAbandoned, left, idle⟩

/-- Every move keeps the calls sound. Only for a request is it needed that there are ids left. -/
theorem Sound.after (sound : c.Sound) (move : Move η)
    (few : move.isRequest = true → c.calls.length < 2 ^ 64) : (c.after move).Sound := by
  cases move with
  | request method params => exact sound.request (few rfl) method params
  | abandon number => exact sound.abandon number
  | close => exact sound.close
  | release => exact sound.release
  | dispatch message => exact sound.dispatch message
  | read => exact sound.read
  | start => exact sound.alike alike_start
  | notify method params => exact sound.alike (alike_notifyIfPossible method params)
  | handle method handler => exact sound.alike (alike_handle method handler)
  | finish job outcome => exact sound.alike (alike_finish job outcome)
  | arrive message => exact sound.alike (alike_arrive message)
  | hangUp => exact sound.alike alike_hangUp
  | observe | drain | next | dropFeed | deliver | stopReading =>
    exact sound.alike ⟨rfl, rfl, rfl, rfl, rfl⟩

/-- A move without events, which leaves the calls as they are, leaves the verdict as it is. It is stated
with the empty list of events to fit the other cases. -/
theorem Stands.unmoved (stands : c.Stands number method verdict) (alike : c.Alike d) :
    d.Stands number method (verdict.or
      (([] : List Event).findSome? (Event.verdict number (idAt number) method))) := by
  rw [List.findSome?_nil, Option.or_none]
  exact stands.alike alike

/-- Every move takes a call on by its own events: if it was decided it stays so, and if not, the first of
the move's events that concerns it decides it. -/
theorem Stands.after (stands : c.Stands number method verdict) (sound : c.Sound) (move : Move η)
    (few : move.isRequest = true → c.calls.length < 2 ^ 64) (bounded : c.calls.length ≤ 2 ^ 64) :
    (c.after move).Stands number method
      (verdict.or ((c.events move).findSome? (Event.verdict number (idAt number) method))) := by
  cases move with
  | abandon other =>
    simp only [events, List.findSome?_singleton]
    exact stands.abandon other
  | close =>
    simp only [events, List.findSome?_singleton]
    exact stands.close sound
  | release =>
    simp only [events, List.findSome?_singleton]
    exact stands.release sound
  | dispatch message => exact stands.dispatch sound bounded message
  | read => exact stands.read sound bounded
  | request asked params =>
    simp only [events, List.findSome?_nil, Option.or_none]
    exact stands.asks (asks_request sound (few rfl) asked params)
  | start => exact stands.unmoved alike_start
  | notify method params => exact stands.unmoved (alike_notifyIfPossible method params)
  | handle method handler => exact stands.unmoved (alike_handle method handler)
  | finish job outcome => exact stands.unmoved (alike_finish job outcome)
  | arrive message => exact stands.unmoved (alike_arrive message)
  | hangUp => exact stands.unmoved alike_hangUp
  | observe | drain | next | dropFeed | deliver | stopReading =>
    exact stands.unmoved ⟨rfl, rfl, rfl, rfl, rfl⟩

/-- Only a request adds a call, and it adds one. So the number of the next call counts the requests that
were made. -/
theorem length_calls_after (sound : c.Sound) (move : Move η)
    (few : move.isRequest = true → c.calls.length < 2 ^ 64) :
    (c.after move).calls.length = c.calls.length + if move.isRequest then 1 else 0 := by
  cases move with
  | request method params =>
    simp only [after, (asks_request sound (few rfl) method params).calls, List.length_append]
    rfl
  | abandon number => exact List.length_modify ..
  | close => exact length_calls_close c
  | release =>
    by_cases ended : c.isOver = true
    · rw [after, release_of_isOver ended]; rfl
    · exact (ends_release (Bool.eq_false_iff.mpr ended)).length
  | dispatch message => exact length_calls_dispatch message
  | read =>
    by_cases running : c.reader = .running
    · have handled : (c.incoming.waiting.foldl dispatch c.taken).calls.length = c.calls.length :=
        length_calls_dispatchAll _
      rw [after, read_of_running running]
      split
      · exact handled
      · exact (length_calls_close _).trans handled
    · rw [after, read_of_not_running running]; rfl
  | start => exact congrArg List.length alike_start.calls
  | notify method params => exact congrArg List.length (alike_notifyIfPossible method params).calls
  | handle method handler => exact congrArg List.length (alike_handle method handler).calls
  | finish job outcome => exact congrArg List.length (alike_finish job outcome).calls
  | arrive message => exact congrArg List.length (alike_arrive message).calls
  | hangUp => exact congrArg List.length alike_hangUp.calls
  | observe | drain | next | dropFeed | deliver | stopReading => rfl

/-- A new connection has no calls, and the counter stands at the id of the first. -/
theorem sound_new : (new : Connection η).Sound where
  next := rfl
  id found := by cases found
  waits _ member := absurd member List.not_mem_nil
  idle _ := rfl
  writer := rfl

/-- Whether a run leaves ids for all its calls. -/
def HasIds (c : Connection η) (moves : List (Move η)) : Prop :=
  c.calls.length + moves.countP Move.isRequest ≤ 2 ^ 64

/-- If ids are left for a whole run, one is left for its first move. -/
theorem HasIds.first {move : Move η} {moves : List (Move η)} (few : c.HasIds (move :: moves)) :
    move.isRequest = true → c.calls.length < 2 ^ 64 := by
  intro asks
  unfold HasIds at few
  rw [List.countP_cons, if_pos asks] at few
  omega

/-- If ids are left for a whole run, then they are left for the rest of it after the first move, which uses
at most one. -/
theorem HasIds.rest {move : Move η} {moves : List (Move η)} (few : c.HasIds (move :: moves))
    (sound : c.Sound) : (c.after move).HasIds moves := by
  have counted := length_calls_after sound move few.first
  unfold HasIds at few ⊢
  rw [List.countP_cons] at few
  omega

/-- If ids are left for a whole run, then for each of its beginnings. -/
theorem HasIds.head {first second : List (Move η)} (few : c.HasIds (first ++ second)) :
    c.HasIds first := by
  unfold HasIds at few ⊢
  rw [List.countP_append] at few
  omega

/-- Every run for whose calls there are ids keeps the invariant, by induction on the moves with
`Sound.after` as the step. -/
theorem Sound.run (sound : c.Sound) {moves : List (Move η)} (few : c.HasIds moves) :
    (c.run moves).Sound := by
  induction moves generalizing c with
  | nil => exact sound
  | cons move moves ih => exact ih (sound.after move few.first) (few.rest sound)

/-- A run adds as many calls as it makes requests. This tells the number under which a request in the middle
of a run finds its call. -/
theorem length_calls_run (sound : c.Sound) {moves : List (Move η)} (few : c.HasIds moves) :
    (c.run moves).calls.length = c.calls.length + moves.countP Move.isRequest := by
  induction moves generalizing c with
  | nil => rfl
  | cons move moves ih =>
    rw [run_cons, ih (sound.after move few.first) (few.rest sound),
      length_calls_after sound move few.first, List.countP_cons]
    omega

/-- If ids are left for a whole run, then for the rest of it after any cut. The correlation theorem cuts at
the request in question. -/
theorem HasIds.tail {first second : List (Move η)} (few : c.HasIds (first ++ second))
    (sound : c.Sound) : (c.run first).HasIds second := by
  have counted := length_calls_run sound few.head
  unfold HasIds at few ⊢
  rw [List.countP_append] at few
  omega

/-- A run takes a call on by all its events: the first event that concerns the call decides it, and later
ones say nothing more. The induction is on the moves, with the events of a run in front of those of the
rest. -/
theorem Stands.run (stands : c.Stands number method verdict) (sound : c.Sound)
    {moves : List (Move η)} (few : c.HasIds moves) :
    (c.run moves).Stands number method
      (verdict.or ((c.course moves).findSome? (Event.verdict number (idAt number) method))) := by
  induction moves generalizing c verdict with
  | nil =>
    rw [course, List.findSome?_nil, Option.or_none]
    exact stands
  | cons move moves ih =>
    have bounded : c.calls.length ≤ 2 ^ 64 := Nat.le_trans (Nat.le_add_right ..) few
    have next := ih (stands.after sound move few.first bounded) (sound.after move few.first)
      (few.rest sound)
    rw [course, List.findSome?_append, ← Option.or_assoc]
    exact next

/-- The ids of the calls are apart, as each is that of its number and there are no more calls than ids. -/
theorem Sound.nodup (sound : c.Sound) (few : c.calls.length ≤ 2 ^ 64) :
    (c.calls.map Call.id).Nodup := by
  refine List.pairwise_iff_getElem.mpr fun first second known inside before same => ?_
  simp only [List.length_map] at known inside
  simp only [List.getElem_map] at same
  rw [sound.id (List.getElem?_eq_getElem known), sound.id (List.getElem?_eq_getElem inside)] at same
  have equal := idAt_inj (by omega) (by omega) same
  omega

/-! ## What a response leaves alone -/

/-- A response takes its id, and it changes at most the call that waits for that id. Nothing else is waited
for differently afterwards. -/
theorem complete_spares (response : Response) :
    (∀ entry, entry ∈ (c.complete response).pending ↔
      entry ∈ c.pending ∧ response.id ≠ some entry.1) ∧
    ∀ number, (∀ id, response.id = some id → (id, number) ∉ c.pending) →
      (c.complete response).calls[number]? = c.calls[number]? := by
  unfold Connection.complete
  split
  next unnamed =>
    refine ⟨fun entry => ?_, fun _ _ => rfl⟩
    rw [unnamed]
    exact ⟨fun member => ⟨member, (Option.some_ne_none _).symm⟩, And.left⟩
  next id named =>
    rw [named]
    split
    next idle =>
      refine ⟨fun entry => ⟨fun member => ⟨member, ?_⟩, And.left⟩, fun _ _ => rfl⟩
      rintro same
      cases Option.some.inj same
      exact not_mem_of_waitingFor? idle entry.2 member
    next other waits =>
      refine ⟨fun entry => ?_, fun number apart => ?_⟩
      · refine mem_pending_forget.trans (and_congr_right fun _ => ?_)
        exact not_congr ⟨fun same => congrArg some same.symm, fun same => (Option.some.inj same).symm⟩
      · refine calls_settle_of_ne ?_ _
        rintro rfl
        exact apart id rfl (mem_of_waitingFor? waits)

/-! ## The outcomes of a run -/

/-- A request goes out under its own id, if there is somebody to read it. Nothing else goes out with it. -/
theorem request_outgoing (sound : c.Sound) (few : c.calls.length < 2 ^ 64) (method : String)
    (params : Json) : (c.request method params).2.outgoing.waiting =
      c.outgoing.waiting ++ if c.isOpen then [c.asking method params] else [] := by
  by_cases closed : c.isClosed = true
  · have unopened : c.isOpen = false := by
      simp only [isOpen, sound.writer, isOver, closed, Bool.true_or, Bool.not_true, Bool.false_and]
    unfold request
    rw [if_pos closed, unopened, if_neg Bool.false_ne_true, List.append_nil]
    rfl
  · rw [request_of_fresh (Bool.eq_false_iff.mpr closed) (sound.fresh few)]
    have kept : (c.asked method).outgoing = c.outgoing := rfl
    by_cases writer : c.outgoing.hasWriter = true
    · by_cases reader : c.outgoing.hasReader = true
      · simp only [isOpen, send, Pipe.send, kept, writer, reader, Bool.and_self, if_true]
        rfl
      · simp only [isOpen, send, Pipe.send, kept, writer, reader, Bool.and_false,
          Bool.false_eq_true, if_true, if_false]
        exact (List.append_nil _).symm
    · simp only [isOpen, send, kept, writer, Bool.false_and, Bool.false_eq_true, if_false]
      exact (List.append_nil _).symm

/-- What a call comes to is known at once, or it is what the first event says that concerns it. This joins
how the call stood at first with what the run decided. -/
theorem sequel_eq (c : Connection η) (method : String) (events : List Event) :
    (((c.sequel method []).map some).or
      (events.findSome? (Event.verdict c.calls.length c.nextId method))).join =
      c.sequel method events := by
  unfold sequel
  split
  · rfl
  · split
    · rw [List.findSome?_nil, Option.join_none, Option.map_none, Option.none_or]
    · rfl

/-- What a run of a connection does with its calls. -/
structure Correlates (moves : List (Move η)) : Prop where
  /-- No two calls have one id. -/
  ids : ((new.run moves : Connection η).calls.map Call.id).Nodup
  /-- A call goes out under its id, if there is somebody to read it, and it has the outcome that the
  first event gives it that concerns it. -/
  outcomes : ∀ before method params later, moves = before ++ .request method params :: later →
    let made : Connection η := new.run before
    let asked := made.after (.request method params)
    asked.outgoing.waiting =
      made.outgoing.waiting ++ (if made.isOpen then [made.asking method params] else []) ∧
    ∃ isAbandoned, (new.run moves : Connection η).calls[made.calls.length]? =
      some ⟨made.nextId, method, made.sequel method (asked.course later), isAbandoned⟩
  /-- Nothing is waited for on behalf of a call with an outcome. -/
  decided : ∀ number, ((new.run moves : Connection η).outcome? number).isSome →
    ∀ entry ∈ (new.run moves : Connection η).pending, entry.2 ≠ number
  /-- A response takes its own id from what is waited for, and nothing else. -/
  taken : ∀ response entry,
    entry ∈ ((new.run moves : Connection η).dispatch (.response response)).pending ↔
      entry ∈ (new.run moves : Connection η).pending ∧ response.id ≠ some entry.1
  /-- A response changes no call but the one that waits for its id. -/
  spared : ∀ response number,
    (∀ id, response.id = some id → (id, number) ∉ (new.run moves : Connection η).pending) →
    ((new.run moves : Connection η).dispatch (.response response)).calls[number]? =
      (new.run moves : Connection η).calls[number]?

/-- As long as there are ids for all its calls, every run keeps calls and responses together. The bound is
that of the counter, which is never checked and would give an id again that may still be waited for. -/
theorem run_correlates (moves : List (Move η)) (few : moves.countP Move.isRequest < 2 ^ 64) :
    Correlates moves := by
  have start : (new : Connection η).Sound := sound_new
  have ids : (new : Connection η).HasIds moves := by
    rw [HasIds]
    exact Nat.le_of_lt (by simpa only [new, List.length_nil, Nat.zero_add] using few)
  have sound : (new.run moves : Connection η).Sound := start.run ids
  refine ⟨sound.nodup ?_, ?_, ?_, fun response => (complete_spares response).1,
    fun response => (complete_spares response).2⟩
  · rw [length_calls_run start ids]
    exact ids
  · rintro before method params later rfl
    have made := start.run ids.head
    have left := ids.tail start
    have few := left.first rfl
    refine ⟨request_outgoing made few method params, ?_⟩
    have stands := (made.stands (asks_request made few method params)).run
      (made.request few method params) (left.rest made)
    rw [run_append, run_cons, ← sequel_eq, made.next]
    exact stands.known
  · intro number decided entry member same
    obtain ⟨-, call, found, undecided⟩ := sound.waits entry member
    rw [same] at found
    simp only [Connection.outcome?, found, Option.bind_eq_bind, Option.bind_some, undecided,
      Option.isSome_none, Bool.false_eq_true] at decided

/-- Four calls, one of them abandoned; the second is answered twice and before the first, which has
an error and a result; two responses are for nobody; then the end, and one call more. -/
def disorder : List (Move Unit) :=
  [.start, .request "first" .null, .request "second" .null, .request "third" .null,
    .request "fourth" .null, .abandon 2,
    .arrive (.response (.success (.number 2) (.bool true))),
    .arrive (.response ⟨protocolVersion, some (.number 2), none, none⟩),
    .arrive (.response (.success (.text "1") .null)),
    .arrive (.response ⟨protocolVersion, none, some .null, none⟩),
    .arrive (.response ⟨protocolVersion, some (.number 1), some .null, some ⟨-1, "no", none⟩⟩),
    .read, .close, .request "fifth" .null]

/-- The theorem at a run in which responses come out of order, twice and for nobody, and the outcomes of its
five calls as they are computed. -/
theorem disorder_correlates : disorder.countP Move.isRequest < 2 ^ 64 ∧ Correlates disorder ∧
    (new.run disorder).calls.map Call.outcome =
      [some (.error (.server "first" (-1) "no")), some (.ok (.bool true)), none,
        some (.error .connectionClosed), some (.error .connectionClosed)] :=
  ⟨by decide, run_correlates disorder (by decide), by rfl⟩

end Connection

end LanguageClient
