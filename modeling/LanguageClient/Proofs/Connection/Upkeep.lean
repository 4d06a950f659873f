import LanguageClient.Proofs.Connection.Answers
import Mathlib.Data.List.Nodup

/-!
# The upkeep of a connection

What every operation of a connection keeps, whoever carries it out and however many calls there
are. `Neat` holds in every state: the hook of the transport has run once if the connection is over
and never before, and then nothing is waited for. `Goes` says of two states that the second comes
after the first: what is over stays over and sends nothing, and an outcome is final.

Two things are kept by most operations only. Unless what has arrived is read, a call that was waited
for is answered by nobody, so it can fail only (`Unanswered`). Unless a handler finishes, the jobs
change only in that new ones come (`Spawns`).
-/

namespace LanguageClient

namespace Connection

variable {η : Type} {c d e : Connection η} {number : Nat}

/-! ## Definitions -/

/-- What holds in every state of a connection. -/
structure Neat (c : Connection η) : Prop where
  hook : c.hookRuns = if c.isOver then 1 else 0
  writer : c.outgoing.hasWriter = !c.isOver
  ids : (c.pending.map Prod.fst).Nodup
  idle : c.isOver = true → c.pending = []

/-- A call that no server has answered: it is waited for, or there will be no answer. -/
def Unanswered (c : Connection η) (number : Nat) : Prop :=
  ∃ call, c.calls[number]? = some call ∧
    (call.isAbandoned = true ∨ call.outcome = some (.error .connectionClosed) ∨
      call.outcome = none ∧ ∃ id, (id, number) ∈ c.pending)

/-- A later state of a connection. -/
structure Goes (c d : Connection η) : Prop where
  neat : c.Neat → d.Neat
  finished : c.isOver = true → d.isOver = true
  silent : c.outgoing.hasWriter = false →
    d.outgoing.hasWriter = false ∧ d.outgoing.waiting.Sublist c.outgoing.waiting
  final : ∀ {number : Nat} {outcome : Outcome}, c.outcome? number = some outcome →
    d.outcome? number = some outcome

/-- A later state, the server having answered nothing in between. -/
structure Unread (c d : Connection η) : Prop extends Goes c d where
  unanswered : c.Neat → ∀ {number : Nat}, c.Unanswered number → d.Unanswered number

/-- Jobs may have come, and none was finished. -/
def Spawns (c d : Connection η) : Prop :=
  ∃ more, d.jobs = c.jobs ++ more ∧ ∀ job ∈ more, job.isFinished = false

theorem Goes.refl (c : Connection η) : c.Goes c :=
  ⟨id, id, fun mute => ⟨mute, List.Sublist.refl _⟩, id⟩

/-- Later is transitive: what was silent at first had less and less to send, since a sublist of a sublist is
one. -/
theorem Goes.trans (first : c.Goes d) (second : d.Goes e) : c.Goes e where
  neat := second.neat ∘ first.neat
  finished := second.finished ∘ first.finished
  silent mute := by
    obtain ⟨mute, less⟩ := first.silent mute
    obtain ⟨mute, lesser⟩ := second.silent mute
    exact ⟨mute, lesser.trans less⟩
  final := second.final ∘ first.final

theorem Unread.refl (c : Connection η) : c.Unread c := ⟨.refl c, fun _ => id⟩

/-- Two steps in which the server answered nothing make one. Neatness of the state between them comes from
the first step. -/
theorem Unread.trans (first : c.Unread d) (second : d.Unread e) : c.Unread e :=
  ⟨first.toGoes.trans second.toGoes, fun neat _ waits =>
    second.unanswered (first.neat neat) (first.unanswered neat waits)⟩

theorem Spawns.refl (c : Connection η) : c.Spawns c := ⟨[], by simp, by simp⟩

/-- Where the jobs are the same ones, none came and none was finished. Most operations are of this kind. -/
theorem Spawns.of_eq (jobs : d.jobs = c.jobs) : c.Spawns d := ⟨[], by simp [jobs], by simp⟩

/-- Jobs that came in two steps stand behind each other, and none of either kind is finished. -/
theorem Spawns.trans (first : c.Spawns d) (second : d.Spawns e) : c.Spawns e := by
  obtain ⟨some, jobs, fresh⟩ := first
  obtain ⟨more, jobs', fresh'⟩ := second
  refine ⟨some ++ more, by rw [jobs', jobs, List.append_assoc], ?_⟩
  intro job member
  rcases List.mem_append.mp member with member | member
  · exact fresh job member
  · exact fresh' job member

/-! ## Operations that concern no call -/

/-- A state that is alike in what concerns the calls is as neat as the other, if the hook of the transport
has not run in between. -/
theorem Alike.neat (alike : c.Alike d) (hook : d.hookRuns = c.hookRuns) (neat : c.Neat) :
    d.Neat where
  hook := by rw [hook, alike.isOver]; exact neat.hook
  writer := by rw [alike.isOver, alike.writer]; exact neat.writer
  ids := by rw [alike.pending]; exact neat.ids
  idle := by rw [alike.isOver, alike.pending]; exact neat.idle

/-- What concerns no call, runs no hook, and sends nothing when nothing can be sent. All operations that
touch neither calls nor the end of the connection come to this lemma. -/
theorem Alike.unread (alike : c.Alike d) (hook : d.hookRuns = c.hookRuns)
    (silent : c.outgoing.hasWriter = false → d.outgoing.waiting.Sublist c.outgoing.waiting) :
    c.Unread d where
  neat := alike.neat hook
  finished := by rw [alike.isOver]; exact id
  silent mute := ⟨by rw [alike.writer]; exact mute, silent mute⟩
  final := by unfold outcome?; rw [alike.calls]; exact id
  unanswered _ := by unfold Unanswered; rw [alike.calls, alike.pending]; exact id

/-- What changes nothing of all that: not the calls or who waits, not the ids, not the end of the connection
and not what is sent. -/
theorem Unread.of_eq (calls : d.calls = c.calls) (pending : d.pending = c.pending)
    (nextId : d.nextId = c.nextId) (isOver : d.isOver = c.isOver)
    (outgoing : d.outgoing = c.outgoing) (hook : d.hookRuns = c.hookRuns) : c.Unread d :=
  Alike.unread ⟨calls, pending, nextId, isOver, by rw [outgoing]⟩ hook fun _ => by
    rw [outgoing]

/-- The part of `Unread.of_eq` that says nothing of answers, for steps in which the server's messages are
handled. -/
theorem Goes.of_eq (calls : d.calls = c.calls) (pending : d.pending = c.pending)
    (nextId : d.nextId = c.nextId) (isOver : d.isOver = c.isOver)
    (outgoing : d.outgoing = c.outgoing) (hook : d.hookRuns = c.hookRuns) : c.Goes d :=
  (Unread.of_eq calls pending nextId isOver outgoing hook).toGoes

theorem record_unread (event : LogEvent) : c.Unread (c.record event) :=
  .of_eq rfl rfl rfl rfl rfl rfl

theorem note_unread (level : LogLevel) (message : String) (fields : List (String × String)) :
    c.Unread (c.note level message fields) := record_unread _

theorem withoutNews_unread : c.Unread c.withoutNews := .of_eq rfl rfl rfl rfl rfl rfl

/-- Who sends something has a way to send it. It rules out every send after the connection is over, since
the writer is dropped with it. -/
theorem send_hasWriter {message : Message} (sent : c.send message = .ok d) :
    c.outgoing.hasWriter = true := by
  unfold send at sent
  split at sent
  next writer => exact writer
  next => cases sent

/-- A message that goes out finishes no job and runs no hook. It is what separates a send from the answer of
a handler. -/
theorem send_jobs {message : Message} (sent : c.send message = .ok d) :
    d.jobs = c.jobs ∧ d.hookRuns = c.hookRuns := by
  unfold send Pipe.send at sent
  split at sent
  · split at sent
    next pipe ok =>
      split at ok
      · cases ok
        cases sent
        exact ⟨rfl, rfl⟩
      · cases ok
    next => cases sent
  · cases sent

/-- What is sent decides no call, and it is sent only where the writer is still there, so it is no breach of
silence. -/
theorem send_unread {message : Message} (sent : c.send message = .ok d) : c.Unread d := by
  refine (alike_send sent).unread (send_jobs sent).2 ?_
  intro mute
  rw [send_hasWriter sent] at mute
  cases mute

/-- A response that is sent back decides no call of this side. If it cannot be sent any more, nothing
changes at all. -/
theorem reply_unread (response : Response) : c.Unread (c.reply response) := by
  unfold reply
  split
  next sent => exact send_unread sent
  next => exact .refl c

/-- The response of a job does not finish the job. That is done by `finish` before it replies. -/
theorem reply_jobs (response : Response) : (c.reply response).jobs = c.jobs := by
  unfold reply
  split
  next sent => exact (send_jobs sent).1
  next => rfl

theorem notify_unread {method : String} {params : Json} (sent : c.notify method params = .ok d) :
    c.Unread d := send_unread sent

/-- A handler that comes to its end answers a request of the server, and no call of this side. -/
theorem finish_unread (number : Nat) (outcome : Outcome) : c.Unread (c.finish number outcome) := by
  unfold finish
  split
  · exact .refl c
  · have finished (jobs : List (Job η)) : c.Unread { c with jobs } :=
      .of_eq rfl rfl rfl rfl rfl rfl
    split
    · exact (finished _).trans (reply_unread _)
    · exact (finished _).trans ((note_unread ..).trans (reply_unread _))

/-! ## Feeds -/

theorem next_unread (feed : Nat) : c.Unread (c.next feed).2 := .of_eq rfl rfl rfl rfl rfl rfl

/-- Params that do not have the shape of their method cost a word in the log and nothing else: no call and
no job is concerned. -/
theorem decoded_unread {α : Type} (method : String) (decode : Json → Option α) (params : Json) :
    c.Unread (c.decoded method decode params).2 ∧
      (c.decoded method decode params).2.jobs = c.jobs := by
  unfold decoded
  split
  · exact ⟨.refl c, rfl⟩
  · exact ⟨note_unread .., rfl⟩

/-- Taking all that waits in a feed concerns no call and no job, however many of the params are dropped on
the way. -/
theorem drainAs_unread {α : Type} (method : String) (decode : Json → Option α) (feed : Nat) :
    c.Unread (c.drainAs method decode feed).2 ∧
      (c.drainAs method decode feed).2.jobs = c.jobs := by
  have drained : c.Unread (c.drain feed).2 ∧ (c.drain feed).2.jobs = c.jobs :=
    ⟨.of_eq rfl rfl rfl rfl rfl rfl, rfl⟩
  unfold drainAs
  generalize c.drain feed = drain at drained
  obtain ⟨params, d⟩ := drain
  suffices decodes : ∀ (params : List Json) (found : List α × Connection η),
      c.Unread found.2 ∧ found.2.jobs = c.jobs →
      c.Unread (params.foldl (fun (found : List α × Connection η) value =>
        (found.1 ++ (found.2.decoded method decode value).1.toList,
          (found.2.decoded method decode value).2)) found).2 ∧
      (params.foldl (fun (found : List α × Connection η) value =>
        (found.1 ++ (found.2.decoded method decode value).1.toList,
          (found.2.decoded method decode value).2)) found).2.jobs = c.jobs from
    decodes params ([], d) drained
  intro params
  induction params with
  | nil => intro found known; exact known
  | cons value params ih =>
    rintro found ⟨unread, jobs⟩
    have decodes := decoded_unread (c := found.2) method decode value
    exact ih _ ⟨unread.trans decodes.1, decodes.2.trans jobs⟩

/-! ## The other end -/

/-- A message that arrives is not handled yet. It waits for the reader, so it answers no call and makes no
job. -/
theorem arrive_unread (message : Message) :
    c.Unread (c.arrive message) ∧ (c.arrive message).jobs = c.jobs := by
  unfold arrive tellReader
  split
  · split
    · split
      · exact ⟨.of_eq rfl rfl rfl rfl rfl rfl, rfl⟩
      · exact ⟨.of_eq rfl rfl rfl rfl rfl rfl, rfl⟩
    · exact ⟨.refl c, rfl⟩
  · exact ⟨.refl c, rfl⟩

/-- Many messages that arrive one after the other are not handled either. A server sends them in one move,
which is why the fold is stated. -/
theorem arriveAll_unread (messages : List Message) :
    c.Unread (messages.foldl arrive c) ∧ (messages.foldl arrive c).jobs = c.jobs := by
  induction messages generalizing c with
  | nil => exact ⟨.refl c, rfl⟩
  | cons message messages ih =>
    obtain ⟨first, jobs⟩ := arrive_unread (c := c) message
    obtain ⟨rest, jobs'⟩ := ih (c := c.arrive message)
    exact ⟨first.trans rest, jobs'.trans jobs⟩

/-- A server that hangs up is noticed when what has arrived is read, so until then no call has failed. -/
theorem hangUp_unread : c.Unread c.hangUp ∧ c.hangUp.jobs = c.jobs := by
  unfold hangUp tellReader
  split
  · exact ⟨.of_eq rfl rfl rfl rfl rfl rfl, rfl⟩
  · exact ⟨.of_eq rfl rfl rfl rfl rfl rfl, rfl⟩

/-- A server that stops reading loses what waits for it. What was sent gets shorter by that, which `silent`
allows, and calls are as they were. -/
theorem stopReading_unread : c.Unread c.stopReading := by
  refine Alike.unread ⟨rfl, rfl, rfl, rfl, rfl⟩ rfl ?_
  intro _
  exact List.nil_sublist _

/-! ## Calls -/

/-- An outcome is final: when another call, or the same once more, is settled, what was decided stays. -/
theorem outcome?_settle {outcome settled : Outcome} {other : Nat}
    (decided : c.outcome? number = some outcome) :
    (c.settle other settled).outcome? number = some outcome := by
  obtain ⟨call, found, known⟩ := Option.bind_eq_some_iff.mp decided
  refine Option.bind_eq_some_iff.mpr ⟨call, ?_, known⟩
  rw [calls_settle, found, Option.map_some]
  split
  · rw [Call.settled, if_pos (Or.inr (by rw [known]; rfl))]
  · rfl

/-- A call that nobody answered fails with the connection, unless nobody waits for it. Of what the call was
before, no more is needed than that no server answered it. -/
theorem settled_closed (call : Call) (undecided : call.isAbandoned = true ∨
      call.outcome = some (.error .connectionClosed) ∨ call.outcome = none) :
    (call.settled (.error .connectionClosed)).isAbandoned = true ∨
      (call.settled (.error .connectionClosed)).outcome = some (.error .connectionClosed) := by
  unfold Call.settled
  split
  next final =>
    rcases undecided with abandoned | closed | waits
    · exact .inl abandoned
    · exact .inr closed
    · rcases final with abandoned | decided
      · exact .inl abandoned
      · rw [waits] at decided
        cases decided
  next => exact .inr rfl

/-- One entry of what is waited for goes, and its call is settled. The ids that are left are still distinct,
as they are fewer. -/
theorem Neat.forget_settle (neat : c.Neat) (id : RequestId) (other : Nat) (outcome : Outcome) :
    ((c.forget id).settle other outcome).Neat where
  hook := neat.hook
  writer := neat.writer
  ids := neat.ids.sublist (List.Sublist.map _ List.filter_sublist)
  idle ended := by
    have idle := neat.idle ended
    simp only [settle, signal, forget, idle, List.filter_nil]

/-- The call that waited under an id is decided, and nobody waits under the id any more. The others keep
their outcomes, so this is a later state. -/
theorem forget_settle_goes (id : RequestId) (other : Nat) (outcome : Outcome) :
    c.Goes ((c.forget id).settle other outcome) where
  neat neat := neat.forget_settle id other outcome
  finished := fun ended => ended
  silent mute := ⟨mute, List.Sublist.refl _⟩
  final decided := outcome?_settle (c := c.forget id) decided

/-- Two entries of one id are one entry, because the ids that are waited for are distinct. So a response can
be for one call only. -/
theorem Neat.eq_of_id (neat : c.Neat) {id : RequestId} {first second : Nat}
    (one : (id, first) ∈ c.pending) (two : (id, second) ∈ c.pending) : first = second := by
  have pairs := List.inj_on_of_nodup_map neat.ids one two rfl
  exact congrArg Prod.snd pairs

/-- The end of one call without an answer answers no other. The call that ends fails with the connection,
which counts as unanswered, and the rest wait on. -/
theorem forget_settle_unread {id : RequestId} {other : Nat} (waits : (id, other) ∈ c.pending) :
    c.Unread ((c.forget id).settle other (.error .connectionClosed)) := by
  refine ⟨forget_settle_goes .., ?_⟩
  rintro neat number ⟨call, found, undecided⟩
  by_cases same : other = number
  · subst same
    refine ⟨call.settled (.error .connectionClosed), ?_, ?_⟩
    · simp only [calls_settle, if_true]
      exact congrArg (Option.map _) found
    · rcases settled_closed call (undecided.imp_right (Or.imp_right And.left)) with gone | closed
      · exact .inl gone
      · exact .inr (.inl closed)
  · refine ⟨call, (calls_settle_of_ne same _).trans found, ?_⟩
    refine undecided.imp_right (Or.imp_right ?_)
    rintro ⟨pends, id', member⟩
    refine ⟨pends, id', mem_pending_forget.mpr ⟨member, ?_⟩⟩
    rintro rfl
    exact same (neat.eq_of_id waits member)

/-- A new call answers none of the others: it is added behind them, and what stood under a number stands
there still. -/
theorem enroll_unread (method : String) (outcome : Option Outcome) :
    c.Unread (c.enroll method outcome).2 where
  neat neat := ⟨neat.hook, neat.writer, neat.ids, neat.idle⟩
  finished := id
  silent mute := ⟨mute, List.Sublist.refl _⟩
  final {number outcome} decided := by
    obtain ⟨call, found, known⟩ := Option.bind_eq_some_iff.mp decided
    refine Option.bind_eq_some_iff.mpr ⟨call, ?_, known⟩
    exact (List.getElem?_append_left (List.getElem?_eq_some_iff.mp found).1).trans found
  unanswered _ number := by
    rintro ⟨call, found, undecided⟩
    refine ⟨call, ?_, undecided⟩
    exact (List.getElem?_append_left (List.getElem?_eq_some_iff.mp found).1).trans found

/-- The connection on which a new call has displaced the one that had its id. -/
def cleared (c : Connection η) (method : String) : Connection η :=
  match c.waitingFor? (.number c.nextId) with
  | some older => ((c.enroll method none).2.forget (.number c.nextId)).settle older
      (.error .connectionClosed)
  | none => (c.enroll method none).2

/-- Making room for a new call fails the older one that had its id, if any. That is no answer of the server,
so nothing was read. -/
theorem cleared_unread (method : String) : c.Unread (c.cleared method) := by
  unfold cleared
  split
  next older waits =>
    have member : (.number c.nextId, older) ∈ (c.enroll method none).2.pending :=
      mem_of_waitingFor? waits
    exact (enroll_unread ..).trans (forget_settle_unread member)
  next => exact enroll_unread ..

/-- Nobody but the new call waits under its id. Hence the ids stay distinct when its entry is added. -/
theorem not_mem_cleared (method : String) (other : Nat) :
    (.number c.nextId, other) ∉ (c.cleared method).pending := by
  unfold cleared
  split
  next older _ =>
    intro member
    exact (mem_pending_forget.mp member).2 rfl
  next idle => exact not_mem_of_waitingFor? idle other

/-- The connection that waits for the response to a request. -/
def awaiting (c : Connection η) (method : String) : Connection η :=
  { c.cleared method with
    pending := (c.cleared method).pending ++ [(.number c.nextId, c.calls.length)] }

/-- A request on an open connection is the sending of its message on the connection that awaits the answer.
Where it cannot be sent, the call fails and is waited for no longer. -/
theorem request_eq (unclosed : c.isClosed = false) (method : String) (params : Json) :
    (c.request method params).2 =
      match (c.awaiting method).send
        (.request (Request.make (.number c.nextId) method (some params))) with
      | .ok sent => sent
      | .error failure => ((c.awaiting method).forget (.number c.nextId)).settle c.calls.length
        (.error failure) := by
  unfold request awaiting cleared
  rw [if_neg (by rw [unclosed]; exact Bool.false_ne_true)]
  cases c.waitingFor? (.number c.nextId)
  all_goals
    dsimp only [enroll]
    generalize send _ (.request (Request.make (.number c.nextId) method (some params))) = result
    cases result with
    | ok sent => rfl
    | error failure => rfl

/-- A request that goes out is waited for. No call was answered by it, and the ids are still distinct, as
the new one was cleared before. -/
theorem awaiting_unread {method : String} {message : Message}
    (sent : (c.awaiting method).send message = .ok d) : c.Unread d := by
  have before := c.cleared_unread method
  have alike := alike_send sent
  have hook := (send_jobs sent).2
  have writer : (c.cleared method).outgoing.hasWriter = true :=
    send_hasWriter (c := c.awaiting method) sent
  refine before.trans ⟨⟨fun neat => ⟨?_, ?_, ?_, ?_⟩, ?_, ?_, ?_⟩, ?_⟩
  · rw [hook, alike.isOver]
    exact neat.hook
  · rw [alike.isOver, alike.writer]
    exact neat.writer
  · rw [alike.pending, awaiting, List.map_append]
    refine List.nodup_append.mpr ⟨neat.ids, by simp, ?_⟩
    -- the number of the new call was cleared before, so that no older call waits under it
    rintro id known _ fresh rfl
    obtain ⟨⟨_, other⟩, member, rfl⟩ := List.mem_map.mp known
    rw [List.map_singleton, List.mem_singleton] at fresh
    dsimp only at fresh
    subst fresh
    exact c.not_mem_cleared method other member
  · intro ended
    have gone : (c.cleared method).isOver = true := alike.isOver.symm.trans ended
    have mute := neat.writer
    rw [writer, gone] at mute
    cases mute
  · rw [alike.isOver]
    exact id
  · intro mute
    rw [writer] at mute
    cases mute
  · unfold outcome?
    rw [alike.calls]
    exact id
  · rintro - number ⟨call, found, undecided⟩
    refine ⟨call, by rw [alike.calls]; exact found, ?_⟩
    refine undecided.imp_right (Or.imp_right ?_)
    rintro ⟨pends, id, member⟩
    refine ⟨pends, id, ?_⟩
    rw [alike.pending]
    exact List.mem_append_left _ member

/-- A request that does not go out has failed, and concerns no other call. Its entry is taken back, so what
is waited for is what was waited for before. -/
theorem unsent_unread (method : String) (failure : ClientError) :
    c.Unread (((c.awaiting method).forget (.number c.nextId)).settle c.calls.length
      (.error failure)) := by
  have before := c.cleared_unread method
  have pending : ((c.awaiting method).forget (.number c.nextId)).pending =
      (c.cleared method).pending := by
    simp only [awaiting, forget, List.filter_append, List.filter_cons, List.filter_nil]
    simp only [ne_eq, not_true_eq_false, decide_false, Bool.false_eq_true, if_false,
      List.append_nil, List.filter_eq_self, decide_eq_true_eq]
    rintro ⟨id, other⟩ member rfl
    exact c.not_mem_cleared method other member
  refine ⟨⟨fun neat => ?_, before.finished, before.silent, ?_⟩, ?_⟩
  · have after := before.neat neat
    exact ⟨after.hook, after.writer, pending ▸ after.ids, pending ▸ after.idle⟩
  · intro number outcome decided
    exact outcome?_settle (c := (c.awaiting method).forget _) (before.final decided)
  · rintro neat number waits
    have inside : number < c.calls.length := by
      obtain ⟨call, found, -⟩ := waits
      exact (List.getElem?_eq_some_iff.mp found).1
    obtain ⟨call, found, undecided⟩ := before.unanswered neat waits
    refine ⟨call, (calls_settle_of_ne (by omega) _).trans found, ?_⟩
    refine undecided.imp_right (Or.imp_right ?_)
    rintro ⟨pends, id, member⟩
    exact ⟨pends, id, pending ▸ member⟩

/-- A request is answered by nobody as yet, whether it goes out, cannot be sent, or is made on a connection
that is closed. -/
theorem request_unread (method : String) (params : Json) :
    c.Unread (c.request method params).2 := by
  cases closed : c.isClosed with
  | true =>
    unfold request
    rw [if_pos closed]
    exact enroll_unread ..
  | false =>
    rw [request_eq closed]
    split
    next sent => exact awaiting_unread sent
    next failure _ => exact unsent_unread method failure

/-- A request of this side leaves the jobs of the server alone, in each of the three ways in which it can
come out. -/
theorem request_jobs (method : String) (params : Json) :
    (c.request method params).2.jobs = c.jobs := by
  have jobs : (c.awaiting method).jobs = c.jobs := by
    unfold awaiting cleared
    dsimp only
    split <;> rfl
  cases closed : c.isClosed with
  | true =>
    unfold request
    rw [if_pos closed]
    rfl
  | false =>
    rw [request_eq closed]
    split
    next sent => exact (send_jobs sent).1.trans jobs
    next => exact jobs

/-- Nobody waits for the outcome of a call any more. That counts as unanswered for good, so other calls and
this one keep what is said of them. -/
theorem abandon_unread (other : Nat) : c.Unread (c.abandon other) where
  neat neat := ⟨neat.hook, neat.writer, neat.ids, neat.idle⟩
  finished := id
  silent mute := ⟨mute, List.Sublist.refl _⟩
  final {number outcome} decided := by
    obtain ⟨call, found, known⟩ := Option.bind_eq_some_iff.mp decided
    refine Option.bind_eq_some_iff.mpr ⟨if other = number then call.abandoned else call, ?_, ?_⟩
    · simp only [abandon, List.getElem?_modify, found]
      rfl
    · split <;> exact known
  unanswered _ number := by
    rintro ⟨call, found, undecided⟩
    refine ⟨if other = number then call.abandoned else call, ?_, ?_⟩
    · simp only [abandon, List.getElem?_modify, found]
      rfl
    · split
      · exact .inl rfl
      · exact undecided

/-! ## Reading -/

/-- A response decides at most one call, which had no outcome. So it is a later state, though not one in
which nothing was answered. -/
theorem complete_goes (response : Response) :
    c.Goes (c.complete response) ∧ (c.complete response).jobs = c.jobs := by
  unfold complete
  split
  · exact ⟨(note_unread ..).toGoes, rfl⟩
  · split
    · exact ⟨(note_unread ..).toGoes, rfl⟩
    · exact ⟨forget_settle_goes .., rfl⟩

/-- A request of the server becomes a job that is not finished, or is refused at once. No call of this side
is concerned either way. -/
theorem answer_goes (request : Request) :
    c.Goes (c.answer request) ∧ c.Spawns (c.answer request) := by
  unfold answer
  split
  · refine ⟨((note_unread ..).trans (reply_unread _)).toGoes, .of_eq ?_⟩
    exact reply_jobs _
  · refine ⟨.of_eq rfl rfl rfl rfl rfl rfl, ⟨_, rfl, ?_⟩⟩
    intro job member
    rw [List.mem_singleton.mp member]

/-- A message of the server leads to a later state and makes at most one job, by the kind of the message. -/
theorem dispatch_goes (message : Message) :
    c.Goes (c.dispatch message) ∧ c.Spawns (c.dispatch message) := by
  cases message with
  | request asked => exact answer_goes asked
  | response response => exact ⟨(complete_goes response).1, .of_eq (complete_goes response).2⟩
  | notification said => exact ⟨.of_eq rfl rfl rfl rfl rfl rfl, .of_eq rfl⟩

/-- All that has arrived leads to a later state, message by message, and the jobs that come of it are not
finished. -/
theorem dispatchAll_goes (messages : List Message) :
    c.Goes (messages.foldl dispatch c) ∧ c.Spawns (messages.foldl dispatch c) := by
  induction messages generalizing c with
  | nil => exact ⟨.refl c, .refl c⟩
  | cons message messages ih =>
    obtain ⟨first, spawns⟩ := dispatch_goes (c := c) message
    obtain ⟨rest, spawns'⟩ := ih (c := c.dispatch message)
    exact ⟨first.trans rest, spawns.trans spawns'⟩

/-! ## Closing -/

/-- What is not over when it is closed has run its hook once then, and no job is touched by it. -/
theorem hookRuns_close (running : c.isOver = false) :
    c.close.hookRuns = c.hookRuns + 1 ∧ c.close.jobs = c.jobs := by
  rw [close_of_running running]
  suffices settled : ∀ (entries : List (RequestId × Nat)) (d : Connection η),
      (entries.foldl (fun d entry => d.settle entry.2 (.error .connectionClosed)) d).hookRuns =
        d.hookRuns ∧
      (entries.foldl (fun d entry => d.settle entry.2 (.error .connectionClosed)) d).jobs =
        d.jobs by
    have same := settled c.pending
      { ({ c with isClosed := true }.signal [.closed] : Connection η) with pending := [] }
    exact ⟨congrArg (· + 1) same.1, same.2⟩
  intro entries
  induction entries with
  | nil => exact fun _ => ⟨rfl, rfl⟩
  | cons entry entries ih => exact fun d => ih _

/-- A connection that ends, and runs its hook on the way, is neat if it was. This is where the count of the
hook goes from none to one, and neither `close` nor `release` proves it again. -/
theorem Ends.neat (ends : c.Ends d) (running : c.isOver = false)
    (hook : d.hookRuns = c.hookRuns + 1) (neat : c.Neat) : d.Neat where
  hook := by rw [hook, neat.hook, running, ends.isOver]; rfl
  writer := by rw [ends.isOver, ends.writer]; rfl
  ids := by rw [ends.pending]; exact List.nodup_nil
  idle _ := ends.pending

/-- Closing keeps the outcomes that are there. It settles only what is pending, and a settled call is not
settled again. -/
theorem outcome?_close {outcome : Outcome} (running : c.isOver = false)
    (decided : c.outcome? number = some outcome) : c.close.outcome? number = some outcome := by
  obtain ⟨call, found, known⟩ := Option.bind_eq_some_iff.mp decided
  refine Option.bind_eq_some_iff.mpr ⟨call, ?_, known⟩
  rw [calls_close running, found, Option.map_some]
  split
  · rw [Call.settled, if_pos (Or.inr (by rw [known]; rfl))]
  · rfl

/-- Closing answers no call: those that were waited for fail with the connection, and those that had an
outcome keep it. -/
theorem close_unread : c.Unread c.close := by
  cases running : c.isOver with
  | true =>
    rw [close_of_isOver running]
    exact .refl c
  | false =>
    have ends := ends_close running
    refine ⟨⟨ends.neat running (hookRuns_close running).1, fun _ => ends.isOver, ?_,
      outcome?_close running⟩, ?_⟩
    · intro _
      refine ⟨ends.writer, ?_⟩
      rw [outgoing_close running]
      exact List.Sublist.refl _
    · rintro - number ⟨call, found, undecided⟩
      have closed := calls_close running number
      rw [found, Option.map_some] at closed
      refine ⟨_, closed, ?_⟩
      split
      · rcases settled_closed call (undecided.imp_right (Or.imp_right And.left)) with gone | failed
        · exact .inl gone
        · exact .inr (.inl failed)
      next alone =>
        refine undecided.imp_right (Or.imp_right ?_)
        rintro ⟨-, id, member⟩
        exact absurd (List.mem_map_of_mem (f := Prod.snd) member) alone

/-- Closing finishes no job. A handler may still come to its end afterwards, when there is nobody to be
told. -/
theorem close_jobs : c.close.jobs = c.jobs := by
  cases running : c.isOver with
  | true => rw [close_of_isOver running]
  | false => exact (hookRuns_close running).2

/-- A connection that nobody can use any more ends as a closed one does, but its calls are dropped without
an outcome, so they are not said to be unanswered. -/
theorem release_goes : c.Goes c.release ∧ c.release.jobs = c.jobs := by
  cases running : c.isOver with
  | true =>
    rw [release_of_isOver running]
    exact ⟨.refl c, rfl⟩
  | false =>
    have ends := ends_release running
    rw [release_of_running running] at ends ⊢
    refine ⟨⟨ends.neat running rfl, fun _ => ends.isOver, ?_, id⟩, rfl⟩
    intro _
    exact ⟨rfl, List.Sublist.refl _⟩

/-- Handling all that has arrived is a later state, also if the server has hung up and the connection is
closed at the end. -/
theorem read_goes : c.Goes c.read ∧ c.Spawns c.read := by
  unfold read
  split
  · obtain ⟨taken, spawns⟩ := dispatchAll_goes (c :=
      { c with incoming := { c.incoming with waiting := [] } }) c.incoming.waiting
    have emptied : c.Unread { c with incoming := { c.incoming with waiting := [] } } :=
      .of_eq rfl rfl rfl rfl rfl rfl
    dsimp only
    split
    · exact ⟨emptied.toGoes.trans taken, spawns⟩
    · refine ⟨(emptied.toGoes.trans taken).trans close_unread.toGoes, ?_⟩
      exact spawns.trans (.of_eq close_jobs)
  · exact ⟨.refl c, .refl c⟩

/-- On a connection that is over, every call that nobody answered has failed, unless nobody waits for it.
For nothing is waited for any more, and that leaves the other two cases. -/
theorem Neat.failed (neat : c.Neat) (ended : c.isOver = true) (waits : c.Unanswered number) :
    ∃ call, c.calls[number]? = some call ∧
      (call.isAbandoned = true ∨ call.outcome = some (.error .connectionClosed)) := by
  obtain ⟨call, found, undecided⟩ := waits
  refine ⟨call, found, undecided.imp_right ?_⟩
  rintro (closed | ⟨-, id, member⟩)
  · exact closed
  · rw [neat.idle ended] at member
    cases member

end Connection

end LanguageClient
