import LanguageClient.Client.Folders
import LanguageClient.Proofs.Connection.Course

/-!
# How a connection goes on

`Connection.Onward` says of two states of a connection that the second comes after the first, as far
as a reader of its history is concerned: what was sent stands first in what was sent later, every
call is still there under its number, and an outcome is final. Every operation goes on in this sense,
but for the server that reads no more, with which all that it did not read is lost.
-/

namespace LanguageClient

/-- A later state of a call. -/
structure Call.Later (a b : Call) : Prop where
  method : b.method = a.method
  final : ∀ {outcome : Outcome}, a.outcome = some outcome → b.outcome = some outcome

theorem Call.Later.refl (a : Call) : a.Later a := ⟨rfl, fun known => known⟩

/-- Later states of a call compose. The method is that of the call at first, and an outcome that is there at
first is there at last. -/
theorem Call.Later.trans {a b c : Call} (first : a.Later b) (second : b.Later c) : a.Later c :=
  ⟨second.method.trans first.method, fun known => second.final (first.final known)⟩

/-- A call that has an outcome keeps it: settling looks for one first, and for somebody who waits. -/
theorem Call.settled_later (a : Call) (outcome : Outcome) : a.Later (a.settled outcome) := by
  unfold settled
  split
  · exact .refl a
  next open_ =>
    refine ⟨rfl, fun known => absurd (.inr ?_) open_⟩
    rw [known]
    rfl

namespace Connection

variable {η : Type} {c d e : Connection η}

/-- A later state of a connection, with all that was said before. -/
structure Onward (c d : Connection η) : Prop where
  said : c.outgoing.waiting <+: d.outgoing.waiting
  calls : ∀ {number : Nat} {call : Call}, c.calls[number]? = some call →
    ∃ later, d.calls[number]? = some later ∧ call.Later later

/-- Where neither what was sent nor the calls have changed, the connection has gone on. It is all that is
needed of the operations on feeds, handlers and logs. -/
theorem Onward.of_eq (outgoing : d.outgoing.waiting = c.outgoing.waiting)
    (calls : d.calls = c.calls) : c.Onward d :=
  ⟨outgoing ▸ List.prefix_refl _, fun {_ call} found => ⟨call, calls ▸ found, .refl call⟩⟩

theorem Onward.refl (c : Connection η) : c.Onward c := .of_eq rfl rfl

/-- Going on is transitive: prefixes compose, and so do the later states of each call. -/
theorem Onward.trans (first : c.Onward d) (second : d.Onward e) : c.Onward e where
  said := first.said.trans second.said
  calls found := by
    obtain ⟨call, found, later⟩ := first.calls found
    obtain ⟨call, found, later'⟩ := second.calls found
    exact ⟨call, found, later.trans later'⟩

/-- An outcome is final: once a call has one, it has the same in every later state of the connection. -/
theorem Onward.outcome? (onward : c.Onward d) {number : Nat} {outcome : Outcome}
    (decided : c.outcome? number = some outcome) : d.outcome? number = some outcome := by
  obtain ⟨call, found, known⟩ := Option.bind_eq_some_iff.mp decided
  obtain ⟨later, found, same⟩ := onward.calls found
  exact Option.bind_eq_some_iff.mpr ⟨later, found, same.final known⟩

/-- The calls change one by one, into later states of themselves, and nothing is sent. Settling and
abandoning are the two instances. -/
theorem Onward.of_modify {change : Call → Call} (each : ∀ call : Call, call.Later (change call))
    (number : Nat) : c.Onward { c with calls := c.calls.modify number change } := by
  refine ⟨List.prefix_refl _, ?_⟩
  intro place call found
  by_cases here : number = place
  · exact ⟨change call, by simp [here, found], each call⟩
  · exact ⟨call, by simp [here, found], .refl call⟩

/-- Steps that each go on, one after the other, go on. It serves the messages that are dispatched, the
params that are decoded and the calls that fail at the end. -/
theorem foldl_onward {α : Type} {step : Connection η → α → Connection η}
    (each : ∀ (c : Connection η) (a : α), c.Onward (step c a)) (items : List α) (c : Connection η) :
    c.Onward (items.foldl step c) := by
  induction items generalizing c with
  | nil => exact .refl c
  | cons item items ih => exact (each c item).trans (ih _)

/-! ## Sending -/

/-- A message that goes out leaves the calls as they were, whatever it says and whichever of the two sides
asked for it. -/
theorem send_calls {message : Message} (sent : c.send message = .ok d) : d.calls = c.calls := by
  unfold send at sent
  split at sent
  · split at sent
    · cases sent
      rfl
    · cases sent
  · cases sent

/-- A message that is sent stands behind all that was sent before. This is the one place where something is
added to what was said. -/
theorem send_onward {message : Message} (sent : c.send message = .ok d) : c.Onward d := by
  have calls := send_calls sent
  refine ⟨?_, fun {_ call} found => ⟨call, calls ▸ found, .refl call⟩⟩
  rw [(send_ok sent).1]
  exact List.prefix_append ..

/-- A response goes out behind what was said, or not at all where there is nobody to be told. -/
theorem reply_onward (response : Response) : c.Onward (c.reply response) := by
  unfold reply
  split
  next sent => exact send_onward sent
  next => exact .refl c

theorem record_onward (event : LogEvent) : c.Onward (c.record event) := .of_eq rfl rfl

theorem note_onward (level : LogLevel) (message : String) (fields : List (String × String)) :
    c.Onward (c.note level message fields) := .of_eq rfl rfl

theorem withoutNews_onward : c.Onward c.withoutNews := .of_eq rfl rfl

/-! ## Calls -/

/-- The outcome of a call is set if it has none. So the call goes on, and the others are the same. -/
theorem settle_onward (number : Nat) (outcome : Outcome) : c.Onward (c.settle number outcome) :=
  (Onward.of_modify (fun call => call.settled_later outcome) number).trans (.of_eq rfl rfl)

/-- That nobody waits for a call any more changes neither its method nor an outcome that it has. -/
theorem abandon_onward (number : Nat) : c.Onward (c.abandon number) := by
  have each (call : Call) : call.Later call.abandoned := ⟨rfl, fun known => known⟩
  exact .of_modify each number

/-- A new call stands behind the others, so each of these is found under its number as before. -/
theorem enroll_onward (method : String) (outcome : Option Outcome) :
    c.Onward (c.enroll method outcome).2 := by
  refine ⟨List.prefix_refl _, fun {number call} found => ⟨call, ?_, .refl call⟩⟩
  have inside := (List.getElem?_eq_some_iff.mp found).1
  exact (List.getElem?_append_left inside).trans found

theorem forget_onward (id : RequestId) : c.Onward (c.forget id) := .of_eq rfl rfl

/-- Who waits for which id is no part of the history: any change of it goes on. -/
theorem pending_onward (pending : List (RequestId × Nat)) : c.Onward { c with pending } :=
  .of_eq rfl rfl

/-- A call that was enrolled awaits its answer in the place of an older one, which fails with the connection
if it has no outcome yet. -/
theorem awaiting_onward (displaced : Option Nat) (method : String) :
    (c.enroll method none).2.Onward (match displaced with
      | some older => ((c.enroll method none).2.forget (.number c.nextId)).settle older
        (.error .connectionClosed)
      | none => (c.enroll method none).2) := by
  cases displaced with
  | none => exact .refl _
  | some older => exact (forget_onward _).trans (settle_onward ..)

/-- A request enrolls its call first, and goes on from there. The outcome with which it is enrolled is none
on an open connection, and a failure on a closed one. -/
theorem request_of_enrolled (c : Connection η) (method : String) (params : Json) :
    ∃ outcome, (c.enroll method outcome).2.Onward (c.request method params).2 := by
  unfold request
  split
  · exact ⟨_, .refl _⟩
  · have awaiting := awaiting_onward (c := c) (c.waitingFor? (.number c.nextId)) method
    refine ⟨none, ?_⟩
    dsimp only
    split
    next sent => exact (awaiting.trans (pending_onward _)).trans (send_onward sent)
    next =>
      exact (awaiting.trans (pending_onward _)).trans
        ((forget_onward _).trans (settle_onward ..))

/-- A request goes on: its message is the last that was sent, or its call has failed, and the calls before
it are as they were. -/
theorem request_onward (method : String) (params : Json) :
    c.Onward (c.request method params).2 := by
  obtain ⟨outcome, onward⟩ := c.request_of_enrolled method params
  exact (enroll_onward method outcome).trans onward

/-- The first request on a connection is its first call. A session asks for its greeting in this way, so
call zero is that of `initialize` ever after. -/
theorem request_first (uncalled : c.calls = []) (method : String) (params : Json) :
    ∃ call, (c.request method params).2.calls[0]? = some call ∧ call.method = method := by
  obtain ⟨outcome, onward⟩ := c.request_of_enrolled method params
  have enrolled : (c.enroll method outcome).2.calls[0]? =
      some ⟨c.nextId, method, outcome, false⟩ := by
    unfold enroll
    rw [uncalled]
    rfl
  obtain ⟨call, found, later⟩ := onward.calls enrolled
  exact ⟨call, found, later.method⟩

/-! ## Listening and answering -/

/-- What a notification says, or that it says nothing of its shape, concerns the log only, and the history
is the same. -/
theorem decoded_onward {α : Type} (method : String) (decode : Json → Option α) (params : Json) :
    c.Onward (c.decoded method decode params).2 := by
  unfold decoded
  split
  · exact .refl c
  · exact note_onward ..

/-- All params that waited in a feed are decoded one after the other, and each of these steps goes on, by
induction on the params. -/
theorem decodeEach_onward {α : Type} (method : String) (decode : Json → Option α)
    (values : List Json) (found : List α) (c : Connection η) :
    c.Onward (values.foldl (fun (values, connection) value =>
      let (found, connection) := connection.decoded method decode value
      (values ++ found.toList, connection)) (found, c)).2 := by
  induction values generalizing found c with
  | nil => exact .refl _
  | cons value values ih => exact (decoded_onward method decode value).trans (ih _ _)

/-- Emptying a feed and decoding what was in it goes on: neither sends anything nor looks at a call. -/
theorem drainAs_onward {α : Type} (method : String) (decode : Json → Option α) (number : Nat) :
    c.Onward (c.drainAs method decode number).2 := by
  have drained : c.Onward (c.drain number).2 := .of_eq rfl rfl
  exact drained.trans (decodeEach_onward ..)

/-- A handler that ends sends the answer of its job behind what was said. A job that is finished already, or
unknown, changes nothing. -/
theorem finish_onward (number : Nat) (outcome : Outcome) : c.Onward (c.finish number outcome) := by
  unfold finish
  split
  · exact .refl c
  · have finished : c.Onward { c with jobs := c.jobs.modify number Job.finished } := .of_eq rfl rfl
    dsimp only
    split
    · exact finished.trans (reply_onward _)
    · exact finished.trans ((note_onward ..).trans (reply_onward _))

/-- A response gives the call that waits for its id an outcome, if it has none; a response that nobody waits
for is only noted. -/
theorem complete_onward (response : Response) : c.Onward (c.complete response) := by
  unfold complete
  split
  · exact note_onward ..
  next id _ =>
    split
    · exact note_onward ..
    · exact (forget_onward id).trans (settle_onward ..)

/-- A request of the server becomes a job, or is refused with an answer that goes out behind the others. -/
theorem answer_onward (request : Request) : c.Onward (c.answer request) := by
  unfold answer
  split
  · exact (note_onward ..).trans (reply_onward _)
  · exact .of_eq rfl rfl

/-- Whatever message of the server is handled, the history goes on, by the three kinds of message. -/
theorem dispatch_onward (message : Message) : c.Onward (c.dispatch message) := by
  cases message with
  | response response => exact complete_onward response
  | notification => exact .of_eq rfl rfl
  | request request => exact answer_onward request

/-! ## Closing -/

/-- Failing all that is waited for gives outcomes only to calls that have none, one entry after the other.
-/
theorem failPending_onward : c.Onward c.failPending :=
  (pending_onward []).trans (foldl_onward (fun _ _ => settle_onward ..) c.pending _)

/-- Closing goes on: the pending calls fail, and what was sent is not taken back although nothing more will
be. -/
theorem close_onward : c.Onward c.close := by
  unfold close
  split
  · exact .refl c
  · have closed : c.Onward ({ c with isClosed := true }.signal [.closed]) := .of_eq rfl rfl
    exact (closed.trans failPending_onward).trans (.of_eq rfl rfl)

/-- The connection that nobody holds any more ends without giving any call an outcome, and what was sent
stays. -/
theorem release_onward : c.Onward c.release := by
  unfold release
  split
  · exact .refl c
  · exact .of_eq rfl rfl

/-- All that has arrived is dispatched in the order of arrival, and then the connection is closed if the
server is gone. Each of the two goes on. -/
theorem read_onward : c.Onward c.read := by
  unfold read
  split
  · have taken : c.Onward { c with incoming := { c.incoming with waiting := [] } } := .of_eq rfl rfl
    have dispatched := taken.trans (foldl_onward (fun _ => dispatch_onward) c.incoming.waiting _)
    dsimp only
    split
    · exact dispatched
    · exact dispatched.trans close_onward
  · exact .refl c

/-! ## The other end -/

theorem tellReader_onward : c.Onward c.tellReader := by
  unfold tellReader
  split
  · exact .of_eq rfl rfl
  · exact .refl c

/-- A message of the server only waits for the reader, or is lost where there is none. The history of this
side is the same. -/
theorem arrive_onward (message : Message) : c.Onward (c.arrive message) := by
  unfold arrive
  split
  · split
    next pipe _ =>
      have arrived : c.Onward { c with incoming := pipe } := .of_eq rfl rfl
      exact arrived.trans tellReader_onward
    · exact .refl c
  · exact .refl c

theorem hangUp_onward : c.Onward c.hangUp := by
  have hung : c.Onward { c with incoming := c.incoming.dropWriter } := .of_eq rfl rfl
  exact hung.trans tellReader_onward

end Connection

/-! ## Folders -/

namespace Folders

variable {η : Type} {c d : Connection η} {folders : Folders} {rewriter : Rewriter}

/-- Telling the server of roots that came and went sends at most one message, and sends none if a root
cannot be expressed. -/
theorem reconcile_onward (folders : Folders) (rewriter : Rewriter) (c : Connection η)
    (before after : List Url) : c.Onward (folders.reconcile rewriter c before after).2 := by
  unfold reconcile
  dsimp only
  split
  · exact .refl c
  · split
    next d published =>
      unfold publish at published
      split at published
      · cases published
      · exact Connection.send_onward published
    · exact Connection.record_onward _

/-- Lending a root sends at most the message that announces it. It is stated for a lending that succeeds,
since the other gives no connection back. -/
theorem lend_onward {root : Url} {loan : Option Loan} {after : Folders}
    (lent : folders.lend rewriter c root = .ok (loan, after, d)) : c.Onward d := by
  unfold lend at lent
  split at lent
  · cases lent
    exact .refl c
  · split at lent
    · cases lent
    · dsimp only at lent
      split at lent
      · cases lent
        exact .refl c
      · split at lent
        · cases lent
        next told =>
          cases lent
          exact Connection.send_onward told

/-- Giving a root back withdraws it once nobody borrows it any more. The message goes out behind the others,
if it can be sent. -/
theorem giveBack_onward (folders : Folders) (c : Connection η) (loan : Loan) :
    c.Onward (folders.giveBack c loan).2 := by
  unfold giveBack
  dsimp only
  split
  · exact .refl c
  · split
    next told => exact Connection.send_onward told
    · exact Connection.record_onward _

end Folders

end LanguageClient
