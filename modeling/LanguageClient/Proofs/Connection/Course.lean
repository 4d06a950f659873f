import LanguageClient.Connection
import LanguageClient.Proofs.Lists
import LanguageClient.Protocol.Workspace

/-!
# The course of a connection

What operations of a connection leave as it is. `Connection.Later` says that no end that is gone
comes back and that a connection that is over stays without a writer. `Connection.Beside` says
besides that nothing was sent that tells the server of folders: `Connection.news` is what the pipe to
the server holds of greetings and changes of folders.

Every operation here is beside the folders, as long as the messages that it is given are.
-/

namespace LanguageClient

/-! ## News of folders -/

/-- Whether a message tells a server of folders: a greeting or a change of folders. -/
def Message.isNews : Message → Bool
  | .request asked => decide (asked.method = initializeMethod)
  | .notification said => decide (said.method = FolderChange.method)
  | .response _ => false

namespace Connection

variable {η : Type} {c d e : Connection η}

/-- What the server was sent about folders. -/
def news (c : Connection η) : List Message := c.outgoing.waiting.filter Message.isNews

/-- Whether the server can be told something. -/
def isOpen (c : Connection η) : Bool := c.outgoing.hasWriter && c.outgoing.hasReader

/-- A connection that is over has no writer. -/
def IsSealed (c : Connection η) : Prop := c.isOver = true → c.outgoing.hasWriter = false

/-- A later state of a connection. -/
structure Later (c d : Connection η) : Prop where
  reader : d.outgoing.hasReader = true → c.outgoing.hasReader = true
  writer : d.outgoing.hasWriter = true → c.outgoing.hasWriter = true
  finished : c.isOver = true → d.isOver = true
  isSealed : c.IsSealed → d.IsSealed

/-- A later state of a connection, whose server was told nothing of folders meanwhile. -/
structure Beside (c d : Connection η) : Prop extends Later c d where
  news : d.news = c.news

theorem Later.refl (c : Connection η) : c.Later c := ⟨id, id, id, id⟩

/-- An end that is gone before the second step was not there again after it, so the two steps together are a
later state. -/
theorem Later.trans (first : c.Later d) (second : d.Later e) : c.Later e :=
  ⟨first.reader ∘ second.reader, first.writer ∘ second.writer, second.finished ∘ first.finished,
    second.isSealed ∘ first.isSealed⟩

theorem Beside.refl (c : Connection η) : c.Beside c := ⟨.refl c, rfl⟩

/-- Two steps beside the folders are one: the pipe to the server holds the same news after the first, and
the same after both. -/
theorem Beside.trans (first : c.Beside d) (second : d.Beside e) : c.Beside e :=
  ⟨first.toLater.trans second.toLater, second.news.trans first.news⟩

/-- A server that can be told something now could be told something before. It is used backwards, from the
moment at which a change of folders went out. -/
theorem Later.isOpen (later : c.Later d) (opened : d.isOpen = true) : c.isOpen = true := by
  simp only [Connection.isOpen, Bool.and_eq_true] at opened ⊢
  exact ⟨later.writer opened.1, later.reader opened.2⟩

/-- What leaves the pipe to the server and the end of the connection alone is beside the folders. Most of
the operations below come to this. -/
theorem Beside.of_eq (outgoing : d.outgoing = c.outgoing) (finished : d.isOver = c.isOver) :
    c.Beside d where
  reader := by rw [outgoing]; exact id
  writer := by rw [outgoing]; exact id
  finished := by rw [finished]; exact id
  isSealed := by unfold IsSealed; rw [outgoing, finished]; exact id
  news := by unfold Connection.news; rw [outgoing]

/-! ## Sending -/

/-- What sending does, in full: the message stands at the end of the pipe, of which both ends were there,
and it changes nothing else that is looked at here. -/
theorem send_ok {message : Message} (sent : c.send message = .ok d) :
    d.outgoing = { c.outgoing with waiting := c.outgoing.waiting ++ [message] } ∧
      d.isOver = c.isOver := by
  unfold send Pipe.send at sent
  split at sent
  · split at sent
    next pipe ok =>
      split at ok
      · cases ok
        cases sent
        exact ⟨rfl, rfl⟩
      · cases ok
    next => cases sent
  · cases sent

/-- On an open connection every message can be sent. There is no bound on what waits and no message that is
refused. -/
theorem send_of_isOpen (opened : c.isOpen = true) (message : Message) :
    ∃ d, c.send message = .ok d := by
  simp only [isOpen, Bool.and_eq_true] at opened
  simp only [send, Pipe.send, opened.1, opened.2, if_true]
  exact ⟨_, rfl⟩

/-- A message that cannot be sent shows that one of the ends is gone. So a failure to announce folders tells
that the server reads no more, or that the connection is over. -/
theorem send_error {message : Message} {failure : ClientError}
    (failed : c.send message = .error failure) : c.isOpen = false := by
  refine Bool.eq_false_iff.mpr fun opened => ?_
  obtain ⟨d, sent⟩ := send_of_isOpen opened message
  cases failed.symm.trans sent

/-- Sending takes no end away and ends no connection, so what it leads to is a later state. -/
theorem send_later {message : Message} (sent : c.send message = .ok d) : c.Later d := by
  obtain ⟨outgoing, finished⟩ := send_ok sent
  refine ⟨?_, ?_, ?_, ?_⟩
  · rw [outgoing]; exact id
  · rw [outgoing]; exact id
  · rw [finished]; exact id
  · unfold IsSealed; rw [outgoing, finished]; exact id

/-- What the server was sent about folders grows by the message, if it is about folders, and is the same
otherwise. -/
theorem send_news {message : Message} (sent : c.send message = .ok d) :
    d.news = c.news ++ [message].filter Message.isNews := by
  simp only [news, (send_ok sent).1, List.filter_append]

/-- A message that is neither a greeting nor a change of folders is beside the folders when it is sent. -/
theorem send_beside {message : Message} (sent : c.send message = .ok d)
    (other : message.isNews = false) : c.Beside d := by
  refine ⟨send_later sent, ?_⟩
  rw [send_news sent]
  simp only [List.filter_cons, other, Bool.false_eq_true, if_false, List.filter_nil,
    List.append_nil]

/-- A notification of any method but the one for changes of folders is beside them. Documents are announced
in this way. -/
theorem notify_beside {method : String} {params : Json} (sent : c.notify method params = .ok d)
    (other : method ≠ FolderChange.method) : c.Beside d :=
  send_beside sent (decide_eq_false other)

/-- An answer to a request of the server tells nothing of folders, whatever it says and whether or not it
goes out. -/
theorem reply_beside (response : Response) : c.Beside (c.reply response) := by
  unfold reply
  split
  next sent => exact send_beside sent rfl
  next => exact .refl c

/-! ## Notes, calls and feeds -/

theorem signal_beside (signals : List Signal) : c.Beside (c.signal signals) := .of_eq rfl rfl

theorem record_beside (event : LogEvent) : c.Beside (c.record event) := .of_eq rfl rfl

theorem note_beside (level : LogLevel) (message : String) (fields : List (String × String)) :
    c.Beside (c.note level message fields) := .of_eq rfl rfl

theorem withoutNews_beside : c.Beside c.withoutNews := .of_eq rfl rfl

/-- That a call gets its outcome is known to this side only. -/
theorem settle_beside (number : Nat) (outcome : Outcome) : c.Beside (c.settle number outcome) :=
  .of_eq rfl rfl

theorem forget_beside (id : RequestId) : c.Beside (c.forget id) := .of_eq rfl rfl

/-- A call that is added has sent nothing as yet. The greeting goes out in the step behind it. -/
theorem enroll_beside (method : String) (outcome : Option Outcome) :
    c.Beside (c.enroll method outcome).2 := .of_eq rfl rfl

theorem abandon_beside (number : Nat) : c.Beside (c.abandon number) := .of_eq rfl rfl

theorem next_beside (number : Nat) : c.Beside (c.next number).2 := .of_eq rfl rfl

/-- Looking into the params of a notification sends nothing, and writes to the log at most. -/
theorem decoded_beside {α : Type} (method : String) (decode : Json → Option α) (params : Json) :
    c.Beside (c.decoded method decode params).2 := by
  unfold decoded
  split
  · exact .refl c
  · exact note_beside ..

/-- Steps that each find something on the connection, one after the other, are beside the folders together
if each of them is. -/
theorem foldl_beside {α β : Type} {step : β × Connection η → α → β × Connection η}
    (each : ∀ (found : β × Connection η) (value : α), found.2.Beside (step found value).2)
    (values : List α) (found : β × Connection η) : found.2.Beside (values.foldl step found).2 := by
  induction values generalizing found with
  | nil => exact .refl _
  | cons value values ih => exact (each found value).trans (ih _)

/-- Emptying a feed and decoding what was in it is beside the folders, by one step for each of the params.
-/
theorem drainAs_beside {α : Type} (method : String) (decode : Json → Option α) (number : Nat) :
    c.Beside (c.drainAs method decode number).2 := by
  have drained : c.Beside (c.drain number).2 := .of_eq rfl rfl
  unfold drainAs
  generalize c.drain number = drain at drained
  obtain ⟨params, d⟩ := drain
  refine drained.trans (foldl_beside ?_ params ([], d))
  intro found value
  exact decoded_beside ..

/-- Who waits for which id concerns this side only, and no end of a pipe. -/
theorem pending_beside (pending : List (RequestId × Nat)) : c.Beside { c with pending } :=
  .of_eq rfl rfl

/-- The connection on which a request waits for its response, before it is sent. An older call under the
same id is failed first, and that sends nothing. -/
theorem awaiting_beside (displaced : Option Nat) (method : String) :
    c.Beside (match displaced with
      | some older => ((c.enroll method none).2.forget (.number c.nextId)).settle older
        (.error .connectionClosed)
      | none => (c.enroll method none).2) := by
  cases displaced with
  | none => exact enroll_beside ..
  | some older => exact (enroll_beside ..).trans ((forget_beside _).trans (settle_beside ..))

/-- A request goes out under the next id, or nothing goes out. In the first case what it is sent from is
beside the folders, so the message alone decides what the server learns. -/
theorem request_cases (c : Connection η) (method : String) (params : Json) :
    c.Beside (c.request method params).2 ∨ ∃ d e : Connection η, c.Beside d ∧
      d.send (.request (Request.make (.number c.nextId) method (some params))) = .ok e ∧
      (c.request method params).2 = e := by
  unfold request
  split
  · exact .inl (enroll_beside ..)
  · have awaiting := awaiting_beside (c := c) (c.waitingFor? (.number c.nextId)) method
    dsimp only
    split
    next e sent => exact .inr ⟨_, e, awaiting.trans (pending_beside _), sent, rfl⟩
    next =>
      exact .inl ((awaiting.trans (pending_beside _)).trans
        ((forget_beside _).trans (settle_beside ..)))

/-- A request of any method leads to a later state, also where it is the greeting, which is news. -/
theorem request_later (method : String) (params : Json) :
    c.Later (c.request method params).2 := by
  obtain beside | ⟨d, e, beside, sent, done⟩ := c.request_cases method params
  · exact beside.toLater
  · rw [done]
    exact beside.toLater.trans (send_later sent)

/-- A request that is not the greeting is beside the folders. Its consumers are the requests that a user of
the client sends. -/
theorem request_beside {method : String} (params : Json) (other : method ≠ initializeMethod) :
    c.Beside (c.request method params).2 := by
  obtain beside | ⟨d, e, beside, sent, done⟩ := c.request_cases method params
  · exact beside
  · rw [done]
    exact beside.trans (send_beside sent (decide_eq_false other))

/-- On an open connection a greeting goes out, and it is all the news that comes of the request. The roots
that it names are what the server knows from the start. -/
theorem request_news (unclosed : c.isClosed = false) (opened : c.isOpen = true) (params : Json) :
    (c.request initializeMethod params).2.news = c.news ++
      [.request (Request.make (.number c.nextId) initializeMethod (some params))] := by
  unfold request
  rw [if_neg (by rw [unclosed]; exact Bool.false_ne_true)]
  dsimp only
  cases c.waitingFor? (.number c.nextId)
  all_goals
    dsimp only
    split
    next sent => exact send_news sent
    next failed =>
      have gone := send_error failed
      exact Bool.noConfusion (opened.symm.trans gone)

/-! ## Dispatching -/

/-- A notification of the server goes into the feeds of its method and nowhere else. -/
theorem publish_beside (notification : Notification) : c.Beside (c.publish notification) :=
  .of_eq rfl rfl

/-- A response settles the call that waits for its id, or is dropped with a word in the log. -/
theorem complete_beside (response : Response) : c.Beside (c.complete response) := by
  unfold complete
  split
  · exact note_beside ..
  · split
    · exact note_beside ..
    · exact (forget_beside _).trans (settle_beside ..)

/-- A request of the server makes a job, or is refused by an answer, and answers are no news. -/
theorem answer_beside (request : Request) : c.Beside (c.answer request) := by
  unfold answer
  split
  · exact (note_beside ..).trans (reply_beside _)
  · exact .of_eq rfl rfl

/-- No message of the server makes this side tell it of folders at once. What handlers do later is a step of
its own. -/
theorem dispatch_beside (message : Message) : c.Beside (c.dispatch message) := by
  cases message with
  | request asked => exact answer_beside asked
  | response response => exact complete_beside response
  | notification said => exact publish_beside said

/-- What a handler made of a request goes back to the server as an answer, which tells nothing of folders.
-/
theorem finish_beside (number : Nat) (outcome : Outcome) : c.Beside (c.finish number outcome) := by
  unfold finish
  split
  · exact .refl c
  · have finished (jobs : List (Job η)) : c.Beside { c with jobs } := .of_eq rfl rfl
    split
    · exact (finished _).trans (reply_beside _)
    · exact (finished _).trans ((note_beside ..).trans (reply_beside _))

/-! ## Closing -/

/-- Failing all that is waited for leaves the pipe to the server and the end of the connection alone, by
induction on what is waited for. -/
theorem failPending_eq (c : Connection η) :
    c.failPending.outgoing = c.outgoing ∧ c.failPending.isOver = c.isOver := by
  unfold failPending
  suffices settled : ∀ (pending : List (RequestId × Nat)) (d : Connection η),
      d.outgoing = c.outgoing → d.isOver = c.isOver →
      (pending.foldl (fun connection entry =>
        connection.settle entry.2 (.error .connectionClosed)) d).outgoing = c.outgoing ∧
      (pending.foldl (fun connection entry =>
        connection.settle entry.2 (.error .connectionClosed)) d).isOver = c.isOver from
    settled _ _ rfl rfl
  intro pending
  induction pending with
  | nil => exact fun _ outgoing finished => ⟨outgoing, finished⟩
  | cons entry pending ih => exact fun d outgoing finished => ih (d.settle ..) outgoing finished

/-- A connection whose end to the server was let go, and that is over. Dropping the writer leaves in the
pipe what was sent, so the news are the same. -/
theorem Beside.of_dropped (outgoing : d.outgoing = c.outgoing.dropWriter) (finished : d.isOver = true) :
    c.Beside d where
  reader := by rw [outgoing]; exact id
  writer := by rw [outgoing]; exact fun gone => absurd gone Bool.false_ne_true
  finished _ := finished
  isSealed _ _ := by rw [outgoing]; rfl
  news := by unfold Connection.news; rw [outgoing]; rfl

/-- Closing a connection lets go of its end to the server, and says nothing more. The server still gets what
it has not read. -/
theorem outgoing_close (unfinished : c.isOver = false) :
    c.close.outgoing = c.outgoing.dropWriter := by
  unfold close
  split
  next finished =>
    rw [← Bool.or_eq_true] at finished
    exact absurd (finished.symm.trans unfinished) Bool.noConfusion
  next =>
    exact congrArg Pipe.dropWriter ({ c with isClosed := true }.signal [.closed]).failPending_eq.1

/-- Closing tells the server nothing of folders. A connection that is over already is left as it is. -/
theorem close_beside : c.Beside c.close := by
  unfold close
  split
  · exact .refl c
  · obtain ⟨outgoing, finished⟩ := ({ c with isClosed := true }.signal [.closed]).failPending_eq
    refine .of_dropped ?_ ?_
    · exact congrArg Pipe.dropWriter outgoing
    · exact finished

/-- A connection that was closed is over, also if it was released before and closing it did nothing. -/
theorem isOver_close (c : Connection η) : c.close.isOver = true := by
  unfold close
  split
  next finished => simpa only [isOver, Bool.or_eq_true] using finished
  next => exact ({ c with isClosed := true }.signal [.closed]).failPending_eq.2

/-- Handling all that has arrived is beside the folders, message by message, and so is the end of the
connection if the server is gone. -/
theorem read_beside : c.Beside c.read := by
  unfold read
  split
  · have dispatched : ∀ (messages : List Message) (d : Connection η), c.Beside d →
        c.Beside (messages.foldl dispatch d) := by
      intro messages
      induction messages with
      | nil => exact fun _ beside => beside
      | cons message messages ih => exact fun _ beside => ih _ (beside.trans (dispatch_beside _))
    have taken := dispatched c.incoming.waiting
      { c with incoming := { c.incoming with waiting := [] } } (.of_eq rfl rfl)
    dsimp only
    split
    · exact taken
    · exact taken.trans close_beside
  · exact .refl c

/-! ## The other end -/

theorem tellReader_beside : c.Beside c.tellReader := by
  unfold tellReader
  split
  · exact signal_beside _
  · exact .refl c

/-- What the server sends only waits to be handled, so this side has told it nothing by that. -/
theorem arrive_beside (message : Message) : c.Beside (c.arrive message) := by
  unfold arrive
  split
  · split
    next pipe _ =>
      exact Beside.trans (d := { c with incoming := pipe }) (.of_eq rfl rfl) tellReader_beside
    next => exact .refl c
  · exact .refl c

/-- All messages of one move of the server arrive one after the other, and each of them is beside the
folders. -/
theorem arriveAll_beside (messages : List Message) :
    c.Beside (messages.foldl Connection.arrive c) := by
  induction messages generalizing c with
  | nil => exact .refl c
  | cons message messages ih => exact (arrive_beside message).trans ih

/-- A server that hangs up can still be told something until this side has noticed. -/
theorem hangUp_beside : c.Beside c.hangUp :=
  Beside.trans (d := { c with incoming := c.incoming.dropWriter }) (.of_eq rfl rfl)
    tellReader_beside

/-- A server that reads no more can be told nothing. This is later but not beside: what it has not read is
lost, news among it. -/
theorem stopReading_later : c.Later c.stopReading :=
  ⟨fun gone => absurd gone Bool.false_ne_true, id, id, id⟩

end Connection

end LanguageClient
