import LanguageClient.Proofs.Connection.Feeds

/-!
# Jobs

What becomes of the requests of the server in a run of a connection. A request whose method nobody
serves is refused at once. Any other becomes a job of the handler that serves its method then, and it
is answered when that job is finished, with what the handler made of it; no later handler changes that.

A move owes responses to the requests that it refuses and to the job that it finishes
(`Connection.due`), and it sends these and no others, as long as the connection is there and the server
reads (`said_after`). So a job is answered by the first move that finishes it, if at all
(`jobs_run`), and no id is answered more often than it was asked for (`replies_le`).

Nothing is said of when a job is finished, or whether it ever is: any move of a run may do it.
-/

namespace LanguageClient

/-- The response that a message is, if it is one. -/
def Message.response? : Message → Option Response
  | .response said => some said
  | _ => none

/-- The request that a message is, if it is one. -/
def Message.request? : Message → Option Request
  | .request asked => some asked
  | _ => none

/-- What a server is told of a request that came out so. -/
def Job.answer {η : Type} (job : Job η) : Outcome → Response
  | .ok result => Response.success job.id result
  | .error failure => Response.failure job.id failure.toResponseError

namespace Connection

variable {η : Type} {c d e : Connection η} {number : Nat} {job : Job η}
variable {came more : List (Job η)} {answers others : List Response}

/-! ## What a run does for the server -/

/-- Whether the connection is there and the server reads. -/
def isHeard (c : Connection η) : Bool := !c.isOver && c.outgoing.hasReader

/-- Whether nothing waits for the server after a move, as it has taken or lost it. -/
def Move.empties : Move η → Bool
  | .deliver | .stopReading => true
  | _ => false

/-- What a move sends to the server. -/
def said (c : Connection η) (move : Move η) : List Message :=
  (c.after move).outgoing.waiting.drop (if move.empties then 0 else c.outgoing.waiting.length)

/-- The handler that a move installs for a method. -/
def Move.handler? (method : String) : Move η → Option η
  | .handle served handler => if served = method then some handler else none
  | _ => none

/-- Who serves a method after these moves: the handler that was installed last. -/
def servant (moves : List (Move η)) (method : String) : Option η :=
  (moves.filterMap (Move.handler? method)).getLast?

/-- Who serves a method now. -/
def handlerOf (c : Connection η) (method : String) : Option η := c.handlers.lookup method

/-- The job that a message becomes when methods are served so. -/
def jobOf (serves : String → Option η) : Message → Option (Job η)
  | .request asked => (serves asked.method).map fun handler =>
    ⟨asked.id, asked.method, asked.params, handler, false⟩
  | _ => none

/-- What a message is answered at once when methods are served so. -/
def refusalOf (serves : String → Option η) : Message → Option Response
  | .request asked =>
    if (serves asked.method).isSome then none
    else some (Response.failure asked.id
      ⟨-32601, (ClientError.unhandledServerRequest asked.method).message, none⟩)
  | _ => none

/-- The responses that a move owes to a server that reads. -/
def due (c : Connection η) (serves : String → Option η) (move : Move η) : List Response :=
  if c.isHeard then
    match move with
    | .finish number outcome => ((c.job? number).map (·.answer outcome)).toList
    | move => (c.dispatched move).filterMap (refusalOf serves)
  else []

/-- Whether a move finishes the job of a number. -/
def Move.finishes (number : Nat) : Move η → Bool
  | .finish job _ => job = number
  | _ => false

/-- The responses of a run. -/
def replies (c : Connection η) : List (Move η) → List Response
  | [] => []
  | move :: moves => (c.said move).filterMap Message.response? ++ (c.after move).replies moves

/-- The requests of the server that a run handles before the connection is over. -/
def asks (c : Connection η) : List (Move η) → List Request
  | [] => []
  | move :: moves =>
    (if c.isOver then [] else (c.dispatched move).filterMap Message.request?) ++
      (c.after move).asks moves

/-! ## One operation -/

/-- The job of a number is open if it is there and is not finished. All who look for jobs look with `job?`,
and this says what they find. -/
theorem job?_eq_some_iff :
    c.job? number = some job ↔ c.jobs[number]? = some job ∧ job.isFinished = false := by
  unfold job?
  cases c.jobs[number]? with
  | none => simp
  | some found =>
    simp only [Option.ite_none_left_eq_some, Bool.not_eq_true, Option.some.injEq]
    constructor
    · rintro ⟨unfinished, rfl⟩
      exact ⟨rfl, unfinished⟩
    · rintro ⟨rfl, unfinished⟩
      exact ⟨unfinished, rfl⟩

/-- Jobs have come and messages were sent, of which these are responses; who cannot be told anything
was sent nothing. -/
structure Does (c d : Connection η) (came : List (Job η)) (answers : List Response) : Prop where
  jobs : d.jobs = c.jobs ++ came
  handlers : d.handlers = c.handlers
  isOver : d.isOver = c.isOver
  writer : d.outgoing.hasWriter = c.outgoing.hasWriter
  reader : d.outgoing.hasReader = c.outgoing.hasReader
  said : ∃ messages, d.outgoing.waiting = c.outgoing.waiting ++ messages ∧
    messages.filterMap Message.response? = answers ∧ (c.isOpen = false → messages = [])

/-- What leaves all that alone makes no job and sends nothing. It is the case of most operations of this
side. -/
theorem Does.of_eq (jobs : d.jobs = c.jobs) (handlers : d.handlers = c.handlers)
    (isOver : d.isOver = c.isOver) (outgoing : d.outgoing = c.outgoing) : c.Does d [] [] where
  jobs := by rw [jobs, List.append_nil]
  handlers := handlers
  isOver := isOver
  writer := by rw [outgoing]
  reader := by rw [outgoing]
  said := ⟨[], by rw [outgoing, List.append_nil], rfl, fun _ => rfl⟩

theorem Does.refl (c : Connection η) : c.Does c [] [] := .of_eq rfl rfl rfl rfl

/-- Whether messages can be sent is the same after an operation that only makes jobs and sends. -/
theorem Does.isOpen (does : c.Does d came answers) : d.isOpen = c.isOpen := by
  unfold Connection.isOpen
  rw [does.writer, does.reader]

/-- Who serves which method is the same after such an operation, so the next message meets the same
handlers. -/
theorem Does.handlerOf (does : c.Does d came answers) : d.handlerOf = c.handlerOf := by
  funext method
  unfold Connection.handlerOf
  rw [does.handlers]

/-- Two operations in a row make the jobs of both and send the answers of both, in that order. -/
theorem Does.trans (first : c.Does d came answers) (second : d.Does e more others) :
    c.Does e (came ++ more) (answers ++ others) where
  jobs := by rw [second.jobs, first.jobs, List.append_assoc]
  handlers := second.handlers.trans first.handlers
  isOver := second.isOver.trans first.isOver
  writer := second.writer.trans first.writer
  reader := second.reader.trans first.reader
  said := by
    obtain ⟨messages, waiting, responses, silent⟩ := first.said
    obtain ⟨messages', waiting', responses', silent'⟩ := second.said
    refine ⟨messages ++ messages', ?_, ?_, fun mute => ?_⟩
    · rw [waiting', waiting, List.append_assoc]
    · rw [List.filterMap_append, responses, responses']
    · rw [silent mute, silent' (first.isOpen.trans mute)]
      rfl

/-- A message that goes out leaves the handlers in place. -/
theorem send_handlers {message : Message} (sent : c.send message = .ok d) :
    d.handlers = c.handlers := by
  unfold send at sent
  split at sent
  · split at sent
    · cases sent
      rfl
    · cases sent
  · cases sent

/-- A message that goes out shows that both ends of its pipe are there. -/
theorem isOpen_of_send {message : Message} (sent : c.send message = .ok d) : c.isOpen = true := by
  unfold send Pipe.send at sent
  unfold isOpen
  split at sent
  next writer =>
    rw [writer, Bool.true_and]
    split at sent
    next pipe ok =>
      split at ok
      next reader => exact reader
      next => cases ok
    next => cases sent
  next => cases sent

/-- What is sent is one message more, and it is an answer if it is a response. -/
theorem send_does {message : Message} (sent : c.send message = .ok d) :
    c.Does d [] ([message].filterMap Message.response?) where
  jobs := by rw [(send_jobs sent).1, List.append_nil]
  handlers := send_handlers sent
  isOver := (send_ok sent).2
  writer := by rw [(send_ok sent).1]
  reader := by rw [(send_ok sent).1]
  said := by
    refine ⟨[message], by rw [(send_ok sent).1], rfl, fun mute => ?_⟩
    rw [isOpen_of_send sent] at mute
    cases mute

/-- An answer is sent if the connection is open, and is lost without a word otherwise. -/
theorem reply_does (response : Response) :
    c.Does (c.reply response) [] (if c.isOpen then [response] else []) := by
  unfold reply
  split
  next d sent =>
    rw [if_pos (isOpen_of_send sent)]
    exact send_does sent
  next failure failed =>
    rw [send_error failed]
    exact .refl c

/-- A notification is no answer and makes no job, whether it goes out or not. -/
theorem notifyIfPossible_does (method : String) (params : Json) :
    c.Does (c.notifyIfPossible method params) [] [] := by
  unfold notifyIfPossible
  split
  next sent => exact send_does sent
  next => exact .refl c

/-- A request of this side is a message and no answer, in each of the three ways in which it can come out.
-/
theorem request_does (method : String) (params : Json) :
    c.Does (c.request method params).2 [] [] := by
  have awaits : c.Does (c.awaiting method) [] [] := by
    unfold awaiting cleared
    split <;> exact .of_eq rfl rfl rfl rfl
  cases closed : c.isClosed with
  | true =>
    unfold request
    rw [if_pos closed]
    exact .of_eq rfl rfl rfl rfl
  | false =>
    rw [request_eq closed]
    split
    next sent => exact awaits.trans (send_does sent)
    next =>
      have unsent (failure : ClientError) : (c.awaiting method).Does
          (((c.awaiting method).forget (.number c.nextId)).settle c.calls.length (.error failure))
          [] [] := .of_eq rfl rfl rfl rfl
      exact awaits.trans (unsent _)

/-- A request that has arrived is no job before it is handled. -/
theorem arrive_does (message : Message) : c.Does (c.arrive message) [] [] := by
  unfold arrive tellReader
  split
  · split
    · split <;> exact .of_eq rfl rfl rfl rfl
    · exact .refl c
  · exact .refl c

theorem hangUp_does : c.Does c.hangUp [] [] := by
  unfold hangUp tellReader
  split <;> exact .of_eq rfl rfl rfl rfl

theorem start_does : c.Does c.start [] [] := by
  unfold start
  split
  · exact .of_eq rfl rfl rfl rfl
  · exact .refl c

/-! ## Requests of the server -/

/-- A request is refused at once or it becomes a job, by whether somebody serves its method now. Both sides
of the alternative are given by the same look at the handlers. -/
theorem answer_does (asked : Request) : c.Does (c.answer asked)
    (jobOf c.handlerOf (.request asked)).toList
    (if c.isOpen then (refusalOf c.handlerOf (.request asked)).toList else []) := by
  have served : c.handlers.lookup asked.method = c.handlerOf asked.method := rfl
  simp only [answer, jobOf, refusalOf, served]
  cases c.handlerOf asked.method with
  | none =>
    have noted : c.Does (c.note .warn "no handler for server request" [("method", asked.method)])
      [] [] := .of_eq rfl rfl rfl rfl
    exact noted.trans (reply_does _)
  | some handler =>
    simp only [Option.isSome_some, if_true, Option.toList_none, ite_self]
    exact ⟨rfl, rfl, rfl, rfl, rfl, [], (List.append_nil _).symm, rfl, fun _ => rfl⟩

/-- A message makes a job or is refused if it is a request, and the other two kinds do neither. -/
theorem dispatch_does (message : Message) : c.Does (c.dispatch message)
    (jobOf c.handlerOf message).toList
    (if c.isOpen then (refusalOf c.handlerOf message).toList else []) := by
  cases message with
  | request asked => exact answer_does asked
  | notification said =>
    simp only [jobOf, refusalOf, Option.toList_none, ite_self]
    exact .of_eq rfl rfl rfl rfl
  | response response =>
    simp only [jobOf, refusalOf, Option.toList_none, ite_self]
    unfold dispatch complete
    dsimp only
    split
    · exact .of_eq rfl rfl rfl rfl
    · split <;> exact .of_eq rfl rfl rfl rfl

/-- Several messages, one after the other, make their jobs and are refused in their order. Handlers do not
change in between, so one look at them is enough. -/
theorem dispatchAll_does (messages : List Message) (c : Connection η) :
    c.Does (messages.foldl dispatch c) (messages.filterMap (jobOf c.handlerOf))
      (if c.isOpen then messages.filterMap (refusalOf c.handlerOf) else []) := by
  induction messages generalizing c with
  | nil =>
    rw [List.filterMap_nil, List.filterMap_nil, ite_self]
    exact .refl c
  | cons message messages ih =>
    have first := dispatch_does (c := c) message
    have rest := ih (c.dispatch message)
    rw [first.isOpen, first.handlerOf] at rest
    have both := first.trans rest
    have split {α : Type} (part : Message → Option α) : (message :: messages).filterMap part =
        (part message).toList ++ messages.filterMap part := by
      rw [List.filterMap_cons]
      cases part message <;> rfl
    rw [List.foldl_cons, split, split]
    cases opened : c.isOpen with
    | true => simpa only [opened, if_true] using both
    | false => simpa only [opened, Bool.false_eq_true, if_false, List.append_nil] using both

/-- A job that is finished stays as it is when it is finished again, and a number without a job changes
nothing. -/
theorem modify_finished (idle : c.job? number = none) :
    c.jobs.modify number Job.finished = c.jobs := by
  apply List.ext_getElem?
  intro place
  rw [List.getElem?_modify]
  by_cases same : number = place
  · subst same
    unfold job? at idle
    cases found : c.jobs[number]? with
    | none => rfl
    | some job =>
      rw [found] at idle
      have finished : job.isFinished = true := by simpa using idle
      have unchanged : job.finished = job := by
        cases job
        simp only [Job.finished]
        congr
        exact finished.symm
      simp only [if_true, Option.map_eq_map, Option.map_some, unchanged]
  · simp only [same, if_false, Option.map_eq_map, Option.map_id']

/-- Who finishes a job answers it, and who finishes none does nothing. The job is marked first, so that what
is left is the sending alone. -/
theorem finish_does (number : Nat) (outcome : Outcome) :
    Does { c with jobs := c.jobs.modify number Job.finished } (c.finish number outcome) []
      (if c.isOpen then ((c.job? number).map (·.answer outcome)).toList else []) := by
  unfold finish
  cases pending : c.job? number with
  | none =>
    rw [modify_finished pending, Option.map_none, Option.toList_none, ite_self]
    exact .refl c
  | some job =>
    dsimp only [Option.map_some, Option.toList_some]
    let finished : Connection η := { c with jobs := c.jobs.modify number Job.finished }
    cases outcome with
    | ok result => exact reply_does (c := finished) _
    | error failure =>
      have noted : finished.Does (finished.note .warn "server request handler failed"
        [("error", failure.message), ("method", job.method)]) [] [] := .of_eq rfl rfl rfl rfl
      exact noted.trans (reply_does _)

/-! ## The handlers of a run -/

/-- What is known of a connection after the moves of a run: it can send as long as it is there, and
the methods are served as the moves say. -/
structure Staffed (c : Connection η) (moves : List (Move η)) : Prop where
  writer : c.outgoing.hasWriter = !c.isOver
  handlers : c.isOver = false → c.handlerOf = servant moves

variable {moves : List (Move η)} {move : Move η}

/-- As long as the connection is there, it has its way to send, so being open is that the server reads. -/
theorem Staffed.isOpen (staffed : c.Staffed moves) : c.isOpen = c.isHeard := by
  unfold Connection.isOpen isHeard
  rw [staffed.writer]

theorem isOver_of_isHeard (heard : c.isHeard = true) : c.isOver = false := by
  unfold isHeard at heard
  rw [Bool.and_eq_true, Bool.not_eq_true'] at heard
  exact heard.1

/-- Who serves a method after one move more is who that move installs for it, or else who served it before.
-/
theorem servant_concat (moves : List (Move η)) (move : Move η) (method : String) :
    servant (moves ++ [move]) method = (move.handler? method).or (servant moves method) := by
  unfold servant
  rw [List.filterMap_append, List.getLast?_append, List.filterMap_cons]
  cases move.handler? method <;> rfl

/-- Whoever is installed serves its method from then on, and no other. The handler before it is taken out,
so there is one for each method. -/
theorem handlerOf_handle (unclosed : c.isClosed = false) (method : String) (handler : η)
    (other : String) : (c.handle method handler).handlerOf other =
      ((Move.handle method handler).handler? other).or (c.handlerOf other) := by
  unfold handle handlerOf
  rw [unclosed, if_neg Bool.false_ne_true, List.lookup_append]
  dsimp only [Move.handler?]
  by_cases same : method = other
  · subst same
    rw [lookup_filter_self, if_pos rfl, Option.none_or, List.lookup_cons, beq_self_eq_true]
    rfl
  · have apart : other ≠ method := fun equal => same equal.symm
    rw [lookup_filter_ne _ apart, if_neg same, List.lookup_cons, beq_eq_false_iff_ne.mpr apart,
      Option.none_or, List.lookup_nil, Option.or_none]

/-- What neither installs a handler nor ends the connection leaves the methods served as they were. -/
theorem Staffed.does (staffed : c.Staffed moves) (move : Move η) (does : c.Does d came answers)
    (other : ∀ method, move.handler? method = none) : d.Staffed (moves ++ [move]) where
  writer := by rw [does.writer, does.isOver, staffed.writer]
  handlers running := by
    funext method
    rw [does.handlerOf, staffed.handlers (does.isOver.symm.trans running), servant_concat, other,
      Option.none_or]

/-- What is over serves nothing, so nothing need be known of its handlers. -/
theorem Staffed.of_isOver (ended : d.isOver = true) (writer : d.outgoing.hasWriter = false)
    (moves : List (Move η)) : d.Staffed moves where
  writer := by rw [ended, writer]; rfl
  handlers running := by rw [ended] at running; cases running

/-- A connection that is closed has let go of its writer, and is known to be over, which is all that is
asked of it. -/
theorem Staffed.close (staffed : c.Staffed moves) (later : List (Move η)) :
    c.close.Staffed (moves ++ later) := by
  refine .of_isOver (isOver_close c) ?_ _
  cases running : c.isOver with
  | true => rw [close_of_isOver running, staffed.writer, running]; rfl
  | false => exact (ends_close running).writer

/-- A connection that is released has let go of its writer as well. -/
theorem Staffed.release (staffed : c.Staffed moves) (later : List (Move η)) :
    c.release.Staffed (moves ++ later) := by
  cases running : c.isOver with
  | true =>
    rw [release_of_isOver running]
    exact .of_isOver running (by rw [staffed.writer, running]; rfl) _
  | false =>
    have ends := ends_release running
    exact .of_isOver ends.isOver ends.writer _

theorem taken_does : c.Does c.taken [] [] := .of_eq rfl rfl rfl rfl

/-- A move takes the handlers of a run on. `servant` is defined by the moves alone, and this is where it
meets the table that the connection keeps. -/
theorem Staffed.after (staffed : c.Staffed moves) (move : Move η) :
    (c.after move).Staffed (moves ++ [move]) := by
  cases move with
  | handle method handler =>
    have mute : c.Mute (c.handle method handler) := handle_mute method handler
    refine ⟨?_, fun running => ?_⟩
    · show (c.handle method handler).outgoing.hasWriter = !(c.handle method handler).isOver
      rw [(alike_handle method handler).writer, mute.isOver, staffed.writer]
    · have before : c.isOver = false := mute.isOver.symm.trans running
      -- a handler is only taken as long as the connection is not closed
      have unclosed : c.isClosed = false := by
        unfold isOver at before
        exact (Bool.or_eq_false_iff.mp before).1
      funext other
      rw [servant_concat, ← staffed.handlers before]
      exact handlerOf_handle unclosed method handler other
  | close => exact staffed.close [.close]
  | release => exact staffed.release [.release]
  | read =>
    by_cases running : c.reader = .running
    · have dispatched := staffed.does .read
        (taken_does.trans (dispatchAll_does c.incoming.waiting c.taken)) fun _ => rfl
      show c.read.Staffed _
      rw [read_of_running running]
      split
      · exact dispatched
      · refine .of_isOver (isOver_close _) ?_ _
        exact (dispatched.close []).writer.trans (by rw [isOver_close]; rfl)
    · show c.read.Staffed _
      rw [read_of_not_running running]
      exact staffed.does _ (.refl c) fun _ => rfl
  | request method params => exact staffed.does _ (request_does method params) fun _ => rfl
  | notify method params => exact staffed.does _ (notifyIfPossible_does method params) fun _ => rfl
  | dispatch message => exact staffed.does _ (dispatch_does message) fun _ => rfl
  | finish job outcome =>
    have modified : Staffed { c with jobs := c.jobs.modify job Job.finished } moves :=
      ⟨staffed.writer, staffed.handlers⟩
    exact modified.does _ (finish_does job outcome) fun _ => rfl
  | arrive message => exact staffed.does _ (arrive_does message) fun _ => rfl
  | hangUp => exact staffed.does _ hangUp_does fun _ => rfl
  | start => exact staffed.does _ start_does fun _ => rfl
  | abandon | observe | drain | next | dropFeed =>
    exact staffed.does _ (.of_eq rfl rfl rfl rfl) fun _ => rfl
  | deliver | stopReading =>
    refine ⟨staffed.writer, fun running => ?_⟩
    funext method
    rw [servant_concat]
    exact congrFun (staffed.handlers running) method

theorem staffed_new : (new : Connection η).Staffed [] := ⟨rfl, fun _ => rfl⟩

/-- After any run the methods are served as its moves say, by induction from `Staffed.after`. -/
theorem Staffed.run (staffed : c.Staffed moves) (later : List (Move η)) :
    (c.run later).Staffed (moves ++ later) := by
  induction later generalizing c moves with
  | nil => rwa [List.append_nil]
  | cons move later ih =>
    have rest := ih (staffed.after move)
    rwa [List.append_assoc, List.singleton_append] at rest

/-! ## What a move answers -/

/-- A move sends what it says after all that waits, and it says the responses that it owes. -/
structure Pays (c : Connection η) (serves : String → Option η) (move : Move η) : Prop where
  sent : (c.after move).outgoing.waiting =
    (if move.empties then [] else c.outgoing.waiting) ++ c.said move
  responses : (c.said move).filterMap Message.response? = c.due serves move
  silent : c.isHeard = false → c.said move = []

/-- What a move that leaves the pipe to the server alone says is what it adds to it. -/
theorem said_eq {messages : List Message} (kept : move.empties = false)
    (waiting : (c.after move).outgoing.waiting = c.outgoing.waiting ++ messages) :
    c.said move = messages := by
  unfold said
  rw [kept, waiting, if_neg Bool.false_ne_true, List.drop_left]

/-- A move that comes down to operations with the answers that it owes, whatever becomes of the jobs before
that. So each case of `said_after` names its operation and what that owes. -/
theorem Does.pays {serves : String → Option η} (jobs : List (Job η))
    (does : Does { c with jobs } d came answers) (open_ : c.isOpen = c.isHeard)
    (kept : move.empties = false)
    (waiting : (c.after move).outgoing.waiting = d.outgoing.waiting)
    (owed : answers = c.due serves move) : c.Pays serves move := by
  obtain ⟨messages, added, responses, silent⟩ := does.said
  have said : c.said move = messages := said_eq kept (waiting.trans added)
  refine ⟨?_, ?_, fun mute => ?_⟩
  · rw [said, kept, if_neg Bool.false_ne_true]
    exact waiting.trans added
  · rw [said, responses, owed]
  · rw [said]
    exact silent (open_.trans mute)

/-- What handling messages owes is the same by the table of the connection and by the moves of the run. -/
theorem Staffed.refusals (staffed : c.Staffed moves) (messages : List Message) :
    (if c.isOpen then messages.filterMap (refusalOf c.handlerOf) else []) =
      if c.isHeard then messages.filterMap (refusalOf (servant moves)) else [] := by
  rw [staffed.isOpen]
  split
  next heard => rw [staffed.handlers (isOver_of_isHeard heard)]
  next => rfl

/-- Closing leaves in the pipe what the server has not read yet. -/
theorem close_waiting (c : Connection η) : c.close.outgoing.waiting = c.outgoing.waiting := by
  cases running : c.isOver with
  | true => rw [close_of_isOver running]
  | false => rw [outgoing_close running]; rfl

/-- Release leaves in the pipe what the server has not read yet. -/
theorem release_waiting (c : Connection η) : c.release.outgoing.waiting = c.outgoing.waiting := by
  cases running : c.isOver with
  | true => rw [release_of_isOver running]
  | false => rw [release_of_running running]; rfl

/-- In a run, every move says what it owes and no more. The cases are the moves; those that end the
connection or empty the pipe are the ones that `Does.pays` does not cover. -/
theorem said_after (staffed : c.Staffed moves) (move : Move η) : c.Pays (servant moves) move := by
  -- most moves owe nothing and send nothing; they come down to the waiting messages that they leave
  have plain {move : Move η} {d : Connection η} (does : c.Does d [] [])
      (waiting : (c.after move).outgoing.waiting = d.outgoing.waiting)
      (kept : move.empties = false) (owed : c.due (servant moves) move = []) :
      c.Pays (servant moves) move := Does.pays c.jobs does staffed.isOpen kept waiting owed.symm
  have nothing : (if c.isHeard then [] else [] : List Response) = [] := ite_self _
  cases move with
  | dispatch message =>
    refine Does.pays c.jobs (dispatch_does message) staffed.isOpen rfl rfl ?_
    have owed := staffed.refusals [message]
    simp only [due, dispatched]
    rw [← owed, List.filterMap_cons, List.filterMap_nil]
    cases refusalOf c.handlerOf message <;> rfl
  | read =>
    by_cases running : c.reader = .running
    -- the reader takes all that has come, dispatches it, and closes the connection if no more can
    -- come
    · have does := taken_does.trans (dispatchAll_does c.incoming.waiting c.taken)
      refine Does.pays c.jobs does staffed.isOpen rfl ?_ ?_
      · show c.read.outgoing.waiting = _
        rw [read_of_running running]
        split
        · rfl
        · exact close_waiting _
      · simp only [due, dispatched, running, if_true, List.nil_append]
        exact staffed.refusals c.incoming.waiting
    · refine plain (.refl c) ?_ rfl ?_
      · show c.read.outgoing.waiting = _
        rw [read_of_not_running running]
      · simp only [due, dispatched, running, if_false, List.filterMap_nil]
        exact nothing
  | finish job outcome =>
    refine Does.pays _ (finish_does job outcome) staffed.isOpen rfl rfl ?_
    rw [staffed.isOpen]
    rfl
  | deliver | stopReading => exact ⟨rfl, nothing.symm, fun _ => rfl⟩
  | close => exact plain (.refl c) c.close_waiting rfl nothing
  | release => exact plain (.refl c) c.release_waiting rfl nothing
  | handle method handler =>
    refine plain (.refl c) ?_ rfl nothing
    show (c.handle method handler).outgoing.waiting = _
    unfold handle
    split <;> rfl
  | request method params => exact plain (request_does method params) rfl rfl nothing
  | notify method params => exact plain (notifyIfPossible_does method params) rfl rfl nothing
  | arrive message => exact plain (arrive_does message) rfl rfl nothing
  | hangUp => exact plain hangUp_does rfl rfl nothing
  | start => exact plain start_does rfl rfl nothing
  | abandon | observe | drain | next | dropFeed => exact plain (.refl c) rfl rfl nothing

/-! ## The jobs of a run -/

/-- What a move makes of the jobs that are there. -/
def kept (c : Connection η) : Move η → List (Job η)
  | .finish number _ => c.jobs.modify number Job.finished
  | _ => c.jobs

/-- Jobs come with requests, and only to finish one changes it. Neither the end of the connection nor a new
handler takes a job away. -/
theorem jobs_after (c : Connection η) (move : Move η) :
    (c.after move).jobs = c.kept move ++ (c.dispatched move).filterMap (jobOf c.handlerOf) := by
  -- as for what is said: most moves start no job, and the rest start those of what they dispatch
  have plain {move : Move η} {came : List (Job η)} {answers : List Response}
      (does : c.Does (c.after move) came answers) (kept : c.kept move = c.jobs)
      (came_eq : came = (c.dispatched move).filterMap (jobOf c.handlerOf)) :
      (c.after move).jobs =
        c.kept move ++ (c.dispatched move).filterMap (jobOf c.handlerOf) := by
    rw [kept, ← came_eq]
    exact does.jobs
  have unmoved {jobs : List (Job η)} (same : jobs = c.jobs) : jobs = c.jobs ++ [] := by
    rw [same, List.append_nil]
  cases move with
  | dispatch message =>
    refine plain (dispatch_does message) rfl ?_
    simp only [dispatched, List.filterMap_cons, List.filterMap_nil]
    cases jobOf c.handlerOf message <;> rfl
  | read =>
    by_cases running : c.reader = .running
    · have does := taken_does.trans (dispatchAll_does c.incoming.waiting c.taken)
      show c.read.jobs = c.jobs ++ _
      simp only [dispatched, running, if_true]
      rw [read_of_running running]
      split
      · exact does.jobs
      · exact close_jobs.trans does.jobs
    · show c.read.jobs = c.jobs ++ _
      simp only [dispatched, running, if_false, List.filterMap_nil]
      rw [read_of_not_running running]
      exact unmoved rfl
  | finish job outcome => exact (finish_does job outcome).jobs
  | handle method handler =>
    show (c.handle method handler).jobs = c.jobs ++ []
    unfold handle
    split <;> exact unmoved rfl
  | close => exact unmoved close_jobs
  | release => exact unmoved release_goes.2
  | request method params => exact plain (request_does method params) rfl rfl
  | notify method params => exact plain (notifyIfPossible_does method params) rfl rfl
  | arrive message => exact plain (arrive_does message) rfl rfl
  | hangUp => exact plain hangUp_does rfl rfl
  | start => exact plain start_does rfl rfl
  | abandon | observe | drain | next | dropFeed | deliver | stopReading => exact unmoved rfl

/-- No move takes a job away, so a job can be named by its number for good. -/
theorem length_kept (c : Connection η) (move : Move η) :
    (c.kept move).length = c.jobs.length := by
  cases move with
  | finish number outcome => exact List.length_modify ..
  | _ => rfl

/-- What a move makes of the job of a number: it is finished if the move finishes it, and is the same
otherwise. -/
theorem kept_getElem? (c : Connection η) (move : Move η) (number : Nat) :
    (c.kept move)[number]? =
      (c.jobs[number]?).map fun job => if move.finishes number then job.finished else job := by
  cases move with
  | finish other outcome =>
    simp only [kept, Move.finishes, List.getElem?_modify, decide_eq_true_eq]
    rfl
  | _ => simp only [kept, Move.finishes, Bool.false_eq_true, if_false, Option.map_id']

/-- A job of a number stays what it is, and is finished once a move has finished it. Its handler is the one
that it had when it came. -/
theorem jobs_run (found : c.jobs[number]? = some job) (later : List (Move η)) :
    (c.run later).jobs[number]? =
      some { job with isFinished := job.isFinished || later.any (Move.finishes number) } := by
  induction later generalizing c job with
  | nil => simp only [run_nil, List.any_nil, Bool.or_false, found]
  | cons move later ih =>
    have inside : number < (c.kept move).length := by
      rw [length_kept]
      exact (List.getElem?_eq_some_iff.mp found).1
    have next : (c.after move).jobs[number]? =
        some (if move.finishes number then job.finished else job) := by
      rw [jobs_after, List.getElem?_append_left inside, kept_getElem?, found, Option.map_some]
    rw [run_cons, ih next, List.any_cons]
    cases move.finishes number with
    | true => simp only [if_true, Job.finished, Bool.true_or, Bool.or_true]
    | false => simp only [Bool.false_eq_true, if_false, Bool.false_or]

/-- A request that is handled while somebody serves its method becomes the job of the next number, counted
behind the jobs of the messages in front of it. -/
theorem jobs_asked {first rest : List Message} {asked : Request} {handler : η}
    (handled : c.dispatched move = first ++ .request asked :: rest)
    (served : c.handlerOf asked.method = some handler) :
    (c.after move).jobs[c.jobs.length + (first.filterMap (jobOf c.handlerOf)).length]? =
      some ⟨asked.id, asked.method, asked.params, handler, false⟩ := by
  have became : jobOf c.handlerOf (.request asked) =
      some ⟨asked.id, asked.method, asked.params, handler, false⟩ := by
    simp only [jobOf, served, Option.map_some]
  rw [jobs_after, handled, List.filterMap_append, List.filterMap_cons, became,
    ← length_kept c move, List.getElem?_append_right (Nat.le_add_right ..), Nat.add_sub_cancel_left,
    List.getElem?_append_right (Nat.le_refl _), Nat.sub_self]
  rfl

/-- A finished job is answered if it was not finished before and somebody reads the answer. -/
theorem said_finish (staffed : c.Staffed moves) (found : c.jobs[number]? = some job)
    (outcome : Outcome) : (c.said (.finish number outcome)).filterMap Message.response? =
      if c.isHeard && !job.isFinished then [job.answer outcome] else [] := by
  rw [(said_after staffed (.finish number outcome)).responses]
  simp only [due, job?, found]
  cases c.isHeard <;> cases job.isFinished <;> rfl

/-! ## How often an id is answered -/

/-- Whether a job has an id and is still to be finished. -/
def awaits (id : RequestId) (job : Job η) : Bool := !job.isFinished && decide (job.id = id)

/-- How many requests under an id can still be answered. -/
def unanswered (c : Connection η) (id : RequestId) : Nat :=
  if c.isOver then 0 else c.jobs.countP (awaits id)

/-- How many responses have an id. -/
def answered (id : RequestId) (responses : List Response) : Nat :=
  responses.countP fun response => response.id = some id

/-- How many requests have an id. -/
def requested (id : RequestId) (requests : List Request) : Nat :=
  requests.countP fun request => request.id = id

/-- Each request is refused or becomes a job, under its own id. So the two together are as many as the
requests, for every id. -/
theorem answered_refusals (serves : String → Option η) (id : RequestId) (messages : List Message) :
    answered id (messages.filterMap (refusalOf serves)) +
        (messages.filterMap (jobOf serves)).countP (awaits id) =
      requested id (messages.filterMap Message.request?) := by
  unfold answered requested
  induction messages with
  | nil => rfl
  | cons message messages ih =>
    cases message with
    | request asked =>
      cases served : serves asked.method with
      | none =>
        simp only [List.filterMap_cons, refusalOf, jobOf, Message.request?, served,
          Option.isSome_none, Bool.false_eq_true, if_false, Option.map_none, List.countP_cons,
          Response.failure, Option.some.injEq]
        omega
      | some handler =>
        simp only [List.filterMap_cons, refusalOf, jobOf, Message.request?, served,
          Option.isSome_some, if_true, Option.map_some, List.countP_cons, awaits, Bool.not_false,
          Bool.true_and]
        omega
    | notification said => exact ih
    | response response => exact ih

/-- Finishing a job takes it from those that are to be finished, if it was one of them. -/
theorem countP_modify_finished (id : RequestId) (jobs : List (Job η)) {number : Nat} {job : Job η}
    (found : jobs[number]? = some job) :
    (jobs.modify number Job.finished).countP (awaits id) + (if awaits id job then 1 else 0) =
      jobs.countP (awaits id) := by
  induction jobs generalizing number with
  | nil => cases found
  | cons first jobs ih =>
    cases number with
    | zero =>
      cases found
      have gone : awaits id job.finished = false := rfl
      simp only [List.modify_zero_cons, List.countP_cons, gone]
      simp
    | succ number =>
      have there : jobs[number]? = some job := found
      have rest := ih there
      simp only [List.modify_succ_cons, List.countP_cons]
      omega

/-- The answer of a job has the id of the job, however it came out. -/
theorem answer_id (job : Job η) (outcome : Outcome) : (job.answer outcome).id = some job.id := by
  cases outcome <;> rfl

/-- What finishing a job answers is taken from those that are to be finished. A job that is finished already
answers nothing and is not among them. -/
theorem answered_finish (c : Connection η) (serves : String → Option η) (number : Nat)
    (outcome : Outcome) (id : RequestId) :
    answered id (c.due serves (.finish number outcome)) +
      (c.kept (.finish number outcome)).countP (awaits id) ≤ c.jobs.countP (awaits id) := by
  simp only [due, kept]
  cases pending : c.job? number with
  | none =>
    rw [modify_finished pending, Option.map_none, Option.toList_none, ite_self]
    exact Nat.le_of_eq (Nat.zero_add _)
  | some job =>
    obtain ⟨found, unfinished⟩ := job?_eq_some_iff.mp pending
    have balance := countP_modify_finished id c.jobs found
    have once : answered id (if c.isHeard then [job.answer outcome] else []) ≤
        if awaits id job then 1 else 0 := by
      unfold answered awaits
      rw [unfinished]
      cases c.isHeard with
      | true => simp [answer_id]
      | false => exact Nat.zero_le _
    show answered id (if c.isHeard then [job.answer outcome] else []) + _ ≤ _
    omega

/-- What a move answers, and what it leaves to be finished, was to be finished or is asked. It is the
balance of one move, for one id. -/
theorem answered_after (c : Connection η) (serves : String → Option η) (move : Move η)
    (id : RequestId) :
    answered id (c.due serves move) + ((c.kept move).countP (awaits id) +
        ((c.dispatched move).filterMap (jobOf serves)).countP (awaits id)) ≤
      c.jobs.countP (awaits id) +
        requested id ((c.dispatched move).filterMap Message.request?) := by
  have handled := answered_refusals serves id (c.dispatched move)
  have fewer (responses : List Response) :
      answered id (if c.isHeard then responses else []) ≤ answered id responses := by
    split
    · exact Nat.le_refl _
    · exact Nat.zero_le _
  by_cases finishes : ∃ number outcome, move = .finish number outcome
  · obtain ⟨number, outcome, rfl⟩ := finishes
    have finished := answered_finish c serves number outcome id
    have none : ((c.dispatched (.finish number outcome)).filterMap (jobOf serves)).countP
        (awaits id) = 0 := rfl
    omega
  · have other : c.kept move = c.jobs ∧ c.due serves move =
        if c.isHeard then (c.dispatched move).filterMap (refusalOf serves) else [] := by
      cases move with
      | finish number outcome => exact absurd ⟨number, outcome, rfl⟩ finishes
      | _ => exact ⟨rfl, rfl⟩
    have refused := fewer ((c.dispatched move).filterMap (refusalOf serves))
    rw [other.1, other.2]
    omega

/-- In a run, a move answers an id at most as often as it takes requests under it from those that are to be
answered. Once the connection is over nothing is to be answered, whatever jobs are left. -/
theorem unanswered_after (staffed : c.Staffed moves) (move : Move η) (id : RequestId) :
    answered id ((c.said move).filterMap Message.response?) + (c.after move).unanswered id ≤
      c.unanswered id +
        requested id (if c.isOver then [] else (c.dispatched move).filterMap Message.request?) := by
  rw [(said_after staffed move).responses]
  cases finished : c.isOver with
  | true =>
    have mute : c.isHeard = false := by
      unfold isHeard
      rw [finished]
      rfl
    have ended : (c.after move).isOver = true := isOver_after finished move
    simp only [due, mute, unanswered, ended, if_true, Bool.false_eq_true, if_false]
    exact Nat.zero_le _
  | false =>
    have fewer : (c.after move).unanswered id ≤ (c.kept move).countP (awaits id) +
        ((c.dispatched move).filterMap (jobOf (servant moves))).countP (awaits id) := by
      unfold unanswered
      split
      · exact Nat.zero_le _
      · refine Nat.le_of_eq ?_
        rw [jobs_after, staffed.handlers finished, List.countP_append]
    have waits : c.unanswered id = c.jobs.countP (awaits id) := by
      unfold unanswered
      rw [finished]
      rfl
    have balance := c.answered_after (servant moves) move id
    rw [waits, if_neg Bool.false_ne_true]
    omega

/-- A run answers an id at most as often as it is asked under it. The balance of each move adds up, by
induction on the moves. -/
theorem replies_le (staffed : c.Staffed moves) (later : List (Move η)) (id : RequestId) :
    answered id (c.replies later) + (c.run later).unanswered id ≤
      c.unanswered id + requested id (c.asks later) := by
  induction later generalizing c moves with
  | nil => exact Nat.le_of_eq (Nat.add_comm ..)
  | cons move later ih =>
    have first := unanswered_after staffed move id
    have rest := ih (staffed.after move)
    unfold replies asks
    simp only [answered, requested, List.countP_append, run_cons] at first rest ⊢
    omega

/-! ## The requests of a run -/

/-- How the requests of the server come out in a run. -/
structure Replies (moves : List (Move η)) : Prop where
  /-- Every move answers what it owes: at once the requests that it handles and that nobody serves, and
  the job that it finishes. Nothing is sent once the connection is over or the server reads no more. -/
  pays : ∀ before move later, moves = before ++ move :: later →
    Pays (new.run before : Connection η) (servant before) move
  /-- A request that is handled while somebody serves its method is a job of who served it last, for
  good. What finishes it first answers it, if the connection is there and the server reads, and
  nothing answers it again. -/
  serves : ∀ before move later first asked rest handler, moves = before ++ move :: later →
    let c : Connection η := new.run before
    c.isOver = false → c.dispatched move = first ++ .request asked :: rest →
    servant before asked.method = some handler →
    ∀ between last, later = between ++ last →
      let d := (c.after move).run between
      let number := c.jobs.length + (first.filterMap (jobOf (servant before))).length
      let job : Job η := ⟨asked.id, asked.method, asked.params, handler,
        between.any (Move.finishes number)⟩
      d.jobs[number]? = some job ∧ ∀ outcome,
        (d.said (.finish number outcome)).filterMap Message.response? =
          if d.isHeard && !job.isFinished then [job.answer outcome] else []
  /-- There is one job for each such request, and there are no others. -/
  jobs : ∀ before move later, moves = before ++ move :: later →
    let c : Connection η := new.run before
    c.isOver = false → (c.after move).jobs.length =
      c.jobs.length + ((c.dispatched move).filterMap (jobOf (servant before))).length
  /-- No id is answered more often than it was asked for. -/
  counts : ∀ id, answered id ((new : Connection η).replies moves) ≤
    requested id ((new : Connection η).asks moves)

/-- In every run, each request of the server is answered at most once, under its id, and by the handler
that served its method when it was handled. -/
theorem run_replies (moves : List (Move η)) : Replies moves := by
  have staffed (before : List (Move η)) : Staffed (new.run before : Connection η) before :=
    staffed_new.run before
  refine ⟨?_, ?_, ?_, fun id => ?_⟩
  · intro before move later _
    exact said_after (staffed before) move
  · rintro before move later first asked rest handler rfl c running handled served between last -
    dsimp only
    have serves := (staffed before).handlers running
    have became := jobs_asked handled ((congrFun serves asked.method).trans served)
    rw [serves] at became
    have job := jobs_run became between
    rw [Bool.false_or] at job
    refine ⟨job, fun outcome => ?_⟩
    have staff := (staffed (before ++ [move])).run between
    rw [run_append] at staff
    exact said_finish staff job outcome
  · rintro before move later rfl c running
    rw [jobs_after, List.length_append, length_kept, (staffed before).handlers running]
  · have balance := replies_le (staffed_new (η := η)) moves id
    have start : (new : Connection η).unanswered id = 0 := rfl
    omega

/-- Two requests under one id, between which the handler is replaced; they are finished in the other
order, and one of them twice. Nobody serves a third, and a fourth is finished after the end. -/
def contested : List (Move Nat) :=
  [.start, .handle "ask" 1, .arrive (.request (.make (.number 7) "ask" none)), .read,
    .handle "ask" 2, .arrive (.request (.make (.number 7) "ask" (some .null))),
    .arrive (.request (.make (.text "x") "other" none)),
    .arrive (.request (.make (.number 8) "ask" none)), .read, .finish 1 (.ok (.bool true)),
    .finish 0 (.error (.undecodable "ask")), .finish 1 (.ok .null), .close, .finish 2 (.ok .null)]

example : (new.run contested).jobs.map Job.handler = [1, 2, 2] := by decide

example : (new.replies contested).map (fun response =>
      (response.id, response.result, response.error.map ResponseError.code)) =
    [(some (.text "x"), none, some (-32601)), (some (.number 7), some (.bool true), none),
      (some (.number 7), none, some (-32602))] := by rfl

end Connection

end LanguageClient
