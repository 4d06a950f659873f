import LanguageClient.Log
import LanguageClient.Transport.Pipe

/-!
# Connections

One end of a conversation with a server. A request gets a fresh id and is pending until a response
with that id arrives or the connection closes. A notification goes to every feed of its method, in
the order of arrival. A request of the server becomes a job of the handler that serves its method at
that moment; where none does, the answer is an error at once.

Closing happens once: it fails what is pending, ends every feed, forgets the handlers and lets go of
both pipes. After that nothing is sent.

The connection does not run handlers. It keeps their jobs until the owner has finished them, so the
type of handlers is a parameter. Two outboxes hold what happened since the owner last looked: the
log, and the signals for those who wait.
-/

namespace LanguageClient

/-- How a call came out. -/
abbrev Outcome : Type := Except ClientError Json

/-- A request of this side. -/
structure Call where
  id : Int64
  method : String
  /-- Nothing while the call is pending. -/
  outcome : Option Outcome
  /-- Whether nobody waits for the outcome any more. -/
  isAbandoned : Bool

namespace Call

/-- The call with an outcome, if it has none and somebody waits for one. -/
def settled (call : Call) (outcome : Outcome) : Call :=
  if call.isAbandoned ∨ call.outcome.isSome then call else { call with outcome := some outcome }

def abandoned (call : Call) : Call := { call with isAbandoned := true }

end Call

/-- The params of the notifications of one method, in the order of arrival. -/
structure Feed where
  method : String
  /-- Whether notifications are still added. -/
  isAttached : Bool
  waiting : List Json
  deriving DecidableEq

namespace Feed

/-- Whether a feed has nothing to give any more. -/
def isEnded (feed : Feed) : Bool := !feed.isAttached && feed.waiting.isEmpty

def emptied (feed : Feed) : Feed := { feed with waiting := [] }

def tail (feed : Feed) : Feed := { feed with waiting := feed.waiting.drop 1 }

def detached (feed : Feed) : Feed := { feed with isAttached := false }

/-- Whether a notification of the method is added. -/
def accepts (feed : Feed) (method : String) : Bool := feed.isAttached && feed.method = method

/-- The feed after a notification, which it takes only if it is of its method. -/
def offered (feed : Feed) (method : String) (params : Json) : Feed :=
  if feed.accepts method then { feed with waiting := feed.waiting ++ [params] } else feed

end Feed

/-- A request of the server that a handler is to answer. -/
structure Job (η : Type) where
  id : RequestId
  method : String
  params : Option Json
  handler : η
  isFinished : Bool

/-- What a waiting party is told. -/
inductive Signal where
  /-- There is something to read, or the peer is gone. -/
  | incoming
  /-- There is something for the peer, or this side is gone. -/
  | outgoing
  | call (number : Nat)
  | feed (number : Nat)
  | job (number : Nat)
  | closed
  deriving DecidableEq, Repr

/-- The job when it was answered. -/
def Job.finished {η : Type} (job : Job η) : Job η := { job with isFinished := true }

/-- Whether incoming messages are dispatched. -/
inductive ReaderState where
  | idle
  | running
  | stopped
  deriving DecidableEq, Repr

/-- One end of a conversation, with handlers of the given type. -/
structure Connection (η : Type) where
  nextId : Int64
  isClosed : Bool
  /-- Whether all who could use the connection are gone. -/
  isReleased : Bool
  reader : ReaderState
  incoming : Pipe
  outgoing : Pipe
  /-- The ids that are waited for, and the calls they belong to. -/
  pending : List (RequestId × Nat)
  calls : List Call
  feeds : List Feed
  handlers : List (String × η)
  jobs : List (Job η)
  /-- How often the hook of the transport ran. -/
  hookRuns : Nat
  log : List LogEvent
  signals : List Signal

namespace Connection

variable {η : Type}

def new : Connection η where
  nextId := 1
  isClosed := false
  isReleased := false
  reader := .idle
  incoming := .new
  outgoing := .new
  pending := []
  calls := []
  feeds := []
  handlers := []
  jobs := []
  hookRuns := 0
  log := []
  signals := []

/-- Tells the waiting parties. -/
def signal (connection : Connection η) (signals : List Signal) : Connection η :=
  { connection with signals := connection.signals ++ signals }

def record (connection : Connection η) (event : LogEvent) : Connection η :=
  { connection with log := connection.log ++ [event] }

def note (connection : Connection η) (level : LogLevel) (message : String)
    (fields : List (String × String)) : Connection η :=
  connection.record (LogPart.connection.event level message fields)

/-- The connection with empty outboxes. -/
def withoutNews (connection : Connection η) : Connection η :=
  { connection with log := [], signals := [] }

/-- Starts to dispatch incoming messages; once only. -/
def start (connection : Connection η) : Connection η :=
  match connection.isClosed, connection.reader with
  | false, .idle => { connection with reader := .running }.signal [.incoming]
  | _, _ => connection

/-! ## Sending -/

def send (connection : Connection η) (message : Message) :
    Except ClientError (Connection η) :=
  if connection.outgoing.hasWriter then
    match connection.outgoing.send message with
    | .ok pipe => .ok ({ connection with outgoing := pipe }.signal [.outgoing])
    | .error failure => .error (.transport failure)
  else .error .connectionClosed

def notify (connection : Connection η) (method : String) (params : Json) :
    Except ClientError (Connection η) :=
  connection.send (.notification (Notification.make method (some params)))

/-- Sends a response if that is still possible. -/
def reply (connection : Connection η) (response : Response) : Connection η :=
  match connection.send (.response response) with
  | .ok connection => connection
  | .error _ => connection

/-- Gives a call its outcome, if somebody still waits for one. -/
def settle (connection : Connection η) (number : Nat) (outcome : Outcome) : Connection η :=
  { connection with calls := connection.calls.modify number (·.settled outcome) }.signal
    [.call number]

/-- The call that waits for a response with the id. -/
def waitingFor? (connection : Connection η) (id : RequestId) : Option Nat :=
  connection.pending.lookup id

/-- Nobody waits for a response with the id. -/
def forget (connection : Connection η) (id : RequestId) : Connection η :=
  { connection with pending := connection.pending.filter fun entry => entry.1 ≠ id }

/-- Adds a call and an id for it, whatever the id stood for before. -/
def enroll (connection : Connection η) (method : String) (outcome : Option Outcome) :
    Nat × Connection η :=
  (connection.calls.length,
   { connection with
     nextId := connection.nextId + 1
     calls := connection.calls ++ [⟨connection.nextId, method, outcome, false⟩] })

/-- Sends a request and waits for its response; the number is that of the call. -/
def request (connection : Connection η) (method : String) (params : Json) :
    Nat × Connection η :=
  let id := RequestId.number connection.nextId
  if connection.isClosed then connection.enroll method (some (.error .connectionClosed))
  else
    let displaced := connection.waitingFor? id
    let (number, connection) := connection.enroll method none
    let connection := match displaced with
      | some older => (connection.forget id).settle older (.error .connectionClosed)
      | none => connection
    let connection := { connection with pending := connection.pending ++ [(id, number)] }
    match connection.send (.request (Request.make id method (some params))) with
    | .ok connection => (number, connection)
    | .error failure => (number, (connection.forget id).settle number (.error failure))

def outcome? (connection : Connection η) (number : Nat) : Option Outcome :=
  connection.calls[number]? >>= Call.outcome

/-- Waits no longer for the outcome of a call. -/
def abandon (connection : Connection η) (number : Nat) : Connection η :=
  { connection with calls := connection.calls.modify number Call.abandoned }

/-! ## Listening -/

/-- A new feed of a method; on a closed connection it has ended. -/
def observe (connection : Connection η) (method : String) : Nat × Connection η :=
  (connection.feeds.length,
   { connection with
     feeds := connection.feeds ++ [⟨method, !connection.isClosed, []⟩] })

def waiting (connection : Connection η) (number : Nat) : List Json :=
  ((connection.feeds[number]?).map Feed.waiting).getD []

def drain (connection : Connection η) (number : Nat) : List Json × Connection η :=
  (connection.waiting number,
   { connection with feeds := connection.feeds.modify number Feed.emptied })

def next (connection : Connection η) (number : Nat) : Option Json × Connection η :=
  ((connection.waiting number).head?,
   { connection with feeds := connection.feeds.modify number Feed.tail })

/-- Params that do not have the shape of their method are dropped, with a word in the log. -/
def decoded {α : Type} (connection : Connection η) (method : String) (decode : Json → Option α)
    (params : Json) : Option α × Connection η :=
  match decode params with
  | some value => (some value, connection)
  | none =>
    (none, connection.note .warn "dropping malformed notification" [("method", method)])

/-- Takes all that waits in a feed, as far as it has the shape of its method. -/
def drainAs {α : Type} (connection : Connection η) (method : String) (decode : Json → Option α)
    (number : Nat) : List α × Connection η :=
  let (params, connection) := connection.drain number
  params.foldl (fun (values, connection) value =>
    let (found, connection) := connection.decoded method decode value
    (values ++ found.toList, connection)) ([], connection)

def hasEnded (connection : Connection η) (number : Nat) : Bool :=
  match connection.feeds[number]? with
  | none => true
  | some feed => feed.isEnded

def dropFeed (connection : Connection η) (number : Nat) : Connection η :=
  { connection with feeds := connection.feeds.modify number fun feed => feed.detached.emptied }

/-- Serves a method by a handler, in place of the one before; not on a closed connection. -/
def handle (connection : Connection η) (method : String) (handler : η) : Connection η :=
  if connection.isClosed then connection
  else
    { connection with
      handlers := connection.handlers.filter (fun entry => entry.1 ≠ method) ++
        [(method, handler)] }

/-! ## Dispatching -/

/-- The numbers of the feeds with a property. -/
def feedsWith (connection : Connection η) (property : Feed → Bool) : List Nat :=
  (connection.feeds.zipIdx.filter fun entry => property entry.1).map Prod.snd

/-- A notification goes to the feeds of its method. -/
def publish (connection : Connection η) (notification : Notification) : Connection η :=
  let params := notification.params.getD .null
  let reached := connection.feedsWith (·.accepts notification.method)
  { connection with
    feeds := connection.feeds.map fun (feed : Feed) =>
      feed.offered notification.method params }.signal
    (reached.map .feed)

/-- What a response says of the call of a method. -/
def outcomeOf (response : Response) (method : String) : Outcome :=
  match response.error with
  | some error => .error (.server method error.code error.message)
  | none => .ok (response.result.getD .null)

/-- A response is for the call that waits for its id. -/
def complete (connection : Connection η) (response : Response) : Connection η :=
  match response.id with
  | none => connection.note .warn "dropping response without id" []
  | some id =>
    match connection.waitingFor? id with
    | none =>
      connection.note .warn "dropping response for unknown request" [("id", id.display)]
    | some number =>
      let method := ((connection.calls[number]?).map Call.method).getD ""
      (connection.forget id).settle number (outcomeOf response method)

/-- A request becomes a job of the handler of its method. -/
def answer (connection : Connection η) (request : Request) : Connection η :=
  match connection.handlers.lookup request.method with
  | none =>
    (connection.note .warn "no handler for server request" [("method", request.method)]).reply
      (Response.failure request.id
        (ClientError.unhandledServerRequest request.method).toResponseError)
  | some handler =>
    let job : Job η := ⟨request.id, request.method, request.params, handler, false⟩
    { connection with jobs := connection.jobs ++ [job] }.signal [.job connection.jobs.length]

/-- Handles a message of the server. -/
def dispatch (connection : Connection η) : Message → Connection η
  | .response response => connection.complete response
  | .notification notification => connection.publish notification
  | .request request => connection.answer request

/-- The job of that number, if it is not finished. -/
def job? (connection : Connection η) (number : Nat) : Option (Job η) :=
  match connection.jobs[number]? with
  | some job => if job.isFinished then none else some job
  | none => none

/-- A handler has come to its end: the server is told. -/
def finish (connection : Connection η) (number : Nat) (outcome : Outcome) : Connection η :=
  match connection.job? number with
  | none => connection
  | some job =>
    let connection := { connection with jobs := connection.jobs.modify number Job.finished }
    match outcome with
    | .ok result => connection.reply (Response.success job.id result)
    | .error failure =>
      (connection.note .warn "server request handler failed"
        [("error", failure.message), ("method", job.method)]).reply
        (Response.failure job.id failure.toResponseError)

/-! ## Closing -/

/-- Ends every feed; what waits can still be taken. -/
def endFeeds (connection : Connection η) : Connection η :=
  { connection with feeds := connection.feeds.map Feed.detached }.signal
    ((connection.feedsWith Feed.isAttached).map .feed)

/-- Fails every pending call. -/
def failPending (connection : Connection η) : Connection η :=
  connection.pending.foldl
    (fun connection entry => connection.settle entry.2 (.error .connectionClosed))
    { connection with pending := [] }

/-- Lets go of the pipes and runs the hook of the transport. -/
def letGo (connection : Connection η) : Connection η :=
  { connection with
    handlers := []
    outgoing := connection.outgoing.dropWriter
    incoming := connection.incoming.dropReader
    reader := .stopped
    hookRuns := connection.hookRuns + 1 }.signal [.outgoing]

/-- Closes the connection, once. -/
def close (connection : Connection η) : Connection η :=
  if connection.isClosed ∨ connection.isReleased then connection
  else
    let connection := { connection with isClosed := true }.signal [.closed]
    (connection.failPending.endFeeds.letGo).note .info "connection closed" []

/-- The connection when nobody can use it any more: as when it is closed, but without a word. -/
def release (connection : Connection η) : Connection η :=
  if connection.isClosed ∨ connection.isReleased then connection
  else { connection with isReleased := true, pending := [] }.endFeeds.letGo.signal [.closed]

/-- Whether there is no connection any more. -/
def isOver (connection : Connection η) : Bool := connection.isClosed || connection.isReleased

/-- Dispatches all that has arrived, and closes the connection if the server is gone. -/
def read (connection : Connection η) : Connection η :=
  match connection.reader with
  | .running =>
    let connection := connection.incoming.waiting.foldl dispatch
      { connection with incoming := { connection.incoming with waiting := [] } }
    if connection.incoming.hasWriter then connection else connection.close
  | _ => connection

/-! ## The other end -/

/-- Tells the one who dispatches incoming messages, if anybody does. -/
def tellReader (connection : Connection η) : Connection η :=
  if connection.reader = .running then connection.signal [.incoming] else connection

/-- The server sends a message; without a reader it is lost, and one who hung up sends none. -/
def arrive (connection : Connection η) (message : Message) : Connection η :=
  if connection.incoming.hasWriter then
    match connection.incoming.send message with
    | .ok pipe => { connection with incoming := pipe }.tellReader
    | .error _ => connection
  else connection

/-- The server takes all that was sent to it. -/
def delivered (connection : Connection η) : List Message × Connection η :=
  (connection.outgoing.waiting,
   { connection with outgoing := { connection.outgoing with waiting := [] } })

def hangUp (connection : Connection η) : Connection η :=
  { connection with incoming := connection.incoming.dropWriter }.tellReader

def stopReading (connection : Connection η) : Connection η :=
  { connection with outgoing := connection.outgoing.dropReader }

end Connection

end LanguageClient
