import LanguageClient.Connection
import LanguageClient.Protocol.Diagnostic
import LanguageClient.Protocol.Document
import LanguageClient.Protocol.Hover
import LanguageClient.Protocol.LogMessage
import LanguageClient.Protocol.Progress
import LanguageClient.Protocol.Registration
import LanguageClient.Protocol.Workspace
import LanguageClient.Rehearsal.Peer
import LanguageClient.Rehearsal.Schedule

/-!
# Rehearsing a connection

A script drives one connection and the server at its other end. Calls run in the background under
labels, feeds are read under labels, and requests of the server are answered as the script says.
-/

namespace LanguageClient

namespace Rehearsal

/-- A request of the server whose params have a known shape. -/
inductive ServerRequest where
  | register
  | configuration
  deriving DecidableEq, Repr

namespace ServerRequest

def method : ServerRequest → String
  | .register => registerMethod
  | .configuration => ConfigurationItem.method

/-- Whether params have the shape of the request. -/
def accepts : ServerRequest → Json → Bool
  | .register, params => (Registration.ofParams? params).isSome
  | .configuration, params => (ConfigurationItem.ofParams? params).isSome

/-- The result for a value of the script. -/
def result : ServerRequest → Json → Json
  | .register, _ => .null
  | .configuration, value => .arr [value]

end ServerRequest

/-- What a handler comes to. -/
inductive Reply where
  | result (value : Json)
  /-- The params; a text that says so where there are none. -/
  | echo
  | never
  | failure (error : ClientError)

/-- A handler that answers as the script says. -/
structure Handler where
  /-- The shape that it asks of the params. -/
  shape : Option ServerRequest
  /-- Whether it closes the connection before it answers. -/
  closesFirst : Bool
  reply : Reply

namespace Handler

/-- Whether the handler accepts the params of its job. -/
def accepts (handler : Handler) (params : Json) : Bool :=
  match handler.shape with
  | none => true
  | some shape => shape.accepts params

/-- What the handler comes to, if it does. -/
def outcome? (handler : Handler) (params : Option Json) : Option Outcome :=
  let shaped (value : Json) : Json :=
    match handler.shape with
    | none => value
    | some shape => shape.result value
  match handler.reply with
  | .result value => some (.ok (shaped value))
  | .echo => some (.ok (shaped (params.getD (.str "absent"))))
  | .never => none
  | .failure error => some (.error error)

end Handler

/-- A request of the client whose params and result have a known shape. -/
inductive TypedRequest where
  | hover
  | definition
  | shutdown
  deriving DecidableEq, Repr

namespace TypedRequest

def method : TypedRequest → String
  | .hover => "textDocument/hover"
  | .definition => "textDocument/definition"
  | .shutdown => "shutdown"

/-- The params as they are sent. -/
def params? : TypedRequest → Json → Option Json
  | .hover, value => (PositionParams.ofJson? false value).map PositionParams.toJson
  | .definition, value => (PositionParams.ofJson? true value).map PositionParams.toJson
  | .shutdown, value => if value.isNull then some .null else none

/-- The result as it was understood. -/
def result? : TypedRequest → Json → Option Json
  | .hover, value => (Json.nullable? Hover.ofJson? value).map (Json.ofOption Hover.toJson)
  | .definition, value =>
    (Json.nullable? Definitions.ofJson? value).map (Json.ofOption Definitions.toJson)
  | .shutdown, value => if value.isNull then some .null else none

/-- The outcome as it was understood. -/
def understood (request : TypedRequest) : Outcome → Outcome
  | .error failure => .error failure
  | .ok value =>
    match request.result? value with
    | some value => .ok value
    | none => .error (.undecodable request.method)

end TypedRequest

/-- A notification whose params have a known shape. -/
inductive TypedNotification where
  | log
  | diagnostics
  | progress
  deriving DecidableEq, Repr

namespace TypedNotification

def method : TypedNotification → String
  | .log => LogMessage.method
  | .diagnostics => PublishedDiagnostics.method
  | .progress => ProgressParams.method

/-- The params as they were understood. -/
def params? : TypedNotification → Json → Option Json
  | .log, value => (LogMessage.ofJson? value).map LogMessage.toJson
  | .diagnostics, value => (PublishedDiagnostics.ofJson? value).map PublishedDiagnostics.toJson
  | .progress, value => (ProgressParams.ofJson? value).map ProgressParams.toJson

end TypedNotification

/-- What a call in the background is for. -/
inductive Wish where
  | request (method : String) (params : Json)
  | typed (request : TypedRequest) (params : Json)
  | closing

/-- How far a call in the background is. -/
inductive WishState where
  | unstarted
  | waiting (call : Nat)
  | watching
  | over

/-- A call in the background. -/
structure Background where
  label : String
  wish : Wish
  state : WishState
  isDropped : Bool

/-- What a call in the background came to. -/
inductive Ending where
  | outcome (outcome : Outcome)
  | closed

/-- What can be run. -/
inductive ConversationTask where
  | reader
  | peer
  | job (number : Nat)
  | background (number : Nat)
  deriving DecidableEq

/-- A feed that the script reads. -/
structure Listening where
  label : String
  feed : Nat
  shape : Option TypedNotification

/-- A connection, the server at its other end, and what the script does with them. -/
structure Conversation where
  connection : Connection Handler
  peer : Peer
  backgrounds : List Background
  listenings : List Listening
  finished : List (String × Ending)
  ready : List ConversationTask

namespace Conversation

def start (script : Script) : Conversation :=
  { connection := .new, peer := .new script, backgrounds := [], listenings := [], finished := [],
    ready := [.peer] }

/-- Those who wait for a signal. -/
def waiters (c : Conversation) : Signal → List ConversationTask
  | .incoming => [.reader]
  | .outgoing => [.peer]
  | .feed _ => []
  | .job number => [.job number]
  | .call number => backgroundsIn fun
    | .waiting call => call = number
    | _ => false
  | .closed => backgroundsIn fun
    | .watching => true
    | _ => false
where
  backgroundsIn (wanted : WishState → Bool) : List ConversationTask :=
    (c.backgrounds.zipIdx.filter fun entry => wanted entry.1.state).map
      fun entry => .background entry.2

/-- Wakes those who wait for what happened. -/
def notice (c : Conversation) : Conversation × List ConversationTask :=
  let woken := c.connection.signals.flatMap c.waiters
  ({ c with connection := { c.connection with signals := [] } }, woken)

/-- Changes the connection and wakes those who wait for it. -/
def upon (c : Conversation) (connection : Connection Handler) : Conversation :=
  let (c, woken) := { c with connection }.notice
  { c with ready := wakeAll c.ready woken }

/-- A handler runs. -/
def runJob (c : Conversation) (number : Nat) : Conversation :=
  match c.connection.job? number with
  | none => c
  | some job =>
    let handler := job.handler
    if handler.accepts (job.params.getD .null) then
      let connection := if handler.closesFirst then c.connection.close else c.connection
      match handler.outcome? job.params with
      | none => { c with connection }
      | some outcome => { c with connection := connection.finish number outcome }
    else
      { c with connection := c.connection.finish number (.error (.undecodable job.method)) }

def mark (c : Conversation) (number : Nat) (state : WishState) : Conversation :=
  { c with backgrounds := c.backgrounds.modify number fun b => { b with state } }

def conclude (c : Conversation) (number : Nat) (label : String) (ending : Ending) : Conversation :=
  { c.mark number .over with finished := c.finished ++ [(label, ending)] }

/-- Looks whether a call in the background has its outcome. -/
def await (c : Conversation) (number : Nat) (background : Background) (call : Nat) :
    Conversation :=
  match c.connection.outcome? call with
  | none => c.mark number (.waiting call)
  | some outcome =>
    let outcome := match background.wish with
      | .typed request _ => request.understood outcome
      | _ => outcome
    c.conclude number background.label (.outcome outcome)

/-- Looks whether the connection is over. -/
def watch (c : Conversation) (number : Nat) (label : String) : Conversation :=
  if c.connection.isOver then c.conclude number label .closed else c.mark number .watching

/-- Sends the request of a call in the background. -/
def ask (c : Conversation) (number : Nat) (background : Background) (method : String)
    (params : Json) : Conversation :=
  let (call, connection) := c.connection.request method params
  { c with connection }.await number background call

/-- A call in the background runs. -/
def runBackground (c : Conversation) (number : Nat) : Conversation :=
  match c.backgrounds[number]? with
  | none => c
  | some background =>
    if background.isDropped then
      match background.state with
      | .waiting call => { c with connection := c.connection.abandon call }.mark number .over
      | _ => c.mark number .over
    else
      match background.state, background.wish with
      | .unstarted, .request method params => c.ask number background method params
      | .unstarted, .typed request params => c.ask number background request.method params
      | .unstarted, .closing => c.watch number background.label
      | .waiting call, _ => c.await number background call
      | .watching, _ => c.watch number background.label
      | .over, _ => c

/-- A task runs; the result has the tasks that it woke. -/
def run : ConversationTask → Conversation → Conversation × List ConversationTask
  | .reader, c => { c with connection := c.connection.read }.notice
  | .peer, c =>
    let (peer, connection) := c.peer.poll c.connection
    { c with peer, connection }.notice
  | .job number, c => (c.runJob number).notice
  | .background number, c => (c.runBackground number).notice

/-- Everything runs until nothing can. -/
def settle (c : Conversation) : Conversation :=
  Rehearsal.settle run patience c.ready { c with ready := [] }

/-! ## What the script does -/

def spawn (c : Conversation) (label : String) (wish : Wish) : Conversation :=
  { c with
    backgrounds := c.backgrounds ++ [⟨label, wish, .unstarted, false⟩]
    ready := wake c.ready (.background c.backgrounds.length) }

/-- Drops the last call in the background with a label. -/
def abandon (c : Conversation) (label : String) : Conversation :=
  let numbers := (c.backgrounds.zipIdx.filter fun entry => entry.1.label = label).map Prod.snd
  match numbers.getLast? with
  | none => c
  | some number =>
    { c with
      backgrounds := c.backgrounds.modify number fun b => { b with isDropped := true }
      ready := wake c.ready (.background number) }

/-- Stops to listen under a label. -/
def dropFeed (c : Conversation) (label : String) : Conversation :=
  let (gone, kept) := c.listenings.partition fun l => l.label = label
  { c.upon (gone.foldl (fun connection l => connection.dropFeed l.feed) c.connection) with
    listenings := kept }

def listen (c : Conversation) (label method : String) (shape : Option TypedNotification) :
    Conversation :=
  let c := c.dropFeed label
  let (feed, connection) := c.connection.observe method
  { c.upon connection with listenings := c.listenings ++ [⟨label, feed, shape⟩] }

def notify (c : Conversation) (method : String) (params : Json) :
    Except ClientError Unit × Conversation :=
  match c.connection.notify method params with
  | .ok connection => (.ok (), c.upon connection)
  | .error failure => (.error failure, c)

/-- The server sends messages. -/
def push (c : Conversation) (messages : List Message) : Conversation :=
  c.upon (messages.foldl Connection.arrive c.connection)

/-! ## What is told -/

/-- What was heard under a label, and whether that was all there will be. -/
structure Heard where
  label : String
  shape : Option TypedNotification
  items : List Json
  hasEnded : Bool

/-- Takes what was heard under a label. -/
def hear (c : Conversation) (listening : Listening) : Heard × Conversation :=
  let (items, connection) := match listening.shape with
    | none => c.connection.drain listening.feed
    | some shape => c.connection.drainAs shape.method shape.params? listening.feed
  let ended := connection.hasEnded listening.feed
  (⟨listening.label, listening.shape, items, ended⟩,
   { c with
     connection
     listenings := if ended then c.listenings.filter fun l => l.label ≠ listening.label
       else c.listenings })

/-- Takes what was heard under all labels. -/
def hearAll (c : Conversation) : List Heard × Conversation :=
  c.listenings.foldl (fun (heard, c) listening =>
    let (found, c) := c.hear listening
    (heard ++ [found], c)) ([], c)

/-- What is told of a step. -/
structure Report where
  isClosed : Bool
  finished : List (String × Ending)
  heard : List Heard
  server : Option Peer.Report
  log : List LogEvent

/-- What is new since the last report. -/
def report (c : Conversation) (heard : List Heard) : Report × Conversation :=
  let (server, peer) := c.peer.report c.connection
  (⟨c.connection.isClosed, c.finished, heard, server, c.connection.log⟩,
   { c with peer, finished := [], connection := { c.connection with log := [] } })

end Conversation

end Rehearsal

end LanguageClient
