import LanguageClient.Client.Folders
import LanguageClient.Session

/-!
# The world of a client

The whole state: the host, the sessions, what those who use the client are waiting for, and the
tasks that go on in the background. Nothing here runs by itself. A task makes a step when it is
polled, and may be polled at any time; it stays where it is if it cannot go on.

A session is known by the number of its server, an opening of a root's session, a visit and a
request by its place in its list.
-/

namespace LanguageClient

/-- Work that goes on in the background. -/
inductive Task where
  /-- Dispatches what the server sends. -/
  | reader (session : Nat)
  /-- Answers a request of the server. -/
  | job (session number : Nat)
  /-- Passes log messages on. -/
  | log (session : Nat)
  | diagnostics (session : Nat)
  | progress (session : Nat)
  /-- Disposes the session when its connection closes. -/
  | watcher (session : Nat)
  | opening (number : Nat)
  | reconciler
  | register
  | visit (number : Nat)
  | request (number : Nat)
  deriving DecidableEq, Repr

/-- Who is to look again. -/
inductive Wake where
  | task (task : Task)
  /-- The server of a session has something to read, or has lost the client. -/
  | server (session : Nat)
  deriving DecidableEq, Repr

/-- How far the opening of a root's session is, for those who may cancel it. -/
inductive Startup where
  | connecting
  | attached (session : Nat)
  | cancelled
  deriving DecidableEq, Repr

/-- How far the opening of a session is, for the one who opens it. -/
inductive OpeningStage where
  | unstarted
  | connecting
  /-- The server was greeted by this call. -/
  | greeting (session call : Nat)
  | finished (session : Option Nat)
  deriving DecidableEq, Repr

/-- The opening of a root's session. -/
structure Opening where
  root : Url
  startup : Startup
  stage : OpeningStage
  /-- The tasks that wait for it, in the order in which they came. -/
  watchers : List Task
  deriving DecidableEq, Repr

/-- A root that is tracked, and the opening of its session. -/
structure RootEntry where
  root : Url
  opening : Nat
  deriving DecidableEq, Repr

inductive VisitStage where
  | unstarted
  /-- It waits for the session of a tracked root. -/
  | awaiting (opening : Nat)
  /-- It opens a session of its own. -/
  | connecting
  | greeting (session call : Nat)
  /-- The visitor has the connection. -/
  | running (session : Nat) (loan : Option Loan)
  | over
  deriving DecidableEq

/-- A visit: somebody uses a connection that serves a root, for a time. -/
structure Visit where
  label : String
  root : Url
  stage : VisitStage
  /-- What the visitor came to, once it is done. -/
  verdict : Option Outcome
  isDropped : Bool

def Visit.decided (visit : Visit) (outcome : Outcome) : Visit :=
  { visit with verdict := some outcome }

def Visit.dropped (visit : Visit) : Visit := { visit with isDropped := true }

/-- What a request in the background is for. -/
inductive Purpose where
  | plain (method : String) (params : Json)
  /-- The host asks a provider. -/
  | question (feature : Feature) (question : Question)

inductive RequestStage where
  | unstarted
  | waiting (call : Nat)
  | over
  deriving DecidableEq, Repr

structure PendingRequest where
  label : String
  session : Nat
  purpose : Purpose
  stage : RequestStage
  isDropped : Bool

def PendingRequest.dropped (request : PendingRequest) : PendingRequest :=
  { request with isDropped := true }

/-- How far the client is. -/
inductive Phase where
  | absent
  | starting
  | connecting
  | greeting (session call : Nat)
  | joining (openings : List Nat)
  | running
  | over
  deriving DecidableEq, Repr

/-- Changes of the host's roots that were not looked at yet. -/
structure Changes where
  waiting : Nat
  hasEnded : Bool
  deriving DecidableEq, Repr

/-- How far the following of the host's roots is. -/
inductive Following where
  | absent
  /-- All roots are to be announced. -/
  | fresh
  | ongoing
  | over
  deriving DecidableEq, Repr

/-- How servers are reached. -/
structure Connector where
  stance : Stance
  attempts : Nat
  waiting : List Task
  deriving DecidableEq, Repr

/-- What something in the background came to. -/
inductive Finding where
  | registered (multiRoot : Bool)
  | value (value : Json)
  | result (value : Json)
  | answer (answer : Answer)
  | failure (error : ClientError)

structure World where
  options : ClientOptions
  host : Host
  connector : Connector
  sessions : List Session
  phase : Phase
  label : String
  isDropped : Bool
  changes : Changes
  following : Following
  /-- The roots of the host when they were last looked at. -/
  before : List Url
  /-- The session that serves all roots. -/
  shared : Option Nat
  folders : Folders
  /-- The roots that have sessions of their own. -/
  entries : List RootEntry
  openings : List Opening
  visits : List Visit
  requests : List PendingRequest
  finished : List (String × Finding)
  log : List LogEvent
  woken : List Wake

namespace World

/-- A world without a client. -/
def start (options : ClientOptions) : World where
  options := options
  host := .new
  connector := ⟨.willing, 0, []⟩
  sessions := []
  phase := .absent
  label := ""
  isDropped := false
  changes := ⟨0, false⟩
  following := .absent
  before := []
  shared := none
  folders := .empty
  entries := []
  openings := []
  visits := []
  requests := []
  finished := []
  log := []
  woken := []

def wake (w : World) (wakes : List Wake) : World := { w with woken := w.woken ++ wakes }

def wakeTasks (w : World) (tasks : List Task) : World := w.wake (tasks.map .task)

/-- Writes to the log for the client itself. -/
def note (w : World) (level : LogLevel) (message : String) (fields : List (String × String)) :
    World :=
  { w with log := w.log ++ [LogPart.client.event level message fields] }

/-- Something in the background came to an end. -/
def conclude (w : World) (label : String) (finding : Finding) : World :=
  { w with finished := w.finished ++ [(label, finding)] }

/-- Whether one session serves all roots. -/
def isMultiRoot (w : World) : Bool := w.options.config.isMultiRoot

def roots (w : World) : List Url := w.host.roots

/-! ## Who has what -/

def isGoingOn (opening : Opening) : Bool :=
  match opening.stage with
  | .finished _ => false
  | _ => true

def isUnderway (visit : Visit) : Bool := visit.stage ≠ .over

/-- Whether the tracked roots are still there: someone who opens a session, or the client. -/
def keepsEntries (w : World) : Bool :=
  (match w.phase with
   | .joining _ | .running => true
   | _ => false) || w.openings.any isGoingOn

/-- The session of the root's opening. -/
def sessionOf? (w : World) (number : Nat) : Option Nat :=
  match (w.openings[number]?).map Opening.startup with
  | some (.attached session) => some session
  | _ => none

/-- Whether the client has a session. -/
def tracks (w : World) (session : Nat) : Bool :=
  w.shared = some session ||
    w.entries.any fun entry => w.sessionOf? entry.opening = some session

def openingHolds (session : Nat) (opening : Opening) : Bool :=
  match opening.stage with
  | .greeting found _ => found = session
  | _ => false

def visitHolds (w : World) (session : Nat) (visit : Visit) : Bool :=
  match visit.stage with
  | .greeting found _ => found = session
  | .running found _ => found = session
  | .awaiting opening =>
    ((w.openings[opening]?).map Opening.stage) = some (.finished (some session))
  | _ => false

/-- Whether anybody has a session. -/
def holds (w : World) (session : Nat) : Bool :=
  (w.tracks session && (w.shared = some session || w.keepsEntries)) ||
    w.openings.any (openingHolds session) || w.visits.any (w.visitHolds session)

/-- Whether the client can be ended: it runs and nobody visits. -/
def canEnd (w : World) : Bool := w.phase = .running && !w.visits.any isUnderway

/-- Whom the host meets when it ends the client from inside a callback about a session. -/
def reachOf (w : World) (session : Nat) : Reach :=
  if w.canEnd then if w.tracks session then .session else .others else .nobody

/-! ## Signals -/

/-- The tasks that wait for the outcome of a call. -/
def callWaiters (w : World) (session call : Nat) : List Task :=
  let opened := (w.openings.filter fun o => o.stage = .greeting session call).flatMap
    Opening.watchers
  let registering := if w.phase = .greeting session call then [Task.register] else []
  let visits := (w.visits.zipIdx.filter fun entry =>
    entry.1.stage = .greeting session call).map fun entry => Task.visit entry.2
  let requests := (w.requests.zipIdx.filter fun entry =>
    entry.1.session = session ∧ entry.1.stage = .waiting call).map fun entry =>
      Task.request entry.2
  opened ++ registering ++ visits ++ requests

/-- The task of a feed of a session. -/
def feedTask (session feed : Nat) : Task :=
  if feed = Session.logFeed then .log session
  else if feed = Session.diagnosticsFeed then .diagnostics session
  else .progress session

/-- Who waits for a signal of a session's connection. -/
def waiters (w : World) (session : Nat) : Signal → List Wake
  | .incoming => [.task (.reader session)]
  | .outgoing => [.server session]
  | .call number => (w.callWaiters session number).map .task
  | .feed number => [.task (feedTask session number)]
  | .job number => [.task (.job session number)]
  | .closed => [.task (.watcher session)]

/-- Puts a session back, takes its log and wakes those who wait for its signals. -/
def put (w : World) (number : Nat) (session : Session) : World :=
  let news := session.connection
  { w with
    sessions := w.sessions.set number { session with connection := news.withoutNews }
    log := w.log ++ news.log }.wake (news.signals.flatMap (w.waiters number))

/-- Carries an operation of a session out. -/
def onSession {α : Type} (w : World) (number : Nat) (default : α) (run : Hosted → α × Hosted) :
    α × Bool × World :=
  match w.sessions[number]? with
  | none => (default, false, w)
  | some session =>
    let (result, h) := run ⟨session, number, w.host, w.reachOf number, false⟩
    (result, h.hasEnded, { w with host := h.host }.put number h.session)

def onConnection (w : World) (number : Nat)
    (change : Connection SessionHandler → Connection SessionHandler) : World :=
  match w.sessions[number]? with
  | none => w
  | some session => w.put number { session with connection := change session.connection }

def isDisposed (w : World) (number : Nat) : Bool :=
  ((w.sessions[number]?).map Session.isDisposed).getD true

/-! ## Ending the client -/

/-- An opening is now this far, for those who may cancel it. -/
def setStartup (w : World) (number : Nat) (startup : Startup) : World :=
  { w with openings := w.openings.modify number fun o => { o with startup } }

/-- Tears a session down; the truth value tells whether the host ended the client meanwhile. -/
def tearDown (w : World) (number : Nat) : Bool × World :=
  (w.onSession number () fun h => ((), h.dispose)).2

/-- Cancels an opening: its session is disposed, now or as soon as there is one. -/
def revoke (w : World) (number : Nat) : Bool × World :=
  let session := w.sessionOf? number
  let w := w.setStartup number .cancelled
  match session with
  | some session => w.tearDown session
  | none => (false, w)

/-- Ends the client: nobody follows the roots any more, and every session it has is disposed. -/
def endClient (w : World) : World :=
  let entries := w.entries
  let shared := w.shared
  let w := { w with phase := .over, following := .over, entries := [], shared := none }
  let w := match shared with
    | some session => (w.tearDown session).2
    | none => w
  (entries.foldl (fun w entry => (w.revoke entry.opening).2) w).note .info
    "language client shut down" []

/-- If the host has ended the client, the rest of the client ends as well. -/
def endIf : Bool × World → World
  | (true, w) => w.endClient
  | (false, w) => w

/-- Carries an operation of a session out, and what it does to the client. -/
def within {α : Type} (w : World) (number : Nat) (default : α) (run : Hosted → α × Hosted) :
    α × World :=
  let (result, after) := w.onSession number default run
  (result, endIf after)

/-- Carries an operation of a session out that has no result. -/
def during (w : World) (number : Nat) (run : Hosted → Hosted) : World :=
  (w.within number () fun h => ((), run h)).2

def dispose (w : World) (number : Nat) : World := endIf (w.tearDown number)

def cancel (w : World) (number : Nat) : World := endIf (w.revoke number)

end World

end LanguageClient
