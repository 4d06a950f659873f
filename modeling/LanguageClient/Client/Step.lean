import LanguageClient.Client.Requesting
import LanguageClient.Session.Projection

/-!
# Steps of the world

A step is something that the host, a server or a user of the client does, or a task that goes on, or
the release of what nobody holds any more. A run is any sequence of steps: no theorem needs an order
of tasks.
-/

namespace LanguageClient

namespace World

/-! ## Tasks -/

/-- An operation of a session that still follows its server. -/
def whileActive (w : World) (number : Nat) (run : Hosted → Hosted) : World :=
  if ((w.sessions[number]?).map Session.isActive).getD false then w.during number run else w

/-- A session whose connection is over is disposed. -/
def pollWatcher (w : World) (number : Nat) : World :=
  w.whileActive number fun h => if h.session.connection.isOver then h.dispose else h

def poll (w : World) : Task → World
  | .reader number => w.onConnection number Connection.read
  | .job number job => w.during number fun h => h.runJob (w.holds number) job
  | .log number => w.whileActive number Hosted.forwardLog
  | .diagnostics number =>
    w.whileActive number fun h => h.followDiagnostics w.options.rewriter
  | .progress number => w.whileActive number Hosted.followProgress
  | .watcher number => w.pollWatcher number
  | .opening number => w.pollOpening (.opening number) number
  | .reconciler => w.pollReconciler
  | .register => w.pollRegister
  | .visit number => w.pollVisit number
  | .request number => w.pollRequest number

/-! ## What nobody holds -/

/-- Whether somebody can still use the connection of a session. -/
def holdsConnection (w : World) (number : Nat) (session : Session) : Bool :=
  !session.isReleased ||
    w.requests.any (fun r => r.session = number && r.stage ≠ .over) ||
    w.visits.any (w.visitHolds number) ||
    session.connection.jobs.any fun job => !job.isFinished

def releaseSession (w : World) (number : Nat) : World :=
  match w.sessions[number]? with
  | none => w
  | some session =>
    if session.isActive && !w.holds number then w.during number Hosted.release else w

def releaseConnection (w : World) (number : Nat) : World :=
  match w.sessions[number]? with
  | none => w
  | some session =>
    if !session.connection.isOver && !w.holdsConnection number session then
      w.onConnection number Connection.release
    else w

/-- The tracked roots go with the last who keeps them. -/
def releaseEntries (w : World) : World := if w.keepsEntries then w else { w with entries := [] }

def sweep (w : World) : World :=
  let numbers := List.range w.sessions.length
  let w := numbers.foldl releaseSession w.releaseEntries
  numbers.foldl releaseConnection w

/-! ## The host -/

/-- Who waits for changes of the roots. -/
def rootListeners (w : World) : List Task :=
  if w.following = .ongoing && !w.changes.hasEnded then [.reconciler] else []

/-- Who waits for documents that the host opens. -/
def documentListeners (w : World) : List Task :=
  (w.sessions.zipIdx.filter fun entry => entry.1.hearsHost).map fun entry =>
    .diagnostics entry.2

def setRoots (w : World) (roots : List Url) : World :=
  let changes := if w.changes.hasEnded then w.changes
    else { w.changes with waiting := w.changes.waiting + 1 }
  { w with host := { w.host with roots }, changes }.wakeTasks w.rootListeners

/-- The host has a document, of which it says nothing. -/
def addDocument (w : World) (document : TextDocument) : World :=
  { w with host := { w.host with documents := w.host.documents ++ [document] } }

/-- The host opens a document and says so. -/
def openDocument (w : World) (document : TextDocument) : World :=
  { w.addDocument document with sessions := w.sessions.map Session.hearOfDocument }.wakeTasks
    w.documentListeners

/-- The host tells those who listen now nothing more. -/
def endStreams (w : World) : World :=
  { w with
    changes := { w.changes with hasEnded := true }
    sessions := w.sessions.map Session.hearNoMore }.wakeTasks
      (w.rootListeners ++ w.documentListeners)

/-- Connections have to be waited for. -/
def holdConnections (w : World) : World :=
  { w with connector := { w.connector with stance := { w.connector.stance with isHeld := true } } }

def releaseConnections (w : World) : World :=
  let waiting := w.connector.waiting
  let tasks := waiting.flatMap fun
    | .opening number => ((w.openings[number]?).map Opening.watchers).getD []
    | task => [task]
  { w with connector := { w.connector with
      stance := { w.connector.stance with isHeld := false }
      waiting := [] } }.wakeTasks tasks

def refuseConnections (w : World) (count : Nat) : World :=
  { w with connector := { w.connector with
    stance := { w.connector.stance with refusals := count } } }

/-- Reporters have to be waited for. -/
def holdReporters (w : World) : World :=
  { w with host := { w.host with reporters := { w.host.reporters with isHeld := true } } }

def releaseReporters (w : World) : World :=
  { w with host := { w.host with
      reporters := { w.host.reporters with isHeld := false }
      waiting := [] } }.wakeTasks (w.host.waiting.map .progress)

def refuseReporters (w : World) (count : Nat) : World :=
  { w with host := { w.host with reporters := { w.host.reporters with refusals := count } } }

/-- The host is to end the client from inside a callback. -/
def arm (w : World) (call : HostCall) : World :=
  { w with host := { w.host with armed := w.host.armed ++ [call] } }

/-! ## Those who use the client -/

def register (w : World) (label : String) : World :=
  { w with phase := .starting, label }.wakeTasks [.register]

/-- Why the client cannot be ended. -/
inductive Hindrance where
  | noClient
  | busy
  deriving DecidableEq, Repr

def shutdown (w : World) : Except Hindrance World :=
  if w.phase ≠ .running then .error .noClient
  else if w.visits.any isUnderway then .error .busy
  else .ok w.endClient

def visit (w : World) (label : String) (root : Url) : Option World :=
  if w.phase ≠ .running then none
  else
    let visit : Visit := ⟨label, root, .unstarted, none, false⟩
    some ({ w with visits := w.visits ++ [visit] }.wakeTasks [.visit w.visits.length])

/-- The visit with a label whose visitor has the connection, and its session. -/
def running? (w : World) (label : String) : Option (Nat × Nat) :=
  w.visits.zipIdx.findSome? fun entry =>
    match entry.1.stage with
    | .running session _ => if entry.1.label = label then some (entry.2, session) else none
    | _ => none

/-- The number of the last entry with a property. -/
def lastWith {α : Type} (entries : List α) (property : α → Bool) : Option Nat :=
  ((entries.zipIdx.filter fun entry => property entry.1).map Prod.snd).getLast?

/-- The last visit with a label whose visitor has not come to anything yet, even if it never got its
connection. -/
def undecided? (w : World) (label : String) : Option Nat :=
  lastWith w.visits fun visit => visit.label = label && visit.verdict.isNone

/-- The tasks of a visit whose visitor has the connection. -/
def runningTasks (w : World) (number : Nat) : List Task :=
  match (w.visits[number]?).map Visit.stage with
  | some (.running _ _) => [.visit number]
  | _ => []

/-- The visitor of a visit comes to an end, which its task learns when it has the connection. A visit
that is over stays as it is. -/
def setVerdict (w : World) (number : Nat) (outcome : Outcome) : World :=
  { w with visits := w.visits.modify number (Visit.decided · outcome) }.wakeTasks
    (w.runningTasks number)

def spawnRequest (w : World) (label : String) (session : Nat) (purpose : Purpose) : World :=
  let request : PendingRequest := ⟨label, session, purpose, .unstarted, false⟩
  { w with requests := w.requests ++ [request] }.wakeTasks [.request w.requests.length]

def notify (w : World) (number : Nat) (method : String) (params : Json) :
    Except ClientError World :=
  match w.sessions[number]? with
  | none => .error .connectionClosed
  | some session =>
    (session.connection.notify method params).map fun connection =>
      w.put number { session with connection }

/-- Whether one text occurs in another. -/
def occursIn (text : List Char) : List Char → Bool
  | [] => text.isEmpty
  | c :: rest => text.isPrefixOf (c :: rest) || occursIn text rest

/-- The first provider of a kind in whose selector, written as JSON, the text occurs. -/
def provider? (w : World) (kind : ProviderKind) (text : String) : Option Provider :=
  w.host.providers.find? fun p =>
    p.kind = kind && occursIn text.toList p.selector.toJson.text.toList

def ask (w : World) (label : String) (provider : Provider) (question : Question) : World :=
  w.spawnRequest label provider.session (.question provider.feature question)

/-- Drops what goes on under a label. -/
def drop (w : World) (label : String) : World :=
  let w := match lastWith w.visits fun v => v.label = label && isUnderway v with
    | some number =>
      { w with visits := w.visits.modify number Visit.dropped }.wakeTasks [.visit number]
    | none => w
  let w := match lastWith w.requests fun r => r.label = label && r.stage ≠ .over with
    | some number =>
      { w with requests := w.requests.modify number PendingRequest.dropped }.wakeTasks
        [.request number]
    | none => w
  match w.phase with
  | .absent | .running | .over => w
  | _ => if w.label = label then { w with isDropped := true }.wakeTasks [.register] else w

/-! ## Servers -/

def serverSend (w : World) (number : Nat) (messages : List Message) : World :=
  w.onConnection number fun connection => messages.foldl Connection.arrive connection

/-- A server sends no more. -/
def serverHangsUp (w : World) (number : Nat) : World := w.onConnection number Connection.hangUp

/-- A server reads no more. -/
def serverStopsReading (w : World) (number : Nat) : World :=
  w.onConnection number Connection.stopReading

end World

end LanguageClient
