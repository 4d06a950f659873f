import LanguageClient.Client.World
import LanguageClient.Session.Handshake

/-!
# Opening sessions

To open a session is to ask for a connection, to attach the session to it, to greet the server and
to go on when the server has answered. The session of a tracked root is opened by a task of its own,
which others may wait for. Its opening can be cancelled: before there is a connection, the session
is disposed as soon as it is attached and the server is never greeted; later, it is disposed at
once.
-/

namespace LanguageClient

namespace World

/-! ## Connections -/

/-- What comes of asking for a connection. -/
inductive ConnectAnswer where
  | later
  | refused (failure : ClientError)
  | session (number : Nat)

/-- What is said where no connection is made. -/
def connectionRefused : ClientError := .transport (.connect "connection refused" none)

def askConnection (w : World) : World :=
  { w with connector := { w.connector with attempts := w.connector.attempts + 1 } }

/-- A new session on a new connection. -/
def attach (w : World) (root : Option Url) : Nat × World :=
  let number := w.sessions.length
  let (kind, host) := w.host.newDecorationKind
  let session := Session.attach root kind w.options.config.progressSuffix
  let w := { w with host, sessions := w.sessions ++ [session] }.wake [.server number]
  (number,
   (w.wakeTasks [.log number, .diagnostics number, .progress number, .watcher number]).put
     number session)

/-- Looks whether there is a connection, for a task that asked for one. -/
def connect (w : World) (asker : Task) (root : Option Url) : ConnectAnswer × World :=
  if w.connector.stance.isHeld then
    let waiting := w.connector.waiting
    (.later,
     { w with connector := { w.connector with
       waiting := if asker ∈ waiting then waiting else waiting ++ [asker] } })
  else
    match w.connector.stance.refusals with
    | left + 1 =>
      (.refused connectionRefused,
       { w with connector := { w.connector with stance := ⟨false, left⟩ } })
    | 0 =>
      let (number, w) := w.attach root
      (.session number, w)

/-- Greets the server of a session; the number is that of the call. -/
def greet (w : World) (session : Nat) (folders : Option (List WorkspaceFolder)) :
    Except ClientError Nat × World :=
  w.within session (.error .connectionClosed) fun h => h.greet w.options folders

def outcome? (w : World) (session call : Nat) : Option Outcome :=
  w.sessions[session]? >>= fun found => found.connection.outcome? call

/-- Goes on when the server has answered the greeting. -/
def welcome (w : World) (session : Nat) (outcome : Outcome) : Option ClientError × World :=
  w.within session (some .connectionClosed) fun h => h.welcome w.options outcome

/-! ## Sessions of tracked roots -/

def entry? (w : World) (root : Url) : Option RootEntry := w.entries.find? fun e => e.root = root

/-- Tracks a root no more, if the opening is still the one that it is tracked for. -/
def forget (w : World) (root : Url) (opening : Nat) : World :=
  { w with entries := w.entries.filter fun e => !(e.root = root && e.opening = opening) }

def setStage (w : World) (number : Nat) (stage : OpeningStage) : World :=
  { w with openings := w.openings.modify number fun o => { o with stage } }

/-- An opening came to its end; those who wait for it look again. -/
def finishOpening (w : World) (number : Nat) (opening : Opening) (session : Option Nat) : World :=
  (w.setStage number (.finished session)).wakeTasks opening.watchers

def opened (w : World) (number : Nat) (opening : Opening) (session : Nat) : World :=
  (w.note .info "root session ready" [("root", opening.root.text)]).finishOpening number opening
    (some session)

/-- The session of a root could not be opened. Unless that was wanted, the log is told and the root
is tracked no more. -/
def notOpened (w : World) (number : Nat) (opening : Opening) (failure : ClientError) : World :=
  let startup := (w.openings[number]?).map Opening.startup
  let w :=
    if startup = some .cancelled then w
    else
      (w.note .error "failed to open root session"
        [("error", failure.message), ("root", opening.root.text)]).forget opening.root number
  w.finishOpening number opening none

/-- The server of an opening may have answered. -/
def awaitGreeting (w : World) (number : Nat) (opening : Opening) (session call : Nat) : World :=
  match w.outcome? session call with
  | none => w.setStage number (.greeting session call)
  | some outcome =>
    match w.welcome session outcome with
    | (none, w) => w.opened number opening session
    | (some failure, w) => w.notOpened number opening failure

def attached (w : World) (number : Nat) (opening : Opening) (session : Nat) : World :=
  if (w.openings[number]?).map Opening.startup = some .cancelled then
    (w.dispose session).notOpened number opening .connectionClosed
  else
    match (w.setStartup number (.attached session)).greet session none with
    | (.error failure, w) => w.notOpened number opening failure
    | (.ok call, w) => w.awaitGreeting number opening session call

def awaitConnection (w : World) (number : Nat) (opening : Opening) : World :=
  match w.connect (.opening number) (some opening.root) with
  | (.later, w) => w.setStage number .connecting
  | (.refused failure, w) => w.notOpened number opening failure
  | (.session session, w) => w.attached number opening session

/-- A task waits for an opening. -/
def watchOpening (w : World) (number : Nat) (task : Task) : World :=
  { w with openings := w.openings.modify number fun o =>
    { o with watchers := if task ∈ o.watchers then o.watchers else o.watchers ++ [task] } }

/-- An opening goes on, for a task that waits for it. -/
def pollOpening (w : World) (task : Task) (number : Nat) : World :=
  let w := w.watchOpening number task
  match w.openings[number]? with
  | none => w
  | some opening =>
    match opening.stage with
    | .unstarted => w.askConnection.awaitConnection number opening
    | .connecting => w.awaitConnection number opening
    | .greeting session call => w.awaitGreeting number opening session call
    | .finished _ => w

/-- What came of an opening, if it is finished. -/
def openingResult? (w : World) (number : Nat) : Option (Option Nat) :=
  match (w.openings[number]?).map Opening.stage with
  | some (.finished session) => some session
  | _ => none

/-- Tracks a root; the number is that of the opening of its session. -/
def addRoot (w : World) (root : Url) : Nat × World :=
  match w.entry? root with
  | some entry => (entry.opening, w)
  | none =>
    let number := w.openings.length
    let opening : Opening := ⟨root, .connecting, .unstarted, []⟩
    let entry : RootEntry := ⟨root, number⟩
    (number,
     { w with openings := w.openings ++ [opening], entries := w.entries ++ [entry] }.wakeTasks
       [.opening number])

/-- Tracks a root no more and disposes its session. -/
def removeRoot (w : World) (root : Url) : World :=
  match w.entry? root with
  | none => w
  | some entry =>
    ({ w with entries := w.entries.filter fun e => e.root ≠ root }.cancel entry.opening).note .info
      "root session disposed" [("root", root.text)]

end World

end LanguageClient
