import LanguageClient.Config
import LanguageClient.Connection
import LanguageClient.Host
import LanguageClient.Protocol.LogMessage
import LanguageClient.Registrations
import LanguageClient.Roots
import LanguageClient.Text.Quoted

/-!
# Sessions

A session is a connection together with what the host has because of it: the providers that the
server registered, the decorations of the diagnostics it published, the reporters of its progress.

`Hosted` is a session together with the host, as one operation sees them. The host may end the
client from inside a callback; if that reaches the session, it is disposed before the callback
returns, in the middle of the operation.

Disposing happens once. It withdraws every provider, empties the decorations of every visible view
of a document with diagnostics, completes every reporter and closes the connection.
-/

namespace LanguageClient

/-- What the client is told by those who use it. -/
structure ClientOptions where
  config : Config
  rewriter : Rewriter

/-- The options of a configuration. -/
def ClientOptions.ofConfig (config : Config) : ClientOptions := ⟨config, config.rewriter⟩

/-- What a server may ask of a session. -/
inductive SessionHandler where
  | register
  | unregister
  deriving DecidableEq, Repr

/-- A connection and what the host has because of it. -/
structure Session where
  /-- The root that is served; every root if there is none. -/
  root : Option Url
  connection : Connection SessionHandler
  registrations : Registrations
  decorationKind : Nat
  /-- The last diagnostics of each document. -/
  diagnostics : List (Url × List Diagnostic)
  progress : ProgressBoard
  /-- The progress notification that is being handled. -/
  handling : Option Nat
  /-- The documents that were opened since the session last looked. -/
  openedDocuments : Nat
  /-- Whether the host tells the session of no more documents. -/
  hasHostEnded : Bool
  isDisposed : Bool
  /-- Whether nobody holds the session any more. -/
  isReleased : Bool

namespace Session

def logFeed : Nat := 0

def diagnosticsFeed : Nat := 1

def progressFeed : Nat := 2

/-- A connection that listens to what a session needs, and serves registrations. -/
def listening : Connection SessionHandler :=
  let observed := [LogMessage.method, PublishedDiagnostics.method, ProgressParams.method].foldl
    (fun connection method => (connection.observe method).2) Connection.new
  (observed.handle registerMethod .register).handle unregisterMethod .unregister

/-- A session on a new connection, which is read from now on. -/
def attach (root : Option Url) (decorationKind : Nat) (suffix : String) : Session where
  root := root
  connection := listening.start
  registrations := .empty
  decorationKind := decorationKind
  diagnostics := []
  progress := .new suffix
  handling := none
  openedDocuments := 0
  hasHostEnded := false
  isDisposed := false
  isReleased := false

/-- Whether the session still follows what the server and the host do. -/
def isActive (session : Session) : Bool := !session.isDisposed && !session.isReleased

/-- Whether the host tells the session of the documents that it opens. -/
def hearsHost (session : Session) : Bool := session.isActive && !session.hasHostEnded

/-- The session when the host has opened a document. -/
def hearOfDocument (session : Session) : Session :=
  if session.hearsHost then { session with openedDocuments := session.openedDocuments + 1 }
  else session

/-- The session when the host tells of no more documents. -/
def hearNoMore (session : Session) : Session := { session with hasHostEnded := true }

/-- Whether a document is announced to the server. -/
def covers (session : Session) (document : Url) : Bool :=
  match session.root with
  | none => true
  | some root => document.isUnder root

/-- The root for a reader of the log. -/
def rootText (session : Session) : String := quotedOption (session.root.map Url.text)

/-- The last diagnostics of a document. -/
def diagnosticsOf (session : Session) (document : Url) : Option (List Diagnostic) :=
  session.diagnostics.lookup document

/-- The session with new diagnostics of a document in place of those it had. -/
def keepDiagnostics (session : Session) (document : Url) (diagnostics : List Diagnostic) :
    Session :=
  { session with
    diagnostics := session.diagnostics.filter (fun entry => entry.1 ≠ document) ++
      [(document, diagnostics)] }

end Session

/-- Whom the host meets when it ends the client from inside a callback. -/
inductive Reach where
  /-- There is no client that can be ended. -/
  | nobody
  /-- The client, and with it this session. -/
  | session
  /-- The client, which does not have this session. -/
  | others
  deriving DecidableEq, Repr

/-- A session and the host, as one operation sees them. -/
structure Hosted where
  session : Session
  number : Nat
  host : Host
  reach : Reach
  /-- Whether the host has ended the client. -/
  hasEnded : Bool

namespace Hosted

def note (h : Hosted) (part : LogPart) (level : LogLevel) (message : String)
    (fields : List (String × String)) : Hosted :=
  { h with session := { h.session with
    connection := h.session.connection.record (part.event level message fields) } }

def withConnection (h : Hosted) (connection : Connection SessionHandler) : Hosted :=
  { h with session := { h.session with connection } }

/-- Tells the host about reporters. -/
def report (h : Hosted) (events : List ReporterEvent) : Hosted :=
  { h with host := h.host.record (events.map .reporter) }

/-- Calls back, where the session has nothing left to lose. -/
def ring (h : Hosted) (call : HostCall) : Hosted :=
  match h.host.ring call with
  | (false, host) => { h with host }
  | (true, host) =>
    if h.reach = .nobody then { h with host }
    else { h with host, reach := .nobody, hasEnded := true }

/-- Replaces the decorations of the session in a view. -/
def decorate (h : Hosted) (view : View) (items : List Decoration) : Hosted :=
  { h with host := h.host.decorate h.session.decorationKind view items }

/-- Empties the decorations of the views of documents with diagnostics, and forgets these. -/
def clearDiagnostics (h : Hosted) : Hosted :=
  let held := h.session.diagnostics.map Prod.fst
  let views := h.host.views.filter fun view => view.document ∈ held
  views.foldl (fun h view => (h.decorate view []).ring .setDecorations)
    { h with session := { h.session with diagnostics := [] } }

/-- Withdraws every provider. -/
def clearRegistrations (h : Hosted) : Hosted :=
  { h with
    session := { h.session with registrations := .empty }
    host := h.host.withdraw h.session.registrations.providers }

/-- Completes every reporter. -/
def completeAll (h : Hosted) : Hosted :=
  let (progress, events) := h.session.progress.completeAll
  { h with session := { h.session with progress } }.report events

/-- Tears the session down, once. -/
def dispose (h : Hosted) : Hosted :=
  if h.session.isDisposed then h
  else
    let count := h.session.registrations.size
    let h := { h with session := { h.session with isDisposed := true } }.clearRegistrations
    let h := h.clearDiagnostics.completeAll
    (h.withConnection h.session.connection.close).note .session .info "session disposed"
      [("registrations", toString count), ("root", h.session.rootText)]

/-- Calls back; if the host ends the client and the session is one of its own, it is disposed. -/
def callback (h : Hosted) (call : HostCall) : Hosted :=
  let reach := h.reach
  let after := h.ring call
  if after.hasEnded ∧ !h.hasEnded ∧ reach = .session then after.dispose else after

/-- What becomes of a session that nobody holds: its providers go, and it follows nothing more. -/
def release (h : Hosted) : Hosted :=
  let h := h.clearRegistrations
  { h with session := { h.session with isReleased := true } }

end Hosted

end LanguageClient
