import LanguageClient.Session

/-!
# What a server shows

Log messages go to the log at the level they ask for. Diagnostics of a document replace those it
had, and the visible views of the document are decorated anew; when a document is opened every
visible view is. Progress notifications are handled one after the other.
-/

namespace LanguageClient

/-- The level of a log message. -/
def LogMessage.level (message : LogMessage) : LogLevel :=
  if message.gravity = 1 then .error
  else if message.gravity = 2 then .warn
  else if message.gravity = 3 then .info
  else .debug

namespace Hosted

/-- Takes what waits in a feed. -/
def drainAs {α : Type} (h : Hosted) (method : String) (decode : Json → Option α) (feed : Nat) :
    List α × Hosted :=
  let (values, connection) := h.session.connection.drainAs method decode feed
  (values, h.withConnection connection)

def forwardLog (h : Hosted) : Hosted :=
  let (messages, h) := h.drainAs LogMessage.method LogMessage.ofJson? Session.logFeed
  messages.foldl (fun h message => h.note .server message.level message.message []) h

/-! ## Diagnostics -/

/-- Decorates a view with the diagnostics of its document. -/
def render (h : Hosted) (view : View) : Hosted :=
  let diagnostics := (h.session.diagnosticsOf view.document).getD []
  (h.decorate view (diagnostics.map Diagnostic.decoration)).callback .setDecorations

def renderVisible (h : Hosted) : Hosted := h.host.views.foldl render h

/-- Takes over the diagnostics of a document. -/
def publish (h : Hosted) (rewriter : Rewriter) (published : PublishedDiagnostics) : Hosted :=
  match rewriter.ofReference published.uri with
  | .error failure =>
    h.note .diagnostics .warn "dropping diagnostics for unmappable document"
      [("error", failure.message)]
  | .ok document =>
    let views := h.host.views.filter fun view => view.document = document
    views.foldl render
      { h with session := h.session.keepDiagnostics document published.diagnostics }

/-- Takes over what was published, and decorates anew for each document that was opened. -/
def followDiagnostics (h : Hosted) (rewriter : Rewriter) : Hosted :=
  let (published, h) :=
    h.drainAs PublishedDiagnostics.method PublishedDiagnostics.ofJson? Session.diagnosticsFeed
  let h := published.foldl (fun h params => h.publish rewriter params) h
  let opened := h.session.openedDocuments
  let h := { h with session := { h.session with openedDocuments := 0 } }
  (List.replicate opened ()).foldl (fun h _ => h.renderVisible) h

/-! ## Progress -/

/-- Changes the board and tells the host what comes of it. -/
def withBoard (h : Hosted) : ProgressBoard × List ReporterEvent → Hosted
  | (progress, events) => { h with session := { h.session with progress } }.report events

/-- Asks the host for the reporter that a notification waits for, if it does. -/
def makeReporter (h : Hosted) (call : Nat) : Hosted :=
  match h.session.progress.wanted? call with
  | none => h
  | some title =>
    match h.host.createReporter h.number title with
    | (.later, host) => { h with host }
    | (.refused failure, host) =>
      { h with host }.withBoard (h.session.progress.refused call failure, [])
    | (.created reporter, host) =>
      let h := { h with host }.callback .createReporter
      h.withBoard (h.session.progress.created call reporter)

/-- The token that a notification is about. -/
def tokenOf (h : Hosted) (call : Nat) : String :=
  ((h.session.progress.calls[call]?).map fun found => found.params.id).getD ""

/-- Goes on with a notification, as far as the host lets it. -/
def handleProgress (h : Hosted) (call : Nat) : Hosted :=
  let h := (h.withBoard (h.session.progress.advance call)).makeReporter call
  match h.session.progress.ending? call with
  | none => { h with session := { h.session with handling := some call } }
  | some refusal =>
    let h := { h with session := { h.session with handling := none } }
    match refusal with
    | none => h
    | some failure =>
      h.note .progress .error "failed to create progress reporter"
        [("error", failure.message), ("id", h.tokenOf call)]

/-- Takes up the next notification, if one waits. -/
def nextProgress (h : Hosted) : Hosted :=
  match h.session.connection.next Session.progressFeed with
  | (none, _) => h
  | (some params, connection) =>
    let (found, connection) := connection.decoded ProgressParams.method ProgressParams.ofJson? params
    let h := h.withConnection connection
    match found with
    | none => h
    | some params =>
      let (call, progress) := h.session.progress.begin params
      { h with session := { h.session with progress } }.handleProgress call

/-- Handles notifications one after the other, at most so many, until one has to wait. -/
def progressSteps : Nat → Hosted → Hosted
  | 0, h => h
  | steps + 1, h =>
    match h.session.handling with
    | some call =>
      let h := h.handleProgress call
      if h.session.handling.isSome then h else progressSteps steps h
    | none => progressSteps steps h.nextProgress

def followProgress (h : Hosted) : Hosted :=
  progressSteps ((h.session.connection.waiting Session.progressFeed).length + 1) h

end Hosted

end LanguageClient
