import LanguageClient.Session.Installing

/-!
# Greeting a server

A session greets its server and waits for the answer. Then it says that it is ready, announces the
documents that the host has open, and registers what the answer advertises. If anything fails before
that, the session is disposed; a registration that fails is only told to the log.
-/

namespace LanguageClient

namespace Hosted

/-- The params of the greeting. -/
def greeting (h : Hosted) (options : ClientOptions) (folders : Option (List WorkspaceFolder)) :
    Except ConversionError Json := do
  let root ← h.session.root.mapM options.rewriter.toReference
  pure (Greeting.toJson ⟨root, options.config.initializationOptions, options.config.isMultiRoot,
    folders⟩)

/-- Greets the server; the number is that of the call. -/
def greet (h : Hosted) (options : ClientOptions) (folders : Option (List WorkspaceFolder)) :
    Except ClientError Nat × Hosted :=
  match h.greeting options folders with
  | .error failure => (.error (.conversion failure), h.dispose)
  | .ok params =>
    let h := h.note .session .info "initializing language server" [("root", h.session.rootText)]
    let (call, connection) := h.session.connection.request initializeMethod params
    (.ok call, h.withConnection connection)

def notify (h : Hosted) (method : String) (params : Json) : Except ClientError Hosted :=
  (h.session.connection.notify method params).map h.withConnection

/-- A notification that was sent went out on the connection, and nothing but the connection is changed by
it. -/
theorem notify_ok {h k : Hosted} {method : String} {params : Json}
    (sent : h.notify method params = .ok k) :
    ∃ connection, h.session.connection.notify method params = .ok connection ∧
      k = h.withConnection connection := by
  unfold notify at sent
  cases notified : h.session.connection.notify method params with
  | error failure => rw [notified] at sent; cases sent
  | ok connection =>
    rw [notified] at sent
    cases sent
    exact ⟨connection, rfl, rfl⟩

def announce (h : Hosted) (rewriter : Rewriter) (document : TextDocument) :
    Except ClientError Hosted :=
  match rewriter.toReference document.uri with
  | .error failure => .error (.conversion failure)
  | .ok uri => h.notify didOpenMethod (document.openParams uri)

/-- A document that was announced has a name for the server, and the notification under that name was
sent. -/
theorem announce_ok {h k : Hosted} {rewriter : Rewriter} {document : TextDocument}
    (sent : h.announce rewriter document = .ok k) :
    ∃ uri, rewriter.toReference document.uri = .ok uri ∧
      h.notify didOpenMethod (document.openParams uri) = .ok k := by
  unfold announce at sent
  split at sent
  · cases sent
  next uri named => exact ⟨uri, named, sent⟩

/-- Announces documents in their order, up to the first that cannot be. -/
def announceEach (h : Hosted) (rewriter : Rewriter) :
    List TextDocument → Option ClientError × Hosted
  | [] => (none, h)
  | document :: rest =>
    match h.announce rewriter document with
    | .error failure => (some failure, h)
    | .ok h => h.announceEach rewriter rest

/-- Announces the documents that the session covers. -/
def announceAll (h : Hosted) (rewriter : Rewriter) : Option ClientError × Hosted :=
  h.announceEach rewriter (h.host.documents.filter fun document => h.session.covers document.uri)

/-- Registers what the answer to the greeting advertises. -/
def installStatic (h : Hosted) (options : ClientOptions) (answer : Json) : Hosted :=
  let capabilities := (answer.get? "capabilities").getD .null
  let registrations := Feature.staticRegistrations capabilities options.config.documentSelector
  match h.installAll registrations with
  | (none, h) => h
  | (some failure, h) =>
    h.note .session .warn "failed to install static registrations"
      [("error", failure.message)]

/-- What follows the answer to the greeting. -/
def proceed (h : Hosted) (options : ClientOptions) (answer : Json) :
    Option ClientError × Hosted :=
  match h.notify initializedMethod (.obj []) with
  | .error failure => (some failure, h)
  | .ok h =>
    match h.announceAll options.rewriter with
    | (some failure, h) => (some failure, h)
    | (none, h) => (none, h.installStatic options answer)

/-- Goes on after the greeting; a failure disposes the session. -/
def welcome (h : Hosted) (options : ClientOptions) (outcome : Outcome) :
    Option ClientError × Hosted :=
  match outcome with
  | .error failure => (some failure, h.dispose)
  | .ok answer =>
    match h.proceed options answer with
    | (none, h) => (none, h)
    | (some failure, h) => (some failure, h.dispose)

end Hosted

end LanguageClient
