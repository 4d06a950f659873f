import LanguageClient.Proofs.Connection.Onward
import LanguageClient.Session.Handshake
import LanguageClient.Session.Projection

/-!
# How a session goes on

`Hosted.Onward` says what an operation of a session leaves to those who read its history: the session
keeps its root and its connection goes on, the host opens no document, and each provider that is new
belongs to the session and came for a reason. The reason is a parameter. Only registrations give the
host providers, so every other operation goes on for any reason at all, whatever the host does from
inside its callbacks.
-/

namespace LanguageClient

/-- A later state of a session, with all that was said before. -/
structure Session.Onward (s t : Session) : Prop where
  root : t.root = s.root
  connection : s.connection.Onward t.connection

namespace Session.Onward

variable {s t u : Session}

theorem refl (s : Session) : s.Onward s := ⟨rfl, .refl _⟩

/-- Later states of a session compose: the root is the same throughout, and what its connection has said is
only added to. -/
theorem trans (first : s.Onward t) (second : t.Onward u) : s.Onward u :=
  ⟨second.root.trans first.root, first.connection.trans second.connection⟩

/-- A change of the connection alone goes on if the connection does. The root is no part of it. -/
theorem of_connection {connection : Connection SessionHandler}
    (onward : s.connection.Onward connection) : s.Onward { s with connection } := ⟨rfl, onward⟩

/-- A session that hears of a document has said nothing to its server yet. It decorates later, in a turn of
its own. -/
theorem hearOfDocument (s : Session) : s.Onward s.hearOfDocument := by
  unfold Session.hearOfDocument
  split
  · exact ⟨rfl, .refl _⟩
  · exact .refl s

end Session.Onward

namespace Hosted

variable {reason : Provider → Prop} {h k l : Hosted}

/-- What an operation of a session leaves to those who read its history. -/
structure Onward (reason : Provider → Prop) (h k : Hosted) : Prop where
  number : k.number = h.number
  documents : k.host.documents = h.host.documents
  session : h.session.Onward k.session
  provided : ∀ p ∈ k.host.provided, p ∈ h.host.provided ∨ p.session = h.number ∧ reason p

namespace Onward

/-- Where the host has got no provider and opened no document, only the session is left to look at. Most
operations are proved through this. -/
theorem of_host (number : k.number = h.number) (documents : k.host.documents = h.host.documents)
    (provided : k.host.provided = h.host.provided) (session : h.session.Onward k.session) :
    Onward reason h k :=
  ⟨number, documents, session, fun _ member => .inl (provided ▸ member)⟩

theorem refl (h : Hosted) : Onward reason h h := .of_host rfl rfl rfl (.refl _)

/-- Two operations in a row: a provider that is new was given by the one or by the other, and both times for
the reason. -/
theorem trans (first : Onward reason h k) (second : Onward reason k l) : Onward reason h l where
  number := second.number.trans first.number
  documents := second.documents.trans first.documents
  session := first.session.trans second.session
  provided p member := by
    rcases second.provided p member with before | ⟨mine, why⟩
    · exact first.provided p before
    · exact .inr ⟨mine.trans first.number, why⟩

/-- What an operation with a result does, once the result is known. Such operations are taken apart by the
equation for the pair. -/
theorem of_pair {α : Type} {result : α} {pair : α × Hosted} (onward : Onward reason h pair.2)
    (eq : pair = (result, k)) : Onward reason h k := by
  rw [eq] at onward
  exact onward

/-- What came for one reason came for any other that follows from it. So the operations are proved for the
reason that fits them best. -/
theorem weaken {other : Provider → Prop} (onward : Onward reason h k)
    (weaker : ∀ p, reason p → other p) : Onward other h k :=
  ⟨onward.number, onward.documents, onward.session, fun p member =>
    (onward.provided p member).imp id fun ⟨mine, why⟩ => ⟨mine, weaker p why⟩⟩

end Onward

/-- Steps that each go on, one after the other, go on, by induction on what they are done for. -/
theorem foldl_onward {α : Type} {step : Hosted → α → Hosted}
    (each : ∀ h a, Onward reason h (step h a)) (items : List α) (h : Hosted) :
    Onward reason h (items.foldl step h) := by
  induction items generalizing h with
  | nil => exact .refl h
  | cons item items ih => exact (each h item).trans (ih _)

/-- What a session does by its connection alone gives the host nothing. -/
theorem withConnection_onward {connection : Connection SessionHandler}
    (onward : h.session.connection.Onward connection) :
    Onward reason h (h.withConnection connection) :=
  .of_host rfl rfl rfl (.of_connection onward)

/-- A word in the log is kept on the connection and said to nobody else. -/
theorem note_onward (h : Hosted) (part : LogPart) (level : LogLevel) (message : String)
    (fields : List (String × String)) : Onward reason h (h.note part level message fields) :=
  withConnection_onward (Connection.record_onward _)

/-! ## Disposing -/

/-- The host may end the client from inside a callback. That marks the client as ended, but it opens no
document and gives no provider. -/
theorem ring_onward (h : Hosted) (call : HostCall) : Onward reason h (h.ring call) := by
  unfold ring Host.ring
  by_cases armed : call ∈ h.host.armed
  · rw [if_pos armed]
    dsimp only
    split <;> exact .of_host rfl rfl rfl (.refl _)
  · rw [if_neg armed]
    exact .refl h

/-- Decorations are not among what is looked at here, so drawing is nothing to providers and documents. -/
theorem decorate_onward (h : Hosted) (view : View) (items : List Decoration) :
    Onward reason h (h.decorate view items) := .of_host rfl rfl rfl (.refl _)

/-- Emptying the views calls back for each of them. None of these calls gives the host a provider, whatever
the host does in it. -/
theorem clearDiagnostics_onward (h : Hosted) : Onward reason h h.clearDiagnostics := by
  have forgotten : Onward reason h { h with session := { h.session with diagnostics := [] } } :=
    .of_host rfl rfl rfl ⟨rfl, .refl _⟩
  exact forgotten.trans
    (foldl_onward (fun h view => (decorate_onward h view []).trans (ring_onward _ _)) _ _)

/-- Taking all providers back gives none. Those that were given stay on record, with a mark that they are
gone. -/
theorem clearRegistrations_onward (h : Hosted) : Onward reason h h.clearRegistrations :=
  .of_host rfl rfl rfl ⟨rfl, .refl _⟩

theorem completeAll_onward (h : Hosted) : Onward reason h h.completeAll :=
  .of_host rfl rfl rfl ⟨rfl, .refl _⟩

/-- The end of a session goes on: what it has said stays said, and it gives the host nothing more. -/
theorem dispose_onward (h : Hosted) : Onward reason h h.dispose := by
  unfold dispose
  split
  · exact .refl h
  · have marked : Onward reason h { h with session := { h.session with isDisposed := true } } :=
      .of_host rfl rfl rfl ⟨rfl, .refl _⟩
    have cleared := (marked.trans (clearRegistrations_onward _)).trans
      ((clearDiagnostics_onward _).trans (completeAll_onward _))
    exact (cleared.trans (withConnection_onward Connection.close_onward)).trans (note_onward ..)

/-- A callback goes on, also where the host ends the client in it and the session is disposed on the spot.
-/
theorem callback_onward (h : Hosted) (call : HostCall) : Onward reason h (h.callback call) := by
  unfold callback
  dsimp only
  split
  · exact (ring_onward h call).trans (dispose_onward _)
  · exact ring_onward h call

/-- A session that nobody holds takes its providers back, and says nothing to its server. -/
theorem release_onward (h : Hosted) : Onward reason h h.release :=
  .of_host rfl rfl rfl ⟨rfl, .refl _⟩

/-! ## Registering -/

/-- Taking a registration back withdraws its provider, if the id stands for one. No provider is given by it.
-/
theorem uninstall_onward (h : Hosted) (id : RegistrationId) : Onward reason h (h.uninstall id) := by
  unfold uninstall
  split
  · exact .refl h
  · exact .of_host rfl rfl rfl ⟨rfl, .refl _⟩

section Providing

variable (why : ∀ p, reason p)

include why

/-- A provider that is given belongs to the session. Its reason is whatever may be said of all providers, as
registering does not look at who asked. -/
theorem addProvider_onward (h : Hosted) (feature : Feature) (id : RegistrationId)
    (selector : DocumentSelector) : Onward reason h (h.addProvider feature id selector) := by
  have provided : Onward reason h
      { h with host := (h.host.provide feature.kind selector feature h.number).2 } := by
    refine ⟨rfl, rfl, .refl _, fun p member => ?_⟩
    rcases List.mem_append.mp member with before | new
    · exact .inl before
    · rw [List.mem_singleton.mp new]
      exact .inr ⟨rfl, why _⟩
  unfold addProvider
  exact ((provided.trans (callback_onward _ .registerProvider)).trans (uninstall_onward _ id)).trans
    (.of_host rfl rfl rfl ⟨rfl, .refl _⟩)

/-- A registration that is carried out gives at most one provider, and one that fails, or has no feature,
gives none. -/
theorem installNoted_onward (h : Hosted) (registration : Registration) :
    Onward reason h (h.installNoted registration).2 := by
  have installed : Onward reason h (h.install registration).2 := by
    have uninstalled : Onward reason h _ := uninstall_onward h registration.id
    unfold install
    dsimp only
    split
    · exact uninstalled
    · split
      · exact uninstalled
      · exact uninstalled.trans (addProvider_onward why ..)
  unfold installNoted
  split
  next eq => exact installed.of_pair eq
  next eq => exact Onward.trans (installed.of_pair eq) (note_onward ..)

/-- Registrations are carried out one after the other, up to the first that fails, and each of them goes on.
-/
theorem installEach_onward (h : Hosted) (registrations : List Registration) :
    Onward reason h (h.installEach registrations).2 := by
  induction registrations generalizing h with
  | nil => exact .refl h
  | cons registration registrations ih => exact (installNoted_onward why h registration).trans (ih _)

/-- A session that was disposed meanwhile takes back what it registered. That is no new provider either. -/
theorem installAll_onward (h : Hosted) (registrations : List Registration) :
    Onward reason h (h.installAll registrations).2 := by
  unfold installAll
  split
  · exact .refl h
  · have installed := installEach_onward why h registrations
    dsimp only
    split
    · exact installed.trans (clearRegistrations_onward _)
    · exact installed

/-- A request of the server to register or to take back goes on, and so does the answer that it gets. -/
theorem runJob_onward (h : Hosted) (isHeld : Bool) (number : Nat) :
    Onward reason h (h.runJob isHeld number) := by
  have served (handler : SessionHandler) (method : String) (params : Json) :
      Onward reason h (h.serve handler method params).2 := by
    unfold serve
    split
    · split
      · exact .refl h
      · exact installAll_onward why ..
    · split
      · exact .refl h
      · exact foldl_onward uninstall_onward _ h
  unfold runJob
  split
  · exact .refl h
  · dsimp only
    split
    · exact withConnection_onward (Connection.finish_onward ..)
    · exact (served ..).trans (withConnection_onward (Connection.finish_onward ..))

/-- What the answer to the greeting advertises is registered as a request would be, with a word in the log
if it fails. -/
theorem installStatic_onward (h : Hosted) (options : ClientOptions) (answer : Json) :
    Onward reason h (h.installStatic options answer) := by
  unfold installStatic
  dsimp only
  split
  next eq => exact (installAll_onward why ..).of_pair eq
  next eq => exact Onward.trans ((installAll_onward why ..).of_pair eq) (note_onward ..)

end Providing

/-! ## Showing -/

/-- Taking what waits in a feed concerns the connection, and goes on because that does. -/
theorem drainAs_onward {α : Type} (h : Hosted) (method : String) (decode : Json → Option α)
    (feed : Nat) : Onward reason h (h.drainAs method decode feed).2 :=
  withConnection_onward (Connection.drainAs_onward ..)

/-- Forwarding the server's messages to the log adds a word for each of them, and tells neither side
anything. -/
theorem forwardLog_onward (h : Hosted) : Onward reason h h.forwardLog :=
  (drainAs_onward h ..).trans (foldl_onward (fun _ _ => note_onward ..) _ _)

/-- Decorating a view draws and calls back, and neither gives a provider. -/
theorem render_onward (h : Hosted) (view : View) : Onward reason h (h.render view) :=
  (decorate_onward h view _).trans (callback_onward ..)

/-- Diagnostics that are published are kept and drawn, or dropped with a word in the log. -/
theorem publish_onward (h : Hosted) (rewriter : Rewriter) (published : PublishedDiagnostics) :
    Onward reason h (h.publish rewriter published) := by
  unfold publish
  split
  · exact note_onward ..
  next document _ =>
    have kept : Onward reason h { h with
        session := h.session.keepDiagnostics document published.diagnostics } :=
      .of_host rfl rfl rfl ⟨rfl, .refl _⟩
    exact kept.trans (foldl_onward render_onward _ _)

/-- The task that follows diagnostics takes what was published and draws. It never has to do with providers.
-/
theorem followDiagnostics_onward (h : Hosted) (rewriter : Rewriter) :
    Onward reason h (h.followDiagnostics rewriter) := by
  have looked (k : Hosted) :
      Onward reason k { k with session := { k.session with openedDocuments := 0 } } :=
    .of_host rfl rfl rfl ⟨rfl, .refl _⟩
  unfold followDiagnostics
  have drained : Onward reason h _ := drainAs_onward h PublishedDiagnostics.method
    PublishedDiagnostics.ofJson? Session.diagnosticsFeed
  generalize h.drainAs PublishedDiagnostics.method PublishedDiagnostics.ofJson?
    Session.diagnosticsFeed = pair at drained ⊢
  obtain ⟨published, k⟩ := pair
  have shown := drained.trans
    (foldl_onward (fun h params => publish_onward h rewriter params) published k)
  exact (shown.trans (looked _)).trans
    (foldl_onward (fun h _ => foldl_onward render_onward _ h) _ _)

theorem withBoard_onward (h : Hosted) (change : ProgressBoard × List ReporterEvent) :
    Onward reason h (h.withBoard change) := .of_host rfl rfl rfl ⟨rfl, .refl _⟩

/-- The host that makes a reporter opens no document and gets no provider by it. -/
theorem createReporter_spares (host : Host) (session : Nat) (title : Option String) :
    (host.createReporter session title).2.documents = host.documents ∧
      (host.createReporter session title).2.provided = host.provided := by
  unfold Host.createReporter Host.await
  split
  · split <;> exact ⟨rfl, rfl⟩
  · split <;> exact ⟨rfl, rfl⟩

/-- Asking the host for a reporter calls back, and may end the client. Nothing is said to the server and no
provider is given. -/
theorem makeReporter_onward (h : Hosted) (call : Nat) : Onward reason h (h.makeReporter call) := by
  unfold makeReporter
  split
  · exact .refl h
  next title _ =>
    obtain ⟨documents, provided⟩ := createReporter_spares h.host h.number title
    have asked : Onward reason h { h with host := (h.host.createReporter h.number title).2 } :=
      .of_host rfl documents provided (.refl _)
    split
    next eq => rw [eq] at asked; exact asked
    next eq => rw [eq] at asked; exact asked.trans (withBoard_onward ..)
    next eq =>
      rw [eq] at asked
      exact asked.trans ((callback_onward ..).trans (withBoard_onward ..))

/-- One notification of progress goes on: the board changes and the host is told of reporters. -/
theorem handleProgress_onward (h : Hosted) (call : Nat) :
    Onward reason h (h.handleProgress call) := by
  have handling (k : Hosted) (handling : Option Nat) :
      Onward reason k { k with session := { k.session with handling } } :=
    .of_host rfl rfl rfl ⟨rfl, .refl _⟩
  have made : Onward reason h _ := (withBoard_onward h (h.session.progress.advance call)).trans
    (makeReporter_onward _ call)
  unfold handleProgress
  dsimp only
  split
  · exact made.trans (handling ..)
  · split
    · exact made.trans (handling ..)
    · exact (made.trans (handling _ none)).trans (note_onward ..)

/-- Taking up the next notification takes it from its feed, and goes on with it as far as the host lets it.
-/
theorem nextProgress_onward (h : Hosted) : Onward reason h h.nextProgress := by
  unfold nextProgress
  split
  · exact .refl h
  next params connection eq =>
    have taken : h.session.connection.Onward connection := by
      have next : h.session.connection.Onward
          (h.session.connection.next Session.progressFeed).2 := .of_eq rfl rfl
      rw [eq] at next
      exact next
    have read : Onward reason h _ := withConnection_onward (taken.trans
      (Connection.decoded_onward ProgressParams.method ProgressParams.ofJson? params))
    have begun (k : Hosted) (progress : ProgressBoard) :
        Onward reason k { k with session := { k.session with progress } } :=
      .of_host rfl rfl rfl ⟨rfl, .refl _⟩
    dsimp only
    split
    · exact read
    · exact (read.trans (begun ..)).trans (handleProgress_onward ..)

/-- The task that follows progress makes as many steps as notifications wait, and each of them goes on. -/
theorem followProgress_onward (h : Hosted) : Onward reason h h.followProgress := by
  have stepped (steps : Nat) (h : Hosted) : Onward reason h (progressSteps steps h) := by
    induction steps generalizing h with
    | zero => exact .refl h
    | succ steps ih =>
      unfold progressSteps
      split
      · dsimp only
        split
        · exact handleProgress_onward ..
        · exact (handleProgress_onward ..).trans (ih _)
      · exact (nextProgress_onward h).trans (ih _)
  exact stepped _ h

end Hosted

end LanguageClient
