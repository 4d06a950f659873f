import LanguageClient.Proofs.Connection.Course
import LanguageClient.Session.Handshake
import LanguageClient.Session.Projection

/-!
# The course of a session

What an operation of a session leaves as it is, for the session, and for the host as far as the
client's roots and tasks depend on it. `Session.Later` says that a session keeps its root, stays
disposed once it is, and that a disposed session has no connection any more; `Session.Beside` says
besides that its server was told nothing of folders.

`Hosted.Course` carries such a relation through an operation: the host keeps its roots, and a host
that would not end the client from inside a callback does not start to. Every operation of a session
but the greeting is beside the folders.
-/

namespace LanguageClient

/-! ## Sessions -/

namespace Session

variable {s t u : Session}

/-- A disposed session has no connection any more. -/
def IsSettled (s : Session) : Prop := s.isDisposed = true → s.connection.isOver = true

/-- A later state of a session. -/
structure Later (s t : Session) : Prop where
  root : t.root = s.root
  disposed : s.isDisposed = true → t.isDisposed = true
  released : t.isReleased = s.isReleased
  settled : s.IsSettled → t.IsSettled
  connection : s.connection.Later t.connection

/-- A later state of a session, whose server was told nothing of folders meanwhile. -/
structure Beside (s t : Session) : Prop extends Later s t where
  news : t.connection.news = s.connection.news

theorem Later.refl (s : Session) : s.Later s := ⟨rfl, id, rfl, id, .refl _⟩

/-- Later states of a session compose. A session that is disposed in the first step has no connection any
more after the second. -/
theorem Later.trans (first : s.Later t) (second : t.Later u) : s.Later u :=
  ⟨second.root.trans first.root, second.disposed ∘ first.disposed,
    second.released.trans first.released, second.settled ∘ first.settled,
    first.connection.trans second.connection⟩

theorem Beside.refl (s : Session) : s.Beside s := ⟨.refl s, rfl⟩

/-- Two steps in which the server was told nothing of folders make one, with the same news at both ends. -/
theorem Beside.trans (first : s.Beside t) (second : t.Beside u) : s.Beside u :=
  ⟨first.toLater.trans second.toLater, second.news.trans first.news⟩

/-- What leaves the connection alone is beside the folders. It is the case for all that a session keeps for
itself. -/
theorem Beside.of_eq (root : t.root = s.root) (disposed : t.isDisposed = s.isDisposed)
    (released : t.isReleased = s.isReleased) (connection : t.connection = s.connection) :
    s.Beside t where
  root := root
  disposed := by rw [disposed]; exact id
  released := released
  settled := by unfold IsSettled; rw [disposed, connection]; exact id
  connection := by rw [connection]; exact .refl _
  news := by rw [connection]

/-- A session whose connection goes to a later state is in a later state itself, as nothing else has
changed. -/
theorem Later.of_connection {connection : Connection SessionHandler}
    (later : s.connection.Later connection) : s.Later { s with connection } :=
  ⟨rfl, id, rfl, fun settled disposed => later.finished (settled disposed), later⟩

/-- A session whose connection is beside the folders is so itself. All that is proved of connections comes
into sessions by this. -/
theorem Beside.of_connection {connection : Connection SessionHandler}
    (beside : s.connection.Beside connection) : s.Beside { s with connection } :=
  ⟨.of_connection beside.toLater, beside.news⟩

end Session

/-! ## Operations -/

namespace Hosted

variable {R : Session → Session → Prop} {h k l : Hosted}

/-- What an operation of a session does to it, and what it leaves to the host. -/
structure Course (R : Session → Session → Prop) (h k : Hosted) : Prop where
  number : k.number = h.number
  roots : k.host.roots = h.host.roots
  calm : h.host.armed = [] → k.host.armed = [] ∧ k.hasEnded = h.hasEnded
  session : R h.session k.session

/-- Two operations compose whenever the relation that they carry does. The composition is an argument,
because the relation is one. -/
theorem Course.trans (closed : ∀ {s t u}, R s t → R t u → R s u) (first : Course R h k)
    (second : Course R k l) : Course R h l where
  number := second.number.trans first.number
  roots := second.roots.trans first.roots
  calm quiet := by
    obtain ⟨unarmed, ended⟩ := first.calm quiet
    obtain ⟨unarmed, ended'⟩ := second.calm unarmed
    exact ⟨unarmed, ended'.trans ended⟩
  session := closed first.session second.session

/-- What an operation does to the host, without the session: the relation for the session may be any other
that is known to hold. -/
theorem Course.of_session {Q : Session → Session → Prop} (course : Course Q h k)
    (session : R h.session k.session) : Course R h k :=
  ⟨course.number, course.roots, course.calm, session⟩

/-- An operation that leaves the host alone carries whatever relation it has for the session. -/
theorem Course.of_host (number : k.number = h.number) (host : k.host = h.host)
    (ended : k.hasEnded = h.hasEnded) (session : R h.session k.session) : Course R h k :=
  ⟨number, by rw [host], fun quiet => ⟨by rw [host]; exact quiet, ended⟩, session⟩

/-- What an operation with a result does, once the result is known. -/
theorem Course.of_pair {α : Type} {result : α} {pair : α × Hosted} (course : Course R h pair.2)
    (eq : pair = (result, k)) : Course R h k := by
  rw [eq] at course
  exact course

/-- Whether the host alone is concerned. -/
abbrev Aside (h k : Hosted) : Prop := Course (fun s t => t = s) h k

/-- An operation that tells the server nothing of folders. -/
abbrev Beside (h k : Hosted) : Prop := Course Session.Beside h k

theorem Aside.refl (h : Hosted) : Aside h h := .of_host rfl rfl rfl rfl

theorem Aside.trans (first : Aside h k) (second : Aside k l) : Aside h l :=
  Course.trans (fun first second => second.trans first) first second

theorem Beside.refl (h : Hosted) : Beside h h := .of_host rfl rfl rfl (.refl _)

theorem Beside.trans (first : Beside h k) (second : Beside k l) : Beside h l :=
  Course.trans Session.Beside.trans first second

/-- What concerns the host alone is beside the folders, as the session is the same. -/
theorem Aside.beside (aside : Aside h k) : Beside h k :=
  aside.of_session (aside.session ▸ .refl _)

/-- Steps that are beside the folders, one after the other, are so together. It serves messages, views,
registrations and documents. -/
theorem foldl_beside {α : Type} {step : Hosted → α → Hosted} (each : ∀ h a, Beside h (step h a))
    (items : List α) (h : Hosted) : Beside h (items.foldl step h) := by
  induction items generalizing h with
  | nil => exact .refl h
  | cons item items ih => exact (each h item).trans (ih _)

/-! ## The host -/

/-- A step of the connection that is beside the folders is so as an operation of the session. -/
theorem withConnection_beside {connection : Connection SessionHandler}
    (beside : h.session.connection.Beside connection) : Beside h (h.withConnection connection) :=
  .of_host rfl rfl rfl (.of_connection beside)

/-- A word in the log goes to nobody but the one who reads the log. -/
theorem note_beside (h : Hosted) (part : LogPart) (level : LogLevel) (message : String)
    (fields : List (String × String)) : Beside h (h.note part level message fields) :=
  withConnection_beside (Connection.record_beside _)

/-- A callback concerns the host alone, as long as it does not reach this session. A host that would not end
the client still would not afterwards. -/
theorem ring_aside (h : Hosted) (call : HostCall) : Aside h (h.ring call) := by
  unfold ring Host.ring
  by_cases armed : call ∈ h.host.armed
  · have noisy : h.host.armed ≠ [] := List.ne_nil_of_mem armed
    simp only [armed, if_true]
    split <;> exact ⟨rfl, rfl, fun quiet => absurd quiet noisy, rfl⟩
  · simp only [armed, if_false]
    exact .refl h

/-- Drawing in a view concerns the host alone. -/
theorem decorate_aside (h : Hosted) (view : View) (items : List Decoration) :
    Aside h (h.decorate view items) := ⟨rfl, rfl, fun quiet => ⟨quiet, rfl⟩, rfl⟩

/-! ## Disposing -/

/-- Emptying the views concerns the host alone, once the diagnostics are forgotten. The fold is over the
views, and each of its steps draws and calls back. -/
theorem clearDiagnostics_aside (h : Hosted) :
    Aside { h with session := { h.session with diagnostics := [] } } h.clearDiagnostics := by
  unfold clearDiagnostics
  suffices emptied : ∀ (views : List View) (k : Hosted),
      Aside k (views.foldl (fun h view => (h.decorate view []).ring .setDecorations) k) from
    emptied _ _
  intro views
  induction views with
  | nil => exact .refl
  | cons view views ih =>
    exact fun k => ((decorate_aside k view []).trans (ring_aside _ _)).trans (ih _)

/-- All providers are taken back from the host, and the server is not told. -/
theorem clearRegistrations_beside (h : Hosted) : Beside h h.clearRegistrations :=
  ⟨rfl, rfl, fun quiet => ⟨quiet, rfl⟩, .of_eq rfl rfl rfl rfl⟩

/-- The session loses what the host has because of it, and its connection is closed. It says more than being
beside the folders: what disposing does to the pipe is what closing does. -/
theorem dispose_course (h : Hosted) (live : h.session.isDisposed = false) :
    Course (fun s t => t.root = s.root ∧ t.isDisposed = true ∧ t.isReleased = s.isReleased ∧
      s.connection.close.Beside t.connection ∧
        t.connection.outgoing = s.connection.close.outgoing) h h.dispose := by
  unfold dispose
  rw [if_neg (by rw [live]; exact Bool.false_ne_true)]
  have cleared := clearDiagnostics_aside
    { h with session := { h.session with isDisposed := true } }.clearRegistrations
  dsimp only
  generalize { h with session := { h.session with isDisposed := true }
    }.clearRegistrations.clearDiagnostics = k at cleared ⊢
  obtain ⟨number, roots, calm, session⟩ := cleared
  refine ⟨number, roots, calm, ?_⟩
  simp only [completeAll, report, withConnection, note, session]
  exact ⟨rfl, rfl, rfl, Connection.record_beside _, rfl⟩

/-- The end of a session is beside the folders. A session that is disposed already is left as it is. -/
theorem dispose_beside (h : Hosted) : Beside h h.dispose := by
  cases live : h.session.isDisposed with
  | true =>
    unfold dispose
    rw [if_pos live]
    exact .refl h
  | false =>
    have course := h.dispose_course live
    obtain ⟨root, disposed, released, closed, -⟩ := course.session
    have beside := Connection.close_beside.trans closed
    exact course.of_session ⟨⟨root, fun _ => disposed, released,
      fun _ _ => closed.finished (Connection.isOver_close _), beside.toLater⟩, beside.news⟩

/-- A disposed session stays as it is when it is disposed again. Disposing happens once by this, whoever
asks for it. -/
theorem dispose_of_disposed (gone : h.session.isDisposed = true) : h.dispose = h := by
  unfold dispose
  rw [if_pos gone]

/-- Whoever disposes a session finds it disposed, whether or not it was so before. -/
theorem isDisposed_dispose (h : Hosted) : h.dispose.session.isDisposed = true := by
  cases live : h.session.isDisposed with
  | true => rw [dispose_of_disposed live]; exact live
  | false => exact (h.dispose_course live).session.2.1

/-- A callback is beside the folders, also where the host ends the client in it and the session is disposed
before it returns. -/
theorem callback_beside (h : Hosted) (call : HostCall) : Beside h (h.callback call) := by
  unfold callback
  have rung := (ring_aside h call).beside
  dsimp only
  split
  · exact rung.trans (dispose_beside _)
  · exact rung

/-! ## Registering -/

/-- Taking a registration back withdraws a provider from the host, and the server hears nothing of it. -/
theorem uninstall_beside (h : Hosted) (id : RegistrationId) : Beside h (h.uninstall id) := by
  unfold uninstall
  split
  · exact .refl h
  · exact ⟨rfl, rfl, fun quiet => ⟨quiet, rfl⟩, .of_eq rfl rfl rfl rfl⟩

/-- A provider that is given to the host comes under an id that is freed first. Giving it calls back. -/
theorem addProvider_beside (h : Hosted) (feature : Feature) (id : RegistrationId)
    (selector : DocumentSelector) : Beside h (h.addProvider feature id selector) := by
  unfold addProvider
  have provided : Beside h { h with host :=
      (h.host.provide feature.kind selector feature h.number).2 } :=
    ⟨rfl, rfl, fun quiet => ⟨quiet, rfl⟩, .refl _⟩
  have uninstalled := provided.trans ((callback_beside _ .registerProvider).trans
    (uninstall_beside _ id))
  exact uninstalled.trans (.of_host rfl rfl rfl (.of_eq rfl rfl rfl rfl))

/-- A registration is carried out, or fails on its options, or has no feature. None of the three tells the
server of folders. -/
theorem install_beside (h : Hosted) (registration : Registration) :
    Beside h (h.install registration).2 := by
  unfold install
  have uninstalled := uninstall_beside h registration.id
  dsimp only
  split
  · exact uninstalled
  · split
    · exact uninstalled
    · exact uninstalled.trans (addProvider_beside ..)

/-- A registration that fails leaves a word in the log and is otherwise as if it had not been asked for. -/
theorem installNoted_beside (h : Hosted) (registration : Registration) :
    Beside h (h.installNoted registration).2 := by
  have installed := install_beside h registration
  unfold installNoted
  split
  next eq => exact installed.of_pair eq
  next eq => exact Beside.trans (installed.of_pair eq) (note_beside ..)

/-- Registrations one after the other, up to the first that fails, are beside the folders, by induction on
them. -/
theorem installEach_beside (h : Hosted) (registrations : List Registration) :
    Beside h (h.installEach registrations).2 := by
  induction registrations generalizing h with
  | nil => exact .refl h
  | cons registration registrations ih => exact (installNoted_beside h registration).trans (ih _)

/-- If the session was disposed while its registrations were carried out, they are taken back, and that is
beside the folders too. -/
theorem installAll_beside (h : Hosted) (registrations : List Registration) :
    Beside h (h.installAll registrations).2 := by
  unfold installAll
  split
  · exact .refl h
  · have installed := installEach_beside h registrations
    dsimp only
    split
    · exact installed.trans (clearRegistrations_beside _)
    · exact installed

/-- What a handler does for a request of the server is beside the folders, whichever of the two requests it
is. -/
theorem serve_beside (h : Hosted) (handler : SessionHandler) (method : String) (params : Json) :
    Beside h (h.serve handler method params).2 := by
  unfold serve
  split
  · split
    · exact .refl h
    · exact installAll_beside ..
  · split
    · exact .refl h
    · exact foldl_beside uninstall_beside _ h

/-- A job is carried out and answered. The answer is a response, and responses are no news. -/
theorem runJob_beside (h : Hosted) (isHeld : Bool) (number : Nat) :
    Beside h (h.runJob isHeld number) := by
  unfold runJob
  split
  · exact .refl h
  · dsimp only
    split
    · exact withConnection_beside (Connection.finish_beside ..)
    · exact (serve_beside ..).trans (withConnection_beside (Connection.finish_beside ..))

/-! ## Showing -/

/-- Taking what waits in a feed tells the server nothing. -/
theorem drainAs_beside {α : Type} (h : Hosted) (method : String) (decode : Json → Option α)
    (feed : Nat) : Beside h (h.drainAs method decode feed).2 :=
  withConnection_beside (Connection.drainAs_beside ..)

/-- The server's words go to the log, one after the other, and nothing goes back. -/
theorem forwardLog_beside (h : Hosted) : Beside h h.forwardLog :=
  (drainAs_beside h ..).trans (foldl_beside (fun _ _ => note_beside ..) _ _)

/-- Decorating a view draws and then calls back, so it is beside the folders although the session may be
disposed in it. -/
theorem render_beside (h : Hosted) (view : View) : Beside h (h.render view) :=
  (decorate_aside h view _).beside.trans (callback_beside ..)

/-- Diagnostics of a document are kept and drawn in its views, or dropped if the document has no name for
the host. -/
theorem publish_beside (h : Hosted) (rewriter : Rewriter) (published : PublishedDiagnostics) :
    Beside h (h.publish rewriter published) := by
  unfold publish
  split
  · exact note_beside ..
  next document _ =>
    have kept : Beside h { h with
        session := h.session.keepDiagnostics document published.diagnostics } :=
      .of_host rfl rfl rfl (.of_eq rfl rfl rfl rfl)
    exact kept.trans (foldl_beside render_beside _ _)

/-- That the opened documents were taken notice of is kept in the session alone. -/
theorem forgetOpened_beside (h : Hosted) :
    Beside h { h with session := { h.session with openedDocuments := 0 } } :=
  .of_host rfl rfl rfl (.of_eq rfl rfl rfl rfl)

/-- The task that follows diagnostics publishes what waits and draws anew for each document that was opened.
Both are folds of steps beside the folders. -/
theorem followDiagnostics_beside (h : Hosted) (rewriter : Rewriter) :
    Beside h (h.followDiagnostics rewriter) := by
  unfold followDiagnostics
  have drained := drainAs_beside h PublishedDiagnostics.method PublishedDiagnostics.ofJson?
    Session.diagnosticsFeed
  generalize h.drainAs PublishedDiagnostics.method PublishedDiagnostics.ofJson?
    Session.diagnosticsFeed = pair at drained ⊢
  obtain ⟨published, k⟩ := pair
  have shown := drained.trans
    (foldl_beside (fun h params => publish_beside h rewriter params) published k)
  refine (shown.trans (forgetOpened_beside _)).trans ?_
  exact foldl_beside (fun h _ => foldl_beside render_beside _ h) _ _

/-- The board of reporters changes, and the host is told of it, but not the server. -/
theorem withBoard_beside (h : Hosted) (change : ProgressBoard × List ReporterEvent) :
    Beside h (h.withBoard change) :=
  ⟨rfl, rfl, fun quiet => ⟨quiet, rfl⟩, .of_eq rfl rfl rfl rfl⟩

/-- Asking for a reporter leaves to the host what the client depends on: its roots and the callbacks in
which it would end the client. -/
theorem createReporter_host (host : Host) (session : Nat) (title : Option String) :
    (host.createReporter session title).2.roots = host.roots ∧
      (host.createReporter session title).2.armed = host.armed := by
  unfold Host.createReporter Host.await
  split
  · split <;> exact ⟨rfl, rfl⟩
  · split <;> exact ⟨rfl, rfl⟩

/-- The host is asked for a reporter, which it makes, refuses or promises for later. The server hears
nothing in any of the cases. -/
theorem makeReporter_beside (h : Hosted) (call : Nat) : Beside h (h.makeReporter call) := by
  unfold makeReporter
  split
  · exact .refl h
  next title _ =>
    obtain ⟨roots, armed⟩ := createReporter_host h.host h.number title
    have asked : Beside h { h with host := (h.host.createReporter h.number title).2 } :=
      ⟨rfl, roots, fun quiet => ⟨armed.trans quiet, rfl⟩, .refl _⟩
    split
    next eq => rw [eq] at asked; exact asked
    next eq => rw [eq] at asked; exact asked.trans (withBoard_beside ..)
    next eq =>
      rw [eq] at asked
      exact asked.trans ((callback_beside ..).trans (withBoard_beside ..))

theorem handling_beside (h : Hosted) (handling : Option Nat) :
    Beside h { h with session := { h.session with handling } } :=
  .of_host rfl rfl rfl (.of_eq rfl rfl rfl rfl)

theorem progress_beside (h : Hosted) (progress : ProgressBoard) :
    Beside h { h with session := { h.session with progress } } :=
  .of_host rfl rfl rfl (.of_eq rfl rfl rfl rfl)

/-- A notification of progress is handled as far as the host lets it, beside the folders. -/
theorem handleProgress_beside (h : Hosted) (call : Nat) : Beside h (h.handleProgress call) := by
  unfold handleProgress
  have made := (withBoard_beside h (h.session.progress.advance call)).trans
    (makeReporter_beside _ call)
  dsimp only
  split
  · exact made.trans (handling_beside ..)
  · split
    · exact made.trans (handling_beside ..)
    · exact (made.trans (handling_beside _ none)).trans (note_beside ..)

/-- The next notification is taken from its feed and begun, or dropped if it has not the right shape. -/
theorem nextProgress_beside (h : Hosted) : Beside h h.nextProgress := by
  unfold nextProgress
  split
  · exact .refl h
  next params connection eq =>
    have taken : h.session.connection.Beside connection := by
      have next := Connection.next_beside (c := h.session.connection) Session.progressFeed
      rw [eq] at next
      exact next
    have read := withConnection_beside (h := h) (taken.trans
      (Connection.decoded_beside ProgressParams.method ProgressParams.ofJson? params))
    dsimp only
    split
    · exact read
    · exact (read.trans (progress_beside ..)).trans (handleProgress_beside ..)

/-- Any number of steps of the progress task is beside the folders, by induction on the number. -/
theorem progressSteps_beside (steps : Nat) (h : Hosted) : Beside h (progressSteps steps h) := by
  induction steps generalizing h with
  | zero => exact .refl h
  | succ steps ih =>
    unfold progressSteps
    split
    · dsimp only
      split
      · exact handleProgress_beside ..
      · exact (handleProgress_beside ..).trans (ih _)
    · exact (nextProgress_beside h).trans (ih _)

/-- The task that follows progress is beside the folders, as the number of its steps is of no account. -/
theorem followProgress_beside (h : Hosted) : Beside h h.followProgress :=
  progressSteps_beside _ h

/-! ## Greeting -/

/-- A notification that went out is beside the folders unless it is the one for changes of folders. -/
theorem notify_beside {method : String} {params : Json} (sent : h.notify method params = .ok k)
    (other : method ≠ FolderChange.method) : Beside h k := by
  obtain ⟨connection, notified, rfl⟩ := notify_ok sent
  exact withConnection_beside (Connection.notify_beside notified other)

/-- Announcing a document is a notification of another method, so it is beside the folders. -/
theorem announce_beside {rewriter : Rewriter} {document : TextDocument}
    (sent : h.announce rewriter document = .ok k) : Beside h k := by
  obtain ⟨uri, -, sent⟩ := announce_ok sent
  exact notify_beside sent (by decide)

/-- Documents are announced up to the first that cannot be. Those that went out before it are beside the
folders. -/
theorem announceEach_beside (h : Hosted) (rewriter : Rewriter) (documents : List TextDocument) :
    Beside h (h.announceEach rewriter documents).2 := by
  induction documents generalizing h with
  | nil => exact .refl h
  | cons document documents ih =>
    unfold announceEach
    split
    · exact .refl h
    next sent => exact (announce_beside sent).trans (ih _)

theorem announceAll_beside (h : Hosted) (rewriter : Rewriter) :
    Beside h (h.announceAll rewriter).2 := announceEach_beside ..

/-- What the answer to the greeting advertises is registered with the host, and the server is told nothing
of it. -/
theorem installStatic_beside (h : Hosted) (options : ClientOptions) (answer : Json) :
    Beside h (h.installStatic options answer) := by
  unfold installStatic
  dsimp only
  split
  next eq => exact (installAll_beside ..).of_pair eq
  next eq => exact Beside.trans ((installAll_beside ..).of_pair eq) (note_beside ..)

/-- After the answer to the greeting come a word that the client is ready, the documents and the
registrations, and none of them is about folders. -/
theorem proceed_beside (h : Hosted) (options : ClientOptions) (answer : Json) :
    Beside h (h.proceed options answer).2 := by
  unfold proceed
  split
  · exact .refl h
  next sent =>
    have said := notify_beside sent (by decide)
    split
    next eq => exact said.trans ((announceAll_beside ..).of_pair eq)
    next eq =>
      exact (said.trans ((announceAll_beside ..).of_pair eq)).trans (installStatic_beside ..)

/-- What follows the greeting is beside the folders, also where it fails and the session is disposed. So the
greeting stays the one that named roots. -/
theorem welcome_beside (h : Hosted) (options : ClientOptions) (outcome : Outcome) :
    Beside h (h.welcome options outcome).2 := by
  unfold welcome
  split
  · exact dispose_beside h
  next answer =>
    have proceeded := proceed_beside h options answer
    split
    next eq => exact proceeded.of_pair eq
    next eq => exact Beside.trans (proceeded.of_pair eq) (dispose_beside _)

/-- The greeting is the one thing that a session itself tells its server of folders. It is a later state,
and what its news are is said where roots are counted. -/
theorem greet_course (h : Hosted) (options : ClientOptions)
    (folders : Option (List WorkspaceFolder)) :
    Course Session.Later h (h.greet options folders).2 := by
  unfold greet
  split
  · have gone := dispose_beside h
    exact gone.of_session gone.session.toLater
  · have noted := note_beside h .session .info "initializing language server"
      [("root", h.session.rootText)]
    exact .of_host rfl rfl rfl (noted.session.toLater.trans
      (.of_connection (Connection.request_later ..)))

end Hosted

end LanguageClient
