import LanguageClient.Proofs.Connection.Feeds
import LanguageClient.Proofs.Registering.Announcing
import LanguageClient.Proofs.Scoping.Nesting
import LanguageClient.Proofs.World.Leads

/-!
# Who hears of a document

A server is told that a document is open in two ways only. The client announces the documents of the host
that are under the root of the session, when the server has answered the greeting. And whoever uses the
connection may send any notification, of which nothing is said here (`World.IsRelayed`).

Whatever waits for a server after an operation has waited before or is what the operation may send
(`Connection.Adds`). So what a session says of documents is what it may say at some moment of the run
(`Hosted.MaySay`), and that is still so at the end, as no session changes its root and no document is closed
(`World.run_isProper`).

Roots that are not inside each other have no document in common. So their servers hear of different
documents (`World.run_announces_apart`).
-/

namespace LanguageClient

/-- Whether a message tells a server that some document is open. -/
def Message.isOpening : Message → Bool
  | .notification said => said.method = didOpenMethod
  | _ => false

namespace Rewriter

variable {rewriter : Rewriter}

/-- Whether different addresses have different names at the server. -/
def IsFaithful (rewriter : Rewriter) : Prop := ∀ (url other : Url) (reference : UriReference),
  rewriter.toReference url = .ok reference → rewriter.toReference other = .ok reference → url = other

/-- The documents that one message announces have one address, if the rewriter is faithful. -/
theorem IsFaithful.uri_eq (faithful : rewriter.IsFaithful) {document other : TextDocument}
    {message : Message} (announces : rewriter.Announces document message)
    (announces' : rewriter.Announces other message) : document.uri = other.uri := by
  obtain ⟨uri, named, rfl⟩ := announces
  obtain ⟨uri', named', same⟩ := announces'
  have texts : uri.text = uri'.text := by
    simp only [Notification.make, TextDocument.openParams, UriReference.toJson, Message.notification.injEq,
      Notification.mk.injEq, Option.some.injEq, Json.obj.injEq, List.cons.injEq, Prod.mk.injEq,
      Json.str.injEq, true_and, and_true] at same
    exact same.2.2
  have references : uri = uri' := by
    cases uri
    cases uri'
    cases texts
    rfl
  exact faithful _ _ _ named (references ▸ named')

/-- Where both sides use the same names, a reference is the text of one URL only. -/
theorem identity_isFaithful : identity.IsFaithful := by
  have text_eq {url : Url} {reference : UriReference} (named : identity.toReference url = .ok reference) :
      reference.text = url.text := by
    have found : url.toReference = .ok reference := named
    unfold Url.toReference UriReference.ofText? at found
    split at found
    next read =>
      cases found
      split at read
      · cases read
        rfl
      · cases read
    next => cases found
  rintro ⟨text⟩ ⟨text'⟩ reference named named'
  exact congrArg Url.mk ((text_eq named).symm.trans (text_eq named'))

end Rewriter

/-! ## What a connection says -/

namespace Connection

variable {η : Type} {c d e : Connection η} {may : Message → Prop}

/-- Whatever waits for the server later has waited before or may be sent. -/
structure Adds (may : Message → Prop) (c d : Connection η) : Prop where
  added : ∀ message ∈ d.outgoing.waiting, message ∈ c.outgoing.waiting ∨ may message

namespace Adds

/-- Where the same waits for the server, nothing was added. -/
theorem of_waiting (same : d.outgoing.waiting = c.outgoing.waiting) : c.Adds may d :=
  ⟨fun _ member => .inl (same ▸ member)⟩

/-- A connection adds nothing by staying as it is. -/
theorem refl (c : Connection η) : c.Adds may c := of_waiting rfl

/-- What is added in two steps waited before the first, or may be sent in one of them. -/
theorem trans (first : c.Adds may d) (second : d.Adds may e) : c.Adds may e :=
  ⟨fun message member => (second.added message member).elim (first.added message) .inr⟩

/-- Going through a list adds what each of its steps may send. -/
theorem foldl {α : Type} {step : Connection η → α → Connection η}
    (each : ∀ (c : Connection η) (a : α), c.Adds may (step c a)) (items : List α) (c : Connection η) :
    c.Adds may (items.foldl step c) := by
  induction items generalizing c with
  | nil => exact .refl c
  | cons item items ih => exact (each c item).trans (ih _)

end Adds

/-- A note for the log adds nothing. -/
theorem note_adds (level : LogLevel) (message : String) (fields : List (String × String)) :
    c.Adds may (c.note level message fields) := .of_waiting rfl

/-- Sending adds the one message, if it goes out at all. -/
theorem send_adds {message : Message} (sent : c.send message = .ok d) (allowed : may message) :
    c.Adds may d where
  added said member := by
    rw [(send_ok sent).1] at member
    rcases List.mem_append.mp member with before | now
    · exact .inl before
    · exact .inr (List.mem_singleton.mp now ▸ allowed)

/-- A request adds itself, and no more than that if it cannot be sent. -/
theorem request_adds (method : String) (params : Json) (allowed : ∀ asked, may (.request asked)) :
    c.Adds may (c.request method params).2 := by
  have awaits : c.Adds may (c.awaiting method) := by
    unfold awaiting cleared
    split <;> exact .of_waiting rfl
  cases closed : c.isClosed with
  | true =>
    unfold request
    rw [if_pos closed]
    exact .of_waiting rfl
  | false =>
    rw [request_eq closed]
    split
    next sent => exact awaits.trans (send_adds sent (allowed _))
    next => exact awaits.trans (.of_waiting rfl)

/-- A connection that nobody can use any more loses its writer, and says nothing by that. -/
theorem release_adds : c.Adds may c.release := by
  unfold release
  split
  · exact .refl c
  · exact .of_waiting rfl

/-- What a server sends is put where the client reads, which is nothing that waits for the server. -/
theorem arrive_adds (message : Message) : c.Adds may (c.arrive message) := by
  unfold arrive tellReader
  split
  · split
    · dsimp only
      split <;> exact .of_waiting rfl
    · exact .refl c
  · exact .refl c

/-- A server that sends no more is told nothing by it. -/
theorem hangUp_adds : c.Adds may c.hangUp := by
  unfold hangUp tellReader
  split <;> exact .of_waiting rfl

/-- A server that reads no more loses what waits for it. -/
theorem stopReading_adds : c.Adds may c.stopReading := ⟨fun _ member => nomatch member⟩

section Replying

variable (allowed : ∀ response, may (.response response))

include allowed

/-- An answer that cannot be sent is dropped, and no other message is put in its place. -/
theorem reply_adds (response : Response) : c.Adds may (c.reply response) := by
  unfold reply
  split
  next sent => exact send_adds sent (allowed response)
  next => exact .refl c

/-- A job that is finished adds its answer at most. -/
theorem finish_adds (number : Nat) (outcome : Outcome) : c.Adds may (c.finish number outcome) := by
  have finished (jobs : List (Job η)) : c.Adds may { c with jobs } := .of_waiting rfl
  unfold finish
  split
  · exact .refl c
  · split
    · exact (finished _).trans (reply_adds allowed _)
    · exact (finished _).trans ((note_adds ..).trans (reply_adds allowed _))

/-- Dispatching a message adds an answer at most, namely where a request is refused at once. -/
theorem dispatch_adds (c : Connection η) (message : Message) : c.Adds may (c.dispatch message) := by
  cases message with
  | response response =>
    change c.Adds may (c.complete response)
    unfold complete
    split
    · exact .of_waiting rfl
    · split <;> exact .of_waiting rfl
  | notification said => exact .of_waiting rfl
  | request asked =>
    change c.Adds may (c.answer asked)
    unfold answer
    split
    · exact (note_adds ..).trans (reply_adds allowed _)
    · exact .of_waiting rfl

/-- Reading dispatches what has come, message by message, and so adds answers only. -/
theorem read_adds : c.Adds may c.read := by
  have taken : c.Adds may { c with incoming := { c.incoming with waiting := [] } } := .of_waiting rfl
  unfold read
  split
  · have dispatched := taken.trans (Adds.foldl (dispatch_adds allowed) c.incoming.waiting _)
    dsimp only
    split
    · exact dispatched
    · exact dispatched.trans (.of_waiting (waiting_close _))
  · exact .refl c

end Replying

end Connection

/-! ## What a session says -/

namespace Hosted

variable {options : ClientOptions} {h k l : Hosted}

/-- Whether a session may say a message: what tells of an open document announces one that the host has open
under the root. -/
def MaySay (options : ClientOptions) (h : Hosted) (message : Message) : Prop :=
  message.isOpening = true → ∃ document ∈ h.covered, options.rewriter.Announces document message

/-- A request tells of no document. -/
theorem maySay_request (asked : Request) : h.MaySay options (.request asked) := fun opens => nomatch opens

/-- Nor does a notification of another kind. -/
theorem maySay_notification {method : String} (other : method ≠ didOpenMethod) (params : Option Json) :
    h.MaySay options (.notification (Notification.make method params)) :=
  fun opens => absurd (of_decide_eq_true (p := method = didOpenMethod) opens) other

/-- Nor does an answer. -/
theorem maySay_response (response : Response) : h.MaySay options (.response response) :=
  fun opens => nomatch opens

/-- What an operation of a session tells the server of documents. -/
structure Tells (options : ClientOptions) (h k : Hosted) : Prop where
  documents : k.host.documents = h.host.documents
  root : k.session.root = h.session.root
  adds : h.session.connection.Adds (h.MaySay options) k.session.connection

namespace Tells

/-- What says nothing tells nothing. Documents and root are kept by whatever goes onward. -/
theorem of_said (onward : Onward (fun _ => True) h k) (said : k.session.said = h.session.said) :
    Tells options h k := ⟨onward.documents, onward.session.root, .of_waiting said⟩

/-- A session that does nothing tells nothing. -/
theorem refl (h : Hosted) : Tells options h h := ⟨rfl, rfl, .refl _⟩

/-- The documents that a session covers are the same before and after, as neither they nor its root have
changed. -/
theorem covered (tells : Tells options h k) : k.covered = h.covered := by
  unfold Hosted.covered Session.covers
  rw [tells.documents, tells.root]

/-- What is told in two steps is told in the one or the other. A session may say the same before and after
the first, since what it covers has not changed. -/
theorem trans (first : Tells options h k) (second : Tells options k l) : Tells options h l where
  documents := second.documents.trans first.documents
  root := second.root.trans first.root
  adds := by
    have adds := second.adds
    unfold MaySay at adds
    rw [first.covered] at adds
    exact first.adds.trans adds

/-- An operation with a result, once the pair is taken apart. -/
theorem of_pair {α : Type} {result : α} {pair : α × Hosted} (tells : Tells options h pair.2)
    (eq : pair = (result, k)) : Tells options h k := by
  rw [eq] at tells
  exact tells

end Tells

/-- Only the connection changes, by what the session may say. -/
theorem withConnection_tells {connection : Connection SessionHandler}
    (adds : h.session.connection.Adds (h.MaySay options) connection) :
    Tells options h (h.withConnection connection) := ⟨rfl, rfl, adds⟩

/-- A session that is disposed tells nothing. -/
theorem dispose_tells (h : Hosted) : Tells options h h.dispose := .of_said (dispose_onward h) (said_dispose h)

/-! ### Greeting -/

/-- Greeting the server tells of no document: it is a request, or the session is disposed. -/
theorem greet_tells (h : Hosted) (folders : Option (List WorkspaceFolder)) :
    Tells options h (h.greet options folders).2 := by
  unfold greet
  split
  · exact dispose_tells h
  · have noted (level : LogLevel) (message : String) (fields : List (String × String)) :
        Tells options h (h.note .session level message fields) := withConnection_tells (.of_waiting rfl)
    exact (noted ..).trans (withConnection_tells (Connection.request_adds _ _ maySay_request))

/-- Documents that are announced are among those that the session covers, whichever of them comes first. -/
theorem announceEach_tells {documents : List TextDocument}
    (open_ : ∀ document ∈ documents, document ∈ h.covered) :
    Tells options h (h.announceEach options.rewriter documents).2 := by
  induction documents generalizing h with
  | nil => exact .refl h
  | cons document documents ih =>
    unfold announceEach
    split
    · exact .refl h
    next sent =>
      obtain ⟨message, connection, announces, said, rfl⟩ := announce_sends sent
      have told : Tells options h (h.withConnection connection) :=
        withConnection_tells (Connection.send_adds said fun _ =>
          ⟨document, open_ _ List.mem_cons_self, announces⟩)
      exact told.trans (ih fun later member => open_ later (List.mem_cons_of_mem _ member))

/-- After the greeting, the notification of readiness tells of no document, the announcements tell of
covered ones, and registering says nothing. -/
theorem proceed_tells (h : Hosted) (answer : Json) : Tells options h (h.proceed options answer).2 := by
  unfold proceed
  split
  · exact .refl h
  next k sent =>
    obtain ⟨connection, notified, rfl⟩ := notify_ok sent
    have ready : Tells options h (h.withConnection connection) :=
      withConnection_tells (Connection.send_adds notified (maySay_notification (by decide) _))
    have announced : Tells options h ((h.withConnection connection).announceAll options.rewriter).2 :=
      ready.trans (announceEach_tells fun _ member => member)
    split
    next eq => exact announced.of_pair eq
    next eq =>
      exact (announced.of_pair eq).trans
        (.of_said (installStatic_onward (fun _ => trivial) ..) (said_installStatic ..))

/-- What follows the answer to the greeting tells of covered documents only, and a session that fails is
disposed. -/
theorem welcome_tells (h : Hosted) (outcome : Outcome) : Tells options h (h.welcome options outcome).2 := by
  unfold welcome
  split
  · exact dispose_tells h
  next answer =>
    have proceeded : Tells options h (h.proceed options answer).2 := proceed_tells h answer
    split
    next eq => exact proceeded.of_pair eq
    next eq => exact (proceeded.of_pair eq).trans (dispose_tells _)

/-! ### Serving and showing -/

/-- Going through a list says nothing if no step does. -/
theorem said_foldl {α : Type} {step : Hosted → α → Hosted}
    (each : ∀ h a, (step h a).session.said = h.session.said) (items : List α) (h : Hosted) :
    (items.foldl step h).session.said = h.session.said := by
  induction items generalizing h with
  | nil => rfl
  | cons item items ih => exact (ih _).trans (each h item)

/-- Serving a request says nothing by itself. The answer is sent when the job is finished. -/
theorem said_serve (h : Hosted) (handler : SessionHandler) (method : String) (params : Json) :
    (h.serve handler method params).2.session.said = h.session.said := by
  unfold serve
  split
  · split
    · rfl
    · exact said_installAll ..
  · split
    · rfl
    · exact said_foldl said_uninstall ..

/-- A job tells its answer and nothing else, or nothing if nobody has the session. -/
theorem runJob_tells (h : Hosted) (isHeld : Bool) (number : Nat) :
    Tells options h (h.runJob isHeld number) := by
  have onward : Onward (fun _ => True) h (h.runJob isHeld number) := runJob_onward (fun _ => trivial) ..
  have finished (c : Connection SessionHandler) (outcome : Outcome) :
      c.Adds (h.MaySay options) (c.finish number outcome) :=
    Connection.finish_adds maySay_response number outcome
  refine ⟨onward.documents, onward.session.root, ?_⟩
  unfold runJob
  split
  · exact .refl _
  · dsimp only
    split
    · exact finished h.session.connection (.error .connectionClosed)
    · exact (Connection.Adds.of_waiting (said_serve h ..)).trans (finished ..)

/-- Taking what waits in a feed says nothing. -/
theorem said_drainAs {α : Type} (h : Hosted) (method : String) (decode : Json → Option α) (feed : Nat) :
    (h.drainAs method decode feed).2.session.said = h.session.said := by
  obtain ⟨log, drained⟩ := h.session.connection.drainAs_eq method decode feed
  unfold drainAs
  rw [drained]
  rfl

/-- Nor does passing log messages on. -/
theorem said_forwardLog (h : Hosted) : h.forwardLog.session.said = h.session.said := by
  have noted (h : Hosted) (message : LogMessage) :
      (h.note .server message.level message.message []).session.said = h.session.said := rfl
  exact (said_foldl noted _ _).trans (said_drainAs h ..)

/-- Drawing is between the client and the host. -/
theorem said_render (h : Hosted) (view : View) : (h.render view).session.said = h.session.said :=
  said_callback ..

/-- So is taking over what was published, view by view. -/
theorem said_publish (h : Hosted) (rewriter : Rewriter) (published : PublishedDiagnostics) :
    (h.publish rewriter published).session.said = h.session.said := by
  unfold publish
  split
  · rfl
  · exact said_foldl said_render ..

/-- The task of the diagnostics says nothing to the server, whatever it draws. -/
theorem said_followDiagnostics (h : Hosted) (rewriter : Rewriter) :
    (h.followDiagnostics rewriter).session.said = h.session.said := by
  have drained := said_drainAs h PublishedDiagnostics.method PublishedDiagnostics.ofJson?
    Session.diagnosticsFeed
  unfold followDiagnostics
  generalize h.drainAs PublishedDiagnostics.method PublishedDiagnostics.ofJson?
    Session.diagnosticsFeed = pair at drained ⊢
  obtain ⟨published, k⟩ := pair
  have shown := said_foldl (fun h params => said_publish h rewriter params) published k
  exact (said_foldl (fun h _ => said_foldl said_render _ h) _ _).trans (shown.trans drained)

/-- Asking the host for a reporter says nothing to the server, also if the host ends the client meanwhile.
-/
theorem said_makeReporter (h : Hosted) (call : Nat) :
    (h.makeReporter call).session.said = h.session.said := by
  unfold makeReporter
  split
  · rfl
  · split
    · rfl
    · rfl
    · exact said_callback ..

/-- Nor does handling a notification of progress. -/
theorem said_handleProgress (h : Hosted) (call : Nat) :
    (h.handleProgress call).session.said = h.session.said := by
  have made : ((h.withBoard (h.session.progress.advance call)).makeReporter call).session.said =
      h.session.said := said_makeReporter ..
  unfold handleProgress
  dsimp only
  split
  · exact made
  · split <;> exact made

/-- Taking up the next notification only reads the feed, and may note in the log that it does not decode. -/
theorem said_nextProgress (h : Hosted) : h.nextProgress.session.said = h.session.said := by
  unfold nextProgress
  split
  · rfl
  next params connection eq =>
    have taken : connection.outgoing = h.session.connection.outgoing := by
      have next : (h.session.connection.next Session.progressFeed).2.outgoing =
          h.session.connection.outgoing := rfl
      rw [eq] at next
      exact next
    have read : (connection.decoded ProgressParams.method ProgressParams.ofJson? params).2.outgoing.waiting =
        h.session.said := by
      unfold Connection.decoded
      split <;> exact congrArg Pipe.waiting taken
    dsimp only
    split
    · exact read
    · exact (said_handleProgress ..).trans read

/-- The task of the progress reporters says nothing, by induction on its steps. -/
theorem said_followProgress (h : Hosted) : h.followProgress.session.said = h.session.said := by
  have stepped (steps : Nat) (h : Hosted) : (progressSteps steps h).session.said = h.session.said := by
    induction steps generalizing h with
    | zero => rfl
    | succ steps ih =>
      unfold progressSteps
      split
      · dsimp only
        split
        · exact said_handleProgress ..
        · exact (ih _).trans (said_handleProgress ..)
      · exact (ih _).trans (said_nextProgress h)
  exact stepped _ h

/-- What the client lets a session do tells the server of no document but those under the root. -/
theorem tells_conduct (options : ClientOptions) : Hosted.Conduct options (Tells options) where
  refl := .refl
  tell told := withConnection_tells (Connection.send_adds told (maySay_notification (by decide) _))
  record _ _ := withConnection_tells (.of_waiting rfl)
  request _ _ _ := withConnection_tells (Connection.request_adds _ _ maySay_request)
  abandon _ _ := withConnection_tells (.of_waiting rfl)
  cut _ := withConnection_tells Connection.release_adds
  dispose := dispose_tells
  release h := .of_said (release_onward h) rfl
  greet := greet_tells
  welcome := welcome_tells
  runJob := runJob_tells
  forwardLog h := .of_said (forwardLog_onward h) (said_forwardLog h)
  followDiagnostics {h} _ := .of_said (followDiagnostics_onward h _) (said_followDiagnostics h _)
  followProgress {h} _ := .of_said (followProgress_onward h) (said_followProgress h)

end Hosted

/-! ## What all sessions say -/

namespace World

variable {options : ClientOptions} {allowed : Nat → Message → Prop} {w v : World} {n : Nat}

/-- Whether a message announces an open document under the root of a session. -/
def IsMeant (w : World) (s : Session) (message : Message) : Prop :=
  ∃ document ∈ w.covered s, w.options.rewriter.Announces document message

/-- Whatever a server was told of an open document is allowed, or is meant for it. -/
structure IsProper (options : ClientOptions) (allowed : Nat → Message → Prop) (w : World) : Prop where
  options : w.options = options
  heard : ∀ (n : Nat) (s : Session), w.sessions[n]? = some s → ∀ message ∈ s.said,
    message.isOpening = true → allowed n message ∨ w.IsMeant s message

/-- Documents stay open and roots stay as they are, so what is meant for a server stays so. -/
theorem IsMeant.later {s t : Session} {message : Message} (meant : w.IsMeant s message)
    (same : v.options = w.options) (documents : w.host.documents ⊆ v.host.documents)
    (root : t.root = s.root) : v.IsMeant t message := by
  obtain ⟨document, under, announces⟩ := meant
  obtain ⟨open_, covers⟩ := List.mem_filter.mp under
  refine ⟨document, List.mem_filter.mpr ⟨documents open_, ?_⟩, same ▸ announces⟩
  unfold Session.covers at covers ⊢
  rw [root]
  exact covers

/-- Sessions say only what they said before, and what is allowed or meant for their servers. -/
theorem IsProper.later (proper : w.IsProper options allowed) (same : v.options = w.options)
    (documents : w.host.documents ⊆ v.host.documents)
    (sends : ∀ (n : Nat) (t : Session), v.sessions[n]? = some t → ∀ message ∈ t.said,
      message.isOpening = true → allowed n message ∨ ∃ s, w.sessions[n]? = some s ∧ t.root = s.root ∧
        (message ∈ s.said ∨ w.IsMeant s message)) : v.IsProper options allowed := by
  refine ⟨same.trans proper.options, fun n t at_n message member opens => ?_⟩
  rcases sends n t at_n message member opens with now | ⟨s, found, root, before | meant⟩
  · exact .inl now
  · exact (proper.heard n s found message before opens).imp_right fun meant => meant.later same documents root
  · exact .inr (meant.later same documents root)

/-- A change of the host that the sessions do not notice. -/
theorem IsProper.of_host (proper : w.IsProper options allowed) (same : v.options = w.options)
    (documents : w.host.documents ⊆ v.host.documents) (sessions : v.sessions = w.sessions) :
    v.IsProper options allowed :=
  proper.later same documents fun _ t at_n _ member _ =>
    .inr ⟨t, sessions ▸ at_n, rfl, .inl member⟩

/-- All sessions change in what is not said to a server. -/
theorem IsProper.of_map (proper : w.IsProper options allowed) {change : Session → Session}
    (same : v.options = w.options) (documents : w.host.documents ⊆ v.host.documents)
    (sessions : v.sessions = w.sessions.map change)
    (each : ∀ s : Session, (change s).root = s.root ∧ (change s).said = s.said) :
    v.IsProper options allowed := by
  refine proper.later same documents fun n t at_n message member _ => ?_
  rw [sessions, List.getElem?_map] at at_n
  obtain ⟨s, found, rfl⟩ := Option.map_eq_some_iff.mp at_n
  exact .inr ⟨s, found, (each s).1, .inl ((each s).2 ▸ member)⟩

/-- One session says something more, and all stays proper if what it says of documents is said to it
properly: it was said before, or is allowed, or is meant for this session. -/
theorem IsProper.put (proper : w.IsProper options allowed) {s t : Session} {host : Host}
    (found : w.sessions[n]? = some s) (documents : host.documents = w.host.documents)
    (root : t.root = s.root) (sends : ∀ message ∈ t.said, message.isOpening = true →
      message ∈ s.said ∨ allowed n message ∨ w.IsMeant s message) :
    ({ w with host }.put n t).IsProper options allowed := by
  have inside := (List.getElem?_eq_some_iff.mp found).1
  refine proper.later rfl (by rw [← documents]; exact List.Subset.refl _) ?_
  intro m r at_m message member opens
  by_cases same : n = m
  · subst same
    cases (List.getElem?_set_self inside).symm.trans at_m
    rcases sends message member opens with before | now | meant
    · exact .inr ⟨s, found, root, .inl before⟩
    · exact .inl now
    · exact .inr ⟨s, found, root, .inr meant⟩
  · exact .inr ⟨r, (List.getElem?_set_ne same).symm.trans at_m, rfl, .inl member⟩

/-- What the client does is proper. It goes through the steps that the sessions take, and in each the
session that speaks tells only what is meant for it. -/
theorem IsProper.leads (proper : w.IsProper options allowed) (leads : Leads Hosted.Tells w v) :
    v.IsProper options allowed := by
  induction leads with
  | aside same sessions host =>
    exact proper.of_host same (by rw [host]; exact List.Subset.refl _) sessions
  | @operated w h k host found tells =>
    refine proper.put found (tells.documents.trans (by rw [host])) tells.root ?_
    intro message member opens
    refine (tells.adds.added message member).imp_right fun may => .inr ?_
    obtain ⟨document, under, announces⟩ := may opens
    unfold Hosted.covered at under
    rw [host] at under
    exact ⟨document, under, announces⟩
  | @attach w v root same sessions host =>
    refine proper.later same (by rw [host]; exact List.Subset.refl _) ?_
    intro n t at_n message member _
    rw [sessions] at at_n
    obtain before | ⟨-, rfl⟩ := getElem?_concat_iff.mp at_n
    · exact .inr ⟨t, before, rfl, .inl member⟩
    · cases member
  | trans _ _ first second => exact second (first proper)

/-- Whether a user of the client sends a server the notification that a message is. -/
def IsRelayed (moves : List Move) (n : Nat) (message : Message) : Prop :=
  ∃ method params, Move.notify n method params ∈ moves ∧
    message = .notification (Notification.make method (some params))

/-- Whoever uses the connection may send a notification that is allowed. Nothing happens where it cannot be
sent. -/
theorem notifyIfPossible_isProper {method : String} {params : Json} (proper : w.IsProper options allowed)
    (allows : allowed n (.notification (Notification.make method (some params)))) :
    (w.notifyIfPossible n method params).IsProper options allowed := by
  rcases w.notifyIfPossible_cases n method params with same | ⟨s, connection, found, told, sent⟩
  · rw [same]
    exact proper
  · rw [sent]
    refine proper.put found rfl rfl fun message member _ => ?_
    have adds : s.connection.Adds (allowed n) connection := Connection.send_adds told allows
    exact (adds.added message member).imp_right .inl

/-- A change of one connection is proper if it adds what the session may say, wherever the session is. -/
theorem onConnection_isProper {change : Connection SessionHandler → Connection SessionHandler}
    (proper : w.IsProper options allowed)
    (each : ∀ (h : Hosted) (c : Connection SessionHandler), c.Adds (h.MaySay w.options) (change c))
    (n : Nat) : (w.onConnection n change).IsProper options allowed :=
  proper.leads (onConnection_leads fun h => Hosted.withConnection_tells (each h _))

/-- Every move is proper that sends only notifications that are allowed. Whatever else a move does is done
by the client, or says nothing. -/
theorem after_isProper {move : Move} (proper : w.IsProper options allowed)
    (allows : ∀ n message, IsRelayed [move] n message → allowed n message) :
    (w.after move).IsProper options allowed := by
  have kept : w.host.documents ⊆ w.host.documents := List.Subset.refl _
  cases own : move.isOwn with
  | true => exact proper.leads (after_leads Hosted.tells_conduct w own)
  | false =>
    cases move with
    | poll task =>
      cases task with
      | reader n =>
        exact onConnection_isProper proper (fun _ _ => Connection.read_adds Hosted.maySay_response) n
      | _ => cases own
    | roots | showView | hideView | holdReporters | releaseReporters | refuseReporters | arm | report =>
      exact proper.of_host rfl kept rfl
    | addDocument document => exact proper.of_host rfl (List.subset_append_left ..) rfl
    | openDocument document =>
      refine proper.of_map rfl (List.subset_append_left ..) rfl fun s => ?_
      unfold Session.hearOfDocument
      split <;> exact ⟨rfl, rfl⟩
    | endStreams => exact proper.of_map rfl kept rfl fun _ => ⟨rfl, rfl⟩
    | notify n method params =>
      exact notifyIfPossible_isProper proper
        (allows n _ ⟨method, params, List.mem_singleton_self _, rfl⟩)
    | send n messages =>
      exact onConnection_isProper proper
        (fun _ c => Connection.Adds.foldl (fun _ message => Connection.arrive_adds message) messages c) n
    | hangUp n => exact onConnection_isProper proper (fun _ _ => Connection.hangUp_adds) n
    | stopReading n => exact onConnection_isProper proper (fun _ _ => Connection.stopReading_adds) n
    | _ => cases own

/-- In every run, whatever a server is told of an open document was sent by a user of the client, or
announces a document that the host has open under the root of the session. -/
theorem run_isProper (options : ClientOptions) (moves : List Move) :
    ((start options).run moves).IsProper options (IsRelayed moves) := by
  refine run_induction _ (fun w move (member : move ∈ moves) proper => ?_) (fun _ => id) ?_
  · refine after_isProper proper ?_
    rintro n message ⟨method, params, among, same⟩
    exact ⟨method, params, List.mem_singleton.mp among ▸ member, same⟩
  · exact ⟨rfl, fun n s found => nomatch found⟩

/-! ## Roots apart -/

/-- Whether a message announces an open document that is under the first root and not under the second. -/
def AnnouncesApart (w : World) (message : Message) (root other : Url) : Prop :=
  ∃ document ∈ w.host.documents, w.options.rewriter.Announces document message ∧
    document.uri.isUnder root = true ∧ document.uri.isUnder other = false

/-- A document under one root is not under another, if neither of the two roots is under the other. -/
theorem IsMeant.apart {s : Session} {message : Message} {root other : Url} (meant : w.IsMeant s message)
    (rooted : s.root = some root) (takes : root.TakesSlash) (takes' : other.TakesSlash)
    (outside : root.isUnder other = false) (outside' : other.isUnder root = false) :
    w.AnnouncesApart message root other := by
  obtain ⟨document, under, announces⟩ := meant
  obtain ⟨open_, covers⟩ := List.mem_filter.mp under
  unfold Session.covers at covers
  rw [rooted] at covers
  refine ⟨document, open_, announces, covers, Bool.eq_false_iff.mpr fun both => ?_⟩
  rcases Url.isUnder_total takes takes' covers both with inside | inside
  · rw [outside] at inside
    cases inside
  · rw [outside'] at inside
    cases inside

/-- `Url.isUnder` is reflexive and transitive, and arranges the roots above a document in a line. So of two
roots neither of which is under the other, the servers hear of different documents, whether or not one
session serves the other roots: what the client announces to the one, at whatever moment of a run, is under
its root and not under the root of the other. The messages differ as well, unless the rewriter has one name
for several addresses. -/
theorem run_announces_apart :
    (∀ url : Url, url.isUnder url = true) ∧
    (∀ inner root outer : Url, root.TakesSlash → inner.isUnder root = true → root.isUnder outer = true →
      inner.isUnder outer = true) ∧
    (∀ document root other : Url, root.TakesSlash → other.TakesSlash → document.isUnder root = true →
      document.isUnder other = true → root.isUnder other = true ∨ other.isUnder root = true) ∧
    ∀ (options : ClientOptions) (moves later : List Move) (n m : Nat) (s t : Session) (root other : Url),
      let w := (start options).run moves
      let v := (start options).run (moves ++ later)
      w.sessions[n]? = some s → v.sessions[m]? = some t → s.root = some root → t.root = some other →
      root.TakesSlash → other.TakesSlash → root.isUnder other = false → other.isUnder root = false →
      ∀ message ∈ s.said, message.isOpening = true → ¬ IsRelayed moves n message →
      ∀ message' ∈ t.said, message'.isOpening = true → ¬ IsRelayed (moves ++ later) m message' →
        w.AnnouncesApart message root other ∧ v.AnnouncesApart message' other root ∧
          (options.rewriter.IsFaithful → message ≠ message') := by
  refine ⟨Url.isUnder_refl, fun _ _ _ => Url.isUnder_trans,
    fun _ _ _ takes takes' => Url.isUnder_total takes takes', ?_⟩
  intro options moves later n m s t root other w v at_n at_m rooted rooted' takes takes' outside outside'
    message member opens own message' member' opens' own'
  have proper := run_isProper options moves
  have proper' := run_isProper options (moves ++ later)
  have meant := (proper.heard n s at_n message member opens).resolve_left own
  have meant' := (proper'.heard m t at_m message' member' opens').resolve_left own'
  have first : w.AnnouncesApart message root other :=
    meant.apart rooted takes takes' outside outside'
  have second : v.AnnouncesApart message' other root :=
    meant'.apart rooted' takes' takes outside' outside
  refine ⟨first, second, fun faithful same => ?_⟩
  -- One message would announce two documents, which are under different roots and have one address.
  subst same
  obtain ⟨document, -, announces, under, -⟩ := first
  obtain ⟨document', -, announces', -, apart⟩ := second
  rw [proper.options] at announces
  rw [proper'.options] at announces'
  rw [← faithful.uri_eq announces announces', under] at apart
  cases apart

/-- The host has a document open under each of two roots, and both servers have answered the greeting. -/
def Sample.neighbours : List Move :=
  [.addDocument ⟨⟨"file:///here/a.ts"⟩, "typescript", "x"⟩,
    .addDocument ⟨⟨"file:///there/a.ts"⟩, "typescript", "x"⟩,
    .roots [⟨"file:///here"⟩, ⟨"file:///there"⟩], .register "client", .poll .register,
    .send 0 [.response ⟨"2.0", some (.number 1), some (.obj []), none⟩], .poll (.reader 0),
    .send 1 [.response ⟨"2.0", some (.number 1), some (.obj []), none⟩], .poll (.reader 1),
    .poll .register]

/-- Nobody sends a notification in this run. -/
theorem not_isRelayed_neighbours (n : Nat) (message : Message) :
    ¬ IsRelayed Sample.neighbours n message := by
  rintro ⟨method, params, member, -⟩
  simp only [Sample.neighbours, List.mem_cons, List.not_mem_nil, reduceCtorEq, or_self] at member

/-- Two sessions for neighbouring roots, each of which is told of a document of its own: they are told of
different ones, and neither of what lies under the other's root. -/
theorem run_announces_apart_neighbours :
    (∃ s t message message', ((start Sample.single).run Sample.neighbours).sessions[0]? = some s ∧
      ((start Sample.single).run (Sample.neighbours ++ [])).sessions[1]? = some t ∧
      message ∈ s.said ∧ message' ∈ t.said ∧
      ((start Sample.single).run Sample.neighbours).AnnouncesApart message ⟨"file:///here"⟩
        ⟨"file:///there"⟩ ∧ message ≠ message') ∧
    Url.isUnder ⟨"file:///here/a/b"⟩ ⟨"file:///here"⟩ = true ∧
    (Url.isUnder ⟨"file:///here"⟩ ⟨"file:///here/"⟩ = true ∨
      Url.isUnder ⟨"file:///here/"⟩ ⟨"file:///here"⟩ = true) := by
  obtain ⟨-, nested, directed, apart⟩ := run_announces_apart
  refine ⟨?_, nested _ ⟨"file:///here/a"⟩ _ (by decide) (by decide) (by decide),
    directed ⟨"file:///here/a"⟩ _ _ (by decide) (by decide) (by decide) (by decide)⟩
  obtain ⟨here, -, differ⟩ := apart Sample.single Sample.neighbours [] 0 1 _ _ ⟨"file:///here"⟩
    ⟨"file:///there"⟩ rfl rfl rfl rfl (by decide) (by decide) (by decide) (by decide) _
    (List.mem_of_getElem? (i := 2) rfl) rfl (not_isRelayed_neighbours _ _) _
    (List.mem_of_getElem? (i := 2) rfl) rfl (not_isRelayed_neighbours _ _)
  exact ⟨_, _, _, _, rfl, rfl, List.mem_of_getElem? (i := 2) rfl, List.mem_of_getElem? (i := 2) rfl, here,
    differ Rewriter.identity_isFaithful⟩

end World

end LanguageClient
