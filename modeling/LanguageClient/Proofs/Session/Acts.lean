import LanguageClient.Proofs.Connection.Upkeep
import LanguageClient.Proofs.Session.Balance
import LanguageClient.Proofs.Session.Course
import Mathlib.Logic.Relation

/-!
# The acts of a session

Everything that a session does, to itself and to the host, is a sequence of a few acts, as long as the
host does not end the client from inside a callback. `Hosted.Act` lists them, each with what it takes
for it to happen: providers come and providers are taken back only for a request of the server or for
what the server advertised, nothing is drawn and no notification of progress is handled by a session
that was disposed. Whatever every act preserves, every operation of a session preserves.

Whose turn it is bounds what can happen: messages are read in the turn of the reader, a request of the
server is carried out in the turn of its job, and a sweep disposes nothing.
-/

namespace LanguageClient

/-- Whose turn it is. -/
inductive Turn where
  | reader
  | sweep
  /-- A request of the server of a session is carried out. -/
  | job (session : Nat)
  | other
  deriving DecidableEq, Repr

/-- What can happen to the connection of a session in a turn. -/
structure Turn.Allows {η : Type} (turn : Turn) (session : Nat) (c d : Connection η) : Prop where
  goes : c.Goes d
  spawns : turn ≠ .job session → c.Spawns d
  unread : turn ≠ .reader → turn ≠ .sweep → c.Unread d

namespace Turn.Allows

variable {η : Type} {turn : Turn} {session : Nat} {c d : Connection η}

/-- A change in which the server answered nothing and no job came is allowed in every turn. -/
theorem of_unread (unread : c.Unread d) (jobs : d.jobs = c.jobs) : turn.Allows session c d :=
  ⟨unread.toGoes, fun _ => .of_eq jobs, fun _ _ => unread⟩

theorem refl (c : Connection η) : turn.Allows session c c := of_unread (.refl c) rfl

/-- A word in the log is allowed in every turn. -/
theorem record (event : LogEvent) : turn.Allows session c (c.record event) :=
  of_unread (Connection.record_unread event) rfl

/-- What is allowed in a turn in two steps is allowed in it in one, as every part of it composes. -/
theorem trans {e : Connection η} (first : turn.Allows session c d)
    (second : turn.Allows session d e) : turn.Allows session c e :=
  ⟨first.goes.trans second.goes, fun other => (first.spawns other).trans (second.spawns other),
    fun read swept => (first.unread read swept).trans (second.unread read swept)⟩

end Turn.Allows

/-! ## Whose ids these are -/

/-- An id that is read is one that the server chose. So it is never one of those that the client mints for
what is advertised. -/
theorem RegistrationId.required_named {slot : Json.Slot} {id : RegistrationId}
    (read : slot.required RegistrationId.ofJson? = some id) : ∃ name, id = .named name := by
  cases slot with
  | present value =>
    obtain ⟨name, -, same⟩ := Option.map_eq_some_iff.mp read
    exact ⟨name, same.symm⟩
  | _ => cases read

/-- The server chooses the ids of the registrations that it asks for. This keeps them apart from the
advertised ones in the table. -/
theorem Registration.ofParams?_named {params : Json} {registrations : List Registration}
    (read : ofParams? params = some registrations) {registration : Registration}
    (member : registration ∈ registrations) : ∃ name, registration.id = .named name := by
  simp only [ofParams?, Option.bind_eq_bind, Option.bind_eq_some_iff] at read
  obtain ⟨slots, -, read⟩ := read
  split at read
  · obtain ⟨item, decoded⟩ := Json.required_list?_mem read member
    simp only [ofJson?, Option.bind_eq_bind, Option.bind_eq_some_iff] at decoded
    obtain ⟨slots, -, decoded⟩ := decoded
    split at decoded
    · simp only [Option.bind_eq_some_iff] at decoded
      obtain ⟨id, known, _, -, _, -, same⟩ := decoded
      cases same
      exact RegistrationId.required_named known
    · cases decoded
  · cases read

/-- The server chooses the ids of the registrations that it takes back, so it cannot take back what it has
advertised. -/
theorem Unregistration.ofParams?_named {params : Json} {gone : List Unregistration}
    (read : ofParams? params = some gone) {one : Unregistration} (member : one ∈ gone) :
    ∃ name, one.id = .named name := by
  simp only [ofParams?, Option.bind_eq_bind, Option.bind_eq_some_iff] at read
  obtain ⟨slots, -, read⟩ := read
  split at read
  · obtain ⟨item, decoded⟩ := Json.required_list?_mem read member
    simp only [ofJson?, Option.bind_eq_bind, Option.bind_eq_some_iff] at decoded
    obtain ⟨slots, -, decoded⟩ := decoded
    split at decoded
    · simp only [Option.bind_eq_some_iff] at decoded
      obtain ⟨id, known, _, -, same⟩ := decoded
      cases same
      exact RegistrationId.required_named known
    · cases decoded
  · cases read

/-- What the server registers by its answer to the greeting. -/
def ClientOptions.advertised (options : ClientOptions) (answer : Json) : List Registration :=
  Feature.staticRegistrations ((answer.get? "capabilities").getD .null)
    options.config.documentSelector

/-- What a server advertises is registered under the client's own ids, which no request of the server can
name. -/
theorem ClientOptions.advertised_minted (options : ClientOptions) (answer : Json)
    {registration : Registration} (member : registration ∈ options.advertised answer) :
    ∃ number, registration.id = .minted number := by
  obtain ⟨number, inside, same⟩ := List.mem_mapIdx.mp member
  exact ⟨number, same ▸ rfl⟩

/-! ## Acts -/

namespace Hosted

/-- Who asks for registrations: a request of the server, or its answer to the greeting. -/
def Asked (options : ClientOptions) (turn : Turn) (h : Hosted) (registrations : List Registration) :
    Prop :=
  turn = .job h.number ∧ (∀ registration ∈ registrations, ∃ name, registration.id = .named name) ∨
    ∃ answer, h.session.connection.outcome? 0 = some (.ok answer) ∧
      registrations = options.advertised answer

/-- One thing that a session does in a turn. -/
inductive Act (options : ClientOptions) (turn : Turn) (h : Hosted) : Hosted → Prop where
  | connection {connection : Connection SessionHandler}
      (allowed : turn.Allows h.number h.session.connection connection) :
      Act options turn h (h.withConnection connection)
  /-- It takes notice of the documents that were opened. -/
  | heed (openedDocuments : Nat) :
      Act options turn h { h with session := { h.session with openedDocuments } }
  /-- It carries out what the server asks for, or what its answer to the greeting advertises. -/
  | register (registrations : List Registration) (live : h.session.isDisposed = false)
      (asked : h.Asked options turn registrations) :
      Act options turn h (h.installEach registrations).2
  | unregister (id : RegistrationId) (asked : turn = .job h.number)
      (named : ∃ name, id = .named name) : Act options turn h (h.uninstall id)
  | publish (document : Url) (diagnostics : List Diagnostic) (live : h.session.isDisposed = false) :
      Act options turn h { h with session := h.session.keepDiagnostics document diagnostics }
  /-- It draws what it knows of the document of a view. -/
  | draw (view : View) (visible : view ∈ h.host.views) (live : h.session.isDisposed = false) :
      Act options turn h (h.decorate view
        (((h.session.diagnosticsOf view.document).getD []).map Diagnostic.decoration))
  | proceed (call : Nat) (busy : h.session.handling = some call)
      (live : h.session.isDisposed = false) : Act options turn h (h.handleProgress call)
  | takeUp (params : ProgressParams) (idle : h.session.handling = none)
      (live : h.session.isDisposed = false) :
      Act options turn h (handleProgress
        { h with session := { h.session with progress := (h.session.progress.begin params).2 } }
        (h.session.progress.begin params).1)
  | release (live : h.session.isDisposed = false) : Act options turn h h.release
  | dispose (live : h.session.isDisposed = false) (read : turn ≠ .reader) (swept : turn ≠ .sweep) :
      Act options turn h h.dispose

/-- Several acts, one after the other. -/
abbrev Acts (options : ClientOptions) (turn : Turn) : Hosted → Hosted → Prop :=
  Relation.ReflTransGen (Act options turn)

variable {options : ClientOptions} {turn : Turn} {h k : Hosted}

theorem Act.acts (act : Act options turn h k) : Acts options turn h k := .single act

/-- A word in the log is an act of the connection, allowed in every turn. -/
theorem note_acts (h : Hosted) (part : LogPart) (level : LogLevel) (message : String)
    (fields : List (String × String)) :
    Acts options turn h (h.note part level message fields) :=
  (Act.connection (.record _)).acts

/-- Steps that are acts as long as something holds that they keep. What they keep is a parameter, since an
act may ask for a session that is not disposed. -/
theorem foldl_acts {α : Type} {step : Hosted → α → Hosted} (keeps : Hosted → Prop)
    {items : List α} (each : ∀ h, keeps h → ∀ item ∈ items,
      Acts options turn h (step h item) ∧ keeps (step h item)) (start : keeps h) :
    Acts options turn h (items.foldl step h) ∧ keeps (items.foldl step h) := by
  induction items generalizing h with
  | nil => exact ⟨.refl, start⟩
  | cons item items ih =>
    obtain ⟨first, kept⟩ := each h start item List.mem_cons_self
    obtain ⟨rest, last⟩ := ih (fun h kept item member =>
      each h kept item (List.mem_cons_of_mem _ member)) kept
    exact ⟨first.trans rest, last⟩

/-! ## Callbacks -/

/-- Nothing comes of a callback in which the host would not end the client. -/
theorem ring_unarmed {call : HostCall} (unarmed : call ∉ h.host.armed) : h.ring call = h := by
  unfold ring Host.ring
  rw [if_neg unarmed]

/-- A callback that the host has not armed leaves session and host as they are, so it can be left out of
what an operation does. -/
theorem callback_unarmed {call : HostCall} (unarmed : call ∉ h.host.armed) :
    h.callback call = h := by
  unfold callback
  rw [ring_unarmed unarmed]
  dsimp only
  rw [if_neg]
  rintro ⟨ended, unended, -⟩
  rw [ended] at unended
  cases unended

/-- A host that has armed nothing has not armed this callback. -/
theorem not_armed (quiet : h.host.armed = []) (call : HostCall) : call ∉ h.host.armed := by
  rw [quiet]
  exact List.not_mem_nil

/-- With a host that has armed nothing, callbacks do nothing at all. The acts are stated under this
hypothesis, and it is used here. -/
theorem callback_eq (quiet : h.host.armed = []) (call : HostCall) : h.callback call = h :=
  callback_unarmed (not_armed quiet call)

/-- Decorating a view is drawing its diagnostics, unless the host ends the client in the callback behind it.
-/
theorem render_eq (unarmed : .setDecorations ∉ h.host.armed) (view : View) : h.render view =
    h.decorate view (((h.session.diagnosticsOf view.document).getD []).map Diagnostic.decoration) :=
  callback_unarmed (h := h.decorate ..) unarmed

/-- What dealing with providers or reporters leaves alone. -/
structure Spares (h k : Hosted) : Prop where
  number : k.number = h.number
  armed : k.host.armed = h.host.armed
  views : k.host.views = h.host.views
  disposed : k.session.isDisposed = h.session.isDisposed
  diagnostics : k.session.diagnostics = h.session.diagnostics
  connection : h.session.connection.Unread k.session.connection
  jobs : k.session.connection.jobs = h.session.connection.jobs

theorem Spares.refl (h : Hosted) : Spares h h := ⟨rfl, rfl, rfl, rfl, rfl, .refl _, rfl⟩

/-- What is left alone by two steps is left alone by both together. -/
theorem Spares.trans {l : Hosted} (first : Spares h k) (second : Spares k l) : Spares h l :=
  ⟨second.number.trans first.number, second.armed.trans first.armed,
    second.views.trans first.views, second.disposed.trans first.disposed,
    second.diagnostics.trans first.diagnostics, first.connection.trans second.connection,
    second.jobs.trans first.jobs⟩

/-- A word in the log leaves all of that alone. -/
theorem note_spares (h : Hosted) (part : LogPart) (level : LogLevel) (message : String)
    (fields : List (String × String)) : Spares h (h.note part level message fields) :=
  ⟨rfl, rfl, rfl, rfl, rfl, Connection.record_unread _, rfl⟩

/-! ## Registering -/

/-- The host gets a provider, which the session keeps under an id. -/
def grant (h : Hosted) (feature : Feature) (id : RegistrationId) (selector : DocumentSelector) :
    Hosted :=
  { h with
    host := (h.host.provide feature.kind selector feature h.number).2
    session := { h.session with registrations :=
      h.session.registrations.insert id ⟨feature.method, h.host.provided.length + 1⟩ } }

/-- To take back what is not registered does nothing. -/
theorem uninstall_of_none {id : RegistrationId} (free : h.session.registrations.find? id = none) :
    h.uninstall id = h := by
  unfold uninstall
  rw [free]

/-- Under an id that is free, to add a provider is to grant it. The callback behind it does nothing here. -/
theorem addProvider_eq (quiet : h.host.armed = []) {id : RegistrationId}
    (free : h.session.registrations.find? id = none) (feature : Feature)
    (selector : DocumentSelector) : h.addProvider feature id selector = h.grant feature id selector := by
  unfold addProvider
  dsimp only
  rw [callback_eq (h := { h with host := (h.host.provide _ selector feature h.number).2 }) quiet,
    uninstall_of_none (h := { h with host := (h.host.provide _ selector feature h.number).2 }) free]
  rfl

/-- Nothing is registered under an id that was just taken back, so what follows finds it free. -/
theorem find?_uninstall (h : Hosted) (id : RegistrationId) :
    (h.uninstall id).session.registrations.find? id = none := by
  unfold uninstall
  split
  next free => exact free
  next => rw [Registrations.find?_erase, if_pos rfl]

/-- What installing registrations does is done by taking off, granting and telling the log. Whoever proves
something of `installEach` proves it of these three, under a property that they keep. -/
theorem installEach_induction (keeps : Hosted → Prop) (quiet : ∀ {h}, keeps h → h.host.armed = [])
    (uninstalls : ∀ {h}, keeps h → ∀ id, keeps (h.uninstall id))
    (grants : ∀ {h}, keeps h → ∀ feature id selector,
      h.session.registrations.find? id = none → keeps (h.grant feature id selector))
    (notes : ∀ {h}, keeps h → ∀ part level message fields, keeps (h.note part level message fields))
    (registrations : List Registration) (start : keeps h) :
    keeps (h.installEach registrations).2 := by
  have installs {h : Hosted} (start : keeps h) (registration : Registration) :
      keeps (h.install registration).2 := by
    have off := uninstalls start registration.id
    unfold install
    dsimp only
    split
    · exact off
    · split
      · exact off
      · rw [addProvider_eq (quiet off) (find?_uninstall ..)]
        exact grants off _ _ _ (find?_uninstall ..)
  induction registrations generalizing h with
  | nil => exact start
  | cons registration registrations ih =>
    have noted : keeps (h.installNoted registration).2 := by
      have installed := installs start registration
      unfold installNoted
      split
      next eq => rw [eq] at installed; exact installed
      next eq => rw [eq] at installed; exact notes installed _ _ _ _
    exact ih noted

/-- Taking a registration back leaves alone all that is not the table of registrations or the host's
providers. -/
theorem uninstall_spares (h : Hosted) (id : RegistrationId) :
    Spares h (h.uninstall id) ∧ (h.uninstall id).session.handling = h.session.handling := by
  unfold uninstall
  split
  · exact ⟨.refl h, rfl⟩
  · exact ⟨⟨rfl, rfl, rfl, rfl, rfl, .refl _, rfl⟩, rfl⟩

/-- Carrying out registrations leaves alone the same, by the three operations that it comes down to. -/
theorem installEach_spares (quiet : h.host.armed = []) (registrations : List Registration) :
    Spares h (h.installEach registrations).2 ∧
      (h.installEach registrations).2.session.handling = h.session.handling := by
  refine (installEach_induction (fun k => k.host.armed = [] ∧ Spares h k ∧
    k.session.handling = h.session.handling) And.left ?_ ?_ ?_ registrations
      ⟨quiet, .refl h, rfl⟩).2
  · rintro k ⟨quiet, spares, handling⟩ id
    obtain ⟨off, same⟩ := k.uninstall_spares id
    exact ⟨off.armed.trans quiet, spares.trans off, same.trans handling⟩
  · rintro k ⟨quiet, spares, handling⟩ feature id selector _
    exact ⟨quiet, spares.trans ⟨rfl, rfl, rfl, rfl, rfl, .refl _, rfl⟩, handling⟩
  · rintro k ⟨quiet, spares, handling⟩ part level message fields
    exact ⟨quiet, spares.trans (note_spares ..), handling⟩

/-- In a session that is not disposed and stays so, nothing is taken back at the end, so all registrations
are simply carried out. -/
theorem installAll_eq (quiet : h.host.armed = []) (live : h.session.isDisposed = false)
    (registrations : List Registration) : h.installAll registrations = h.installEach registrations := by
  have lives := (installEach_spares quiet registrations).1.disposed.trans live
  unfold installAll
  rw [if_neg (by rw [live]; exact Bool.false_ne_true)]
  generalize h.installEach registrations = installed at lives
  obtain ⟨failure, k⟩ := installed
  dsimp only at lives ⊢
  rw [if_neg (by rw [lives]; exact Bool.false_ne_true)]

/-- Registrations are carried out, unless the session was disposed, in which case they are carried out and
taken back at once and nothing is left to see. -/
theorem installAll_acts (quiet : h.host.armed = []) (registrations : List Registration)
    (asked : h.Asked options turn registrations) :
    Acts options turn h (h.installAll registrations).2 := by
  cases live : h.session.isDisposed with
  | true =>
    unfold installAll
    rw [if_pos live]
  | false =>
    rw [installAll_eq quiet live]
    exact (Act.register registrations live asked).acts

/-- What a handler does for a request is one act, in the turn of the job; with params that cannot be read it
is none. -/
theorem serve_acts (quiet : h.host.armed = []) (mine : turn = .job h.number)
    (handler : SessionHandler) (method : String) (params : Json) :
    Acts options turn h (h.serve handler method params).2 := by
  unfold serve
  split
  · split
    · exact .refl
    next read =>
      exact installAll_acts quiet _ (.inl ⟨mine, fun _ => Registration.ofParams?_named read⟩)
  · split
    · exact .refl
    next read =>
      refine (foldl_acts (fun k => turn = .job k.number) ?_ mine).1
      intro k mine id member
      obtain ⟨one, inside, rfl⟩ := List.mem_map.mp member
      refine ⟨(Act.unregister one.id mine (Unregistration.ofParams?_named read inside)).acts, ?_⟩
      rw [(k.uninstall_spares one.id).1.number]
      exact mine

/-- To carry out a request is what its handler does and then the answer. In no other turn may registrations
come or go in this way. -/
theorem runJob_acts (quiet : h.host.armed = []) (mine : turn = .job h.number) (isHeld : Bool)
    (number : Nat) : Acts options turn h (h.runJob isHeld number) := by
  have finishes {k : Hosted} (mine : turn = .job k.number) (outcome : Outcome) :
      Acts options turn k (k.withConnection (k.session.connection.finish number outcome)) := by
    have unread := k.session.connection.finish_unread number outcome
    refine (Act.connection ⟨unread.toGoes, ?_, fun _ _ => unread⟩).acts
    intro other
    exact absurd mine other
  unfold runJob
  split
  · exact .refl
  next job _ =>
    dsimp only
    split
    · exact finishes mine _
    · refine (serve_acts quiet mine ..).trans (finishes ?_ _)
      rw [(serve_beside h job.handler job.method _).number]
      exact mine

/-! ## Showing -/

/-- Taking what waits in a feed is an act of the connection, in which no call is answered. -/
theorem drainAs_acts {α : Type} (h : Hosted) (method : String) (decode : Json → Option α)
    (feed : Nat) : Acts options turn h (h.drainAs method decode feed).2 := by
  obtain ⟨unread, jobs⟩ := h.session.connection.drainAs_unread method decode feed
  exact (Act.connection (.of_unread unread jobs)).acts

/-- Forwarding log messages is one act for the feed and one for each word. -/
theorem forwardLog_acts (h : Hosted) : Acts options turn h h.forwardLog := by
  refine (drainAs_acts h ..).trans (foldl_acts (fun _ => True) ?_ trivial).1
  intro k _ message _
  exact ⟨note_acts .., trivial⟩

/-- What a session draws is drawn by acts. The views that are given are visible, and remain so, as drawing
does not change which views there are. -/
theorem renderAll_acts (quiet : h.host.armed = []) (live : h.session.isDisposed = false)
    {views : List View} (visible : ∀ view ∈ views, view ∈ h.host.views) :
    Acts options turn h (views.foldl render h) ∧ (views.foldl render h).host.armed = [] ∧
      (views.foldl render h).session = h.session ∧
      (views.foldl render h).host.views = h.host.views := by
  refine foldl_acts (fun k => k.host.armed = [] ∧ k.session = h.session ∧
    k.host.views = h.host.views) ?_ ⟨quiet, rfl, rfl⟩
  rintro k ⟨quiet, session, views⟩ view member
  rw [render_eq (not_armed quiet _)]
  refine ⟨(Act.draw view ?_ ?_).acts, quiet, session, views⟩
  · rw [views]
    exact visible view member
  · rw [session]
    exact live

/-- To publish diagnostics is to keep them and to draw the views of the document. The session is still not
disposed afterwards, so the next may be published. -/
theorem publish_acts (quiet : h.host.armed = []) (live : h.session.isDisposed = false)
    (rewriter : Rewriter) (published : PublishedDiagnostics) :
    Acts options turn h (h.publish rewriter published) ∧
      (h.publish rewriter published).host.armed = [] ∧
      (h.publish rewriter published).session.isDisposed = false := by
  unfold publish
  split
  · exact ⟨note_acts .., quiet, live⟩
  next document _ =>
    let k : Hosted := { h with session := h.session.keepDiagnostics document published.diagnostics }
    let views := k.host.views.filter fun view => view.document = document
    have visible : ∀ view ∈ views, view ∈ k.host.views :=
      fun view member => (List.mem_filter.mp member).1
    have unarmed : k.host.armed = [] := quiet
    obtain ⟨acts, quiet, session, -⟩ : Acts options turn k (views.foldl render k) ∧ _ :=
      renderAll_acts unarmed live visible
    refine ⟨(Act.publish document published.diagnostics live).acts.trans acts, quiet, ?_⟩
    rw [session]
    exact live

/-- All that waits is published, and every visible view is drawn for each document that was opened. -/
theorem followDiagnostics_acts (quiet : h.host.armed = []) (live : h.session.isDisposed = false)
    (rewriter : Rewriter) : Acts options turn h (h.followDiagnostics rewriter) := by
  unfold followDiagnostics
  have drained : Acts options turn h _ := drainAs_acts h PublishedDiagnostics.method
    PublishedDiagnostics.ofJson? Session.diagnosticsFeed
  have same : (h.drainAs PublishedDiagnostics.method PublishedDiagnostics.ofJson?
      Session.diagnosticsFeed).2.host = h.host ∧ (h.drainAs PublishedDiagnostics.method
      PublishedDiagnostics.ofJson? Session.diagnosticsFeed).2.session.isDisposed =
        h.session.isDisposed := ⟨rfl, rfl⟩
  generalize h.drainAs PublishedDiagnostics.method PublishedDiagnostics.ofJson?
    Session.diagnosticsFeed = pair at drained same ⊢
  obtain ⟨published, k⟩ := pair
  have published_acts : Acts options turn k (published.foldl (fun h params => h.publish rewriter params)
      k) ∧ _ := foldl_acts (fun k => k.host.armed = [] ∧ k.session.isDisposed = false)
    (fun k keeps params _ => publish_acts keeps.1 keeps.2 rewriter params)
    ⟨same.1 ▸ quiet, same.2.trans live⟩
  obtain ⟨shown, quiet, live⟩ := published_acts
  dsimp only
  generalize published.foldl (fun h params => h.publish rewriter params) k = l at shown quiet live
  refine (drained.trans shown).trans (Relation.ReflTransGen.head (Act.heed 0) ?_)
  refine (foldl_acts (h := { l with session := { l.session with openedDocuments := 0 } })
    (fun k => k.host.armed = [] ∧ k.session.isDisposed = false) ?_ ⟨quiet, live⟩).1
  rintro k ⟨quiet, live⟩ _ _
  obtain ⟨drawn, quiet', session, -⟩ : Acts options turn k (k.host.views.foldl render k) ∧ _ :=
    renderAll_acts quiet live fun _ member => member
  refine ⟨drawn, quiet', ?_⟩
  unfold renderVisible
  rw [session]
  exact live

/-! ## Progress -/

/-- Asking the host for a reporter leaves alone what has nothing to do with reporters. -/
theorem makeReporter_spares (quiet : h.host.armed = []) (call : Nat) :
    Spares h (h.makeReporter call) := by
  unfold makeReporter
  split
  · exact .refl h
  next title _ =>
    have asked : Spares h { h with host := (h.host.createReporter h.number title).2 } := by
      refine ⟨rfl, (createReporter_host h.host h.number title).2, ?_, rfl, rfl, .refl _, rfl⟩
      unfold Host.createReporter Host.await
      split
      · split <;> rfl
      · split <;> rfl
    split
    next eq => rw [eq] at asked; exact asked
    next eq => rw [eq] at asked; exact asked.trans ⟨rfl, rfl, rfl, rfl, rfl, .refl _, rfl⟩
    next host eq =>
      rw [eq] at asked
      rw [callback_eq (h := { h with host := host }) (asked.armed.trans quiet)]
      exact asked.trans ⟨rfl, rfl, rfl, rfl, rfl, .refl _, rfl⟩

/-- Handling a notification of progress leaves alone the same: the views, the diagnostics and the jobs, and
whether the session is disposed. -/
theorem handleProgress_spares (quiet : h.host.armed = []) (call : Nat) :
    Spares h (h.handleProgress call) := by
  have advanced : Spares h (h.withBoard (h.session.progress.advance call)) :=
    ⟨rfl, rfl, rfl, rfl, rfl, .refl _, rfl⟩
  have made := advanced.trans
    (makeReporter_spares (h := h.withBoard (h.session.progress.advance call)) quiet call)
  unfold handleProgress
  generalize (h.withBoard (h.session.progress.advance call)).makeReporter call = k at made
  have handling (handling : Option Nat) : Spares k { k with
      session := { k.session with handling } } := ⟨rfl, rfl, rfl, rfl, rfl, .refl _, rfl⟩
  dsimp only
  split
  · exact made.trans (handling _)
  · split
    · exact made.trans (handling _)
    · exact made.trans ((handling _).trans (note_spares ..))

/-- Taking up the next notification is an act if none is in hand. It leaves the session as much alive as it
was. -/
theorem nextProgress_acts (quiet : h.host.armed = []) (live : h.session.isDisposed = false)
    (idle : h.session.handling = none) :
    Acts options turn h h.nextProgress ∧ h.nextProgress.host.armed = [] ∧
      h.nextProgress.session.isDisposed = false := by
  unfold nextProgress
  split
  · exact ⟨.refl, quiet, live⟩
  next params connection eq =>
    have taken : h.session.connection.Unread connection ∧
        connection.jobs = h.session.connection.jobs := by
      have next := h.session.connection.next_unread Session.progressFeed
      have jobs : (h.session.connection.next Session.progressFeed).2.jobs =
        h.session.connection.jobs := rfl
      rw [eq] at next jobs
      exact ⟨next, jobs⟩
    have decoded := Connection.decoded_unread (c := connection) ProgressParams.method
      ProgressParams.ofJson? params
    have read : Acts options turn h (h.withConnection (connection.decoded ProgressParams.method
        ProgressParams.ofJson? params).2) :=
      (Act.connection (.of_unread (taken.1.trans decoded.1) (decoded.2.trans taken.2))).acts
    dsimp only
    generalize connection.decoded ProgressParams.method ProgressParams.ofJson? params = pair at read ⊢
    split
    · exact ⟨read, quiet, live⟩
    next params _ =>
      let k := h.withConnection pair.2
      have handled := handleProgress_spares (h := { k with
        session := { k.session with progress := (k.session.progress.begin params).2 } }) quiet
        (k.session.progress.begin params).1
      exact ⟨read.trans (Act.takeUp (h := k) params idle live).acts, handled.armed.trans quiet,
        handled.disposed.trans live⟩

/-- Any number of steps is several acts, by induction on the number. In each step a notification is in hand
or the next is taken up. -/
theorem progressSteps_acts (steps : Nat) (quiet : h.host.armed = [])
    (live : h.session.isDisposed = false) : Acts options turn h (progressSteps steps h) := by
  induction steps generalizing h with
  | zero => exact .refl
  | succ steps ih =>
    unfold progressSteps
    split
    next call busy =>
      have first : Acts options turn h (h.handleProgress call) := (Act.proceed call busy live).acts
      have spares := handleProgress_spares quiet call
      dsimp only
      split
      · exact first
      · exact first.trans (ih (spares.armed.trans quiet) (spares.disposed.trans live))
    next idle =>
      obtain ⟨first, quiet, live⟩ : Acts options turn h _ ∧ _ := nextProgress_acts quiet live idle
      exact first.trans (ih quiet live)

/-- The task that follows progress does nothing but acts. -/
theorem followProgress_acts (quiet : h.host.armed = []) (live : h.session.isDisposed = false) :
    Acts options turn h h.followProgress := progressSteps_acts _ quiet live

/-! ## Greeting -/

/-- Whoever disposes a session does it in a turn of its own, not in that of the reader and not in a sweep.
-/
theorem dispose_acts (read : turn ≠ .reader) (swept : turn ≠ .sweep) :
    Acts options turn h h.dispose := by
  cases live : h.session.isDisposed with
  | true =>
    rw [dispose_of_disposed live]
  | false => exact (Act.dispose live read swept).acts

/-- The greeting is an act of the connection, or the end of the session if the root cannot be named to the
server. -/
theorem greet_acts (read : turn ≠ .reader) (swept : turn ≠ .sweep)
    (folders : Option (List WorkspaceFolder)) : Acts options turn h (h.greet options folders).2 := by
  unfold greet
  split
  · exact dispose_acts read swept
  next params _ =>
    refine (note_acts h .session .info "initializing language server"
      [("root", h.session.rootText)]).trans ?_
    exact (Act.connection (.of_unread (Connection.request_unread ..)
      (Connection.request_jobs ..))).acts

/-- A notification that went out is an act in which neither the host nor what calls came to has changed. -/
theorem notify_acts {method : String} {params : Json} (sent : h.notify method params = .ok k) :
    Acts options turn h k ∧ k.host = h.host ∧ k.number = h.number ∧
      k.session.connection.outcome? = h.session.connection.outcome? := by
  obtain ⟨connection, notified, rfl⟩ := notify_ok sent
  have calls := (Connection.alike_send notified).calls
  refine ⟨(Act.connection (.of_unread (Connection.notify_unread notified)
    (Connection.send_jobs notified).1)).acts, rfl, rfl, ?_⟩
  funext number
  unfold Connection.outcome?
  rw [← calls]
  rfl

/-- Documents are announced by acts that leave the host alone. That the outcomes are the same is kept, since
the answer to the greeting is looked up again afterwards. -/
theorem announceEach_acts (rewriter : Rewriter) (documents : List TextDocument) (h : Hosted) :
    Acts options turn h (h.announceEach rewriter documents).2 ∧
      (h.announceEach rewriter documents).2.host = h.host ∧
      (h.announceEach rewriter documents).2.number = h.number ∧
      (h.announceEach rewriter documents).2.session.connection.outcome? =
        h.session.connection.outcome? := by
  induction documents generalizing h with
  | nil => exact ⟨.refl, rfl, rfl, rfl⟩
  | cons document documents ih =>
    unfold announceEach
    split
    · exact ⟨.refl, rfl, rfl, rfl⟩
    next k sent =>
      obtain ⟨uri, -, sent⟩ := announce_ok sent
      obtain ⟨first, host, number, outcome⟩ : Acts options turn h k ∧ _ := notify_acts sent
      obtain ⟨rest, host', number', outcome'⟩ := ih k
      exact ⟨first.trans rest, host'.trans host, number'.trans number, outcome'.trans outcome⟩

/-- What is advertised is registered by an act, because call zero has the answer that advertises it. -/
theorem installStatic_acts (quiet : h.host.armed = []) {answer : Json}
    (answered : h.session.connection.outcome? 0 = some (.ok answer)) :
    Acts options turn h (h.installStatic options answer) := by
  have installed : Acts options turn h (h.installAll (options.advertised answer)).2 :=
    installAll_acts quiet _ (.inr ⟨answer, answered, rfl⟩)
  unfold installStatic
  dsimp only
  split
  next eq => rw [ClientOptions.advertised, eq] at installed; exact installed
  next eq =>
    rw [ClientOptions.advertised, eq] at installed
    exact installed.trans (note_acts ..)

/-- What follows the answer to the greeting is acts, and the registrations among them are asked for by that
answer. -/
theorem proceed_acts (quiet : h.host.armed = []) {answer : Json}
    (answered : h.session.connection.outcome? 0 = some (.ok answer)) :
    Acts options turn h (h.proceed options answer).2 := by
  unfold proceed
  split
  · exact .refl
  next k sent =>
    obtain ⟨said, host, -, outcome⟩ : Acts options turn h k ∧ _ := notify_acts sent
    obtain ⟨announced, host', -, outcome'⟩ : Acts options turn k _ ∧ _ :=
      announceEach_acts options.rewriter
        (k.host.documents.filter fun document => k.session.covers document.uri) k
    unfold announceAll
    split
    next eq => rw [eq] at announced; exact said.trans announced
    next eq =>
      rw [eq] at announced host' outcome'
      refine (said.trans announced).trans (installStatic_acts ?_ ?_)
      · rw [host', host]
        exact quiet
      · rw [outcome', outcome]
        exact answered

/-- What becomes of the greeting is acts, with the end of the session where it failed. -/
theorem welcome_acts (read : turn ≠ .reader) (swept : turn ≠ .sweep) (quiet : h.host.armed = [])
    {outcome : Outcome} (answered : h.session.connection.outcome? 0 = some outcome) :
    Acts options turn h (h.welcome options outcome).2 := by
  unfold welcome
  split
  · exact dispose_acts read swept
  next answer =>
    have proceeded : Acts options turn h (h.proceed options answer).2 := proceed_acts quiet answered
    split
    next eq => rw [eq] at proceeded; exact proceeded
    next eq => rw [eq] at proceeded; exact proceeded.trans (dispose_acts read swept)

/-! ## Disposing -/

/-- Nothing is drawn of a kind in these views. -/
def clearings (kind : Nat) (views : List View) : List HostEvent :=
  views.map fun view => .decorated kind view.id []

/-- What disposing draws: the views of documents with diagnostics are emptied. -/
def emptied (h : Hosted) : List HostEvent :=
  clearings h.session.decorationKind
    (h.host.views.filter fun view => view.document ∈ h.session.diagnostics.map Prod.fst)

/-- Emptying the views, when the host does not end the client in it, draws nothing in each of them and
forgets the diagnostics. -/
theorem clearDiagnostics_eq (unarmed : .setDecorations ∉ h.host.armed) : h.clearDiagnostics =
    { h with session := { h.session with diagnostics := [] }, host := h.host.record h.emptied } := by
  have each (views : List View) (k : Hosted) (unarmed : .setDecorations ∉ k.host.armed) :
      views.foldl (fun h view => (h.decorate view []).ring .setDecorations) k =
        { k with host := k.host.record (clearings k.session.decorationKind views) } := by
    induction views generalizing k with
    | nil => simp [Host.record, clearings]
    | cons view views ih =>
      rw [List.foldl_cons, ring_unarmed (h := k.decorate view []) unarmed,
        ih (k.decorate view []) unarmed]
      simp [decorate, Host.decorate, Host.record, clearings]
  exact each _ { h with session := { h.session with diagnostics := [] } } unarmed

/-- The word in the log for a session that is disposed. -/
def farewell (h : Hosted) : LogEvent :=
  LogPart.session.event .info "session disposed"
    [("registrations", toString h.session.registrations.size), ("root", h.session.rootText)]

/-- What disposing a live session does, unless the host ends the client while views are emptied. Only that
one callback is of account, which is why the hypothesis is weaker than a host that arms nothing. -/
theorem dispose_unarmed (unarmed : .setDecorations ∉ h.host.armed)
    (live : h.session.isDisposed = false) : h.dispose = { h with
      session := { h.session with
        isDisposed := true
        registrations := .empty
        diagnostics := []
        progress := h.session.progress.completeAll.1
        connection := h.session.connection.close.record h.farewell }
      host := (h.host.withdraw h.session.registrations.providers).record
        (h.emptied ++ h.session.progress.completeAll.2.map .reporter) } := by
  let k : Hosted := { h with session := { h.session with isDisposed := true } }
  have calm : .setDecorations ∉ k.clearRegistrations.host.armed := unarmed
  have cleared : k.clearRegistrations.clearDiagnostics = _ := clearDiagnostics_eq calm
  have disposed : h.dispose = (k.clearRegistrations.clearDiagnostics.completeAll.withConnection
      k.clearRegistrations.clearDiagnostics.completeAll.session.connection.close).note .session .info
      "session disposed" [("registrations", toString h.session.registrations.size),
        ("root", k.clearRegistrations.clearDiagnostics.completeAll.session.rootText)] := by
    unfold Hosted.dispose
    rw [if_neg (by rw [live]; exact Bool.false_ne_true)]
  rw [disposed, cleared]
  simp only [Hosted.clearRegistrations, Hosted.completeAll, Hosted.report, Hosted.withConnection,
    Hosted.note, Host.record, Host.withdraw, Hosted.emptied, Hosted.farewell, List.append_assoc, k]
  rfl

/-- What disposing does with a host that arms nothing, with the connection left open but for what is known
of it. -/
theorem dispose_eq (quiet : h.host.armed = []) (live : h.session.isDisposed = false) :
    ∃ connection, (h.session.connection.close.Unread connection ∧
        connection.jobs = h.session.connection.close.jobs) ∧
      connection.isOver = true ∧ h.dispose = { h with
        session := { h.session with
          isDisposed := true
          registrations := .empty
          diagnostics := []
          progress := h.session.progress.completeAll.1
          connection := connection }
        host := (h.host.withdraw h.session.registrations.providers).record
          (h.emptied ++ h.session.progress.completeAll.2.map .reporter) } :=
  ⟨h.session.connection.close.record h.farewell, ⟨Connection.record_unread _, rfl⟩,
    h.session.connection.isOver_close, dispose_unarmed (not_armed quiet _) live⟩

/-! ## What acts leave alone -/

/-- What can happen to the connection in a turn is all that happens to it, by one case for each act. -/
theorem Act.allows (quiet : h.host.armed = []) (act : Act options turn h k) :
    turn.Allows h.number h.session.connection k.session.connection := by
  have spares {k : Hosted} (spares : Spares h k) :
      turn.Allows h.number h.session.connection k.session.connection :=
    .of_unread spares.connection spares.jobs
  cases act with
  | connection allowed => exact allowed
  | heed | publish | draw | release => exact .refl _
  | register registrations => exact spares (installEach_spares quiet registrations).1
  | unregister id => exact spares (h.uninstall_spares id).1
  | proceed call => exact spares (handleProgress_spares quiet call)
  | takeUp params =>
    have handled := handleProgress_spares (h := { h with
      session := { h.session with progress := (h.session.progress.begin params).2 } }) quiet
      (h.session.progress.begin params).1
    exact .of_unread handled.connection handled.jobs
  | dispose live =>
    obtain ⟨connection, closes, -, same⟩ := dispose_eq quiet live
    rw [same]
    exact .of_unread (Connection.close_unread.trans closes.1) (closes.2.trans Connection.close_jobs)

/-- A host that ends the client in no callback does not come to do so, and a session stays the one that it
is. -/
theorem Act.calm (quiet : h.host.armed = []) (act : Act options turn h k) :
    k.number = h.number ∧ k.host.armed = [] := by
  cases act with
  | connection | heed | publish | draw | release => exact ⟨rfl, quiet⟩
  | register registrations =>
    have spares := (installEach_spares quiet registrations).1
    exact ⟨spares.number, spares.armed.trans quiet⟩
  | unregister id =>
    have spares := (h.uninstall_spares id).1
    exact ⟨spares.number, spares.armed.trans quiet⟩
  | proceed call =>
    have spares := handleProgress_spares quiet call
    exact ⟨spares.number, spares.armed.trans quiet⟩
  | takeUp params =>
    let k : Hosted := { h with
      session := { h.session with progress := (h.session.progress.begin params).2 } }
    have calm : k.host.armed = [] := quiet
    have spares := handleProgress_spares calm (h.session.progress.begin params).1
    exact ⟨spares.number, spares.armed.trans quiet⟩
  | dispose live =>
    obtain ⟨connection, -, -, same⟩ := dispose_eq quiet live
    rw [same]
    exact ⟨rfl, quiet⟩

/-- What every act preserves, several acts preserve. The host that arms nothing is carried along, as every
act needs it again. -/
theorem Acts.induction (property : Hosted → Prop)
    (each : ∀ {h k}, h.host.armed = [] → Act options turn h k → property h → property k)
    (quiet : h.host.armed = []) (acts : Acts options turn h k) (start : property h) :
    k.number = h.number ∧ k.host.armed = [] ∧ property k := by
  induction acts with
  | refl => exact ⟨rfl, quiet, start⟩
  | tail _ act ih =>
    obtain ⟨number, calm, kept⟩ := ih
    obtain ⟨same, still⟩ := act.calm calm
    exact ⟨same.trans number, still, each calm act kept⟩

end Hosted

end LanguageClient
