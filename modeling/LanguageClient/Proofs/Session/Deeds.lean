import LanguageClient.Proofs.Connection.Feeds
import LanguageClient.Proofs.Session.Course
import Mathlib.Logic.Relation

/-!
# The deeds of a session

Everything that a session does, to itself and to the host, is a sequence of a few deeds, whatever the
host does from inside its callbacks. `Hosted.Deed` lists them: what changes neither what the server said
nor what the host shows of it (`Hosted.Stays`), the end of the session, and what its tasks do with what
the server said. Whatever every deed preserves, every operation of a session preserves.

Reading what the server sends is no deed, so between two reads the server says nothing new.
-/

namespace LanguageClient

/-- A session that still follows its server was not disposed. The deeds of its tasks ask for activity, and
their proofs need this half of it. -/
theorem Session.live_of_active {s : Session} (active : s.isActive = true) : s.isDisposed = false := by
  rw [isActive, Bool.and_eq_true, Bool.not_eq_true'] at active
  exact active.1

/-- What a session that hears of a document keeps of it: a count, and only while it hears of documents at
all. -/
theorem Session.hearOfDocument_eq (s : Session) : s.hearOfDocument =
    { s with openedDocuments := s.openedDocuments + if s.hearsHost then 1 else 0 } := by
  unfold hearOfDocument
  split <;> rfl

namespace Hosted

variable {options : ClientOptions} {h k l : Hosted}

/-- A session has only told its server something, while providers have come and gone, and callbacks of
the host that were armed. -/
structure Stays (h k : Hosted) : Prop where
  number : k.number = h.number
  host : k.host = { h.host with
    provided := k.host.provided, withdrawn := k.host.withdrawn, armed := k.host.armed }
  armed : k.host.armed ⊆ h.host.armed
  session : k.session = { h.session with
    connection := k.session.connection, registrations := k.session.registrations }
  mute : h.session.connection.Mute k.session.connection

/-- One thing that a session does. -/
inductive Deed (options : ClientOptions) (h : Hosted) : Hosted → Prop where
  | stay {k : Hosted} (stays : Stays h k) : Deed options h k
  | dispose : Deed options h h.dispose
  | forwardLog : Deed options h h.forwardLog
  | followDiagnostics (active : h.session.isActive = true) :
      Deed options h (h.followDiagnostics options.rewriter)
  | followProgress (active : h.session.isActive = true) : Deed options h h.followProgress
  /-- Nobody holds the session any more. -/
  | leave : Deed options h { h with session := { h.session with isReleased := true } }
  /-- Nobody can use the connection any more. -/
  | cut : Deed options h (h.withConnection h.session.connection.release)

/-- Several deeds, one after the other. -/
abbrev Deeds (options : ClientOptions) : Hosted → Hosted → Prop :=
  Relation.ReflTransGen (Deed options)

theorem Deed.deeds (deed : Deed options h k) : Deeds options h k := .single deed

/-- A deed is done to the session of the number that it was at first, so the sessions of a world do not
change places. -/
theorem Deed.number (deed : Deed options h k) : k.number = h.number := by
  cases deed with
  | stay stays => exact stays.number
  | dispose => exact h.dispose_beside.number
  | forwardLog => exact h.forwardLog_beside.number
  | followDiagnostics => exact (h.followDiagnostics_beside _).number
  | followProgress => exact h.followProgress_beside.number
  | leave | cut => rfl

namespace Stays

/-- Only providers and registrations have changed, and the callbacks of the host are the same. It is the
case in which nothing is armed or rung. -/
theorem of_eq (number : k.number = h.number) (host : k.host = { h.host with
      provided := k.host.provided, withdrawn := k.host.withdrawn })
    (session : k.session = { h.session with registrations := k.session.registrations }) :
    Stays h k := by
  have armed : k.host.armed = h.host.armed := by rw [host]
  refine ⟨number, ?_, armed ▸ List.Subset.refl _, ?_, ?_⟩
  · rw [armed]
    exact host
  · have connection : k.session.connection = h.session.connection := by rw [session]
    rw [connection]
    exact session
  · rw [session]
    exact .refl _

theorem refl (h : Hosted) : Stays h h := .of_eq rfl rfl rfl

/-- Two steps that stay make one. Callbacks that are armed can only get fewer. -/
theorem trans (first : Stays h k) (second : Stays k l) : Stays h l where
  number := second.number.trans first.number
  host := by rw [second.host, first.host]
  armed := List.Subset.trans second.armed first.armed
  session := by rw [second.session, first.session]
  mute := first.mute.trans second.mute

/-- To stay is a deed, and so several deeds. Sequences of operations are put together from these. -/
theorem deeds (stays : Stays h k) : Deeds options h k := .single (.stay stays)

end Stays

/-! ## Telling -/

/-- A step of the connection stays if it says nothing to any feed and ends nothing. -/
theorem withConnection_stays {connection : Connection SessionHandler}
    (mute : h.session.connection.Mute connection) : Stays h (h.withConnection connection) :=
  ⟨rfl, rfl, List.Subset.refl _, rfl, mute⟩

/-- A word in the log stays. -/
theorem note_stays (h : Hosted) (part : LogPart) (level : LogLevel) (message : String)
    (fields : List (String × String)) : Stays h (h.note part level message fields) :=
  withConnection_stays ⟨rfl, rfl⟩

/-- Taking what waits in a feed gives what decodes of it, and only the feed and the log know of it. -/
theorem drainAs_eq {α : Type} (h : Hosted) (method : String) (decode : Json → Option α)
    (feed : Nat) : ∃ log, h.drainAs method decode feed =
      ((h.session.connection.waiting feed).filterMap decode,
        h.withConnection { (h.session.connection.drain feed).2 with log }) := by
  obtain ⟨log, drained⟩ := h.session.connection.drainAs_eq method decode feed
  refine ⟨log, ?_⟩
  unfold drainAs
  rw [drained]

/-- A notification that went out is said to the server, and no feed or view has changed. -/
theorem notify_stays {method : String} {params : Json} (sent : h.notify method params = .ok k) :
    Stays h k := by
  obtain ⟨connection, notified, rfl⟩ := notify_ok sent
  exact withConnection_stays (Connection.send_mute notified)

/-- However many documents were announced before one could not be, the session has only told its server
something. -/
theorem announceEach_stays (h : Hosted) (rewriter : Rewriter) (documents : List TextDocument) :
    Stays h (h.announceEach rewriter documents).2 := by
  induction documents generalizing h with
  | nil => exact .refl h
  | cons document documents ih =>
    unfold announceEach
    split
    · exact .refl h
    next k sent =>
      obtain ⟨uri, -, sent⟩ := announce_ok sent
      exact (notify_stays sent).trans (ih k)

/-! ## Callbacks -/

/-- A callback uses up the armed one, if it was armed, and does nothing else to the host. -/
theorem ring_stays (h : Hosted) (call : HostCall) : Stays h (h.ring call) := by
  unfold ring Host.ring
  by_cases armed : call ∈ h.host.armed
  · simp only [armed, if_true]
    split <;> exact ⟨rfl, rfl, List.erase_subset, rfl, .refl _⟩
  · simp only [armed, if_false]
    exact .refl h

/-- The host may end the client, and the session with it. Which of the two it was is left open, so later
proofs have these two cases and no others. -/
theorem callback_cases (h : Hosted) (call : HostCall) :
    ∃ k, Stays h k ∧ (h.callback call = k ∨ h.callback call = k.dispose) := by
  refine ⟨h.ring call, ring_stays h call, ?_⟩
  unfold callback
  dsimp only
  split
  · exact .inr rfl
  · exact .inl rfl

/-- A callback is a deed that stays, with the end of the session behind it if the host ends the client. -/
theorem callback_deeds (h : Hosted) (call : HostCall) : Deeds options h (h.callback call) := by
  obtain ⟨k, stays, called | called⟩ := callback_cases h call
  · rw [called]
    exact stays.deeds
  · rw [called]
    exact stays.deeds.tail .dispose

/-! ## Registering -/

/-- All providers are withdrawn, and nothing else that the host shows has changed. -/
theorem clearRegistrations_stays (h : Hosted) : Stays h h.clearRegistrations :=
  .of_eq rfl rfl rfl

/-- One provider is withdrawn, or none if the id stands for none. -/
theorem uninstall_stays (h : Hosted) (id : RegistrationId) : Stays h (h.uninstall id) := by
  unfold uninstall
  split
  · exact .refl h
  · exact .of_eq rfl rfl rfl

/-- To give the host a provider is to free its id, to give it, and to call back. Only the last can be more
than to stay. -/
theorem addProvider_deeds (h : Hosted) (feature : Feature) (id : RegistrationId)
    (selector : DocumentSelector) : Deeds options h (h.addProvider feature id selector) := by
  have provided : Stays h { h with host :=
      (h.host.provide feature.kind selector feature h.number).2 } := .of_eq rfl rfl rfl
  have rung : Deeds options h ({ h with host :=
      (h.host.provide feature.kind selector feature h.number).2 }.callback .registerProvider) :=
    provided.deeds.trans (callback_deeds ..)
  exact (rung.tail (.stay (uninstall_stays _ id))).tail (.stay (.of_eq rfl rfl rfl))

/-- A registration is a few deeds if it is carried out, and stays if it fails or has no feature. -/
theorem install_deeds (h : Hosted) (registration : Registration) :
    Deeds options h (h.install registration).2 := by
  have uninstalled : Deeds options h (h.uninstall registration.id) := (uninstall_stays h _).deeds
  unfold install
  dsimp only
  split
  · exact uninstalled
  · split
    · exact uninstalled
    · exact uninstalled.trans (addProvider_deeds ..)

/-- A registration that fails is followed by a word in the log, which stays. -/
theorem installNoted_deeds (h : Hosted) (registration : Registration) :
    Deeds options h (h.installNoted registration).2 := by
  have installed : Deeds options h (h.install registration).2 := install_deeds h registration
  unfold installNoted
  split
  next eq => rw [eq] at installed; exact installed
  next eq => rw [eq] at installed; exact installed.tail (.stay (note_stays ..))

/-- Registrations are deeds one after the other. A session that is disposed by a callback goes on with the
list, and so does the sequence. -/
theorem installEach_deeds (h : Hosted) (registrations : List Registration) :
    Deeds options h (h.installEach registrations).2 := by
  induction registrations generalizing h with
  | nil => exact .refl
  | cons registration registrations ih => exact (installNoted_deeds h registration).trans (ih _)

/-- Registrations and, if the session is disposed afterwards, taking all of them back are deeds. -/
theorem installAll_deeds (h : Hosted) (registrations : List Registration) :
    Deeds options h (h.installAll registrations).2 := by
  unfold installAll
  split
  · exact .refl
  · have installed : Deeds options h (h.installEach registrations).2 := installEach_deeds ..
    dsimp only
    split
    · exact installed.tail (.stay (clearRegistrations_stays _))
    · exact installed

/-- What the answer to the greeting advertises is registered by deeds. -/
theorem installStatic_deeds (h : Hosted) (answer : Json) :
    Deeds options h (h.installStatic options answer) := by
  unfold installStatic
  dsimp only
  generalize Feature.staticRegistrations _ _ = registrations
  have installed : Deeds options h (h.installAll registrations).2 := installAll_deeds ..
  split
  next eq => rw [eq] at installed; exact installed
  next eq => rw [eq] at installed; exact installed.tail (.stay (note_stays ..))

/-! ## Serving -/

/-- A handler registers or takes back what the request says, if it can be read, and does nothing otherwise.
-/
theorem serve_deeds (h : Hosted) (handler : SessionHandler) (method : String) (params : Json) :
    Deeds options h (h.serve handler method params).2 := by
  unfold serve
  split
  · split
    · exact .refl
    · exact installAll_deeds ..
  · split
    · exact .refl
    next gone _ =>
      suffices each : ∀ (ids : List RegistrationId) (k : Hosted),
          Stays k (ids.foldl uninstall k) from (each _ h).deeds
      intro ids
      induction ids with
      | nil => exact .refl
      | cons id ids ih => exact fun k => (uninstall_stays k id).trans (ih _)

/-- Carrying out a request of the server is what its handler does, and the answer, which stays. -/
theorem runJob_deeds (h : Hosted) (isHeld : Bool) (number : Nat) :
    Deeds options h (h.runJob isHeld number) := by
  unfold runJob
  split
  · exact .refl
  · dsimp only
    split
    · exact (withConnection_stays (Connection.finish_mute ..)).deeds
    · exact (serve_deeds ..).tail (.stay (withConnection_stays (Connection.finish_mute ..)))

/-! ## Greeting -/

/-- The greeting is said to the server, or the session is disposed as its root has no name there. -/
theorem greet_deeds (h : Hosted) (folders : Option (List WorkspaceFolder)) :
    Deeds options h (h.greet options folders).2 := by
  unfold greet
  split
  · exact Deed.dispose.deeds
  · exact ((note_stays h ..).trans (withConnection_stays (Connection.request_mute ..))).deeds

/-- What follows the answer to the greeting is a notification, the documents and the registrations, and
stops at what fails. -/
theorem proceed_deeds (h : Hosted) (answer : Json) :
    Deeds options h (h.proceed options answer).2 := by
  unfold proceed
  split
  · exact .refl
  next k sent =>
    have told : Deeds options h (k.announceAll options.rewriter).2 :=
      ((notify_stays sent).trans (announceEach_stays ..)).deeds
    split
    next eq => rw [eq] at told; exact told
    next eq => rw [eq] at told; exact told.trans (installStatic_deeds ..)

/-- What becomes of the greeting is deeds in all cases; a failure adds the end of the session. -/
theorem welcome_deeds (h : Hosted) (outcome : Outcome) :
    Deeds options h (h.welcome options outcome).2 := by
  unfold welcome
  split
  · exact Deed.dispose.deeds
  next answer =>
    have proceeded : Deeds options h (h.proceed options answer).2 := proceed_deeds h answer
    split
    next eq => rw [eq] at proceeded; exact proceeded
    next eq => rw [eq] at proceeded; exact proceeded.tail .dispose

/-- A session that nobody holds takes back its providers and then follows nothing more. -/
theorem release_deeds (h : Hosted) : Deeds options h h.release :=
  (clearRegistrations_stays h).deeds.tail .leave

end Hosted

end LanguageClient
