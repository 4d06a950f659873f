import LanguageClient.Proofs.Roots.Charge
import LanguageClient.Proofs.Session.Acts
import LanguageClient.Proofs.Session.Greeting
import LanguageClient.Proofs.World.Parts
import Mathlib.Data.List.TakeWhile

/-!
# Which documents a server is told of

When the server has answered the greeting, a session says that the client is ready and announces the
documents that the host has open under the root. It does so in the order of the host, up to the first
document that has no name for the server (`Hosted.announceEach_eq`); what is registered after that is not
said to the server at all.

So the server hears of every document that has a name, and the session comes to be, just if each document
under the root has one (`World.welcome_announces_iff`). A document without a name keeps the server from
hearing of those behind it and costs the session (`World.welcome_loses_document`).
-/

namespace LanguageClient

namespace Rewriter

variable {rewriter : Rewriter} {document : TextDocument}

/-- The message by which a server learns of a document, if the document has a name for it. -/
def announcement? (rewriter : Rewriter) (document : TextDocument) : Option Message :=
  match rewriter.toReference document.uri with
  | .ok uri =>
    some (.notification (Notification.make didOpenMethod (some (document.openParams uri))))
  | .error _ => none

/-- Why a document has no name for a server. -/
def refusal? (rewriter : Rewriter) (document : TextDocument) : Option ConversionError :=
  match rewriter.toReference document.uri with
  | .ok _ => none
  | .error failure => some failure

/-- A document is announced, or it has no name and nothing is said. -/
theorem announcement_cases (rewriter : Rewriter) (document : TextDocument) :
    (∃ uri, rewriter.toReference document.uri = .ok uri ∧ rewriter.refusal? document = none ∧
      rewriter.announcement? document = some (.notification
        (Notification.make didOpenMethod (some (document.openParams uri))))) ∨
      ∃ failure, rewriter.toReference document.uri = .error failure ∧
        rewriter.refusal? document = some failure ∧ rewriter.announcement? document = none := by
  unfold announcement? refusal?
  cases rewriter.toReference document.uri with
  | ok uri => exact .inl ⟨uri, rfl, rfl, rfl⟩
  | error failure => exact .inr ⟨failure, rfl, rfl, rfl⟩

/-- A document is not refused just if it is announced, as it has a name for the server or none. -/
theorem refusal?_eq_none_iff :
    rewriter.refusal? document = none ↔ (rewriter.announcement? document).isSome := by
  rcases rewriter.announcement_cases document with ⟨_, -, named, announced⟩ | ⟨_, -, named, announced⟩
  · simp only [named, announced, Option.isSome_some]
  · simp only [named, announced, reduceCtorEq, Option.isSome_none, Bool.false_eq_true]

/-- No document is refused just if each of them is announced. -/
theorem findSome?_refusal? {documents : List TextDocument} :
    documents.findSome? rewriter.refusal? = none ↔
      ∀ document ∈ documents, (rewriter.announcement? document).isSome := by
  simp only [List.findSome?_eq_none_iff, refusal?_eq_none_iff]

end Rewriter

/-! ## What was said -/

namespace Connection

variable {η : Type} {c d : Connection η}

/-- Closing a connection takes nothing from what was said on it and not read yet. -/
theorem waiting_close (c : Connection η) : c.close.outgoing.waiting = c.outgoing.waiting := by
  cases finished : c.isOver with
  | false => rw [outgoing_close finished]; rfl
  | true =>
    unfold close
    rw [if_pos (by simpa only [isOver, Bool.or_eq_true] using finished)]

/-- A connection on which something was sent is still open. -/
theorem isOpen_send {message : Message} (sent : c.send message = .ok d) (opened : c.isOpen = true) :
    d.isOpen = true := by
  unfold isOpen at opened ⊢
  rw [(send_ok sent).1]
  exact opened

end Connection

/-- What was put into the pipe to the server of a session, as long as the server reads. -/
def Session.said (s : Session) : List Message := s.connection.outgoing.waiting

namespace Hosted

variable {h : Hosted}

/-- A session that is disposed says nothing to its server: providers, views and reporters are the host's,
and closing is no message. -/
theorem said_dispose (h : Hosted) : h.dispose.session.said = h.session.said := by
  cases live : h.session.isDisposed with
  | true => rw [dispose_of_disposed live]
  | false =>
    obtain ⟨-, -, -, -, outgoing⟩ := (h.dispose_course live).session
    rw [Session.said, outgoing]
    exact Connection.waiting_close _

/-- A callback of the host says nothing to the server, whether or not the session is disposed in it. -/
theorem said_callback (h : Hosted) (call : HostCall) :
    (h.callback call).session.said = h.session.said := by
  have rung : (h.ring call).session = h.session := (ring_aside h call).session
  unfold callback
  dsimp only
  split
  · rw [said_dispose, rung]
  · rw [rung]

/-- Taking a registration back is between the client and the host. -/
theorem said_uninstall (h : Hosted) (id : RegistrationId) :
    (h.uninstall id).session.said = h.session.said := by
  unfold uninstall
  split <;> rfl

/-- So is adding a provider, for which the host is called back. -/
theorem said_addProvider (h : Hosted) (feature : Feature) (id : RegistrationId)
    (selector : DocumentSelector) :
    (h.addProvider feature id selector).session.said = h.session.said :=
  (said_uninstall _ id).trans (said_callback _ .registerProvider)

/-- Carrying a registration out says nothing to the server. What came of it is told by whoever serves the
request. -/
theorem said_install (h : Hosted) (registration : Registration) :
    (h.install registration).2.session.said = h.session.said := by
  unfold install
  dsimp only
  split
  · exact said_uninstall ..
  · split
    · exact said_uninstall ..
    · exact (said_addProvider ..).trans (said_uninstall ..)

/-- Telling the log of a failure is no word to the server. -/
theorem said_installNoted (h : Hosted) (registration : Registration) :
    (h.installNoted registration).2.session.said = h.session.said := by
  have installed := said_install h registration
  unfold installNoted
  generalize h.install registration = outcome at installed ⊢
  obtain ⟨_ | failure, k⟩ := outcome <;> exact installed

/-- Nothing is said by registrations that are carried out one after the other. -/
theorem said_installEach (h : Hosted) (registrations : List Registration) :
    (h.installEach registrations).2.session.said = h.session.said := by
  induction registrations generalizing h with
  | nil => rfl
  | cons registration registrations ih =>
    exact (ih (h.installNoted registration).2).trans (said_installNoted h registration)

/-- Nor by carrying out all of them, where the session may have been disposed before. -/
theorem said_installAll (h : Hosted) (registrations : List Registration) :
    (h.installAll registrations).2.session.said = h.session.said := by
  unfold installAll
  split
  · rfl
  · dsimp only
    split <;> exact said_installEach h registrations

/-- What the server advertises is registered without a word to it. -/
theorem said_installStatic (h : Hosted) (options : ClientOptions) (answer : Json) :
    (h.installStatic options answer).session.said = h.session.said := by
  unfold installStatic
  dsimp only
  have installed := said_installAll h (options.advertised answer)
  unfold ClientOptions.advertised at installed
  split
  next eq => rw [eq] at installed; exact installed
  next eq => rw [eq] at installed; exact installed

/-! ## Announcing -/

/-- On an open connection documents are announced in their order, up to the first that has no name. Sending
cannot fail there, so a name that is missing is the only failure. -/
theorem announceEach_eq (rewriter : Rewriter) (documents : List TextDocument)
    (opened : h.session.connection.isOpen = true) :
    ∃ connection, h.announceEach rewriter documents =
        ((documents.findSome? rewriter.refusal?).map .conversion, h.withConnection connection) ∧
      connection.outgoing.waiting = h.session.said ++ (documents.takeWhile fun document =>
        (rewriter.announcement? document).isSome).filterMap rewriter.announcement? := by
  induction documents generalizing h with
  | nil => exact ⟨h.session.connection, rfl, (List.append_nil _).symm⟩
  | cons document documents ih =>
    unfold announceEach announce
    rcases rewriter.announcement_cases document with
      ⟨uri, named, free, announced⟩ | ⟨failure, named, refused, announced⟩
    · obtain ⟨connection, sent⟩ := Connection.send_of_isOpen opened
        (.notification (Notification.make didOpenMethod (some (document.openParams uri))))
      obtain ⟨later, rest, said⟩ := ih (h := h.withConnection connection)
        (Connection.isOpen_send sent opened)
      refine ⟨later, ?_, ?_⟩
      · simp only [named, notify, Connection.notify, sent, Except.map, List.findSome?_cons, free]
        exact rest
      · rw [said, Session.said, withConnection, (Connection.send_ok sent).1,
          List.takeWhile_cons_of_pos (by rw [announced]; rfl),
          List.filterMap_cons_some announced, List.append_assoc]
        rfl
    · refine ⟨h.session.connection, ?_, ?_⟩
      · simp only [named, withConnection, List.findSome?_cons, refused, Option.map_some]
      · rw [List.takeWhile_cons_of_neg (by rw [announced]; exact Bool.false_ne_true)]
        exact (List.append_nil _).symm

/-- The documents that the host has open under the root. -/
def covered (h : Hosted) : List TextDocument :=
  h.host.documents.filter fun document => h.session.covers document.uri

/-- What follows a good answer on an open connection: the server is told that the client is ready and of
the documents up to the first without a name. Then what it advertises is registered, or the session is
disposed. -/
theorem welcome_eq (options : ClientOptions) (answer : Json)
    (opened : h.session.connection.isOpen = true) :
    ∃ told, (h.withConnection told).session.said = h.session.said ++ readiness ::
        (h.covered.takeWhile fun document =>
          (options.rewriter.announcement? document).isSome).filterMap
            options.rewriter.announcement? ∧
      h.welcome options (.ok answer) =
        match h.covered.findSome? options.rewriter.refusal? with
        | none => (none, (h.withConnection told).installStatic options answer)
        | some failure => (some (.conversion failure), (h.withConnection told).dispose) := by
  obtain ⟨ready, sent⟩ := Connection.send_of_isOpen opened readiness
  obtain ⟨told, announced, said⟩ := announceEach_eq (h := h.withConnection ready) options.rewriter
    h.covered (Connection.isOpen_send sent opened)
  have notified : h.notify initializedMethod (.obj []) = .ok (h.withConnection ready) :=
    congrArg (Except.map h.withConnection) sent
  have all : (h.withConnection ready).announceAll options.rewriter =
      ((h.covered.findSome? options.rewriter.refusal?).map .conversion, h.withConnection told) :=
    announced
  refine ⟨told, ?_, ?_⟩
  · rw [Session.said, withConnection, said, Session.said, withConnection,
      (Connection.send_ok sent).1, List.append_assoc]
    rfl
  · unfold welcome proceed
    simp only [notified, all]
    cases h.covered.findSome? options.rewriter.refusal? <;> rfl

/-- What the server hears after a good answer on an open connection: that the client is ready, and then the
documents up to the first without a name. Whether the session comes to be makes no difference to that. -/
theorem said_welcome (options : ClientOptions) (answer : Json)
    (opened : h.session.connection.isOpen = true) :
    (h.welcome options (.ok answer)).2.session.said = h.session.said ++ readiness ::
      (h.covered.takeWhile fun document =>
        (options.rewriter.announcement? document).isSome).filterMap
          options.rewriter.announcement? := by
  obtain ⟨told, said, welcomed⟩ := h.welcome_eq options answer opened
  rw [welcomed, ← said]
  cases h.covered.findSome? options.rewriter.refusal? with
  | none => exact said_installStatic ..
  | some failure => exact said_dispose _

/-- A host that does not end the client leaves a session to which it registers what is advertised. -/
theorem isDisposed_installStatic (quiet : h.host.armed = []) (live : h.session.isDisposed = false)
    (options : ClientOptions) (answer : Json) :
    (h.installStatic options answer).session.isDisposed = false := by
  have lives := (installEach_spares quiet (options.advertised answer)).1.disposed.trans live
  unfold installStatic
  dsimp only
  rw [installAll_eq quiet live]
  unfold ClientOptions.advertised at lives
  split
  next eq => rw [eq] at lives; exact lives
  next eq => rw [eq] at lives; exact lives

end Hosted

/-! ## The world -/

namespace World

variable {w v u : World} {n : Nat} {s : Session} {options : ClientOptions}

/-- The world later, when nothing more was said to any server. -/
structure Hushed (w v : World) : Prop where
  session : ∀ {n : Nat} {s : Session}, w.sessions[n]? = some s → ∃ t, v.sessions[n]? = some t ∧
    t.said = s.said ∧ (s.isDisposed = true → t.isDisposed = true)

namespace Hushed

/-- Where the sessions are the same, nothing more was said. -/
theorem of_eq (sessions : v.sessions = w.sessions) : Hushed w v :=
  ⟨fun {_ s} found => ⟨s, by rw [sessions]; exact found, rfl, id⟩⟩

/-- Saying nothing twice is saying nothing, and what is disposed stays disposed. -/
theorem trans (first : Hushed w v) (second : Hushed v u) : Hushed w u where
  session found := by
    obtain ⟨t, found, said, disposed⟩ := first.session found
    obtain ⟨u, found, said', disposed'⟩ := second.session found
    exact ⟨u, found, said'.trans said, disposed' ∘ disposed⟩

end Hushed

/-- A session that is put back with nothing more said leaves the others as they were. -/
theorem put_hushed {t : Session} (found : w.sessions[n]? = some s) (said : t.said = s.said)
    (disposed : s.isDisposed = true → t.isDisposed = true) : Hushed w (w.put n t) where
  session {m r} at_m := by
    have inside : n < w.sessions.length := (List.getElem?_eq_some_iff.mp found).1
    by_cases same : n = m
    · subst same
      cases found.symm.trans at_m
      exact ⟨_, List.getElem?_set_self inside, said, disposed⟩
    · exact ⟨r, (List.getElem?_set_ne same).trans at_m, rfl, id⟩

/-- Tearing a session down says nothing to any server. -/
theorem tearDown_hushed (w : World) (number : Nat) : Hushed w (w.tearDown number).2 := by
  unfold tearDown onSession
  split
  · exact .of_eq rfl
  next s found =>
    let h : Hosted := ⟨s, number, w.host, w.reachOf number, false⟩
    exact ⟨(put_hushed (w := { w with host := h.dispose.host }) found h.said_dispose
      h.dispose_beside.session.disposed).session⟩

/-- Nor does cancelling an opening, whose session may have to be torn down. -/
theorem revoke_hushed (w : World) (number : Nat) : Hushed w (w.revoke number).2 := by
  have marked : Hushed w (w.setStartup number .cancelled) := .of_eq rfl
  unfold revoke
  dsimp only
  split
  · exact marked.trans (tearDown_hushed ..)
  · exact marked

/-- Ending the client says nothing to any server, although it disposes all sessions. By induction on the
tracked roots, after the shared session. -/
theorem endClient_hushed (w : World) : Hushed w w.endClient := by
  have each : ∀ (entries : List RootEntry) (v : World),
      Hushed v (entries.foldl (fun w entry => (revoke w entry.opening).2) v) := by
    intro entries
    induction entries with
    | nil => exact fun v => .of_eq rfl
    | cons entry entries ih => exact fun v => (revoke_hushed v entry.opening).trans (ih _)
  have any : ∀ (v : World) (session : Option Nat), Hushed v (v.tearDownAny session) := by
    rintro v (_ | session)
    · exact .of_eq rfl
    · exact tearDown_hushed v session
  have ended : Hushed w { w with phase := .over, following := .over, entries := [], shared := none } :=
    .of_eq rfl
  rw [endClient_eq]
  exact (ended.trans ((any _ w.shared).trans (each w.entries _))).trans (.of_eq rfl)

/-- What an operation comes to and what it says, where there is such a session. -/
theorem within_said {α : Type} (run : Hosted → α × Hosted) (default : α)
    (found : w.sessions[n]? = some s) :
    let h : Hosted := ⟨s, n, w.host, w.reachOf n, false⟩
    (w.within n default run).1 = (run h).1 ∧
      ∃ t, (w.within n default run).2.sessions[n]? = some t ∧ t.said = (run h).2.session.said ∧
        ((run h).2.session.isDisposed = true → t.isDisposed = true) ∧
        ((run h).2.hasEnded = false → t.isDisposed = (run h).2.session.isDisposed) := by
  intro h
  have inside : n < w.sessions.length := (List.getElem?_eq_some_iff.mp found).1
  have ran : w.onSession n default run =
      ((run h).1, (run h).2.hasEnded, { w with host := (run h).2.host }.put n (run h).2.session) := by
    unfold onSession
    rw [found]
  unfold within
  rw [ran]
  refine ⟨rfl, ?_⟩
  have there : ({ w with host := (run h).2.host }.put n (run h).2.session).sessions[n]? = some
      { (run h).2.session with connection := (run h).2.session.connection.withoutNews } :=
    List.getElem?_set_self inside
  dsimp only
  cases (run h).2.hasEnded with
  | false => exact ⟨_, there, rfl, id, fun _ => rfl⟩
  | true =>
    obtain ⟨t, at_n, said, disposed⟩ := (endClient_hushed _).session there
    exact ⟨t, at_n, said, disposed, fun stays => absurd stays Bool.noConfusion⟩

/-- The documents that the host has open under the root of a session. -/
def covered (w : World) (s : Session) : List TextDocument :=
  w.host.documents.filter fun document => s.covers document.uri

/-- Whether a good answer to the greeting comes to a good end: the session comes to be, and what its
server is told is that the client is ready and then each document under the root that has a name. -/
def AnnouncesNamed (w : World) (n : Nat) (answer : Json) : Prop :=
  (w.welcome n (.ok answer)).1 = none ∧ ∃ s t, w.sessions[n]? = some s ∧
    (w.welcome n (.ok answer)).2.sessions[n]? = some t ∧
    t.said = s.said ++ readiness :: (w.covered s).filterMap w.options.rewriter.announcement?

/-- On an open connection, a good answer to the greeting comes to a good end just if each document under
the root has a name. The server is told of those in front of the first that has none, which costs the
session. -/
theorem welcome_announces_iff {answer : Json} (found : w.sessions[n]? = some s)
    (opened : s.connection.isOpen = true) :
    (w.AnnouncesNamed n answer ↔ ∀ document ∈ w.covered s,
      (w.options.rewriter.announcement? document).isSome) ∧
    (w.welcome n (.ok answer)).1 =
      ((w.covered s).findSome? w.options.rewriter.refusal?).map .conversion ∧
    ∃ t, (w.welcome n (.ok answer)).2.sessions[n]? = some t ∧
      t.said = s.said ++ readiness :: ((w.covered s).takeWhile fun document =>
        (w.options.rewriter.announcement? document).isSome).filterMap
          w.options.rewriter.announcement? ∧
      (¬ w.AnnouncesNamed n answer → t.isDisposed = true) ∧
      (w.AnnouncesNamed n answer → w.host.armed = [] → s.isDisposed = false →
        t.isDisposed = false) := by
  let h : Hosted := ⟨s, n, w.host, w.reachOf n, false⟩
  obtain ⟨outcome, t, there, said, disposed, kept⟩ := within_said
    (fun h => h.welcome w.options (.ok answer)) (some .connectionClosed) found
  obtain ⟨told, heard, welcomed⟩ := h.welcome_eq w.options answer opened
  have same : h.covered = w.covered s := rfl
  rw [same] at heard welcomed
  rw [welcomed] at outcome said disposed
  -- what of the announcements was sent depends on whether one of the documents is refused
  cases failed : (w.covered s).findSome? w.options.rewriter.refusal? with
  | none =>
    have named := Rewriter.findSome?_refusal?.mp failed
    simp only [failed] at outcome said
    have whole : t.said = s.said ++ readiness :: ((w.covered s).takeWhile fun document =>
        (w.options.rewriter.announcement? document).isSome).filterMap
          w.options.rewriter.announcement? :=
      said.trans ((Hosted.said_installStatic ..).trans heard)
    have announces : w.AnnouncesNamed n answer := by
      refine ⟨outcome, s, t, found, there, ?_⟩
      rw [whole, List.takeWhile_eq_self_iff.mpr named]
    refine ⟨iff_of_true announces named, outcome, t, there, whole, absurd announces, ?_⟩
    intro _ quiet live
    obtain ⟨-, stays⟩ := (h.welcome_beside w.options (.ok answer)).calm quiet
    rw [kept stays, welcomed]
    simp only [failed]
    exact Hosted.isDisposed_installStatic (h := h.withConnection told) quiet live ..
  | some failure =>
    simp only [failed] at outcome said disposed
    have fails : ¬ w.AnnouncesNamed n answer := by
      rintro ⟨succeeds, -⟩
      cases outcome.symm.trans succeeds
    have refused : ¬ ∀ document ∈ w.covered s,
        (w.options.rewriter.announcement? document).isSome := by
      rw [← Rewriter.findSome?_refusal?, failed]
      exact Option.some_ne_none failure
    refine ⟨iff_of_false fails refused, outcome, t, there, ?_, ?_, fun holds => absurd holds fails⟩
    · exact said.trans ((Hosted.said_dispose _).trans heard)
    · exact fun _ => disposed (Hosted.isDisposed_dispose _)

/-- The host has documents open when a session is opened for their root, and the server has answered the
greeting. -/
def Sample.answered (documents : List TextDocument) : World :=
  (start Sample.single).run (documents.map Move.addDocument ++
    [.roots [⟨"file:///here"⟩], .register "client", .poll .register,
      .send 0 [.response ⟨"2.0", some (.number 1), some (.obj []), none⟩], .poll (.reader 0)])

/-- A document whose name is no address for a server. -/
def Sample.odd : TextDocument := ⟨⟨"file:///here/o|d.ts"⟩, "typescript", "x"⟩

def Sample.plain : TextDocument := ⟨⟨"file:///here/a.ts"⟩, "typescript", "y"⟩

/-- A document with a name is announced, and the session comes to be. -/
theorem welcome_announces_iff_plain : ∃ s, (Sample.answered [Sample.plain]).sessions[0]? = some s ∧
    s.connection.isOpen = true ∧ (Sample.answered [Sample.plain]).covered s = [Sample.plain] ∧
    (Sample.answered [Sample.plain]).outcome? 0 0 = some (.ok (.obj [])) ∧
    (Sample.answered [Sample.plain]).AnnouncesNamed 0 (.obj []) := by
  refine ⟨_, rfl, by decide, by decide, rfl, ?_⟩
  exact (welcome_announces_iff rfl (by decide)).1.mpr (by decide)

/-- One document without a name in front of another: the server does not hear of the other, and the
session is lost. -/
theorem welcome_loses_document : ∃ s t,
    (Sample.answered [Sample.odd, Sample.plain]).sessions[0]? = some s ∧
    s.connection.isOpen = true ∧
    (Sample.answered [Sample.odd, Sample.plain]).outcome? 0 0 = some (.ok (.obj [])) ∧
    Sample.plain ∈ (Sample.answered [Sample.odd, Sample.plain]).covered s ∧
    (Rewriter.identity.announcement? Sample.plain).isSome = true ∧
    ((Sample.answered [Sample.odd, Sample.plain]).after (.poll .register)).sessions[0]? = some t ∧
    t.said = s.said ++ [readiness] ∧ t.isDisposed = true ∧
    ¬ (Sample.answered [Sample.odd, Sample.plain]).AnnouncesNamed 0 (.obj []) := by
  refine ⟨_, _, rfl, by decide, rfl, by decide, by decide, rfl, rfl, rfl, ?_⟩
  rintro ⟨succeeds, -⟩
  cases succeeds

end World

end LanguageClient
