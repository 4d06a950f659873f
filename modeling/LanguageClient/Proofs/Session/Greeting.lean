import LanguageClient.Proofs.Session.Onward
import Mathlib.Data.List.Forall2

/-!
# What a server hears first

Before a session gives the host what its server advertises, the server has answered the greeting well,
and was told that the client is ready and of every document that the host has open under the root
(`Session.IsGreeted`). What was said stays said, so a session that was greeted stays greeted.

`Hosted.welcome` is the operation that does all this. It gives the host a provider at a moment only at
which everything is said (`Hosted.Yields`), and it comes to a good end only if everything was.
-/

namespace LanguageClient

/-- The notification that the client is ready. -/
def readiness : Message := .notification (Notification.make initializedMethod (some (.obj [])))

/-- Whether a message tells a server that a document is open. -/
def Rewriter.Announces (rewriter : Rewriter) (document : TextDocument) (message : Message) : Prop :=
  ∃ uri, rewriter.toReference document.uri = .ok uri ∧
    message = .notification (Notification.make didOpenMethod (some (document.openParams uri)))

namespace Session

variable {rewriter : Rewriter} {documents : List TextDocument} {s t : Session}

/-- Whether the first call of the session is the greeting of its server. -/
def Greets (s : Session) : Prop :=
  ∃ call, s.connection.calls[0]? = some call ∧ call.method = initializeMethod

/-- What a server was told before the session gives the host what the server advertises. -/
structure IsGreeted (rewriter : Rewriter) (documents : List TextDocument) (s : Session) : Prop where
  /-- The first call is the greeting, and the server has answered it well. -/
  answered : ∃ call answer, s.connection.calls[0]? = some call ∧ call.method = initializeMethod ∧
    call.outcome = some (.ok answer)
  /-- The client was said to be ready, and after that each document that is covered was announced. -/
  told : ∃ earlier openings, earlier ++ readiness :: openings <+: s.connection.outgoing.waiting ∧
    List.Forall₂ rewriter.Announces (documents.filter fun document => s.covers document.uri) openings

/-- A session whose first call is the greeting has it as its first call ever after. -/
theorem Greets.onward (greets : s.Greets) (onward : s.Onward t) : t.Greets := by
  obtain ⟨call, found, method⟩ := greets
  obtain ⟨later, found, same⟩ := onward.connection.calls found
  exact ⟨later, found, same.method.trans method⟩

/-- A session that was greeted stays greeted: an outcome is final, and what was said stands first in what is
said later. -/
theorem IsGreeted.onward (greeted : s.IsGreeted rewriter documents) (onward : s.Onward t) :
    t.IsGreeted rewriter documents where
  answered := by
    obtain ⟨call, answer, found, method, answered⟩ := greeted.answered
    obtain ⟨later, found, same⟩ := onward.connection.calls found
    exact ⟨later, answer, found, same.method.trans method, same.final answered⟩
  told := by
    obtain ⟨earlier, openings, said, each⟩ := greeted.told
    have covers : t.covers = s.covers := by
      unfold covers
      rw [onward.root]
    exact ⟨earlier, openings, said.trans onward.connection.said, covers ▸ each⟩

/-- Who was told of documents was told of those that were there first. It takes the statement back to the
moment at which the session was opened. -/
theorem IsGreeted.of_start {fewer : List TextDocument} (greeted : s.IsGreeted rewriter documents)
    (first : fewer <+: documents) : s.IsGreeted rewriter fewer where
  answered := greeted.answered
  told := by
    obtain ⟨earlier, openings, said, each⟩ := greeted.told
    obtain ⟨rest, rfl⟩ := first
    rw [List.filter_append] at each
    let count := (fewer.filter fun document => s.covers document.uri).length
    have some_ := List.forall₂_take count each
    rw [List.take_left] at some_
    refine ⟨earlier, _, ?_, some_⟩
    have first : openings.take count <+: openings := List.take_prefix count openings
    have shorter := (List.prefix_append_right_inj (earlier ++ [readiness])).mpr first
    rw [List.append_assoc, List.append_assoc] at shorter
    exact shorter.trans said

end Session

namespace Hosted

variable {options : ClientOptions} {reason : Provider → Prop} {h k : Hosted}

/-- A moment at which a session gives the host a provider of what its server advertises. -/
structure Yields (options : ClientOptions) (p : Provider) (answer : Json) (h : Hosted) : Prop where
  session : p.session = h.number
  answered : h.session.connection.outcome? 0 = some (.ok answer)
  greeted : h.session.IsGreeted options.rewriter h.host.documents
  unknown : p ∉ h.host.provided
  installed : p ∈ (h.installStatic options answer).host.provided

/-- Whether an operation came to give the host a provider, at such a moment of its own. -/
def Gives (options : ClientOptions) (h l : Hosted) (p : Provider) : Prop :=
  ∃ (k : Hosted) (answer : Json), k.Yields options p answer ∧ k.host.documents = h.host.documents ∧
    h.session.Onward k.session ∧ (k.installStatic options answer).session.Onward l.session

/-! ## Telling the server -/

/-- A notification that went out is said behind what was said, and the host has got nothing by it. -/
theorem notify_onward {method : String} {params : Json} (sent : h.notify method params = .ok k) :
    Onward reason h k := by
  obtain ⟨connection, notified, rfl⟩ := notify_ok sent
  exact withConnection_onward (Connection.send_onward notified)

/-- To announce a document is to send the one message that says it is open, under the name that the server
knows it by. -/
theorem announce_sends {rewriter : Rewriter} {document : TextDocument}
    (sent : h.announce rewriter document = .ok k) :
    ∃ message connection, rewriter.Announces document message ∧
      h.session.connection.send message = .ok connection ∧ k = h.withConnection connection := by
  obtain ⟨uri, named, sent⟩ := announce_ok sent
  obtain ⟨connection, notified, same⟩ := notify_ok sent
  exact ⟨_, connection, ⟨uri, named, rfl⟩, notified, same⟩

/-- Documents that are announced are said one after the other, up to the first that cannot be, and the host
gets nothing. -/
theorem announceEach_onward (h : Hosted) (rewriter : Rewriter) (documents : List TextDocument) :
    Onward reason h (h.announceEach rewriter documents).2 := by
  induction documents generalizing h with
  | nil => exact .refl h
  | cons document documents ih =>
    unfold announceEach
    split
    · exact .refl h
    next sent =>
      obtain ⟨message, connection, -, said, rfl⟩ := announce_sends sent
      exact (withConnection_onward (Connection.send_onward said)).trans (ih _)

/-- Announcing documents to the last says each of them, in their order, and nothing besides. -/
theorem announceEach_told {rewriter : Rewriter} {documents : List TextDocument}
    (announced : h.announceEach rewriter documents = (none, k)) :
    ∃ openings, List.Forall₂ rewriter.Announces documents openings ∧
      k.session.connection.outgoing.waiting =
        h.session.connection.outgoing.waiting ++ openings := by
  induction documents generalizing h with
  | nil =>
    cases announced
    exact ⟨[], .nil, (List.append_nil _).symm⟩
  | cons document documents ih =>
    unfold announceEach at announced
    split at announced
    · cases announced
    next sent =>
      obtain ⟨message, connection, announces, said, rfl⟩ := announce_sends sent
      obtain ⟨openings, each, waiting⟩ := ih announced
      refine ⟨message :: openings, .cons announces each, ?_⟩
      rw [waiting, withConnection, (Connection.send_ok said).1, List.append_assoc]
      rfl

/-- The greeting goes on: it is the first that is said, or the session is disposed and nothing is said at
all. -/
theorem greet_onward (h : Hosted) (options : ClientOptions)
    (folders : Option (List WorkspaceFolder)) : Onward reason h (h.greet options folders).2 := by
  unfold greet
  split
  · exact dispose_onward h
  · exact (note_onward ..).trans (withConnection_onward (Connection.request_onward ..))

/-! ## Going on after the greeting -/

/-- Going on after a good answer comes to a good end only by a moment at which all is said, and what the
server advertises is registered at that moment. Where it fails, no provider was given to the host. -/
theorem proceed_cases (reason : Provider → Prop) (options : ClientOptions) {answer : Json}
    (greets : h.session.Greets)
    (answered : h.session.connection.outcome? 0 = some (.ok answer)) :
    (∃ failure k, h.proceed options answer = (some failure, k) ∧ Onward reason h k) ∨
      ∃ k, h.proceed options answer = (none, k.installStatic options answer) ∧ Onward reason h k ∧
        k.session.connection.outcome? 0 = some (.ok answer) ∧
        k.session.IsGreeted options.rewriter h.host.documents := by
  unfold proceed
  split
  next failure _ => exact .inl ⟨failure, h, rfl, .refl h⟩
  next l sent =>
    obtain ⟨connection, notified, rfl⟩ := notify_ok sent
    have said : Onward reason h (h.withConnection connection) := notify_onward sent
    cases announced : (h.withConnection connection).announceAll options.rewriter with
    | mk failure k =>
      have onward : Onward reason h k := said.trans ((announceEach_onward ..).of_pair announced)
      cases failure with
      | some failure => exact .inl ⟨failure, k, rfl, onward⟩
      | none =>
        have outcome := onward.session.connection.outcome? answered
        refine .inr ⟨k, rfl, onward, outcome, ?_, ?_⟩
        · obtain ⟨call, found, method⟩ := greets.onward onward.session
          obtain ⟨_, same, known⟩ := Option.bind_eq_some_iff.mp outcome
          cases found.symm.trans same
          exact ⟨call, answer, found, method, known⟩
        · obtain ⟨openings, each, waiting⟩ := announceEach_told announced
          refine ⟨h.session.connection.outgoing.waiting, openings, ?_, ?_⟩
          · rw [waiting, withConnection, (Connection.send_ok notified).1, List.append_assoc]
            exact List.prefix_refl _
          · unfold Session.covers
            rw [onward.session.root]
            exact each

/-- Going on after the greeting gives the host providers at a moment only at which all is said. If it comes
to a good end, the session was greeted. -/
theorem welcome_onward (options : ClientOptions) {outcome : Outcome}
    (greets : h.session.Greets)
    (answered : h.session.connection.outcome? 0 = some outcome) :
    Onward (h.Gives options (h.welcome options outcome).2) h (h.welcome options outcome).2 ∧
    ((h.welcome options outcome).1 = none →
      (h.welcome options outcome).2.session.IsGreeted options.rewriter h.host.documents) := by
  cases outcome with
  | error failure => exact ⟨dispose_onward h, by rintro ⟨⟩⟩
  | ok answer =>
    unfold welcome
    dsimp only
    rcases proceed_cases (fun _ => False) options greets answered with
      ⟨failure, k, proceeded, onward⟩ | ⟨k, proceeded, onward, outcome, greeted⟩
    · rw [proceeded]
      refine ⟨?_, by rintro ⟨⟩⟩
      exact (onward.trans (dispose_onward k)).weaken fun _ => False.elim
    · rw [proceeded]
      have installed := k.installStatic_onward (fun _ => trivial) options answer
      refine ⟨⟨installed.number.trans onward.number, installed.documents.trans onward.documents,
        onward.session.trans installed.session, ?_⟩, fun _ => greeted.onward installed.session⟩
      intro p member
      by_cases before : p ∈ k.host.provided
      · rcases onward.provided p before with known | ⟨-, never⟩
        · exact .inl known
        · exact never.elim
      · rcases installed.provided p member with known | ⟨mine, -⟩
        · exact absurd known before
        · refine .inr ⟨mine.trans onward.number, k, answer, ?_, onward.documents, onward.session,
            .refl _⟩
          exact ⟨mine, outcome, onward.documents ▸ greeted, before, member⟩

end Hosted

end LanguageClient
