import LanguageClient.Client.Opening
import LanguageClient.Proofs.World.Course

/-!
# New sessions

What asking for a connection comes to: it has to be waited for, it is refused, or there is one more
session, on a connection on which nothing was said yet.
-/

namespace LanguageClient

/-- A session on a connection on which nothing was said yet. -/
structure Session.IsNew (session : Session) : Prop where
  live : session.isDisposed = false
  held : session.isReleased = false
  unclosed : session.connection.isClosed = false
  unfinished : session.connection.isOver = false
  opened : session.connection.isOpen = true
  silent : session.connection.outgoing.waiting = []

/-- A new session has nothing to send yet, hence no news for its server. -/
theorem Session.IsNew.news {session : Session} (new : session.IsNew) :
    session.connection.news = [] := by
  rw [Connection.news, new.silent]
  rfl

/-- A new session is settled. Only a disposed one needs its connection to be over, and this one is not
disposed. -/
theorem Session.IsNew.isSettled {session : Session} (new : session.IsNew) : session.IsSettled :=
  fun disposed => absurd disposed (by rw [new.live]; exact Bool.false_ne_true)

/-- The connection of a new session is sealed: it is not over, so its writer may be there. -/
theorem Session.IsNew.isSealed {session : Session} (new : session.IsNew) :
    session.connection.IsSealed :=
  fun finished => absurd finished (by rw [new.unfinished]; exact Bool.false_ne_true)

namespace World

variable {w v : World} {root : Option Url}

/-- The world with one more session, for a root. -/
structure Attached (root : Option Url) (w v : World) : Prop where
  rest : v = { w with host := v.host, sessions := v.sessions, log := v.log, woken := v.woken }
  roots : v.host.roots = w.host.roots
  armed : v.host.armed = w.host.armed
  sessions : ∃ s, v.sessions = w.sessions ++ [s] ∧ s.root = root ∧ s.IsNew

namespace Attached

/-- The sessions that were there are there still, in their places and unchanged. -/
theorem found (attached : Attached root w v) {n : Nat} {s : Session}
    (found : w.sessions[n]? = some s) : v.sessions[n]? = some s := by
  obtain ⟨t, sessions, -⟩ := attached.sessions
  have inside : n < w.sessions.length := (List.getElem?_eq_some_iff.mp found).1
  rw [sessions, List.getElem?_append_left inside]
  exact found

/-- A new session concerns none of those that were there. Hence whatever relation is asked of each session
before and after, attaching one more satisfies it. -/
theorem growth {R : Session → Session → Prop} [Session.IsCourse R] (attached : Attached root w v) :
    Growth R w v where
  rest := by rw [attached.rest]
  roots := attached.roots
  calm quiet := attached.armed.trans quiet
  purposes := by rw [attached.rest]
  session {_ s} at_n :=
    ⟨s, attached.found at_n, Session.IsCourse.of_beside (.refl s)⟩

/-- The new session is the last one: it has the number of sessions that there were, the root that it was
asked for, and nothing was said on its connection yet. -/
theorem last (attached : Attached root w v) :
    ∃ s, v.sessions[w.sessions.length]? = some s ∧ s.root = root ∧ s.IsNew := by
  obtain ⟨s, sessions, at_root, new⟩ := attached.sessions
  refine ⟨s, ?_, at_root, new⟩
  rw [sessions, List.getElem?_append_right (Nat.le_refl _), Nat.sub_self]
  rfl

/-- There is one session more than before. -/
theorem length (attached : Attached root w v) :
    v.sessions.length = w.sessions.length + 1 := by
  obtain ⟨s, sessions, -⟩ := attached.sessions
  rw [sessions, List.length_append, List.length_singleton]

end Attached

/-- Attaching gives the number that the next session has, and a world with just that session more. -/
theorem attach_attached (w : World) (root : Option Url) :
    (w.attach root).1 = w.sessions.length ∧ Attached root w (w.attach root).2 := by
  let s := Session.attach root (w.host.lastDecorationKind + 1) w.options.config.progressSuffix
  refine ⟨rfl, rfl, rfl, rfl, { s with connection := s.connection.withoutNews }, ?_, rfl, ?_⟩
  · simp only [attach, Host.newDecorationKind, put, wake, wakeTasks, List.set_append_right,
      Nat.le_refl, Nat.sub_self, List.set_cons_zero, s]
  · exact ⟨rfl, rfl, rfl, rfl, rfl, rfl⟩

/-- What asking for a connection comes to. It has to be waited for, or it is refused, and then only the
connector has changed; or there is one more session, for the root that was asked for. -/
theorem connect_cases (w : World) (asker : Task) (root : Option Url) :
    (∃ connector, w.connect asker root = (.later, { w with connector })) ∨
      (∃ failure connector, w.connect asker root = (.refused failure, { w with connector })) ∨
      ∃ v, w.connect asker root = (.session w.sessions.length, v) ∧ Attached root w v := by
  unfold connect
  dsimp only
  split
  · exact .inl ⟨_, rfl⟩
  · split
    · exact .inr (.inl ⟨_, _, rfl⟩)
    · obtain ⟨number, attached⟩ := w.attach_attached root
      exact .inr (.inr ⟨_, by rw [← number], attached⟩)

/-- Where there is no opening, no step is made. This settles the case of a number that stands for no
opening, which every invariant about openings has. -/
theorem pollOpening_of_none {number : Nat} (none : w.openings[number]? = none) (task : Task) :
    w.pollOpening task number = w := by
  have same : w.watchOpening number task = w := by
    unfold watchOpening
    rw [List.modify_eq_self (List.getElem?_eq_none_iff.mp none)]
  unfold pollOpening
  rw [same]
  dsimp only
  rw [none]

end World

end LanguageClient
