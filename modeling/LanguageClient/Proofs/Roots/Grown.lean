import LanguageClient.Proofs.World.Connect

/-!
# Sessions along the way

What the steps of a client with a session for each root do to sessions, whoever tracks, opens and uses
them. `World.Grown` says that the sessions that were there go on, that new ones are proper, and which of
the old ones are touched at all; it composes, and each operation on one session is an instance of it.
-/

namespace LanguageClient

/-- A session that was not let go of, whose server can be told nothing any more once it is disposed. -/
structure Session.IsProper (s : Session) : Prop where
  unreleased : s.isReleased = false
  settled : s.IsSettled
  isSealed : s.connection.IsSealed

namespace Session.IsProper

variable {s t : Session}

/-- A proper session stays proper as it goes on. What is settled or sealed once is so for good, and a
session that goes on is not let go of. -/
theorem later (proper : s.IsProper) (later : s.Later t) : t.IsProper :=
  ⟨later.released.trans proper.unreleased, later.settled proper.settled,
    later.connection.isSealed proper.isSealed⟩

/-- A new session is proper, as it was neither disposed nor let go of. -/
theorem of_new (new : s.IsNew) : s.IsProper := ⟨new.held, new.isSettled, new.isSealed⟩

end Session.IsProper

namespace World

variable {w v u : World} {R : Session → Session → Prop} {n : Nat} {touched : Nat → Prop}

/-! ## Disposed sessions -/

/-- Whether a number is that of a disposed session is read off the session that has it. -/
theorem isDisposed_of_found {s : Session} (found : w.sessions[n]? = some s) :
    w.isDisposed n = s.isDisposed := by
  unfold isDisposed
  rw [found]
  rfl

/-- Which sessions are disposed is a matter of the sessions alone. -/
theorem isDisposed_congr (same : v.sessions = w.sessions) (n : Nat) :
    v.isDisposed n = w.isDisposed n := by
  unfold isDisposed
  rw [same]

/-- A session that is not disposed is there: a number that no session has counts as disposed. -/
theorem lt_of_live (live : w.isDisposed n = false) : n < w.sessions.length := by
  refine Nat.lt_of_not_le fun beyond => ?_
  unfold isDisposed at live
  rw [List.getElem?_eq_none beyond] at live
  cases live

/-- What is disposed stays disposed. A number that has no session yet has to be left out, since a session
may still come to have it. -/
theorem Growth.isDisposed (growth : Growth Session.Later w v) (inside : n < w.sessions.length)
    (disposed : w.isDisposed n = true) : v.isDisposed n = true := by
  have found : w.sessions[n]? = some w.sessions[n] := List.getElem?_eq_getElem inside
  obtain ⟨t, after, later⟩ := growth.session found
  rw [isDisposed_of_found found] at disposed
  rw [isDisposed_of_found after]
  exact later.disposed disposed

/-- No session goes: one that is released keeps its number. -/
theorem Growth.le_length (growth : Growth R w v) : w.sessions.length ≤ v.sessions.length := by
  refine Nat.le_of_not_lt fun last => ?_
  obtain ⟨t, found, -⟩ := growth.session (List.getElem?_eq_getElem last)
  exact absurd (List.getElem?_eq_some_iff.mp found).1 (Nat.lt_irrefl _)

/-! ## Growth apart from who has which session -/

/-- The tracked roots, the openings and the visits play no part in it, so that they can be set on both sides
to whatever fits. -/
theorem Growth.rebooked (growth : Growth R w v) (entries : List RootEntry)
    (openings : List Opening) (visits : List Visit) :
    Growth R { w with entries, openings, visits } { v with entries, openings, visits } where
  rest := by
    simp only [growth.options, growth.phase, growth.label, growth.isDropped, growth.changes,
      growth.following, growth.before, growth.shared, growth.folders]
  roots := growth.roots
  calm := growth.calm
  purposes := growth.purposes
  session := growth.session

/-- What goes on apart from who tracks, opens and uses which session; of those that were there, only
some are touched. -/
structure Grown (touched : Nat → Prop) (w v : World) : Prop where
  growth : Growth Session.Later w
    { v with entries := w.entries, openings := w.openings, visits := w.visits }
  proper : ∀ n t, w.sessions.length ≤ n → v.sessions[n]? = some t → t.IsProper
  others : ∀ n, n < w.sessions.length → ¬ touched n → v.sessions[n]? = w.sessions[n]?

namespace Grown

/-- No session goes along the way. -/
theorem le_length (grown : Grown touched w v) : w.sessions.length ≤ v.sessions.length :=
  grown.growth.le_length

/-- A host that has no callback to end the client in has none later, as it is not armed along the way. -/
theorem calm (grown : Grown touched w v) : w.host.armed = [] → v.host.armed = [] :=
  grown.growth.calm

/-- A session that was there and was disposed stays so. -/
theorem isDisposed (grown : Grown touched w v) (inside : n < w.sessions.length)
    (disposed : w.isDisposed n = true) : v.isDisposed n = true :=
  grown.growth.isDisposed inside disposed

/-- A session that is disposed stays so where no session is new. -/
theorem isDisposed_of_length (grown : Grown touched w v)
    (length : v.sessions.length = w.sessions.length) (disposed : w.isDisposed n = true) :
    v.isDisposed n = true := by
  by_cases inside : n < w.sessions.length
  · exact grown.isDisposed inside disposed
  · unfold World.isDisposed
    rw [List.getElem?_eq_none (length ▸ Nat.le_of_not_lt inside)]
    rfl

/-- Nothing happens to the sessions, whatever becomes of the log, the books and the tasks that are woken. -/
theorem of_eq (rest : v = { w with
      host := v.host, connector := v.connector, entries := v.entries, openings := v.openings,
      visits := v.visits, requests := v.requests, finished := v.finished, log := v.log,
      woken := v.woken })
    (roots : v.host.roots = w.host.roots) (armed : v.host.armed = w.host.armed)
    (requests : v.requests = w.requests) : Grown touched w v where
  growth := by
    have course : Course Session.Later w
        { v with entries := w.entries, openings := w.openings, visits := w.visits } :=
      .of_eq (by rw [rest]) roots armed requests (by rw [rest])
    exact course.toGrowth
  proper n t beyond found := by
    rw [rest] at found
    exact absurd (List.getElem?_eq_some_iff.mp found).1 (Nat.not_lt.mpr beyond)
  others _ _ _ := by rw [rest]

/-- Where nothing happens, no session is touched. -/
theorem refl (w : World) : Grown touched w w := of_eq rfl rfl rfl rfl

/-- One thing after the other touches what either touches. A session that is new after the first is still
proper after the second, as it only goes on. -/
theorem trans (first : Grown touched w v) (second : Grown touched v u) : Grown touched w u where
  growth := first.growth.trans (second.growth.rebooked w.entries w.openings w.visits)
  proper n t beyond found := by
    by_cases old : n < v.sessions.length
    · have before : v.sessions[n]? = some v.sessions[n] := List.getElem?_eq_getElem old
      obtain ⟨t', after, later⟩ := second.growth.session before
      cases found.symm.trans after
      exact (first.proper n _ beyond before).later later
    · exact second.proper n t (Nat.le_of_not_lt old) found
  others n inside untouched :=
    (second.others n (Nat.lt_of_lt_of_le inside first.le_length) untouched).trans
      (first.others n inside untouched)

/-- What touches some sessions at most touches more of them at most. -/
theorem weaken {wider : Nat → Prop} (wide : ∀ n, touched n → wider n)
    (grown : Grown touched w v) : Grown wider w v :=
  ⟨grown.growth, grown.proper, fun n inside untouched =>
    grown.others n inside fun here => untouched (wide n here)⟩

/-- A course of the world that touches only some sessions. No session is new along it. -/
theorem of_course (course : Course Session.Later w v)
    (others : ∀ n, ¬ touched n → v.sessions[n]? = w.sessions[n]?) : Grown touched w v where
  growth := by
    have same : { v with entries := w.entries, openings := w.openings, visits := w.visits } = v := by
      rw [← course.entries, ← course.openings, ← course.visits]
    rw [same]
    exact course.toGrowth
  proper n t beyond found :=
    absurd (List.getElem?_eq_some_iff.mp found).1 (Nat.not_lt.mpr (course.length ▸ beyond))
  others n _ := others n

/-- A new session touches none of those that were there, and it is proper. -/
theorem of_attached {root : Option Url} (attached : Attached root w v) : Grown touched w v where
  growth := by
    have growth := attached.growth (R := Session.Later)
    have same : { v with entries := w.entries, openings := w.openings, visits := w.visits } = v := by
      rw [← growth.entries, ← growth.openings, ← growth.visits]
    rw [same]
    exact growth
  proper n t beyond found := by
    have inside := (List.getElem?_eq_some_iff.mp found).1
    rw [attached.length] at inside
    obtain rfl : n = w.sessions.length := by omega
    obtain ⟨s, there, -, new⟩ := attached.last
    cases found.symm.trans there
    exact .of_new new
  others n inside _ := by
    have before : w.sessions[n]? = some w.sessions[n] := List.getElem?_eq_getElem inside
    rw [before]
    exact attached.found before

end Grown

/-! ## Operations on one session -/

/-- What is carried out on one session leaves the others alone. If the number has no session, nothing is
carried out. -/
theorem within_grown {α : Type} (run : Hosted → α × Hosted)
    (each : ∀ h, Hosted.Course Session.Later h (run h).2) (quiet : w.host.armed = []) {number : Nat}
    (here : touched number) (default : α) : Grown touched w (w.within number default run).2 := by
  refine .of_course (within_course run each quiet number default) fun n untouched => ?_
  have other : number ≠ n := by
    rintro rfl
    exact untouched here
  rw [within_eq run each quiet]
  unfold onSession
  split
  · rfl
  · exact List.getElem?_set_ne other

/-- What is carried out on a session makes no other. -/
theorem length_within {α : Type} (run : Hosted → α × Hosted)
    (each : ∀ h, Hosted.Course Session.Later h (run h).2) (quiet : w.host.armed = []) (number : Nat)
    (default : α) : (w.within number default run).2.sessions.length = w.sessions.length :=
  (within_course run each quiet number default).length

/-- What an operation comes to, and the session that it leaves, if there was one. The host is asked nothing
that could end the client, so that the session is still at its number. -/
theorem within_cases {α : Type} (run : Hosted → α × Hosted)
    (each : ∀ h, Hosted.Course Session.Later h (run h).2) (quiet : w.host.armed = []) (number : Nat)
    (default : α) :
    w.sessions[number]? = none ∧ (w.within number default run).1 = default ∨
      ∃ h : Hosted, w.sessions[number]? = some h.session ∧
        (w.within number default run).1 = (run h).1 ∧
        (w.within number default run).2.sessions[number]? = some
          { (run h).2.session with connection := (run h).2.session.connection.withoutNews } := by
  rw [within_eq run each quiet]
  unfold onSession
  split
  next none => exact .inl ⟨none, rfl⟩
  next s found =>
    have inside : number < w.sessions.length := (List.getElem?_eq_some_iff.mp found).1
    exact .inr ⟨⟨s, number, w.host, w.reachOf number, false⟩, found, rfl,
      List.getElem?_set_self inside⟩

end World

end LanguageClient
