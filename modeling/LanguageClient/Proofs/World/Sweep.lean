import LanguageClient.Proofs.World.Course

/-!
# Releasing what nobody holds

A sweep touches no session that somebody holds, and none whose connection is over (`World.Swept`). Of a
session that nobody holds it withdraws the providers, and its connection goes with the last who can use it
(`World.sweep_found`). Nothing is drawn then and no reporter is told anything.
-/

namespace LanguageClient

/-- A state of a session for the same root, which is disposed if the first one is. -/
structure Session.Akin (s t : Session) : Prop where
  root : t.root = s.root
  disposed : s.isDisposed = true → t.isDisposed = true

/-- A session at a later time is akin to what it was: a session never changes its root, and once disposed it
stays so. -/
theorem Session.Later.akin {s t : Session} (later : s.Later t) : s.Akin t :=
  ⟨later.root, later.disposed⟩

/-- A session that nobody holds any more: its providers are withdrawn and it follows nothing. -/
def Session.released (s : Session) : Session :=
  { s with registrations := .empty, connection := s.connection.withoutNews, isReleased := true }

/-- A session whose connection nobody can use any more. -/
def Session.disconnected (s : Session) : Session :=
  { s with connection := s.connection.release.withoutNews }

instance : Session.IsCourse Session.Akin where
  of_beside beside := beside.toLater.akin
  trans first second := ⟨second.root.trans first.root, second.disposed ∘ first.disposed⟩

namespace World

variable {w v : World} {n m : Nat} {s : Session}

/-- Who holds a session is not changed along the course of the world, which leaves the tracked roots, the
openings and the visits alone. -/
theorem Growth.holds {R : Session → Session → Prop} (growth : Growth R w v) (n : Nat) :
    v.holds n = w.holds n := by
  have rest := growth.rest
  generalize v.host = host, v.connector = connector, v.sessions = sessions,
    v.requests = requests, v.finished = finished, v.log = log, v.woken = woken at rest
  rw [rest]
  rfl

/-- Whether a sweep has no reason to touch a session. -/
structure Keeps (w : World) (n : Nat) (s : Session) : Prop where
  held : s.isActive = true → w.holds n = true
  used : s.connection.isOver = false → s.isReleased = false

/-- A session that nobody holds is released without a word to the host. Its providers are added to the
withdrawn ones, and no callback is made in which the host could end the client. -/
theorem during_release (found : w.sessions[n]? = some s) :
    w.during n Hosted.release = { w with host := w.host.withdraw s.registrations.providers }.put n
      { s with registrations := .empty, isReleased := true } := by
  unfold during within onSession
  rw [found]
  rfl

/-- The sessions after some of them were released; those that were to be kept are as they were. -/
structure Swept (w v : World) : Prop extends Course Session.Akin w v where
  host : ∃ withdrawn, v.host = { w.host with withdrawn }
  requests : v.requests = w.requests
  kept : ∀ {n : Nat} {s : Session}, w.sessions[n]? = some s → w.Keeps n s →
    v.sessions[n]? = some s

namespace Swept

/-- A sweep that finds nothing to do touches no session and withdraws nothing. -/
theorem refl (w : World) : Swept w w := ⟨.refl w, ⟨_, rfl⟩, rfl, fun found _ => found⟩

/-- Two releases, one after the other, touch no session that the first world has to keep: the first leaves
it as it is, so it has to be kept in the second as well. -/
theorem trans {u : World} (first : Swept w v) (second : Swept v u) : Swept w u where
  toCourse := first.toCourse.trans second.toCourse
  host := by
    obtain ⟨_, same⟩ := first.host
    obtain ⟨withdrawn, same'⟩ := second.host
    exact ⟨withdrawn, by rw [same', same]⟩
  requests := second.requests.trans first.requests
  kept {n s} found keeps := by
    refine second.kept (first.kept found keeps) ⟨?_, keeps.used⟩
    rw [first.holds]
    exact keeps.held

/-- Only one session is touched, for a reason. The session becomes one that is akin to it, and the host
loses providers at most. -/
theorem of_put (withdrawn : List Nat) {t : Session} (found : w.sessions[n]? = some s)
    (akin : s.Akin t) (reason : ¬ w.Keeps n s) :
    Swept w (put { w with host := { w.host with withdrawn } } n t) where
  toCourse := by
    have hosted : Course Session.Akin w { w with host := { w.host with withdrawn } } :=
      .of_eq rfl rfl rfl rfl rfl
    exact hosted.trans (put_course (w := { w with host := { w.host with withdrawn } }) found akin)
  host := ⟨withdrawn, rfl⟩
  requests := rfl
  kept {m u} at_m keeps := by
    by_cases same : n = m
    · subst same
      cases found.symm.trans at_m
      exact absurd keeps reason
    · exact (List.getElem?_set_ne same).trans at_m

/-- Who can still use a connection is not changed by a sweep, since this is read off the requests, the
visits and the session itself. -/
theorem holdsConnection (swept : Swept w v) (n : Nat) (s : Session) :
    v.holdsConnection n s = w.holdsConnection n s := by
  have holds : v.visitHolds n = w.visitHolds n := by
    unfold visitHolds
    rw [swept.openings]
  unfold World.holdsConnection
  rw [swept.requests, swept.visits, holds]

end Swept

/-- Releasing a session touches it only if it follows its server and nobody holds it. -/
theorem releaseSession_swept (w : World) (number : Nat) : Swept w (w.releaseSession number) := by
  unfold releaseSession
  split
  · exact .refl w
  next s found =>
    split
    next unheld =>
      rw [Bool.and_eq_true, Bool.not_eq_true'] at unheld
      rw [during_release found]
      refine .of_put _ found ⟨rfl, id⟩ fun keeps => ?_
      rw [keeps.held unheld.1] at unheld
      exact Bool.noConfusion unheld.2
    · exact .refl w

/-- Releasing a connection touches its session only if the connection is not over and nobody can use it any
more. -/
theorem releaseConnection_swept (w : World) (number : Nat) :
    Swept w (w.releaseConnection number) := by
  unfold releaseConnection
  split
  · exact .refl w
  next s found =>
    split
    next unused =>
      simp only [holdsConnection, Bool.and_eq_true, Bool.not_eq_true', Bool.or_eq_false_iff,
        Bool.not_eq_false'] at unused
      unfold onConnection
      rw [found]
      refine .of_put w.host.withdrawn found ⟨rfl, id⟩ fun keeps => ?_
      have held := keeps.used unused.1
      rw [unused.2.1.1.1] at held
      exact Bool.noConfusion held
    · exact .refl w

/-- What is done for each session in turn is a sweep if it is one for each of them. -/
theorem foldl_swept {step : World → Nat → World} (swept : ∀ w number, Swept w (step w number))
    (numbers : List Nat) (w : World) : Swept w (numbers.foldl step w) := by
  induction numbers generalizing w with
  | nil => exact .refl w
  | cons number numbers ih => exact (swept w number).trans (ih _)

/-- A sweep touches no session that it has no reason to touch. The reasons are those at the time when the
tracked roots have been let go of, which is the first thing that a sweep does. -/
theorem sweep_swept (w : World) : Swept w.releaseEntries w.sweep :=
  (foldl_swept releaseSession_swept _ _).trans (foldl_swept releaseConnection_swept _ _)

/-- A sweep withdraws providers, and is not seen by anybody otherwise. In particular it draws nothing and
completes no reporter. -/
theorem sweep_host (w : World) : ∃ withdrawn, w.sweep.host = { w.host with withdrawn } := by
  have released : w.releaseEntries.host = w.host := by
    unfold releaseEntries
    split <;> rfl
  exact released ▸ w.sweep_swept.host

/-! ## What is left of a session -/

/-- What is done for each session in turn is done for one of them once, and the rest leaves it alone. By
induction on the numbers, of which no two are the same: those before it and those after it are other
sessions. -/
theorem foldl_found {step : World → Nat → World} (swept : ∀ w number, Swept w (step w number))
    (others : ∀ (w : World) (m : Nat), m ≠ n → (step w m).sessions[n]? = w.sessions[n]?)
    {numbers : List Nat} (once : numbers.Nodup) (member : n ∈ numbers) (w : World) :
    ∃ u, Swept w u ∧ u.sessions[n]? = w.sessions[n]? ∧
      (numbers.foldl step w).sessions[n]? = (step u n).sessions[n]? := by
  have rest (numbers : List Nat) (absent : n ∉ numbers) (w : World) :
      (numbers.foldl step w).sessions[n]? = w.sessions[n]? := by
    induction numbers generalizing w with
    | nil => rfl
    | cons m numbers ih =>
      exact (ih (fun member => absent (List.mem_cons_of_mem _ member)) _).trans
        (others w m fun same => absent (same ▸ List.mem_cons_self))
  induction numbers generalizing w with
  | nil => cases member
  | cons m numbers ih =>
    obtain ⟨absent, once⟩ := List.nodup_cons.mp once
    by_cases here : m = n
    · subst here
      exact ⟨w, .refl w, rfl, rest numbers absent _⟩
    · obtain ⟨u, first, same, found⟩ :=
        ih once ((List.mem_cons.mp member).resolve_left (Ne.symm here)) (step w m)
      exact ⟨u, (swept w m).trans first, same.trans (others w m here), found⟩

/-- What becomes of a session when it is released: its providers go and it follows nothing, or it is left as
it was because it is held or follows nothing already. -/
theorem releaseSession_found (found : w.sessions[n]? = some s) :
    (w.releaseSession n).sessions[n]? =
      some (if s.isActive && !w.holds n then s.released else s) := by
  have inside := (List.getElem?_eq_some_iff.mp found).1
  unfold releaseSession
  rw [found]
  dsimp only
  split
  · rw [during_release found]
    exact List.getElem?_set_self inside
  · exact found

/-- Releasing one session leaves every other one as it is. -/
theorem releaseSession_others (w : World) (other : m ≠ n) :
    (w.releaseSession m).sessions[n]? = w.sessions[n]? := by
  unfold releaseSession
  split
  · rfl
  next s found =>
    split
    · rw [during_release found]
      exact List.getElem?_set_ne other
    · rfl

/-- What becomes of a session when its connection is released: it is disconnected, or left as it was because
the connection is over or somebody can use it. -/
theorem releaseConnection_found (found : w.sessions[n]? = some s) :
    (w.releaseConnection n).sessions[n]? =
      some (if !s.connection.isOver && !w.holdsConnection n s then s.disconnected else s) := by
  have inside := (List.getElem?_eq_some_iff.mp found).1
  unfold releaseConnection
  rw [found]
  dsimp only
  split
  · unfold onConnection
    rw [found]
    exact List.getElem?_set_self inside
  · exact found

/-- Releasing one connection leaves the sessions on the other connections as they are. -/
theorem releaseConnection_others (w : World) (other : m ≠ n) :
    (w.releaseConnection m).sessions[n]? = w.sessions[n]? := by
  unfold releaseConnection
  split
  · rfl
  next s found =>
    split
    · unfold onConnection
      rw [found]
      exact List.getElem?_set_ne other
    · rfl

/-- What a sweep leaves of a session. It is released first if it still follows its server and nobody holds
it, and what that comes to is then disconnected unless somebody can use the connection. -/
theorem sweep_found (found : w.sessions[n]? = some s) :
    let t := if s.isActive && !w.releaseEntries.holds n then s.released else s
    w.sweep.sessions[n]? = some
      (if !t.connection.isOver && !w.holdsConnection n t then t.disconnected else t) := by
  have member : n ∈ List.range w.sessions.length :=
    List.mem_range.mpr (List.getElem?_eq_some_iff.mp found).1
  have released : w.releaseEntries.sessions[n]? = some s ∧
      ∀ t, w.releaseEntries.holdsConnection n t = w.holdsConnection n t := by
    unfold releaseEntries
    split <;> exact ⟨found, fun _ => rfl⟩
  obtain ⟨u, swept, same, after⟩ := foldl_found releaseSession_swept
    (fun w _ => w.releaseSession_others) List.nodup_range member w.releaseEntries
  obtain ⟨u', swept', same', after'⟩ := foldl_found releaseConnection_swept
    (fun w _ => w.releaseConnection_others) List.nodup_range member
    ((List.range w.sessions.length).foldl releaseSession w.releaseEntries)
  rw [releaseSession_found (same.trans released.1), swept.holds] at after
  unfold sweep
  dsimp only
  rw [after', releaseConnection_found (same'.trans after), swept'.holdsConnection,
    (foldl_swept releaseSession_swept _ _).holdsConnection, released.2]

/-- What nobody has is nobody's when the tracked roots are let go of, as this takes holders away and adds
none. -/
theorem holds_releaseEntries (unheld : w.holds n = false) : w.releaseEntries.holds n = false := by
  unfold releaseEntries
  split
  · exact unheld
  next =>
    simp only [World.holds, Bool.or_eq_false_iff] at unheld
    obtain ⟨⟨client, openings⟩, visits⟩ := unheld
    have unshared : decide (w.shared = some n) = false := by
      refine Bool.of_not_eq_true fun shared => ?_
      simp only [World.tracks, shared, Bool.true_or, Bool.and_self, Bool.true_eq_false] at client
    have untracked : World.tracks { w with entries := [] } n = false := by
      simp only [World.tracks, unshared, List.any_nil, Bool.or_false]
    simp only [World.holds, untracked, Bool.false_and, Bool.false_or, Bool.or_eq_false_iff]
    exact ⟨openings, visits⟩

/-- After a sweep somebody holds each session that still follows its server. Stated for a world in which a
sweep finds nothing to do, which is what being at rest asks for. -/
theorem holds_of_swept (released : w.sweep = w) (found : w.sessions[n]? = some s)
    (active : s.isActive = true) : w.holds n = true := by
  refine Bool.of_not_eq_false fun unheld => ?_
  have entries : w.releaseEntries.entries = w.entries := by
    rw [← w.sweep_swept.entries, released]
  have same : w.releaseEntries = w := by
    unfold releaseEntries at entries ⊢
    split
    · rfl
    next abandoned =>
      rw [if_neg abandoned] at entries
      dsimp only at entries
      rw [entries]
  have after := sweep_found found
  rw [same, active, unheld, released, found] at after
  have gone (disconnects : Bool) :
      (if disconnects then s.released.disconnected else s.released).isReleased = true := by
    cases disconnects <;> rfl
  have left : s.isReleased = true := by
    rw [Option.some.inj after]
    exact gone _
  simp [Session.isActive, left] at active

end World

end LanguageClient
