import LanguageClient.Proofs.Roots.Charge
import LanguageClient.Proofs.Roots.Roster
import LanguageClient.Proofs.World.Rest

/-!
# Keeping up with the host

Once nothing more can happen by itself, a client with a session for each root should track only roots that
the host has, and have no other session that is not disposed, visitors' sessions apart (`World.KeepsUp`).
Servers that never answer should not be in the way, and they are not, once the client runs: whatever has
happened, each root that the host has dropped is gone, even if its own server was never heard of
(`World.run_keepsUp`).

But the first look at the roots follows upon all openings of the roots that the host had at first. As long
as the server of one of them does not answer, a client that registers does not look, and keeps the session
of a root that the host has dropped (`World.run_falls_behind`).
-/

namespace LanguageClient

namespace World

variable {w : World} {n : Nat} {s : Session} {moves : List Move}

/-- Only roots of the host are tracked, and a session that no visitor has and that still follows its
server is for one of them. -/
structure KeepsUp (w : World) : Prop where
  tracked : ∀ e ∈ w.entries, e.root ∈ w.host.roots
  live : ∀ (n : Nat) (s : Session), w.sessions[n]? = some s → s.isActive = true →
    w.visits.any (w.visitHolds n) = false → ∃ root ∈ w.host.roots, s.root = some root

/-- Whether the client waits for the first openings while the host has told it of a change. -/
def FallsBehind (w : World) : Prop :=
  (∃ openings, w.phase = .joining openings) ∧ w.changes.waiting ≠ 0

/-- An opening holds a session only while it greets the server of it. -/
theorem exists_of_openingHolds {o : Opening} (greets : openingHolds n o = true) :
    ∃ call, o.stage = .greeting n call := by
  unfold openingHolds at greets
  cases stage : o.stage with
  | greeting session call =>
    rw [stage] at greets
    exact ⟨call, by rw [of_decide_eq_true greets]⟩
  | unstarted | connecting | finished =>
    rw [stage] at greets
    cases greets

namespace Rostered

/-- A session that the client has, or that an opening goes on with, is for a root that is tracked, unless
it is disposed. -/
theorem root_of_holds (rostered : w.Rostered) (found : w.sessions[n]? = some s)
    (live : s.isDisposed = false) (held : w.holds n = true)
    (unvisited : w.visits.any (w.visitHolds n) = false) :
    ∃ e ∈ w.entries, s.root = some e.root := by
  have lineage {i : Nat} {o : Opening} (opened : w.openings[i]? = some o)
      (attached : o.startup = .attached n) : s.root = some o.root := by
    obtain ⟨t, found', root⟩ := rostered.lineage opened n attached
    cases found.symm.trans found'
    exact root
  simp only [World.holds, unvisited, Bool.or_false, Bool.or_eq_true, Bool.and_eq_true] at held
  obtain ⟨tracks, -⟩ | opens := held
  · simp only [World.tracks, rostered.unshared, reduceCtorEq, decide_false, Bool.false_or,
      List.any_eq_true, decide_eq_true_eq] at tracks
    obtain ⟨e, member, owned⟩ := tracks
    obtain ⟨o, opened, attached⟩ := sessionOf?_eq_some_iff.mp owned
    obtain ⟨p, opened', root, -⟩ := rostered.tracked e member
    cases opened.symm.trans opened'
    exact ⟨e, member, root ▸ lineage opened attached⟩
  · obtain ⟨o, member, greets⟩ := List.any_eq_true.mp opens
    obtain ⟨i, opened⟩ := List.mem_iff_getElem?.mp member
    obtain ⟨call, stage⟩ := exists_of_openingHolds greets
    have has : o.stage.Has n := .inl ⟨call, stage⟩
    obtain attached | cancelled := rostered.own opened n has
    · obtain ⟨result, finished⟩ | ⟨e, member, same⟩ :=
        rostered.wanted opened fun cancelled => Startup.noConfusion (attached.symm.trans cancelled)
      · cases stage.symm.trans finished
      · obtain ⟨p, opened', root, -⟩ := rostered.tracked e member
        rw [same] at opened'
        cases opened.symm.trans opened'
        exact ⟨e, member, root ▸ lineage opened attached⟩
    · -- the session of an opening that was cancelled is disposed
      have gone := rostered.gone opened cancelled n has
      rw [isDisposed_of_found found, live] at gone
      cases gone

/-- With nothing left to release, the client keeps up with the host as far as what it tracks does. -/
theorem keepsUp_iff (rostered : w.Rostered) (released : w.sweep = w) :
    w.KeepsUp ↔ ∀ e ∈ w.entries, e.root ∈ w.host.roots := by
  refine ⟨KeepsUp.tracked, fun current => ⟨current, fun n s found active unvisited => ?_⟩⟩
  have live : s.isDisposed = false :=
    Bool.not_eq_eq_eq_not.mp (Bool.and_eq_true_iff.mp active).1
  obtain ⟨e, member, root⟩ :=
    rostered.root_of_holds found live (holds_of_swept released found active) unvisited
  exact ⟨e.root, current e member, root⟩

/-- When the reconciler has nothing to do, no change waits to be looked at. -/
theorem unwaiting (rostered : w.Rostered) (followed : w.poll .reconciler = w)
    (ongoing : w.following = .ongoing) : w.changes.waiting = 0 := by
  have begun : Rooted { w with changes := { w.changes with waiting := 0 } } :=
    { rostered.toRooted with }
  obtain ⟨-, leaves, -, -⟩ := begun.followChanges rostered.known w.changes.waiting
  have none : w.pollReconciler.changes.waiting = 0 := by
    unfold World.pollReconciler
    rw [ongoing]
    dsimp only
    split <;> rw [leaves.changes]
  have same : w.pollReconciler = w := followed
  rw [← same]
  exact none

/-- At rest, a client that does not fall behind tracks only roots of the host. -/
theorem current (rostered : w.Rostered) (followed : w.poll .reconciler = w)
    (goesOn : w.changes.hasEnded = false) (wished : w.isDropped = false)
    (abreast : ¬ w.FallsBehind) : ∀ e ∈ w.entries, e.root ∈ w.host.roots := by
  have looked (waits : (∃ openings, w.phase = .joining openings) ∨ w.following = .ongoing)
      (none : w.changes.waiting = 0) : ∀ e ∈ w.entries, e.root ∈ w.host.roots :=
    rostered.abreast waits goesOn none ▸ rostered.known
  have nothing (empty : w.entries = []) : ∀ e ∈ w.entries, e.root ∈ w.host.roots :=
    fun e member => absurd (empty ▸ member) List.not_mem_nil
  cases phase : w.phase with
  | absent => exact nothing (rostered.unbegun (.inl phase))
  | starting => exact nothing (rostered.unbegun (.inr phase))
  | connecting => exact absurd phase rostered.unconnected
  | greeting n call => exact absurd phase (rostered.ungreeted n call)
  | joining openings =>
    refine looked (.inl ⟨openings, phase⟩) (Decidable.byContradiction fun some => abreast ?_)
    exact ⟨⟨openings, phase⟩, some⟩
  | running =>
    have ongoing := (rostered.running phase).resolve_right (Bool.eq_false_iff.mp goesOn)
    exact looked (.inr ongoing) (rostered.unwaiting followed ongoing)
  | «over» => exact nothing (rostered.ended phase wished)

end Rostered

/-- At rest after any run in which the host does not end the client from inside a callback, whichever
servers have answered: what is tracked are roots that the host had when the client last looked, and the
client keeps up with the host just if they still are. It does so if it does not wait for the first
openings while a change waits for it, unless the host has ended its streams or the registering was
dropped. -/
theorem run_keepsUp {options : ClientOptions} (single : options.config.isMultiRoot = false)
    (unarmed : ∀ move ∈ moves, move.isUnarmed = true)
    (rests : ((start options).run moves).IsAtRest) :
    let w := (start options).run moves
    (∀ e ∈ w.entries, e.root ∈ w.before) ∧
      (w.KeepsUp ↔ ∀ e ∈ w.entries, e.root ∈ w.host.roots) ∧
      (w.changes.hasEnded = false → w.isDropped = false → ¬ w.FallsBehind → w.KeepsUp) := by
  intro w
  have rostered : w.Rostered := run_rostered (start_rostered single) unarmed
  have iff := rostered.keepsUp_iff rests.released
  exact ⟨rostered.known, iff, fun goesOn wished abreast =>
    iff.mpr (rostered.current (rests.tasks .reconciler) goesOn wished abreast)⟩

/-- A client runs when a second root comes, whose server never answers. Then the host drops the first
one. -/
def Sample.outlasted : List Move :=
  [.roots [⟨"file:///here"⟩], .register "client", .poll .register, .poll (.opening 0),
    .send 0 [.response ⟨"2.0", some (.number 1), some (.obj []), none⟩], .poll (.reader 0),
    .poll .register, .roots [⟨"file:///here"⟩, ⟨"file:///there"⟩], .poll .reconciler,
    .poll (.opening 1), .roots [⟨"file:///there"⟩], .poll .reconciler]

/-- A server that never answers is not in the way of a client that runs: the root that the host has dropped
is gone, and the client keeps up with what is left. -/
theorem run_keepsUp_outlasted :
    let w := (start Sample.single).run Sample.outlasted
    Sample.single.config.isMultiRoot = false ∧
      (∀ move ∈ Sample.outlasted, move.isUnarmed = true) ∧ w.IsAtRest ∧ w.KeepsUp ∧
      w.entries.map RootEntry.root = [⟨"file:///there"⟩] ∧ w.isDisposed 0 = true ∧
      w.openings.map Opening.stage = [.finished (some 0), .greeting 1 0] := by
  have single : Sample.single.config.isMultiRoot = false := rfl
  have unarmed : ∀ move ∈ Sample.outlasted, move.isUnarmed = true := by decide
  have rests : ((start Sample.single).run Sample.outlasted).IsAtRest :=
    .of_idle (by decide) (by decide) rfl rfl rfl rfl rfl
  have running : ((start Sample.single).run Sample.outlasted).phase = .running := rfl
  have keepsUp := (run_keepsUp single unarmed rests).2.2 rfl rfl fun behind => by
    obtain ⟨⟨openings, joining⟩, -⟩ := behind
    cases running.symm.trans joining
  exact ⟨single, unarmed, rests, keepsUp, by decide, by decide, by decide⟩

/-- The host has two roots at first. The server of the second one never answers, and the host drops the
first one. -/
def Sample.hung : List Move :=
  [.roots [⟨"file:///here"⟩, ⟨"file:///there"⟩], .register "client", .poll .register,
    .poll (.opening 0), .poll (.opening 1),
    .send 0 [.response ⟨"2.0", some (.number 1), some (.obj []), none⟩], .poll (.reader 0),
    .poll .register, .roots [⟨"file:///there"⟩]]

/-- The root that the host has dropped is still tracked, and its session, which nobody visits, is still
there, though nothing more happens. -/
theorem run_falls_behind :
    let w := (start Sample.single).run Sample.hung
    w.IsAtRest ∧ (∃ e ∈ w.entries, e.root ∉ w.host.roots) ∧ ¬ w.KeepsUp ∧
      ∃ s, w.sessions[0]? = some s ∧ s.isActive = true ∧
        w.visits.any (w.visitHolds 0) = false ∧ s.root = some ⟨"file:///here"⟩ ∧
        ⟨"file:///here"⟩ ∉ w.host.roots := by
  have tracked : ∃ e ∈ ((start Sample.single).run Sample.hung).entries,
      e.root ∉ ((start Sample.single).run Sample.hung).host.roots := by decide
  refine ⟨.of_idle (by decide) (by decide) rfl rfl rfl rfl rfl, tracked, fun keepsUp => ?_,
    _, rfl, by decide, by decide, rfl, by decide⟩
  obtain ⟨e, member, dropped⟩ := tracked
  exact dropped (keepsUp.tracked e member)

end World

end LanguageClient
