import LanguageClient.Proofs.Roots.Removal
import LanguageClient.Proofs.Roots.Visiting
import LanguageClient.Proofs.Run
import LanguageClient.Proofs.World.Sweep

/-!
# A client with a session for each root

From the start to the end of such a client every session is in somebody's custody, whatever the host,
the servers and the users of the client do and in whatever order the tasks are polled. A visit that is
dropped and a host that ends the client from inside a callback are not considered.
-/

namespace LanguageClient

namespace World

variable {w v : World} {n number : Nat} {s : Session}

/-- What is true of a client with a session for each root at any time. -/
structure InCharge (w : World) : Prop extends Custody w where
  wished : w.isDropped = false
  unconnected : w.phase ≠ .connecting
  ungreeted : ∀ n call, w.phase ≠ .greeting n call
  /-- Roots are tracked by a client that is there, or is about to be. -/
  tracking : w.entries ≠ [] → (∃ openings, w.phase = .joining openings) ∨ w.phase = .running
  followed : w.following = .fresh ∨ w.following = .ongoing → w.phase = .running

/-- A client with a session for each root at its start: it tracks no root and opens nothing, and there is no
session that somebody would have to answer for. -/
theorem start_inCharge {options : ClientOptions} (single : options.config.isMultiRoot = false) :
    (start options).InCharge where
  single := single
  unarmed := rfl
  unshared := rfl
  roots := .nil
  tracked _ member := absurd member List.not_mem_nil
  wanted found := nomatch found
  early found := nomatch found
  own found := nomatch found
  inside found := nomatch found
  apart found := nomatch found
  undropped _ member := absurd member List.not_mem_nil
  awaited _ member := absurd member List.not_mem_nil
  held _ member := absurd member List.not_mem_nil
  kept _ live := absurd (lt_of_live live) (Nat.not_lt_zero _)
  proper found := nomatch found
  wished := rfl
  unconnected := nofun
  ungreeted := nofun
  tracking tracked := absurd rfl tracked
  followed following := by cases following <;> contradiction

namespace InCharge

/-- What openings and visits do leaves a client as far as it is. They may strike tracked roots out, but they
track none, and they touch neither the phase nor the following. -/
theorem of_tends (charge : w.InCharge) (kept : v.Custody) (tends : Tends w v) : v.InCharge := by
  have growth := tends.growth
  have phase : v.phase = w.phase := growth.phase
  have following : v.following = w.following := growth.following
  refine { kept with
    wished := growth.isDropped.trans charge.wished
    unconnected := phase ▸ charge.unconnected
    ungreeted := phase ▸ charge.ungreeted
    tracking := fun tracked => ?_
    followed := following ▸ phase ▸ charge.followed }
  rw [phase]
  refine charge.tracking fun none => tracked ?_
  exact List.sublist_nil.mp (none ▸ tends.fewer)

/-- What goes along the course of the world leaves a client as far as it is. -/
theorem of_course (charge : w.InCharge) (course : Course Session.Later w v) : v.InCharge :=
  charge.of_tends (charge.toCustody.of_course course) (.of_course course)

/-! ## Releasing -/

/-- The tracked roots are kept as long as there are any, since a client that tracks some runs or is about
to. -/
theorem keepsEntries (charge : w.InCharge) (tracked : w.entries ≠ []) : w.keepsEntries = true := by
  unfold World.keepsEntries
  obtain ⟨openings, phase⟩ | phase := charge.tracking tracked <;> rw [phase] <;> rfl

/-- A sweep strikes no tracked root out: either there is none, or the client keeps those that there are. -/
theorem releaseEntries (charge : w.InCharge) : w.releaseEntries = w := by
  unfold World.releaseEntries
  split
  · rfl
  next unkept =>
    have none : w.entries = [] :=
      Decidable.byContradiction fun tracked => unkept (charge.keepsEntries tracked)
    rw [← none]

/-- Who has a session in custody holds it. That of a tracked root is held by the client that tracks it, and
one that is visited by the visit. -/
theorem holds (charge : w.InCharge) (live : w.isDisposed n = false) : w.holds n = true := by
  obtain ⟨e, member, owned⟩ | ⟨visit, member, holds⟩ := charge.kept n live
  · have tracked : w.entries ≠ [] := List.ne_nil_of_mem member
    have tracks : w.tracks n = true :=
      Bool.or_eq_true_iff.mpr (.inr (List.any_eq_true.mpr ⟨e, member, decide_eq_true owned⟩))
    simp only [World.holds, tracks, charge.keepsEntries tracked, Bool.or_true, Bool.and_true,
      Bool.true_or]
  · have visits : w.visits.any (w.visitHolds n) = true := by
      refine List.any_eq_true.mpr ⟨visit, member, ?_⟩
      unfold visitHolds
      cases stage : visit.stage with
      | greeting session call | running session loan =>
        rw [stage] at holds
        exact decide_eq_true holds
      | unstarted | awaiting | connecting | «over» =>
        rw [stage] at holds
        exact holds.elim
    simp only [World.holds, visits, Bool.or_true]

/-- There is nothing to release: a session is disposed or somebody holds it. So a sweep goes along the
course of the world. -/
theorem sweep_course (charge : w.InCharge) : Course Session.Later w w.sweep := by
  have swept := charge.releaseEntries ▸ w.sweep_swept
  refine ⟨⟨swept.rest, swept.roots, swept.calm, swept.purposes, fun {n s} found => ?_⟩,
    swept.length⟩
  refine ⟨s, swept.kept found ⟨fun active => charge.holds ?_, fun _ => ?_⟩, .refl s⟩
  · rw [isDisposed_of_found found]
    exact Bool.not_eq_eq_eq_not.mp (Bool.and_eq_true_iff.mp active).1
  · exact (charge.proper found).unreleased

/-! ## Registering -/

/-- Who waits for the openings of the roots keeps custody, and is there when these have ended. Each opening
may make a step on the way, whose task is that of the registration. -/
theorem join (custody : w.Custody) (wished : w.isDropped = false) (openings : List Nat)
    (idle : ¬ (w.following = .fresh ∨ w.following = .ongoing)) :
    (w.join openings).InCharge ∧ Abides w (w.join openings) := by
  obtain ⟨kept, tends⟩ := custody.foldl (R := Tends) .refl .trans
    (fun w number =>
      if (w.openingResult? number).isSome then w else w.pollOpening .register number)
    (fun {w} number custody => by
      split
      · exact ⟨custody, .refl w⟩
      · obtain ⟨kept, tends, -⟩ := custody.pollOpening .register number
        exact ⟨kept, tends⟩) openings
  unfold World.join
  dsimp only
  generalize openings.foldl (fun w number =>
    if (w.openingResult? number).isSome then w else w.pollOpening .register number) w = v
    at kept tends
  have wished : v.isDropped = false := tends.growth.isDropped.trans wished
  have following : v.following = w.following := tends.growth.following
  split
  · exact ⟨{ kept with
      wished := wished
      unconnected := nofun
      ungreeted := nofun
      tracking := fun _ => .inr rfl
      followed := fun _ => rfl }, tends.abides.trans (.of_eq rfl)⟩
  · exact ⟨{ kept with
      wished := wished
      unconnected := nofun
      ungreeted := nofun
      tracking := fun _ => .inl ⟨openings, rfl⟩
      followed := fun active => absurd (following ▸ active) idle },
      tends.abides.trans (.of_eq rfl)⟩

/-- Each root of the host gets an opening, and these make their first steps. -/
theorem openEach (custody : w.Custody) (wished : w.isDropped = false)
    (idle : ¬ (w.following = .fresh ∨ w.following = .ongoing)) :
    w.openEach.InCharge ∧ Abides w w.openEach := by
  have begun : Custody { w with before := w.host.roots } := { custody with }
  -- the roots are added first, without the numbers of their openings
  obtain ⟨kept, resigns, following⟩ := begun.foldl
    (R := fun w v => Resigns w v ∧ v.following = w.following) (fun w => ⟨.refl w, rfl⟩)
    (fun first second => ⟨first.1.trans second.1, second.2.trans first.2⟩)
    (fun w root => (w.addRoot root).2)
    (fun {w} root custody => by
      obtain ⟨kept, resigns⟩ := custody.addRoot root
      refine ⟨kept, resigns, ?_⟩
      unfold World.addRoot
      split <;> rfl) w.host.roots
  rw [← addEach_snd _ w.host.roots []] at kept resigns following
  rw [openEach_eq]
  generalize { w with before := w.host.roots }.addEach w.host.roots [] = pair
    at kept resigns following ⊢
  obtain ⟨numbers, v⟩ := pair
  have joining : Custody { v with phase := .joining numbers } := { kept with }
  obtain ⟨charge, abides⟩ := join joining (resigns.isDropped.trans wished) numbers
    (by rw [← following] at idle; exact idle)
  exact ⟨charge, resigns.abides.trans abides⟩

/-- Registering goes on. Of its phases only the start and the waiting for openings occur, as no session is
shared. -/
theorem pollRegister (charge : w.InCharge) :
    w.pollRegister.InCharge ∧ Abides w w.pollRegister := by
  unfold World.pollRegister
  rw [if_neg (Bool.eq_false_iff.mp charge.wished)]
  split
  next phase =>
    have idle : ¬ (w.following = .fresh ∨ w.following = .ongoing) := fun active =>
      Phase.noConfusion (phase.symm.trans (charge.followed active))
    dsimp only
    rw [if_neg (by exact Bool.eq_false_iff.mp charge.single)]
    have begun : Custody (World.note { w with changes := ⟨0, false⟩ } .info
        "registering language client" [("multi_root", toString w.isMultiRoot)]) :=
      { charge.toCustody with }
    exact openEach begun charge.wished idle
  next phase => exact absurd phase charge.unconnected
  next n call phase => exact absurd phase (charge.ungreeted n call)
  next openings phase =>
    have idle : ¬ (w.following = .fresh ∨ w.following = .ongoing) := fun active =>
      Phase.noConfusion (phase.symm.trans (charge.followed active))
    exact join charge.toCustody charge.wished openings idle
  next => exact ⟨charge, .of_eq rfl⟩

/-! ## Moves -/

/-- Following the roots leaves a client as far as it is: what it does to the sessions keeps custody, and
whether there are roots to be tracked is a matter of the phase. -/
theorem pollReconciler (charge : w.InCharge) :
    w.pollReconciler.InCharge ∧ Abides w w.pollReconciler := by
  obtain ⟨kept, resigns⟩ := charge.toCustody.pollReconciler
  by_cases active : w.following = .fresh ∨ w.following = .ongoing
  · have running := resigns.phase.trans (charge.followed active)
    refine ⟨{ kept with
      wished := resigns.isDropped.trans charge.wished
      unconnected := running ▸ nofun
      ungreeted := running ▸ nofun
      tracking := fun _ => .inr running
      followed := fun _ => running }, resigns.abides⟩
  · -- the phase is only known where the roots are followed, but elsewhere nothing happens
    have rests : w.pollReconciler = w := by
      unfold World.pollReconciler
      dsimp only
      split
      next fresh => exact absurd (.inl fresh) active
      next ongoing => exact absurd (.inr ongoing) active
      next => rfl
    rw [rests]
    exact ⟨charge, .of_eq rfl⟩

/-- A client that is ended tracks no root, and all their openings are cancelled. -/
theorem shutdown (charge : w.InCharge) :
    w.shutdownIfPossible.InCharge ∧ Abides w w.shutdownIfPossible := by
  obtain same | ⟨-, -, same⟩ := w.shutdownIfPossible_cases <;> rw [same]
  · exact ⟨charge, .of_eq rfl⟩
  · obtain ⟨kept, resigns, none, following⟩ := charge.toCustody.endClient
    have phase : w.endClient.phase = .over := resigns.phase
    refine ⟨{ kept with
      wished := resigns.isDropped.trans charge.wished
      unconnected := phase ▸ nofun
      ungreeted := phase ▸ nofun
      tracking := fun tracked => absurd none tracked
      followed := fun active => by rw [following] at active; cases active <;> contradiction },
      resigns.abides⟩

/-- A registration that begins leaves all as it is, since a client that was not there tracks nothing yet. -/
theorem registerOnce (charge : w.InCharge) (label : String) :
    (w.registerOnce label).InCharge ∧ Abides w (w.registerOnce label) := by
  unfold World.registerOnce
  split
  next phase =>
    refine ⟨{ charge with unconnected := nofun, ungreeted := nofun, tracking := ?_, followed := ?_ },
      .of_eq rfl⟩
    · intro tracked
      obtain ⟨openings, joining⟩ | running := charge.tracking tracked
      · cases phase.symm.trans joining
      · cases phase.symm.trans running
    · intro active
      cases phase.symm.trans (charge.followed active)
  next => exact ⟨charge, .of_eq rfl⟩

/-- A visit that begins has no session, and is not dropped. The visits that were there keep what they have,
as the new one comes after them. -/
theorem visit (charge : w.InCharge) (label : String) (root : Url) :
    ((w.visit label root).getD w).InCharge ∧ Abides w ((w.visit label root).getD w) := by
  unfold World.visit
  split
  · exact ⟨charge, .of_eq rfl⟩
  · have whose {visit : Visit} (member : visit ∈ w.visits ++ [⟨label, root, .unstarted, none, false⟩]) :
        visit ∈ w.visits ∨ visit = ⟨label, root, .unstarted, none, false⟩ :=
      (List.mem_append.mp member).imp_right List.mem_singleton.mp
    refine ⟨{ charge with undropped := ?_, awaited := ?_, held := ?_, kept := ?_ }, .of_eq rfl⟩
    · intro visit member
      obtain before | rfl := whose member
      · exact charge.undropped visit before
      · rfl
    · intro visit member i awaiting
      obtain before | rfl := whose member
      · exact charge.awaited visit before i awaiting
      · cases awaiting
    · intro visit member n holds
      obtain before | rfl := whose member
      · exact charge.held visit before n holds
      · exact holds.elim
    · exact fun n live => (charge.kept n live).imp_right fun ⟨visit, member, holds⟩ =>
        ⟨visit, List.mem_append_left _ member, holds⟩

/-- What the host makes of a visit changes neither its stage nor whether it is dropped. -/
theorem judge (charge : w.InCharge) (number : Nat) (outcome : Outcome) :
    (w.judge number outcome).InCharge ∧ Abides w (w.judge number outcome) := by
  unfold World.judge
  split
  next undecided =>
    obtain ⟨judged, found, -⟩ := Option.map_eq_some_iff.mp undecided
    have whose {visit : Visit} (member : visit ∈ w.visits.modify number (Visit.decided · outcome)) :
        ∃ before ∈ w.visits, visit.root = before.root ∧ visit.stage = before.stage ∧
          visit.isDropped = before.isDropped := by
      obtain before | ⟨before, found, rfl⟩ := mem_modify member
      · exact ⟨visit, before, rfl, rfl, rfl⟩
      · exact ⟨before, List.mem_of_getElem? found, rfl, rfl, rfl⟩
    refine ⟨{ charge with undropped := ?_, awaited := ?_, held := ?_, kept := ?_ }, .of_eq rfl⟩
    · intro visit member
      obtain ⟨before, inside, -, -, same⟩ := whose member
      exact same.trans (charge.undropped before inside)
    · intro visit member i awaiting
      obtain ⟨before, inside, root, stage, -⟩ := whose member
      rw [root]
      exact charge.awaited before inside i (stage.symm.trans awaiting)
    · intro visit member n holds
      obtain ⟨before, inside, -, stage, -⟩ := whose member
      exact charge.held before inside n (stage ▸ holds)
    · refine fun n live => (charge.kept n live).imp_right fun ⟨visit, member, holds⟩ => ?_
      obtain stays | rfl := mem_modify_or_eq found (Visit.decided · outcome) member
      · exact ⟨visit, stays, holds⟩
      · exact ⟨_, mem_modify_self found _, holds⟩
  next => exact ⟨charge, .of_eq rfl⟩

/-- The end of the host's news disposes no session. -/
theorem endStreams (charge : w.InCharge) : w.endStreams.InCharge ∧ Abides w w.endStreams := by
  have ended : InCharge { w with changes := { w.changes with hasEnded := true } } :=
    { charge with }
  refine ⟨ended.of_course (.of_sessions rfl rfl rfl rfl (List.length_map _) fun {n s} found => ?_),
    .of_eq rfl⟩
  refine ⟨s.hearNoMore, ?_, ?_⟩
  · exact (List.getElem?_map ..).trans (congrArg (Option.map Session.hearNoMore) found)
  · have beside : s.Beside s.hearNoMore := .of_eq rfl rfl rfl rfl
    exact beside.toLater

end InCharge

/-- Whether a move lets visits run to their end, and leaves it to the users of the client to end it. -/
def Move.isOrderly : Move → Bool
  | .arm _ | .drop _ => false
  | _ => true

/-- Every orderly move leaves all as it is, and cancelled openings stay cancelled through it. The moves that
touch books or visits have each been considered, and the others go along the course of the world. -/
theorem InCharge.after (charge : w.InCharge) {move : Move} (orderly : move.isOrderly = true) :
    (w.after move).InCharge ∧ Abides w (w.after move) := by
  have course {v : World} (course : Course Session.Later w v) : v.InCharge ∧ Abides w v :=
    ⟨charge.of_course course, .of_eq course.openings⟩
  cases minor : move.isMinor with
  | true => exact course (after_course charge.unarmed w.asks_later minor)
  | false =>
    cases move with
    | poll task =>
      cases task with
      | opening number =>
        obtain ⟨kept, tends, -⟩ := charge.toCustody.pollOpening (.opening number) number
        exact ⟨charge.of_tends kept tends, tends.abides⟩
      | reconciler => exact charge.pollReconciler
      | register => exact charge.pollRegister
      | visit number =>
        obtain ⟨kept, tends⟩ := charge.toCustody.pollVisit number
        exact ⟨charge.of_tends kept tends, tends.abides⟩
      | _ => cases minor
    | sweep => exact course charge.sweep_course
    | roots roots => exact ⟨{ charge with }, .of_eq rfl⟩
    | endStreams => exact charge.endStreams
    | register label => exact charge.registerOnce label
    | shutdown => exact charge.shutdown
    | visit label root => exact charge.visit label root
    | verdict number outcome => exact charge.judge number outcome
    | request => exact ⟨{ charge with }, .of_eq rfl⟩
    | notify n method params =>
      exact course (notifyIfPossible_course
        (fun sent => .of_connection (Connection.send_later sent)) w n params)
    | stopReading n => exact course (stopReading_course w n)
    | drop | arm => cases orderly
    | _ => cases minor

/-! ## Runs -/

/-- A client with a session for each root is in charge of its sessions at all times, by induction on the
moves. -/
theorem run_inCharge (charge : w.InCharge) {moves : List Move}
    (orderly : ∀ move ∈ moves, move.isOrderly = true) :
    (w.run moves).InCharge ∧ Abides w (w.run moves) :=
  run_induction (fun v => v.InCharge ∧ Abides w v)
    (fun _ _ orderly ⟨charge, abides⟩ =>
      have ⟨charge, abides'⟩ := charge.after orderly
      ⟨charge, abides.trans abides'⟩)
    orderly ⟨charge, .of_eq rfl⟩

/-- Whether an opening was cancelled. -/
def IsCancelled (w : World) (number : Nat) : Prop :=
  ∃ o, w.openings[number]? = some o ∧ o.startup = .cancelled

/-- What was cancelled is still cancelled. -/
theorem Abides.isCancelled (abides : Abides w v) (cancelled : w.IsCancelled number) :
    v.IsCancelled number := by
  obtain ⟨o, found, cancelled⟩ := cancelled
  obtain ⟨p, found, -, stays⟩ := abides number o found
  exact ⟨p, found, stays cancelled⟩

/-- Who answers for the sessions of a client with a session for each root. -/
structure Accountable (w : World) : Prop where
  /-- No root is tracked twice. -/
  roots : (w.entries.map RootEntry.root).Nodup
  /-- A session that is not disposed was attached for just one of the tracked roots, or it is a
  visitor's. -/
  owned : ∀ n, w.isDisposed n = false →
    (∃! e, e ∈ w.entries ∧ w.sessionOf? e.opening = some n) ∧ ¬ w.IsVisited n ∨
      w.IsVisited n ∧ ∀ e ∈ w.entries, w.sessionOf? e.opening ≠ some n
  /-- When the roots are looked at or the client is ended, what is tracked no more has its opening
  cancelled and its session disposed. -/
  removed : ∀ move, move = .poll .reconciler ∨ move = .shutdown → ∀ e ∈ w.entries,
    e ∉ (w.after move).entries → (w.after move).IsCancelled e.opening ∧
      ∀ n, w.sessionOf? e.opening = some n → (w.after move).isDisposed n = true
  /-- A cancelled opening is never tracked again, and a session that is still attached for it is
  disposed before anything is said on its connection. -/
  cancelled : ∀ number, w.IsCancelled number →
    (∀ moves : List Move, (∀ move ∈ moves, move.isOrderly = true) →
      (w.run moves).IsCancelled number ∧ ∀ e ∈ (w.run moves).entries, e.opening ≠ number) ∧
    ∀ task n t, w.sessions.length ≤ n → (w.pollOpening task number).sessions[n]? = some t →
      t.IsStillborn
  /-- An opening that is not tracked leaves alone what is tracked, and all other openings with their
  sessions. -/
  superseded : ∀ number, (∀ e ∈ w.entries, e.opening ≠ number) → ∀ task,
    (w.pollOpening task number).entries = w.entries ∧ ∀ other, other ≠ number →
      (w.pollOpening task number).openings[other]? = w.openings[other]? ∧
      ∀ n, w.sessionOf? other = some n →
        (w.pollOpening task number).sessions[n]? = w.sessions[n]?

namespace Custody

/-- A session has one owner. Two entries with one session would have one opening, and so be the same, and
what a visit holds is no entry's. -/
theorem owned (custody : w.Custody) (live : w.isDisposed n = false) :
    (∃! e, e ∈ w.entries ∧ w.sessionOf? e.opening = some n) ∧ ¬ w.IsVisited n ∨
      w.IsVisited n ∧ ∀ e ∈ w.entries, w.sessionOf? e.opening ≠ some n := by
  obtain ⟨e, member, owned⟩ | ⟨visit, member, holds⟩ := custody.kept n live
  · refine .inl ⟨⟨e, ⟨member, owned⟩, ?_⟩, ?_⟩
    · rintro f ⟨member', owned'⟩
      obtain ⟨o, found, attached⟩ := sessionOf?_eq_some_iff.mp owned
      obtain ⟨p, found', attached'⟩ := sessionOf?_eq_some_iff.mp owned'
      exact custody.entry_eq member' member
        (custody.apart found' found n (.inl attached') (.inl attached))
    · rintro ⟨visit, visiting, holds⟩
      exact (custody.held visit visiting n holds).2 e member owned
  · exact .inr ⟨⟨visit, member, holds⟩, (custody.held visit member n holds).2⟩

/-- What is tracked was not cancelled, so that a cancelled opening is tracked for no root. -/
theorem untracked (custody : w.Custody) (cancelled : w.IsCancelled number) (e : RootEntry)
    (member : e ∈ w.entries) : e.opening ≠ number := by
  rintro rfl
  obtain ⟨o, found, cancelled⟩ := cancelled
  obtain ⟨p, found', -, wanted⟩ := custody.tracked e member
  cases found.symm.trans found'
  exact wanted cancelled

end Custody

/-- What is tracked no more was cancelled, and its session is disposed. -/
theorem Resigns.removed (resigns : Resigns w v) {e : RootEntry} (member : e ∈ w.entries)
    (gone : e ∉ v.entries) : v.IsCancelled e.opening ∧
      ∀ n, w.sessionOf? e.opening = some n → v.isDisposed n = true :=
  (resigns.each e member).resolve_left fun stays => gone stays.1

/-- Who is in charge can account for its sessions: custody says who owns what, and what a look at the roots
or the end of the client removes has resigned. -/
theorem InCharge.accountable (charge : w.InCharge) : w.Accountable where
  roots := charge.roots
  owned _ live := charge.toCustody.owned live
  removed := by
    rintro move (rfl | rfl) e member gone
    · exact charge.toCustody.pollReconciler.2.removed member gone
    · change e ∉ w.shutdownIfPossible.entries at gone
      change w.shutdownIfPossible.IsCancelled e.opening ∧
        ∀ n, w.sessionOf? e.opening = some n → w.shutdownIfPossible.isDisposed n = true
      obtain same | ⟨-, -, same⟩ := w.shutdownIfPossible_cases
      · rw [same] at gone
        exact absurd member gone
      · rw [same] at gone ⊢
        exact charge.toCustody.endClient.2.1.removed member gone
  cancelled number cancelled := by
    refine ⟨fun moves orderly => ?_, fun task n t beyond found => ?_⟩
    · obtain ⟨later, abides⟩ := run_inCharge charge orderly
      have still := abides.isCancelled cancelled
      exact ⟨still, later.toCustody.untracked still⟩
    · obtain ⟨o, at_number, cancelled⟩ := cancelled
      exact (pollOpening_opens at_number charge.unarmed task).stillborn cancelled beyond found
  superseded number untracked task := by
    cases found : w.openings[number]? with
    | none =>
      rw [pollOpening_of_none found]
      exact ⟨rfl, fun _ _ => ⟨rfl, fun _ _ => rfl⟩⟩
    | some o =>
      obtain ⟨startup, stage, advances⟩ :=
        (pollOpening_opens found charge.unarmed task).advances charge.toBooked found
      exact charge.toCustody.superseded found advances untracked

/-- At any time somebody answers for each session of a client with a session for each root. -/
theorem run_accountable {options : ClientOptions} (single : options.config.isMultiRoot = false)
    {moves : List Move} (orderly : ∀ move ∈ moves, move.isOrderly = true) :
    ((start options).run moves).Accountable :=
  (run_inCharge (start_inCharge single) orderly).1.accountable

/-- The options of a client with a session for each root. -/
def Sample.single : ClientOptions := ⟨Config.default, .identity⟩

/-- A client has the session of one root when a second root comes, and goes again before there is a
connection for it. -/
def Sample.cancelled : List Move :=
  [.roots [⟨"file:///here"⟩], .register "client", .poll .register,
    .send 0 [.response ⟨"2.0", some (.number 1), some (.obj []), none⟩], .poll (.reader 0),
    .poll .register, .holdConnections, .roots [⟨"file:///here"⟩, ⟨"file:///there"⟩],
    .poll .reconciler, .poll (.opening 1), .roots [⟨"file:///here"⟩], .poll .reconciler,
    .releaseConnections]

/-- A root goes while there is no connection for it yet. Its opening is cancelled, and when it comes to a
session after all the session of the other root is still there. -/
theorem run_accountable_cancelled :
    let w := (start Sample.single).run Sample.cancelled
    w.Accountable ∧ w.entries.length = 1 ∧ w.isDisposed 0 = false ∧ w.IsCancelled 1 ∧
      w.sessions.length = 1 ∧ (w.pollOpening (.opening 1) 1).sessions.length = 2 := by
  have single : Sample.single.config.isMultiRoot = false := rfl
  have orderly : ∀ move ∈ Sample.cancelled, move.isOrderly = true := by decide
  exact ⟨run_accountable single orderly, by decide, by decide, ⟨_, rfl, rfl⟩, by decide, by decide⟩

end World

end LanguageClient
