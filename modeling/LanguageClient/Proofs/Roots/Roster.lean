import LanguageClient.Proofs.Roots.Hands
import LanguageClient.Proofs.World.Accounts

/-!
# Which roots are tracked

A client with a session for each root tracks roots that the host had when it last looked, and once it
follows the host it has looked after every change that it was told of (`World.Rostered`). This holds after
every run in which the host does not end the client from inside a callback, whoever is dropped. In such a
run a visit stays at its stage until its own task goes on (`World.run_rostered`, `World.Rostered.after`).
-/

namespace LanguageClient

namespace World

variable {w v : World} {number : Nat} {R : Session → Session → Prop}

/-! ## Visits that others leave alone -/

/-- A visit is at the stage that it was at, and it is dropped if it was. -/
def Spares (number : Nat) (w v : World) : Prop :=
  ∀ visit, w.visits[number]? = some visit → ∃ visit', v.visits[number]? = some visit' ∧
    visit'.stage = visit.stage ∧ (visit.isDropped = true → visit'.isDropped = true)

namespace Spares

/-- A visit is spared if all visits stay as they are. -/
theorem of_visits (visits : v.visits = w.visits) : Spares number w v :=
  fun visit found => ⟨visit, visits ▸ found, rfl, id⟩

/-- A visit is spared if another one is changed, or if the change leaves it at its stage and does not take
back that it was dropped. -/
theorem of_modify {other : Nat} {change : Visit → Visit}
    (visits : v.visits = w.visits.modify other change)
    (spares : other ≠ number ∨ ∀ visit, (change visit).stage = visit.stage ∧
      (visit.isDropped = true → (change visit).isDropped = true)) : Spares number w v := by
  intro visit found
  rw [visits, List.getElem?_modify, found]
  by_cases here : other = number
  · obtain ⟨stage, dropped⟩ := spares.resolve_left (not_not_intro here) visit
    exact ⟨change visit, by simp [here], stage, dropped⟩
  · exact ⟨visit, by simp [here], rfl, id⟩

end Spares

/-! ## The roster -/

/-- What is true of a client with a session for each root at any time. -/
structure Rostered (w : World) : Prop extends Rooted w where
  /-- What is tracked is among the roots that the host had at the last look. -/
  known : ∀ e ∈ w.entries, e.root ∈ w.before
  unbegun : w.phase = .absent ∨ w.phase = .starting → w.entries = []
  unconnected : w.phase ≠ .connecting
  ungreeted : ∀ n call, w.phase ≠ .greeting n call
  unfresh : w.following ≠ .fresh
  followed : w.following = .ongoing → w.phase = .running
  running : w.phase = .running → w.following = .ongoing ∨ w.changes.hasEnded = true
  ended : w.phase = .over → w.isDropped = false → w.entries = []
  /-- Each change that was not looked at is waiting to be. -/
  abreast : (∃ openings, w.phase = .joining openings) ∨ w.following = .ongoing →
    w.changes.hasEnded = false → w.changes.waiting = 0 → w.before = w.host.roots
  unlent : ∀ visit ∈ w.visits, visit.stage.IsUnlent

/-- A client with a session for each root at its start: it tracks nothing, so that nothing has to be among
the roots of a last look. -/
theorem start_rostered {options : ClientOptions} (single : options.config.isMultiRoot = false) :
    (start options).Rostered where
  single := single
  unarmed := rfl
  unshared := rfl
  roots := .nil
  tracked _ member := absurd member List.not_mem_nil
  wanted found := nomatch found
  early found := nomatch found
  own found := nomatch found
  inside found := nomatch found
  lineage found := nomatch found
  gone found := nomatch found
  known _ member := absurd member List.not_mem_nil
  unbegun _ := rfl
  unconnected := nofun
  ungreeted := nofun
  unfresh := nofun
  followed := nofun
  running := nofun
  ended := nofun
  abreast := by rintro (⟨openings, joining⟩ | following) <;> contradiction
  unlent _ member := absurd member List.not_mem_nil

namespace Rostered

/-- What neither the roots of the host nor the phase of the client has to do with keeps the roster, even if
entries are struck out, and whatever the visits do. -/
theorem of_growth (rostered : w.Rostered) (rooted : v.Rooted) {entries : List RootEntry}
    {openings : List Opening} {visits : List Visit}
    (growth : Growth R w { v with entries, openings, visits }) (fewer : v.entries.Sublist w.entries)
    (unlent : ∀ visit ∈ v.visits, visit.stage.IsUnlent) : v.Rostered := by
  have phase : v.phase = w.phase := growth.phase
  have isDropped : v.isDropped = w.isDropped := growth.isDropped
  have following : v.following = w.following := growth.following
  have changes : v.changes = w.changes := growth.changes
  have before : v.before = w.before := growth.before
  have roots : v.host.roots = w.host.roots := growth.roots
  have empty (none : w.entries = []) : v.entries = [] := List.sublist_nil.mp (none ▸ fewer)
  exact { rooted with
    known := fun e member => before ▸ rostered.known e (fewer.subset member)
    unbegun := fun early => empty (rostered.unbegun (phase ▸ early))
    unconnected := phase ▸ rostered.unconnected
    ungreeted := phase ▸ rostered.ungreeted
    unfresh := following ▸ rostered.unfresh
    followed := phase ▸ following ▸ rostered.followed
    running := phase ▸ following ▸ changes ▸ rostered.running
    ended := fun finished wished => empty (rostered.ended (phase ▸ finished) (isDropped ▸ wished))
    abreast := by
      rw [phase, following, changes, before, roots]
      exact rostered.abreast
    unlent := unlent }

/-- What goes along the course of the world keeps the roster. -/
theorem of_course (rostered : w.Rostered) (course : Course Session.Akin w v) : v.Rostered := by
  have same : { v with entries := w.entries, openings := w.openings, visits := w.visits } = v := by
    rw [← course.entries, ← course.openings, ← course.visits]
  exact rostered.of_growth (rostered.toRooted.of_course course) (same ▸ course.toGrowth)
    (course.entries ▸ .refl _) (course.visits ▸ rostered.unlent)

/-! ## Openings and roots -/

/-- A step of an opening keeps the roster and changes no visit. At most it strikes out the root that could
not be opened. -/
theorem pollOpening (rostered : w.Rostered) (task : Task) (number : Nat) :
    (w.pollOpening task number).Rostered ∧
      (w.pollOpening task number).visits = w.visits := by
  obtain ⟨rooted, grown, visits, fewer, -⟩ := rostered.toRooted.pollOpening task number
  exact ⟨rostered.of_growth rooted grown.growth fewer (visits ▸ rostered.unlent), visits⟩

/-- After a look for each change only roots of the host are tracked. If no change was waiting, none is
needed: the last look was at the roots of now. -/
theorem pollReconciler (rostered : w.Rostered) :
    w.pollReconciler.Rostered ∧ w.pollReconciler.visits = w.visits := by
  unfold World.pollReconciler
  dsimp only
  split
  next fresh => exact absurd fresh rostered.unfresh
  next ongoing =>
    have begun : Rooted { w with changes := { w.changes with waiting := 0 } } :=
      { rostered.toRooted with }
    obtain ⟨rooted, leaves, known, last⟩ := begun.followChanges rostered.known w.changes.waiting
    have running : w.phase = .running := rostered.followed ongoing
    generalize World.followChanges w.changes.waiting
      { w with changes := { w.changes with waiting := 0 } } = v at rooted leaves known last ⊢
    have phase : v.phase = .running := leaves.phase.trans running
    have unlent : ∀ visit ∈ v.visits, visit.stage.IsUnlent := leaves.visits ▸ rostered.unlent
    -- with no change to look at, the last look was at what the host has
    have current : w.changes.hasEnded = false → v.before = v.host.roots := by
      intro goesOn
      rw [last, leaves.roots]
      split
      next none => exact rostered.abreast (.inr ongoing) goesOn none
      next => rfl
    have looked (following : Following) (unfresh : following ≠ .fresh)
        (goesOn : following = .ongoing ∨ v.changes.hasEnded = true) :
        Rostered { v with following } :=
      { rooted with
        known := known
        unbegun := phase ▸ nofun
        unconnected := phase ▸ nofun
        ungreeted := phase ▸ nofun
        unfresh := unfresh
        followed := fun _ => phase
        running := fun _ => goesOn
        ended := phase ▸ nofun
        abreast := by
          rintro - goesOn -
          rw [leaves.changes] at goesOn
          exact current goesOn
        unlent := unlent }
    split
    next ended => exact ⟨looked .over nofun (.inr ended.2), leaves.visits⟩
    next =>
      have following : v.following = .ongoing := leaves.following.trans ongoing
      exact ⟨looked v.following (following ▸ nofun) (.inl following), leaves.visits⟩
  next => exact ⟨rostered, rfl⟩

end Rostered

/-! ## Registering -/

/-- Who waits for the openings of the roots follows the host when these have ended. Until then nobody looks,
and changes wait. -/
theorem Rooted.join (rooted : w.Rooted) (known : ∀ e ∈ w.entries, e.root ∈ w.before)
    (idle : w.following ≠ .fresh ∧ w.following ≠ .ongoing)
    (abreast : w.changes.hasEnded = false → w.changes.waiting = 0 → w.before = w.host.roots)
    (unlent : ∀ visit ∈ w.visits, visit.stage.IsUnlent) (openings : List Nat) :
    (w.join openings).Rostered ∧ (w.join openings).visits = w.visits := by
  -- first each opening that goes on makes a step; these change no visit and strike out at most
  obtain ⟨rooted, leaves, before, fewer⟩ := foldl_keeps (P := Rooted)
    (R := fun w v => Leaves w v ∧ v.before = w.before ∧ v.entries.Sublist w.entries)
    (fun w => ⟨.refl w, rfl, .refl _⟩)
    (fun first second => ⟨first.1.trans second.1, second.2.1.trans first.2.1,
      second.2.2.trans first.2.2⟩)
    (fun w number =>
      if (w.openingResult? number).isSome then w else w.pollOpening .register number)
    (fun {w} number rooted => by
      split
      · exact ⟨rooted, .refl w, rfl, .refl _⟩
      · obtain ⟨kept, grown, visits, fewer, -⟩ := rooted.pollOpening .register number
        exact ⟨kept, .of_growth grown.growth visits, grown.growth.before, fewer⟩)
    openings rooted
  unfold World.join
  dsimp only
  generalize openings.foldl (fun w number =>
    if (w.openingResult? number).isSome then w else w.pollOpening .register number) w = v
    at rooted leaves before fewer
  have known : ∀ e ∈ v.entries, e.root ∈ v.before := fun e member =>
    before ▸ known e (fewer.subset member)
  have unlent : ∀ visit ∈ v.visits, visit.stage.IsUnlent := leaves.visits ▸ unlent
  have abreast : v.changes.hasEnded = false → v.changes.waiting = 0 → v.before = v.host.roots := by
    rw [leaves.changes, before, leaves.roots]
    exact abreast
  -- then all have ended and the host is followed, or the client waits for them
  split
  · exact ⟨{ rooted with
      known := known
      unbegun := nofun
      unconnected := nofun
      ungreeted := nofun
      unfresh := nofun
      followed := fun _ => rfl
      running := fun _ => .inl rfl
      ended := nofun
      abreast := fun _ => abreast
      unlent := unlent }, leaves.visits⟩
  · exact ⟨{ rooted with
      known := known
      unbegun := nofun
      unconnected := nofun
      ungreeted := nofun
      unfresh := leaves.following ▸ idle.1
      followed := fun ongoing => absurd (leaves.following ▸ ongoing) idle.2
      running := nofun
      ended := nofun
      abreast := fun _ => abreast
      unlent := unlent }, leaves.visits⟩

/-- Each root of the host is tracked, and the openings make their first steps. This is the first look of a
client with a session for each root. -/
theorem Rooted.openEach (rooted : w.Rooted) (empty : w.entries = [])
    (idle : w.following ≠ .fresh ∧ w.following ≠ .ongoing)
    (unlent : ∀ visit ∈ w.visits, visit.stage.IsUnlent) :
    w.openEach.Rostered ∧ w.openEach.visits = w.visits := by
  have begun : Rooted { w with before := w.host.roots } := { rooted with }
  -- the roots are added first, without the numbers of their openings
  obtain ⟨added, leaves, before, more⟩ := begun.addRoots w.host.roots
  rw [← addEach_snd _ w.host.roots []] at added leaves more before
  rw [openEach_eq]
  generalize { w with before := w.host.roots }.addEach w.host.roots [] = pair
    at added leaves more before ⊢
  obtain ⟨numbers, v⟩ := pair
  have joining : Rooted { v with phase := .joining numbers } := { added with }
  have known : ∀ e ∈ v.entries, e.root ∈ v.before := by
    intro e member
    obtain old | new := more e member
    · exact absurd (empty ▸ old) List.not_mem_nil
    · exact before ▸ new
  obtain ⟨rostered, visits⟩ := joining.join known (leaves.following ▸ idle)
    (fun _ _ => before.trans leaves.roots.symm) (leaves.visits ▸ unlent) numbers
  exact ⟨rostered, visits.trans leaves.visits⟩

namespace Rostered

/-- A client that does not run does not follow the roots. -/
theorem idle (rostered : w.Rostered) (other : w.phase ≠ .running) :
    w.following ≠ .fresh ∧ w.following ≠ .ongoing :=
  ⟨rostered.unfresh, fun ongoing => other (rostered.followed ongoing)⟩

/-- A client that does not follow the roots begins, or is over. When it is over it tracks nothing, unless
the registering was dropped. -/
theorem rephased (rostered : w.Rostered) (other : w.phase ≠ .running) {phase : Phase}
    (apart : phase = .starting ∧ w.entries = [] ∨
      phase = .over ∧ (w.isDropped = false → w.entries = [])) : Rostered { w with phase } := by
  have unfollowed (ongoing : w.following = .ongoing) : False := (rostered.idle other).2 ongoing
  obtain ⟨rfl, none⟩ | ⟨rfl, none⟩ := apart
  · exact { rostered with
      unbegun := fun _ => none
      unconnected := nofun
      ungreeted := nofun
      followed := fun ongoing => (unfollowed ongoing).elim
      running := nofun
      ended := nofun
      abreast := fun waits => (waits.elim nofun unfollowed).elim }
  · exact { rostered with
      unbegun := nofun
      unconnected := nofun
      ungreeted := nofun
      followed := fun ongoing => (unfollowed ongoing).elim
      running := nofun
      ended := fun _ => none
      abreast := fun waits => (waits.elim nofun unfollowed).elim }

/-- Registering goes on, or is given up when it was dropped. What is tracked by then stays tracked until a
sweep, as there is nobody to strike it out. -/
theorem pollRegister (rostered : w.Rostered) :
    w.pollRegister.Rostered ∧ w.pollRegister.visits = w.visits := by
  unfold World.pollRegister
  split
  next dropped =>
    split
    next => exact ⟨rostered, rfl⟩
    next => exact ⟨rostered, rfl⟩
    next other _ =>
      have ended := rostered.rephased other
        (.inr ⟨rfl, fun wished => Bool.noConfusion (dropped.symm.trans wished)⟩)
      exact ⟨{ ended with unshared := rfl }, rfl⟩
  next =>
    split
    next phase =>
      dsimp only
      rw [if_neg (by exact Bool.eq_false_iff.mp rostered.single)]
      have begun : Rooted (World.note { w with changes := ⟨0, false⟩ } .info
          "registering language client" [("multi_root", toString w.isMultiRoot)]) :=
        { rostered.toRooted with }
      exact begun.openEach (rostered.unbegun (.inr phase)) (rostered.idle (phase ▸ nofun))
        rostered.unlent
    next phase => exact absurd phase rostered.unconnected
    next n call phase => exact absurd phase (rostered.ungreeted n call)
    next openings phase =>
      exact rostered.toRooted.join rostered.known (rostered.idle (phase ▸ nofun))
        (rostered.abreast (.inl ⟨openings, phase⟩)) rostered.unlent openings
    next => exact ⟨rostered, rfl⟩

/-- A registration that begins keeps the roster, as nothing was tracked before it. -/
theorem registerOnce (rostered : w.Rostered) (label : String) :
    (w.registerOnce label).Rostered ∧ (w.registerOnce label).visits = w.visits := by
  unfold World.registerOnce
  split
  next phase =>
    have begun := rostered.rephased (phase ▸ nofun) (.inl ⟨rfl, rostered.unbegun (.inl phase)⟩)
    exact ⟨{ begun with }, rfl⟩
  next => exact ⟨rostered, rfl⟩

/-- A client that is ended tracks no root, and follows none. It is only ended while it runs and nobody
visits. -/
theorem shutdown (rostered : w.Rostered) :
    w.shutdownIfPossible.Rostered ∧ w.shutdownIfPossible.visits = w.visits := by
  obtain same | ⟨-, -, same⟩ := w.shutdownIfPossible_cases <;> rw [same]
  · exact ⟨rostered, rfl⟩
  · have begun : Rooted { w with phase := .over, following := .over } := { rostered.toRooted with }
    obtain ⟨v, removes, empty, ended⟩ := rostered.endClient_cases
    have leaves := removes.leaves
    have phase : v.phase = .over := leaves.phase
    have following : v.following = .over := leaves.following
    rw [ended]
    refine ⟨{ begun.removes removes with
      known := fun e member => absurd (empty ▸ member) List.not_mem_nil
      unbegun := fun _ => empty
      unconnected := phase ▸ nofun
      ungreeted := phase ▸ nofun
      unfresh := following ▸ nofun
      followed := following ▸ nofun
      running := phase ▸ nofun
      ended := fun _ _ => empty
      abreast := ?_
      unlent := leaves.visits ▸ rostered.unlent }, leaves.visits⟩
    rintro (⟨openings, joining⟩ | ongoing)
    · cases joining.symm.trans phase
    · cases ongoing.symm.trans following

/-! ## Releasing what nobody holds -/

/-- The tracked roots go only when no opening goes on. What a sweep releases is not disposed, which is why
it goes along a course on which sessions are but akin. -/
theorem sweep (rostered : w.Rostered) : w.sweep.Rostered ∧ w.sweep.visits = w.visits := by
  have swept := w.sweep_swept
  have released : w.releaseEntries.Rostered ∧ w.releaseEntries.visits = w.visits := by
    unfold releaseEntries
    split
    · exact ⟨rostered, rfl⟩
    next abandoned =>
      have grown : Grown (fun _ => True) w { w with entries := [] } := .of_eq rfl rfl rfl rfl
      have growth : Growth Session.Akin w w := grown.growth.weaken Session.Later.akin
      have rooted : Rooted { w with entries := [] } := by
        refine rostered.toRooted.passes growth rfl (List.nil_sublist _) fun e member => .inr ?_
        obtain ⟨o, found, -⟩ := rostered.tracked e member
        -- an opening that went on would keep the tracked roots
        have finished : isGoingOn o ≠ true := fun goesOn => abandoned (Bool.or_eq_true_iff.mpr
          (.inr (List.any_eq_true.mpr ⟨o, List.mem_of_getElem? found, goesOn⟩)))
        unfold isGoingOn at finished
        split at finished
        next session came => exact ⟨o, session, found, came⟩
        next => exact absurd rfl finished
      exact ⟨rostered.of_growth rooted growth (List.nil_sublist _) rostered.unlent, rfl⟩
  exact ⟨released.1.of_course swept.toCourse, swept.visits.trans released.2⟩

/-! ## Those who use the client -/

/-- The visits are not at stages at which somebody has borrowed a root. -/
theorem of_visits (rostered : w.Rostered) {visits : List Visit}
    (unlent : ∀ visit ∈ visits, visit.stage.IsUnlent) : Rostered { w with visits } :=
  { rostered with unlent }

/-- A visit that begins spares all that were there, since it comes after them. -/
theorem visit (rostered : w.Rostered) (label : String) (root : Url) :
    ((w.visit label root).getD w).Rostered ∧ Spares number w ((w.visit label root).getD w) := by
  unfold World.visit
  split
  · exact ⟨rostered, .of_visits rfl⟩
  · refine ⟨{ rostered with unlent := fun visit member => ?_ }, fun visit found => ?_⟩
    · obtain old | new := List.mem_append.mp member
      · exact rostered.unlent visit old
      · cases List.mem_singleton.mp new
        trivial
    · exact ⟨visit, List.getElem?_append_left (List.getElem?_eq_some_iff.mp found).1 ▸ found, rfl, id⟩

/-- A change of a visit leaves it at its stage, or another one is looked at. -/
theorem of_modify (rostered : w.Rostered) (other : Nat) (change : Visit → Visit)
    (stays : ∀ visit, (change visit).stage = visit.stage) :
    Rostered { w with visits := w.visits.modify other change } := by
  refine rostered.of_visits fun visit member => ?_
  obtain old | ⟨before, found, rfl⟩ := mem_modify member
  · exact rostered.unlent visit old
  · rw [stays]
    exact rostered.unlent before (List.mem_of_getElem? found)

/-- What the host makes of a visit leaves it at its stage. -/
theorem judge (rostered : w.Rostered) (other : Nat) (outcome : Outcome) :
    (w.judge other outcome).Rostered ∧ Spares number w (w.judge other outcome) := by
  unfold World.judge
  split
  · have judged := rostered.of_modify other (Visit.decided · outcome) fun _ => rfl
    exact ⟨{ judged with }, .of_modify rfl (.inr fun _ => ⟨rfl, id⟩)⟩
  · exact ⟨rostered, .of_visits rfl⟩

/-- A user who drops calls leaves a visit at its stage, and marks it at most. The same call drops a request
and the registration as well. -/
theorem drop (rostered : w.Rostered) (label : String) :
    (w.drop label).Rostered ∧ Spares number w (w.drop label) := by
  have first : (w.dropLastVisit label).Rostered ∧ Spares number w (w.dropLastVisit label) := by
    unfold dropLastVisit
    split
    next other _ =>
      have dropped := rostered.of_modify other Visit.dropped fun _ => rfl
      exact ⟨{ dropped with }, .of_modify rfl (.inr fun _ => ⟨rfl, fun _ => rfl⟩)⟩
    next => exact ⟨rostered, .of_visits rfl⟩
  have second {v : World} (rostered : v.Rostered) :
      (v.dropLastRequest label).Rostered ∧ (v.dropLastRequest label).visits = v.visits := by
    unfold dropLastRequest
    split
    · exact ⟨{ rostered with }, rfl⟩
    · exact ⟨rostered, rfl⟩
  have third {v : World} (rostered : v.Rostered) :
      (v.dropRegistering label).Rostered ∧ (v.dropRegistering label).visits = v.visits := by
    unfold dropRegistering
    split
    · exact ⟨rostered, rfl⟩
    · exact ⟨rostered, rfl⟩
    · exact ⟨rostered, rfl⟩
    · split
      · exact ⟨{ rostered with ended := nofun }, rfl⟩
      · exact ⟨rostered, rfl⟩
  rw [drop_eq]
  obtain ⟨rostered, spares⟩ := first
  obtain ⟨rostered, visits⟩ := second rostered
  obtain ⟨rostered, visits'⟩ := third rostered
  refine ⟨rostered, fun visit found => ?_⟩
  obtain ⟨visit', found', kept⟩ := spares visit found
  exact ⟨visit', (visits'.trans visits) ▸ found', kept⟩

/-- A visit that was dropped is over with its next step, and nothing else is done in that step: not even its
session is disposed. -/
theorem pollVisit_dropped (rostered : w.Rostered) {visit : Visit}
    (found : w.visits[number]? = some visit) (dropped : visit.isDropped = true) :
    w.pollVisit number = w.setVisit number .over := by
  have unlent := rostered.unlent visit (List.mem_of_getElem? found)
  unfold World.pollVisit
  rw [found]
  dsimp only
  rw [if_pos dropped]
  unfold dropVisit
  split
  next session loan stage =>
    rw [stage] at unlent
    exact unlent.elim
  next => rfl

/-- A step of a visit leaves the others as they are. It keeps the roster, as it may strike an entry out but
tracks no root. -/
theorem pollVisit (rostered : w.Rostered) (number other : Nat) :
    (w.pollVisit other).Rostered ∧ (other ≠ number → Spares number w (w.pollVisit other)) := by
  cases found : w.visits[other]? with
  | none =>
    unfold World.pollVisit
    rw [found]
    exact ⟨rostered, fun _ => .of_visits rfl⟩
  | some visit =>
    -- dropped or not, the visit goes to another stage and the rest of the books is kept
    obtain ⟨rooted, grown, fewer, stage, visits, unlent⟩ : (w.pollVisit other).Rooted ∧
        Grown (fun _ => True) w (w.pollVisit other) ∧
        (w.pollVisit other).entries.Sublist w.entries ∧
        ∃ stage : VisitStage, (w.pollVisit other).visits = (w.setVisit other stage).visits ∧
          stage.IsUnlent := by
      cases dropped : visit.isDropped with
      | true =>
        rw [rostered.pollVisit_dropped found dropped]
        exact ⟨{ rostered.toRooted with }, .of_eq rfl rfl rfl rfl, .refl _, .over, rfl, trivial⟩
      | false =>
        have minds := rostered.toRooted.pollVisit found dropped
          (rostered.unlent visit (List.mem_of_getElem? found))
        obtain ⟨stage, visits, unlent, -⟩ := minds.visits
        exact ⟨minds.rooted, minds.grown, minds.fewer, stage, visits, unlent⟩
    refine ⟨rostered.of_growth rooted grown.growth fewer fun visit member => ?_,
      fun apart => .of_modify visits (.inl apart)⟩
    rw [visits] at member
    obtain old | ⟨before, -, rfl⟩ := mem_modify member
    · exact rostered.unlent visit old
    · exact unlent

/-- The end of the host's news keeps the roster: of later changes nothing is asked then. -/
theorem endStreams (rostered : w.Rostered) :
    w.endStreams.Rostered ∧ w.endStreams.visits = w.visits := by
  have ended : Rostered { w with changes := { w.changes with hasEnded := true } } :=
    { rostered with
      running := fun _ => .inr rfl
      abreast := nofun }
  refine ⟨ended.of_course (.of_sessions rfl rfl rfl rfl (List.length_map _) fun {n s} found => ?_),
    rfl⟩
  exact ⟨s.hearNoMore, (List.getElem?_map ..).trans (congrArg (Option.map Session.hearNoMore) found),
    ⟨rfl, id⟩⟩

/-- The host has other roots now, and those who listen are told so. The change that waits is why the roots
of the last look need not be those of now. -/
theorem setRoots (rostered : w.Rostered) (roots : List Url) :
    (w.setRoots roots).Rostered ∧ (w.setRoots roots).visits = w.visits := by
  unfold World.setRoots
  cases ended : w.changes.hasEnded with
  | true =>
    refine ⟨{ rostered with abreast := fun _ goesOn => ?_ }, rfl⟩
    exact Bool.noConfusion (ended.symm.trans goesOn)
  | false =>
    exact ⟨{ rostered with
      running := fun running => rostered.running running
      abreast := fun _ _ none => absurd none (Nat.succ_ne_zero _) }, rfl⟩

/-! ## Moves -/

/-- Every move by which the host does not end the client keeps the roster, and leaves a visit that does not
go on itself at its stage. -/
theorem after (rostered : w.Rostered) (number : Nat) {move : Move} (unarmed : move.isUnarmed = true) :
    (w.after move).Rostered ∧ (move ≠ .poll (.visit number) → Spares number w (w.after move)) := by
  have alone {v : World} (kept : v.Rostered ∧ v.visits = w.visits) :
      v.Rostered ∧ (move ≠ .poll (.visit number) → Spares number w v) :=
    ⟨kept.1, fun _ => .of_visits kept.2⟩
  have spared {v : World} (kept : v.Rostered ∧ Spares number w v) :
      v.Rostered ∧ (move ≠ .poll (.visit number) → Spares number w v) :=
    ⟨kept.1, fun _ => kept.2⟩
  have course {v : World} (course : Course Session.Later w v) : v.Rostered ∧ v.visits = w.visits :=
    ⟨rostered.of_course (course.weaken Session.Later.akin), course.visits⟩
  cases minor : move.isMinor with
  | true => exact alone (course (after_course rostered.unarmed w.asks_later minor))
  | false =>
    cases move with
    | poll task =>
      cases task with
      | opening other => exact alone (rostered.pollOpening (.opening other) other)
      | reconciler => exact alone rostered.pollReconciler
      | register => exact alone rostered.pollRegister
      | visit other =>
        obtain ⟨kept, spares⟩ := rostered.pollVisit number other
        exact ⟨kept, fun apart => spares fun same => apart (same ▸ rfl)⟩
      | _ => cases minor
    | sweep => exact alone rostered.sweep
    | roots roots => exact alone (rostered.setRoots roots)
    | endStreams => exact alone rostered.endStreams
    | register label => exact alone (rostered.registerOnce label)
    | shutdown => exact alone rostered.shutdown
    | visit label root => exact spared (rostered.visit label root)
    | verdict other outcome => exact spared (rostered.judge other outcome)
    | request => exact alone ⟨{ rostered with }, rfl⟩
    | notify n method params =>
      exact alone (course (notifyIfPossible_course
        (fun sent => .of_connection (Connection.send_later sent)) w n params))
    | stopReading n => exact alone (course (stopReading_course w n))
    | drop label => exact spared (rostered.drop label)
    | arm => cases unarmed
    | _ => cases minor

end Rostered

/-- A client with a session for each root keeps its roster at all times, by induction on the moves. -/
theorem run_rostered (rostered : w.Rostered) {moves : List Move}
    (unarmed : ∀ move ∈ moves, move.isUnarmed = true) : (w.run moves).Rostered :=
  run_induction World.Rostered (fun _ _ unarmed rostered => (rostered.after 0 unarmed).1)
    unarmed rostered

end World

end LanguageClient
