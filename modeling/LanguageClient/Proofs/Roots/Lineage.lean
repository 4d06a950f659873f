import LanguageClient.Proofs.Folders.Telling
import LanguageClient.Proofs.Roots.Removal
import LanguageClient.Proofs.World.Sweep

/-!
# Whose session it is

The books of a client with a session for each root, whoever visits and whoever is dropped. An opening's
session is one for the root of the opening, and it is disposed once the opening is cancelled
(`World.Rooted`). It is shown here that openings and looks at the roots keep that, and that after a look
only roots of the host are tracked. Nothing is said of sessions that visitors have, so nothing is lost
when one of them is dropped.
-/

namespace LanguageClient

namespace World

variable {w v u : World} {n number : Nat} {o : Opening} {R : Session → Session → Prop}

/-! ## New sessions -/

/-- An opening that has failed changes the books and the log only. -/
theorem notOpened_grown (w : World) (number : Nat) (opening : Opening) (failure : ClientError) :
    Grown (fun _ => True) w (w.notOpened number opening failure) := by
  unfold notOpened
  dsimp only
  split <;> exact .of_eq rfl rfl rfl rfl

/-- When its server may have answered, the session of an opening goes on or is disposed, and no other is
new. -/
theorem awaitGreeting_grown (quiet : w.host.armed = []) (number : Nat) (opening : Opening)
    (n call : Nat) : Grown (fun _ => True) w (w.awaitGreeting number opening n call) := by
  unfold awaitGreeting
  split
  · exact .of_eq rfl rfl rfl rfl
  next outcome _ =>
    have welcomed : Grown (fun _ => True) w (w.welcome n outcome).2 :=
      within_grown _ (welcome_later w.options outcome) quiet trivial (some .connectionClosed)
    split
    next v eq =>
      rw [eq] at welcomed
      exact welcomed.trans (.of_eq rfl rfl rfl rfl)
    next eq =>
      rw [eq] at welcomed
      exact welcomed.trans (notOpened_grown ..)

/-- What follows upon a new session is done to that session: it greets its server, or it is disposed if its
opening was cancelled meanwhile. -/
theorem attached_grown (quiet : w.host.armed = []) (number : Nat) (opening : Opening) (n : Nat) :
    Grown (fun _ => True) w (w.attached number opening n) := by
  unfold World.attached
  split
  · have disposed : Grown (fun _ => True) w (w.dispose n) :=
      within_grown (fun h => ((), h.dispose)) dispose_later quiet trivial ()
    exact disposed.trans (notOpened_grown ..)
  · have started : Grown (fun _ => True) w (w.setStartup number (.attached n)) :=
      .of_eq rfl rfl rfl rfl
    have greeted : Grown (fun _ => True) (w.setStartup number (.attached n))
        ((w.setStartup number (.attached n)).greet n none).2 :=
      within_grown _ (greet_later _ none) (by exact quiet) trivial (.error .connectionClosed)
    have both := started.trans greeted
    split
    next eq =>
      rw [eq] at both
      exact both.trans (notOpened_grown ..)
    next call v eq =>
      rw [eq] at both
      exact both.trans (awaitGreeting_grown (both.calm quiet) ..)

/-- A session that is attached when an opening has its connection is for the root of the opening, and stays
so through what is done to it within the step. -/
theorem awaitConnection_root (quiet : w.host.armed = []) (number : Nat) (opening : Opening)
    {t : Session}
    (found : (w.awaitConnection number opening).sessions[w.sessions.length]? = some t) :
    t.root = some opening.root := by
  have beyond {v : World} (same : v.sessions = w.sessions)
      (found : v.sessions[w.sessions.length]? = some t) : t.root = some opening.root := by
    rw [same, List.getElem?_eq_none (Nat.le_refl _)] at found
    cases found
  unfold awaitConnection at found
  obtain ⟨connector, later⟩ | ⟨failure, connector, refused⟩ | ⟨v, session, attached⟩ :=
    w.connect_cases (.opening number) (some opening.root)
  · rw [later] at found
    exact beyond (v := { w with connector }) rfl found
  · rw [refused] at found
    refine beyond ?_ found
    unfold notOpened
    dsimp only
    split <;> rfl
  · rw [session] at found
    obtain ⟨s, last, root, -⟩ := attached.last
    have calm := attached.armed.trans quiet
    obtain ⟨t', found', later⟩ := (attached_grown calm number opening _).growth.session last
    cases found.symm.trans found'
    exact later.root.trans root

/-- A session that is new after a step of an opening is one for its root. -/
theorem pollOpening_root (found : w.openings[number]? = some o) (quiet : w.host.armed = [])
    (task : Task) (beyond : w.sessions.length ≤ n) {t : Session}
    (at_n : (w.pollOpening task number).sessions[n]? = some t) : t.root = some o.root := by
  have inside := (List.getElem?_eq_some_iff.mp at_n).1
  -- only an opening that had no connection gets a session
  have begun : o.stage.IsEarly ∧ n = w.sessions.length := by
    cases pollOpening_opens found quiet task with
    | rests _ _ _ length | waits _ _ _ length | goesOn _ _ _ _ length | fails _ _ _ length =>
      omega
    | begins early _ _ _ _ length | breaks early _ _ _ _ length | expires early _ _ _ _ length =>
      exact ⟨early, by omega⟩
  obtain ⟨early, rfl⟩ := begun
  have here : (w.watchOpening number task).openings[number]? =
      some { o with watchers := if task ∈ o.watchers then o.watchers else o.watchers ++ [task] } := by
    simp [watchOpening, found]
  unfold pollOpening at at_n
  dsimp only at at_n
  rw [here] at at_n
  dsimp only at at_n
  obtain stage | stage := early <;> rw [stage] at at_n <;> dsimp only at at_n
  · have root := awaitConnection_root (w := (w.watchOpening number task).askConnection) quiet _ _ at_n
    exact root
  · have root := awaitConnection_root (w := w.watchOpening number task) quiet _ _ at_n
    exact root

/-! ## The books -/

/-- What is true of the books and of the sessions in them. -/
structure Rooted (w : World) : Prop extends Booked w where
  /-- The session of an opening is for its root. -/
  lineage : ∀ {i : Nat} {o : Opening}, w.openings[i]? = some o → ∀ n, o.startup = .attached n →
    ∃ s, w.sessions[n]? = some s ∧ s.root = some o.root
  gone : ∀ {i : Nat} {o : Opening}, w.openings[i]? = some o → o.startup = .cancelled →
    ∀ n, o.stage.Has n → w.isDisposed n = true

/-- What openings and looks at the roots leave as it is. -/
structure Leaves (w v : World) : Prop where
  roots : v.host.roots = w.host.roots
  phase : v.phase = w.phase
  isDropped : v.isDropped = w.isDropped
  changes : v.changes = w.changes
  following : v.following = w.following
  visits : v.visits = w.visits

namespace Leaves

/-- Nothing happens, so all is left as it is. -/
theorem refl (w : World) : Leaves w w := ⟨rfl, rfl, rfl, rfl, rfl, rfl⟩

/-- What neither of two steps changes is not changed by both. -/
theorem trans (first : Leaves w v) (second : Leaves v u) : Leaves w u :=
  ⟨second.roots.trans first.roots, second.phase.trans first.phase,
    second.isDropped.trans first.isDropped, second.changes.trans first.changes,
    second.following.trans first.following, second.visits.trans first.visits⟩

/-- What lets the sessions go on leaves all this as it is, the visits apart, of which it has to be asked. -/
theorem of_growth {entries : List RootEntry} {openings : List Opening} {visits : List Visit}
    (growth : Growth R w { v with entries, openings, visits }) (same : v.visits = w.visits) :
    Leaves w v :=
  ⟨growth.roots, growth.phase, growth.isDropped, growth.changes, growth.following, same⟩

end Leaves

/-- Entries that are struck out leave the host, the phase and the visits as they are. -/
theorem Removes.leaves {revoked : List Nat} (removes : Removes revoked w v) : Leaves w v :=
  have growth := removes.revokes.growth
  ⟨growth.roots, growth.phase, growth.isDropped, growth.changes, growth.following,
    removes.revokes.visits⟩

/-- A session that was disposed still is, also where sessions were let go of meanwhile. -/
theorem Growth.isDisposed_akin (growth : Growth Session.Akin w v) (inside : n < w.sessions.length)
    (disposed : w.isDisposed n = true) : v.isDisposed n = true := by
  have found : w.sessions[n]? = some w.sessions[n] := List.getElem?_eq_getElem inside
  obtain ⟨t, after, akin⟩ := growth.session found
  rw [isDisposed_of_found found] at disposed
  rw [isDisposed_of_found after]
  exact akin.disposed disposed

namespace Rooted

variable {e : RootEntry} {revoked : List Nat} {root : Url}

/-- An entry may be struck out when its opening came to its end. The session of the opening is still for its
root, whoever has it now. -/
theorem passes (rooted : w.Rooted)
    (growth : Growth Session.Akin w
      { v with entries := w.entries, openings := w.openings, visits := w.visits })
    (openings : v.openings = w.openings) (fewer : v.entries.Sublist w.entries)
    (struck : ∀ e ∈ w.entries, e ∈ v.entries ∨ ∃ o session, w.openings[e.opening]? = some o ∧
      o.stage = .finished session) : v.Rooted where
  toBooked := rooted.toBooked.passes growth openings fewer struck
  lineage found n attached := by
    obtain ⟨s, at_n, root⟩ := rooted.lineage (openings ▸ found) n attached
    obtain ⟨t, at_n, akin⟩ := growth.session at_n
    exact ⟨t, at_n, akin.root.trans root⟩
  gone found cancelled n has := by
    have before := openings ▸ found
    exact growth.isDisposed_akin (rooted.inside before n (.inr has))
      (rooted.gone before cancelled n has)

/-- What concerns no books leaves them as they are. -/
theorem of_course (rooted : w.Rooted) (course : Course Session.Akin w v) : v.Rooted := by
  have same : { v with entries := w.entries, openings := w.openings, visits := w.visits } = v := by
    rw [← course.entries, ← course.openings, ← course.visits]
  exact rooted.passes (same ▸ course.toGrowth) course.openings (course.entries ▸ .refl _)
    fun e member => .inl (course.entries ▸ member)

/-! ## Openings -/

/-- A step of an opening that gives it a session for its root, if any, keeps the books. If the opening is
cancelled, what it has was disposed within the step. -/
theorem advances (rooted : w.Rooted) (found : w.openings[number]? = some o) {startup : Startup}
    {stage : OpeningStage} (advances : Advances number o startup stage w v)
    (fresh : ∀ n t, w.sessions.length ≤ n → v.sessions[n]? = some t → t.root = some o.root) :
    v.Rooted where
  toBooked := rooted.toBooked.advances found advances
  lineage at_m n attached := by
    have later {p : Opening} {m : Nat} (before : w.openings[m]? = some p)
        (attached : p.startup = .attached n) :
        ∃ t, v.sessions[n]? = some t ∧ t.root = some p.root := by
      obtain ⟨s, at_n, root⟩ := rooted.lineage before n attached
      obtain ⟨t, at_n, later⟩ := advances.serves.growth.session at_n
      exact ⟨t, at_n, later.root.trans root⟩
    obtain ⟨-, before⟩ | ⟨-, root, same, -⟩ := advances.whose at_m
    · exact later before attached
    · rw [root]
      have now : startup = .attached n := same.symm.trans attached
      obtain (before | has) | ⟨beyond, inside⟩ := advances.had n (.inl now)
      · exact later found before
      · refine later found ((rooted.own found n has).resolve_right fun cancelled => ?_)
        exact Startup.noConfusion (now.symm.trans (advances.cancelled.mpr cancelled))
      · exact ⟨_, List.getElem?_eq_getElem inside,
          fresh n _ beyond (List.getElem?_eq_getElem inside)⟩
  gone at_m cancelled n has := by
    have stays {p : Opening} {m : Nat} (before : w.openings[m]? = some p)
        (cancelled : p.startup = .cancelled) (has : p.stage.Has n) : v.isDisposed n = true :=
      advances.serves.isDisposed (rooted.inside before n (.inr has))
        (rooted.gone before cancelled n has)
    obtain ⟨-, before⟩ | ⟨-, -, same, same'⟩ := advances.whose at_m
    · exact stays before cancelled has
    · have revoked := advances.cancelled.mp (same.symm.trans cancelled)
      obtain (attached | had) | ⟨beyond, -⟩ := advances.had n (.inr (same' ▸ has))
      · exact Startup.noConfusion (attached.symm.trans revoked)
      · exact stays found revoked had
      · refine Bool.of_not_eq_false fun live => ?_
        exact (advances.new n beyond live).2.2 revoked

/-- A step of an opening, whoever makes it, loses no session of a tracked root. Nothing is asked of the
visits for that, so that it holds where some were dropped. -/
theorem pollOpening (rooted : w.Rooted) (task : Task) (number : Nat) :
    (w.pollOpening task number).Rooted ∧ Grown (fun _ => True) w (w.pollOpening task number) ∧
      (w.pollOpening task number).visits = w.visits ∧
      (w.pollOpening task number).entries.Sublist w.entries ∧
      ∀ n, (w.pollOpening task number).isDisposed n = false →
        w.sessions.length ≤ n ∨ w.IsOwned n → (w.pollOpening task number).IsOwned n := by
  cases found : w.openings[number]? with
  | none =>
    rw [pollOpening_of_none found]
    exact ⟨rooted, .refl w, rfl, .refl _, fun n live before => before.resolve_left
      (Nat.not_le.mpr (lt_of_live live))⟩
  | some o =>
    obtain ⟨startup, stage, advances⟩ :=
      (pollOpening_opens found rooted.unarmed task).advances rooted.toBooked found
    exact ⟨rooted.advances found advances fun n t beyond at_n =>
        pollOpening_root found rooted.unarmed task beyond at_n,
      advances.serves.toGrown.weaken fun _ _ => trivial, advances.serves.visits, advances.fewer,
      fun n live before => rooted.ownedAfter found advances before live⟩

/-! ## Roots that come and go -/

/-- Entries that are struck out have their openings cancelled and their sessions disposed. -/
theorem removes (rooted : w.Rooted) (removes : Removes revoked w v) : v.Rooted where
  toBooked := rooted.toBooked.removes removes
  lineage found n attached := by
    obtain ⟨o, before, root, -, ⟨-, startup⟩ | ⟨-, startup⟩⟩ := removes.found found
    · obtain ⟨s, at_n, at_root⟩ := rooted.lineage before n (startup ▸ attached)
      obtain ⟨t, at_n, later⟩ := removes.revokes.growth.session at_n
      exact ⟨t, at_n, (later.root.trans at_root).trans (congrArg some root.symm)⟩
    · cases startup.symm.trans attached
  gone {i _} found cancelled n has := by
    obtain ⟨o, before, -, stage, freed⟩ := removes.found found
    have stays (cancelled : o.startup = .cancelled) : v.isDisposed n = true :=
      removes.revokes.isDisposed (rooted.inside before n (.inr (stage ▸ has)))
        (rooted.gone before cancelled n (stage ▸ has))
    obtain ⟨-, startup⟩ | ⟨member, -⟩ := freed
    · exact stays (startup ▸ cancelled)
    · obtain attached | cancelled := rooted.own before n (stage ▸ has)
      · exact removes.revokes.gone i member n (sessionOf?_eq_some_iff.mpr ⟨o, before, attached⟩)
      · exact stays cancelled

/-- A root that is added has an opening without a session, so that nothing is to be shown of it. -/
theorem adds (rooted : w.Rooted) (unknown : ∀ e ∈ w.entries, e.root ≠ root) (adds : Adds root w v) :
    v.Rooted where
  toBooked := rooted.toBooked.adds unknown adds
  lineage found n attached := by
    obtain before | ⟨-, rfl⟩ := adds.whose found
    · exact adds.sessions ▸ rooted.lineage before n attached
    · cases attached
  gone found cancelled n has := by
    obtain before | ⟨-, rfl⟩ := adds.whose found
    · exact (isDisposed_congr adds.sessions n).trans (rooted.gone before cancelled n has)
    · cases cancelled

/-- The roots that are removed are not tracked any more, and no other is. -/
theorem removeRoots (rooted : w.Rooted) (roots : List Url) :
    (roots.foldl removeRoot w).Rooted ∧ Leaves w (roots.foldl removeRoot w) ∧
      ∀ e ∈ (roots.foldl removeRoot w).entries, e ∈ w.entries ∧ e.root ∉ roots := by
  induction roots generalizing w with
  | nil => exact ⟨rooted, .refl w, fun e member => ⟨member, List.not_mem_nil⟩⟩
  | cons root roots ih =>
    have first : (w.removeRoot root).Rooted ∧ Leaves w (w.removeRoot root) ∧
        ∀ e ∈ (w.removeRoot root).entries, e ∈ w.entries ∧ e.root ≠ root := by
      obtain ⟨unknown, same⟩ | ⟨entry, v, removes, entries, same⟩ :=
        rooted.removeRoot_cases root <;> rw [same]
      · exact ⟨rooted, .refl w, fun e member => ⟨member, unknown e member⟩⟩
      · refine ⟨{ rooted.removes removes with }, { removes.leaves with }, fun e member => ?_⟩
        have kept : e ∈ w.entries.filter fun e => e.root ≠ root := entries ▸ member
        exact ⟨(List.mem_filter.mp kept).1, of_decide_eq_true (List.mem_filter.mp kept).2⟩
    obtain ⟨rooted, leaves, fewer⟩ := first
    obtain ⟨rooted, leaves', fewer'⟩ := ih rooted
    refine ⟨rooted, leaves.trans leaves', fun e member => ?_⟩
    obtain ⟨before, other⟩ := fewer' e member
    exact ⟨(fewer e before).1, List.not_mem_cons_of_ne_of_not_mem (fewer e before).2 other⟩

/-- Only the roots that are added are tracked besides. The induction is on the roots; each is tracked
already or gets an entry and an opening, and neither changes what was looked at. -/
theorem addRoots (rooted : w.Rooted) (roots : List Url) :
    (roots.foldl (fun w root => (w.addRoot root).2) w).Rooted ∧
      Leaves w (roots.foldl (fun w root => (w.addRoot root).2) w) ∧
      (roots.foldl (fun w root => (w.addRoot root).2) w).before = w.before ∧
      ∀ e ∈ (roots.foldl (fun w root => (w.addRoot root).2) w).entries,
        e ∈ w.entries ∨ e.root ∈ roots := by
  induction roots generalizing w with
  | nil => exact ⟨rooted, .refl w, rfl, fun e member => .inl member⟩
  | cons root roots ih =>
    have first : (w.addRoot root).2.Rooted ∧ Leaves w (w.addRoot root).2 ∧
        (w.addRoot root).2.before = w.before ∧
        ∀ e ∈ (w.addRoot root).2.entries, e ∈ w.entries ∨ e.root = root := by
      obtain same | ⟨unknown, adds⟩ := w.addRoot_cases root
      · rw [same]
        exact ⟨rooted, .refl w, rfl, fun e member => .inl member⟩
      · refine ⟨rooted.adds unknown adds, .of_growth adds.growth adds.visits, adds.growth.before,
          fun e member => ?_⟩
        exact (adds.member member).imp_right (congrArg RootEntry.root)
    obtain ⟨rooted, leaves, before, more⟩ := first
    obtain ⟨rooted, leaves', before', more'⟩ := ih rooted
    refine ⟨rooted, leaves.trans leaves', before'.trans before, fun e member => ?_⟩
    obtain old | added := more' e member
    · exact (more e old).imp_right fun same => List.mem_cons.mpr (.inl same)
    · exact .inr (List.mem_cons_of_mem _ added)

/-- After a look at the roots only roots of the host are tracked, if only such were that it had at the last
look: what has gone since is removed, and nothing but what has come is added. -/
theorem reconcile (rooted : w.Rooted) (known : ∀ e ∈ w.entries, e.root ∈ w.before) :
    w.reconcile.Rooted ∧ Leaves w w.reconcile ∧ w.reconcile.before = w.host.roots ∧
      ∀ e ∈ w.reconcile.entries, e.root ∈ w.host.roots := by
  unfold World.reconcile
  rw [if_neg (Bool.eq_false_iff.mp rooted.single)]
  unfold reconcileEach
  obtain ⟨removed, leaves, fewer⟩ :=
    rooted.removeRoots (RootDiff.between w.before w.host.roots).removed
  obtain ⟨added, leaves', -, more⟩ :=
    removed.addRoots (RootDiff.between w.before w.host.roots).added
  have all := leaves.trans leaves'
  refine ⟨{ added with }, { all with }, rfl, fun e member => ?_⟩
  obtain before | new := more e member
  · obtain ⟨before, kept⟩ := fewer e before
    refine Decidable.byContradiction fun absent => kept ?_
    exact RootDiff.mem_missingFrom.mpr ⟨known e before, absent, List.not_mem_nil⟩
  · exact (RootDiff.mem_missingFrom.mp new).1

/-- The host's roots are looked at some times. What is tracked was then among the roots of the last look,
which was a look at the roots of now unless there was none. -/
theorem followChanges (rooted : w.Rooted) (known : ∀ e ∈ w.entries, e.root ∈ w.before)
    (count : Nat) : (followChanges count w).Rooted ∧ Leaves w (World.followChanges count w) ∧
      (∀ e ∈ (World.followChanges count w).entries,
        e.root ∈ (World.followChanges count w).before) ∧
      (World.followChanges count w).before = if count = 0 then w.before else w.host.roots := by
  induction count generalizing w with
  | zero => exact ⟨rooted, .refl w, known, rfl⟩
  | succ count ih =>
    obtain ⟨rooted, leaves, before, current⟩ := rooted.reconcile known
    obtain ⟨rooted, leaves', known, last⟩ := ih rooted (before ▸ current)
    refine ⟨rooted, leaves.trans leaves', known, ?_⟩
    change (World.followChanges count w.reconcile).before = _
    rw [last, before, leaves.roots, ite_self, if_neg (Nat.succ_ne_zero count)]

end Rooted

end World

end LanguageClient
