import LanguageClient.Proofs.Roots.Opening

/-!
# Who answers for a session

With a session for each root, a session is in the custody of the entry of its root from the moment it is
attached, or of the visit that opened or took it. `World.Custody` says that each session that is not
disposed is in somebody's custody, that an entry answers for one opening and an opening for one session,
and that whatever was removed is cancelled. It is shown here that the steps of an opening keep it, and
that an opening that is not tracked any more touches nothing that belongs to another.
-/

namespace LanguageClient

/-- Whether a visitor at this stage has a session, or the server of it is greeted. -/
def VisitStage.Holds : VisitStage → Nat → Prop
  | .greeting session _, n | .running session _, n => session = n
  | _, _ => False

namespace World

variable {w v : World} {n number : Nat} {touched : Nat → Prop} {o : Opening} {e : RootEntry}

/-- Whether a visitor has a session, or its visit greets the server of it. -/
def IsVisited (w : World) (n : Nat) : Prop := ∃ visit ∈ w.visits, visit.stage.Holds n

/-- Whether a session is that of a tracked root. -/
def IsOwned (w : World) (n : Nat) : Prop := ∃ e ∈ w.entries, w.sessionOf? e.opening = some n

/-- What is true of the tracked roots of a client with a session for each root and of the openings of
their sessions, whoever visits. -/
structure Booked (w : World) : Prop where
  single : w.isMultiRoot = false
  unarmed : w.host.armed = []
  unshared : w.shared = none
  /-- No root is tracked twice. -/
  roots : (w.entries.map RootEntry.root).Nodup
  tracked : ∀ e ∈ w.entries, ∃ o, w.openings[e.opening]? = some o ∧ o.root = e.root ∧
    o.startup ≠ .cancelled
  /-- An opening that goes on is tracked, or it was cancelled. -/
  wanted : ∀ {i : Nat} {o : Opening}, w.openings[i]? = some o → o.startup ≠ .cancelled →
    (∃ session, o.stage = .finished session) ∨ ∃ e ∈ w.entries, e.opening = i
  early : ∀ {i : Nat} {o : Opening}, w.openings[i]? = some o → o.stage.IsEarly →
    ∀ n, o.startup ≠ .attached n
  own : ∀ {i : Nat} {o : Opening}, w.openings[i]? = some o → ∀ n, o.stage.Has n →
    o.startup = .attached n ∨ o.startup = .cancelled
  inside : ∀ {i : Nat} {o : Opening}, w.openings[i]? = some o → ∀ n, o.Had n →
    n < w.sessions.length

/-- What is true of a client with a session for each root. -/
structure Custody (w : World) : Prop extends Booked w where
  /-- No two openings have a session in common. -/
  apart : ∀ {i j : Nat} {o p : Opening}, w.openings[i]? = some o → w.openings[j]? = some p →
    ∀ n, o.Had n → p.Had n → i = j
  undropped : ∀ visit ∈ w.visits, visit.isDropped = false
  awaited : ∀ visit ∈ w.visits, ∀ i, visit.stage = .awaiting i →
    ∃ o, w.openings[i]? = some o ∧ o.root = visit.root
  /-- What a visit holds is nobody else's. -/
  held : ∀ visit ∈ w.visits, ∀ n, visit.stage.Holds n →
    n < w.sessions.length ∧ ∀ e ∈ w.entries, w.sessionOf? e.opening ≠ some n
  /-- Each session that is not disposed is in somebody's custody. -/
  kept : ∀ n, w.isDisposed n = false → w.IsOwned n ∨ w.IsVisited n
  proper : ∀ {n : Nat} {s : Session}, w.sessions[n]? = some s → s.IsProper

/-- Whether somebody visits a session is a matter of the visits alone. -/
theorem isVisited_congr (visits : v.visits = w.visits) (n : Nat) : v.IsVisited n ↔ w.IsVisited n := by
  rw [IsVisited, IsVisited, visits]

/-- The session of an opening is the one that was attached for it, as its startup has it. -/
theorem sessionOf?_eq_some_iff : w.sessionOf? number = some n ↔
    ∃ o, w.openings[number]? = some o ∧ o.startup = .attached n := by
  unfold sessionOf?
  cases found : w.openings[number]? with
  | none => simp
  | some o => cases same : o.startup <;> simp [same]

/-- The session of an opening is a matter of that opening alone. -/
theorem sessionOf?_congr (same : v.openings[number]? = w.openings[number]?) :
    v.sessionOf? number = w.sessionOf? number := by
  unfold sessionOf?
  rw [same]

/-- The openings have the sessions that they had if they are as they were. -/
theorem sessionOf?_of_openings (same : v.openings = w.openings) (number : Nat) :
    v.sessionOf? number = w.sessionOf? number := sessionOf?_congr (by rw [same])

/-- All sessions are still proper: the old ones because they go on, and the new ones because they came so.
-/
theorem Grown.allProper (grown : Grown touched w v)
    (proper : ∀ {n : Nat} {s : Session}, w.sessions[n]? = some s → s.IsProper) {t : Session}
    (found : v.sessions[n]? = some t) : t.IsProper := by
  by_cases old : n < w.sessions.length
  · have before : w.sessions[n]? = some w.sessions[n] := List.getElem?_eq_getElem old
    obtain ⟨t', after, later⟩ := grown.growth.session before
    cases found.symm.trans after
    exact (proper before).later later
  · exact grown.proper n t (Nat.le_of_not_lt old) found

/-- What is not disposed was not disposed before. -/
theorem Grown.live (grown : Grown touched w v) (inside : n < w.sessions.length)
    (live : v.isDisposed n = false) : w.isDisposed n = false := by
  refine Bool.eq_false_iff.mpr fun disposed => ?_
  exact Bool.noConfusion (live.symm.trans (grown.isDisposed inside disposed))

/-- An entry is determined by its opening, since that is for the root of the entry, and no root is tracked
twice. -/
theorem Booked.entry_eq (booked : w.Booked) {e f : RootEntry} (first : e ∈ w.entries)
    (second : f ∈ w.entries) (same : e.opening = f.opening) : e = f := by
  obtain ⟨o, found, root, -⟩ := booked.tracked e first
  obtain ⟨p, found', root', -⟩ := booked.tracked f second
  rw [same] at found
  cases found.symm.trans found'
  cases e
  cases f
  cases same
  cases root
  cases root'
  rfl

/-- An entry that is found for a root is tracked, and for that root. -/
theorem tracked_of_some {root : Url} (found : w.entry? root = some e) : e ∈ w.entries ∧ e.root = root :=
  ⟨List.mem_of_find?_eq_some found, of_decide_eq_true
    (List.find?_some (p := fun e : RootEntry => decide (e.root = root)) found)⟩

/-- If no entry is found for a root, none is for it. -/
theorem untracked_of_none {root : Url} (absent : w.entry? root = none) : ∀ e ∈ w.entries, e.root ≠ root :=
  fun e member same => List.find?_eq_none.mp absent e member (decide_eq_true same)

/-! ## Entries that are struck out -/

/-- What is tracked for another opening is still tracked after one has failed. -/
theorem mem_leftBy {root : Url} {startup : Startup} (member : e ∈ w.entries)
    (other : e.opening ≠ number) : e ∈ w.leftBy number root startup := by
  unfold leftBy
  split
  · exact member
  · refine List.mem_filter.mpr ⟨member, ?_⟩
    simp [other]

/-- An opening that fails adds no entry and changes the order of none. -/
theorem leftBy_sublist {root : Url} {startup : Startup} :
    (w.leftBy number root startup).Sublist w.entries := by
  unfold leftBy
  split
  · exact .refl _
  · exact List.filter_sublist

/-! ## Steps of an opening -/

/-- How far a step takes an opening, in terms of what `Booked` says of it. -/
structure Advances (number : Nat) (o : Opening) (startup : Startup) (stage : OpeningStage)
    (w v : World) : Prop where
  serves : Serves (w.touchedBy o) number o.root startup stage w v
  /-- It is struck out if at all, and then it is over and has no session. -/
  entries : v.entries = w.entries ∨ v.entries = w.leftBy number o.root o.startup ∧
    stage = .finished none ∧ ∀ n, startup = .attached n → v.isDisposed n = true
  cancelled : startup = .cancelled ↔ o.startup = .cancelled
  finished : (∃ session, o.stage = .finished session) → ∃ session, stage = .finished session
  early : stage.IsEarly → ∀ n, startup ≠ .attached n
  own : ∀ n, stage.Has n → startup = .attached n ∨ startup = .cancelled
  had : ∀ n, startup = .attached n ∨ stage.Has n →
    o.Had n ∨ w.sessions.length ≤ n ∧ n < v.sessions.length
  attached : ∀ n, o.startup = .attached n → startup = .attached n
  new : ∀ n, w.sessions.length ≤ n → v.isDisposed n = false →
    startup = .attached n ∧ o.stage.IsEarly ∧ o.startup ≠ .cancelled

/-- A new session of a step is the only one, so that it has the next number. -/
theorem eq_length_of_live (longer : v.sessions.length = w.sessions.length + 1)
    (beyond : w.sessions.length ≤ n) (live : v.isDisposed n = false) : n = w.sessions.length := by
  have inside := lt_of_live live
  omega

/-- Where no session is new, none of the later numbers is that of a live session. -/
theorem not_live (same : v.sessions.length = w.sessions.length)
    (beyond : w.sessions.length ≤ n) : v.isDisposed n ≠ false := by
  intro live
  have inside := lt_of_live live
  omega

/-- A step in which no session is new and nothing is attached. It is left to see that a session that the
opening has was attached for it before. -/
theorem Advances.of_still {stage : OpeningStage} (booked : w.Booked)
    (found : w.openings[number]? = some o)
    (serves : Serves (w.touchedBy o) number o.root o.startup stage w v)
    (length : v.sessions.length = w.sessions.length)
    (entries : v.entries = w.entries ∨ v.entries = w.leftBy number o.root o.startup ∧
      stage = .finished none ∧ ∀ n, o.startup = .attached n → v.isDisposed n = true)
    (finished : (∃ session, o.stage = .finished session) → ∃ session, stage = .finished session)
    (early : stage.IsEarly → o.stage.IsEarly) (has : ∀ n, stage.Has n → o.stage.Has n) :
    Advances number o o.startup stage w v where
  serves := serves
  entries := entries
  cancelled := Iff.rfl
  finished := finished
  early later := booked.early found (early later)
  own n later := booked.own found n (has n later)
  had n later := .inl (later.imp_right (has n))
  attached _ := id
  new _ beyond live := absurd live (not_live length beyond)

/-- A step in which the only new session is attached. The opening was early before that, and had none. -/
theorem Advances.of_new {stage : OpeningStage} (booked : w.Booked)
    (found : w.openings[number]? = some o) (before : o.stage.IsEarly) (wanted : o.startup ≠ .cancelled)
    (serves : Serves (w.touchedBy o) number o.root (.attached w.sessions.length) stage w v)
    (length : v.sessions.length = w.sessions.length + 1)
    (entries : v.entries = w.entries ∨ v.entries = w.leftBy number o.root o.startup ∧
      stage = .finished none ∧ v.isDisposed w.sessions.length = true)
    (early : ¬ stage.IsEarly) (has : ∀ n, stage.Has n → n = w.sessions.length) :
    Advances number o (.attached w.sessions.length) stage w v where
  serves := serves
  entries := entries.imp_right fun ⟨left, finished, gone⟩ =>
    ⟨left, finished, fun n attached => Startup.attached.inj attached ▸ gone⟩
  cancelled := ⟨nofun, fun cancelled => absurd cancelled wanted⟩
  finished := fun ⟨session, finished⟩ => absurd finished (before.ne_finished session)
  early later := absurd later early
  own _ later := .inl (by rw [has _ later])
  had n later := by
    have new : n = w.sessions.length := later.elim (fun same => (Startup.attached.inj same).symm) (has n)
    exact .inr ⟨Nat.le_of_eq new.symm, by omega⟩
  attached n attached := absurd attached (booked.early found before n)
  new n beyond live := ⟨by rw [eq_length_of_live length beyond live], before, wanted⟩

/-- Each step of an opening takes it on in this sense. The cases are those of what a step can come to. -/
theorem Opens.advances (opens : Opens number o w v) (booked : w.Booked)
    (found : w.openings[number]? = some o) :
    ∃ startup stage, Advances number o startup stage w v := by
  -- a step comes with no new session or with just one; only the last case, in which that one is
  -- stillborn, is written out
  cases opens with
  | rests finished serves entries length =>
    exact ⟨_, _, .of_still booked found serves length (.inl entries) id id fun _ => id⟩
  | waits early serves entries length =>
    refine ⟨_, _, .of_still booked found serves length (.inl entries) ?_ (fun _ => early) ?_⟩
    · exact fun ⟨session, finished⟩ => absurd finished (early.ne_finished session)
    · exact fun n has => absurd has (OpeningStage.IsEarly.not_has (.inr rfl) n)
  | begins early wanted has serves entries length =>
    refine ⟨_, _, .of_new booked found early wanted serves length (.inl entries) ?_ ?_⟩
    · exact fun early => early.not_has _ has
    · exact fun n has' => has'.eq has
  | goesOn greeting has serves entries length =>
    refine ⟨_, _, .of_still booked found serves length (.inl entries) ?_ ?_ ?_⟩
    · rintro ⟨session, finished⟩
      cases greeting.symm.trans finished
    · exact fun early => absurd has (early.not_has _)
    · exact fun n has' => has.eq has' ▸ .inl ⟨_, greeting⟩
  -- what an opening that fails had is disposed: by the failure, or it had nothing, or it was
  -- cancelled
  | fails gone serves entries length =>
    have disposed (n : Nat) (attached : o.startup = .attached n) : v.isDisposed n = true := by
      obtain early | ⟨m, had, disposed⟩ := gone
      · exact absurd attached (booked.early found early n)
      · obtain attached' | cancelled := booked.own found m had
        · cases attached.symm.trans attached'
          exact disposed
        · cases attached.symm.trans cancelled
    refine ⟨_, _, .of_still booked found serves length (.inr ⟨entries, rfl, disposed⟩) ?_ ?_ ?_⟩
    · exact fun _ => ⟨none, rfl⟩
    · exact fun early => absurd rfl (early.ne_finished none)
    · exact fun n has => absurd has (OpeningStage.not_has_finished_none n)
  | breaks early wanted gone serves entries length =>
    refine ⟨_, _, .of_new booked found early wanted serves length (.inr ⟨entries, rfl, gone⟩) ?_ ?_⟩
    · exact fun early => early.ne_finished none rfl
    · exact fun n has => absurd has (OpeningStage.not_has_finished_none n)
  | expires early cancelled stillborn serves entries length =>
    exact ⟨_, _, {
      serves := serves
      entries := .inl entries
      cancelled := Iff.rfl
      finished := fun _ => ⟨none, rfl⟩
      early := fun early => absurd rfl (early.ne_finished none)
      own := fun n has => absurd has (OpeningStage.not_has_finished_none n)
      had := fun n had => .inl (.inl (had.resolve_right (OpeningStage.not_has_finished_none n)))
      attached := fun _ => id
      new := by
        intro n beyond live
        obtain ⟨t, found⟩ : ∃ t, v.sessions[n]? = some t :=
          ⟨_, List.getElem?_eq_getElem (lt_of_live live)⟩
        have last := eq_length_of_live length beyond live
        rw [isDisposed_of_found found, (stillborn t (last ▸ found)).disposed] at live
        cases live }⟩

namespace Advances

variable {startup : Startup} {stage : OpeningStage} {p : Opening} {m : Nat}

/-- A step of an opening tracks no root that was not tracked. -/
theorem fewer (advances : Advances number o startup stage w v) : v.entries.Sublist w.entries := by
  obtain same | ⟨left, -⟩ := advances.entries
  · exact same ▸ .refl _
  · exact left ▸ leftBy_sublist

/-- An entry of another opening stays. -/
theorem remains (advances : Advances number o startup stage w v) (member : e ∈ w.entries)
    (other : e.opening ≠ number) : e ∈ v.entries := by
  obtain same | ⟨left, -⟩ := advances.entries
  · exact same ▸ member
  · exact left ▸ mem_leftBy member other

/-- An entry whose opening has a session that is not disposed is not struck out. -/
theorem stays (advances : Advances number o startup stage w v) (member : e ∈ w.entries)
    (attached : startup = .attached n) (live : v.isDisposed n = false) : e ∈ v.entries := by
  obtain same | ⟨-, -, gone⟩ := advances.entries
  · exact same ▸ member
  · exact Bool.noConfusion (live.symm.trans (gone n attached))

/-- An opening is as it was before, or it is the one that the step takes on. -/
theorem whose (advances : Advances number o startup stage w v) (found : v.openings[m]? = some p) :
    m ≠ number ∧ w.openings[m]? = some p ∨
      m = number ∧ p.root = o.root ∧ p.startup = startup ∧ p.stage = stage := by
  by_cases mine : m = number
  · obtain ⟨watchers, here⟩ := advances.serves.here
    subst mine
    cases here.symm.trans found
    exact .inr ⟨rfl, rfl, rfl, rfl⟩
  · exact .inl ⟨mine, (advances.serves.elsewhere m mine).symm.trans found⟩

/-- A step of an opening leaves cancelled openings cancelled, its own among them. -/
theorem abides (advances : Advances number o startup stage w v)
    (found : w.openings[number]? = some o) : Abides w v := by
  intro m p at_m
  by_cases mine : m = number
  · subst mine
    cases found.symm.trans at_m
    obtain ⟨watchers, here⟩ := advances.serves.here
    exact ⟨_, here, rfl, advances.cancelled.mpr⟩
  · exact ⟨p, (advances.serves.elsewhere m mine).trans at_m, rfl, id⟩

/-- What an opening has, it had before, or the step has just attached it. -/
theorem hadBefore (advances : Advances number o startup stage w v)
    (found : w.openings[number]? = some o) (at_m : v.openings[m]? = some p) (had : p.Had n) :
    (∃ q, w.openings[m]? = some q ∧ q.Had n) ∨
      m = number ∧ w.sessions.length ≤ n ∧ n < v.sessions.length := by
  obtain ⟨-, before⟩ | ⟨rfl, -, same, same'⟩ := advances.whose at_m
  · exact .inl ⟨p, before, had⟩
  · unfold Opening.Had at had
    rw [same, same'] at had
    exact (advances.had n had).imp (fun had => ⟨o, found, had⟩) fun new => ⟨rfl, new⟩

end Advances

namespace Booked

/-- The session of an entry was the entry's before, or the step has just attached it. -/
theorem ownedBefore (booked : w.Booked) (found : w.openings[number]? = some o)
    {startup : Startup} {stage : OpeningStage} (advances : Advances number o startup stage w v)
    (member : e ∈ w.entries) (owned : v.sessionOf? e.opening = some n) :
    w.sessionOf? e.opening = some n ∨ w.sessions.length ≤ n := by
  obtain ⟨p, at_e, attached⟩ := sessionOf?_eq_some_iff.mp owned
  obtain ⟨q, before, had⟩ | ⟨-, beyond, -⟩ := advances.hadBefore found at_e (.inl attached)
  · obtain ⟨q', before', -, wanted⟩ := booked.tracked e member
    cases before.symm.trans before'
    refine .inl (sessionOf?_eq_some_iff.mpr ⟨q, before, ?_⟩)
    exact had.elim id fun has => (booked.own before n has).resolve_right wanted
  · exact .inr beyond

/-- A session that is not disposed is still its entry's, and a new one is the entry's of the opening, which
is tracked because it was not cancelled. -/
theorem ownedAfter (booked : w.Booked) (found : w.openings[number]? = some o)
    {startup : Startup} {stage : OpeningStage} (advances : Advances number o startup stage w v)
    (before : w.sessions.length ≤ n ∨ w.IsOwned n) (live : v.isDisposed n = false) :
    v.IsOwned n := by
  obtain ⟨watchers, here⟩ := advances.serves.here
  have own {e : RootEntry} (attached : startup = .attached n) (member : e ∈ w.entries)
      (mine : e.opening = number) : v.IsOwned n :=
    ⟨e, advances.stays member attached live,
      sessionOf?_eq_some_iff.mpr ⟨_, mine ▸ here, attached⟩⟩
  obtain beyond | ⟨e, member, owns⟩ := before
  · -- a session that is new belongs to the opening, which was tracked when it began
    obtain ⟨attached, early, wanted⟩ := advances.new n beyond live
    obtain ⟨result, finished⟩ | ⟨e, member, mine⟩ := booked.wanted found wanted
    · exact absurd finished (early.ne_finished result)
    · exact own attached member mine
  · by_cases mine : e.opening = number
    · obtain ⟨p, at_e, attached⟩ := sessionOf?_eq_some_iff.mp owns
      rw [mine] at at_e
      cases found.symm.trans at_e
      exact own (advances.attached n attached) member mine
    · have same := sessionOf?_congr (advances.serves.elsewhere _ mine)
      exact ⟨e, advances.remains member mine, same.trans owns⟩

/-- A step of an opening keeps the books. Nothing has to be known of the visits for that, so that it holds
even where some of them were dropped. -/
theorem advances (booked : w.Booked) (found : w.openings[number]? = some o) {startup : Startup}
    {stage : OpeningStage} (advances : Advances number o startup stage w v) : v.Booked where
  single := (congrArg (·.config.isMultiRoot) advances.serves.growth.options).trans booked.single
  unarmed := advances.serves.calm booked.unarmed
  unshared := advances.serves.growth.shared.trans booked.unshared
  roots := booked.roots.sublist (advances.fewer.map _)
  tracked e member := by
    obtain ⟨p, at_e, root, wanted⟩ := booked.tracked e (advances.fewer.subset member)
    by_cases mine : e.opening = number
    · obtain ⟨watchers, here⟩ := advances.serves.here
      rw [mine] at at_e ⊢
      cases found.symm.trans at_e
      exact ⟨_, here, root, fun cancelled => wanted (advances.cancelled.mp cancelled)⟩
    · exact ⟨p, (advances.serves.elsewhere _ mine).trans at_e, root, wanted⟩
  -- an opening that is still wanted is an old one, or the one that advances, which keeps its entry
  -- until it ends
  wanted at_m wanted := by
    obtain ⟨other, before⟩ | ⟨rfl, -, same, same'⟩ := advances.whose at_m
    · obtain finished | ⟨e, member, mine⟩ := booked.wanted before wanted
      · exact .inl finished
      · exact .inr ⟨e, advances.remains member (mine ▸ other), mine⟩
    · rw [same] at wanted
      rw [same']
      obtain finished | ⟨e, member, mine⟩ := booked.wanted found
        fun cancelled => wanted (advances.cancelled.mpr cancelled)
      · exact .inl (advances.finished finished)
      · obtain kept | ⟨-, finished, -⟩ := advances.entries
        · exact .inr ⟨e, kept ▸ member, mine⟩
        · exact .inl ⟨none, finished⟩
  early at_m early n attached := by
    obtain ⟨-, before⟩ | ⟨-, -, same, same'⟩ := advances.whose at_m
    · exact booked.early before early n attached
    · exact advances.early (same' ▸ early) n (same ▸ attached)
  own at_m n has := by
    obtain ⟨-, before⟩ | ⟨-, -, same, same'⟩ := advances.whose at_m
    · exact booked.own before n has
    · exact same ▸ advances.own n (same' ▸ has)
  inside at_m n had := by
    obtain ⟨p, before, had⟩ | ⟨-, -, inside⟩ := advances.hadBefore found at_m had
    · exact Nat.lt_of_lt_of_le (booked.inside before n had) advances.serves.le_length
    · exact inside

end Booked

namespace Custody

/-- A step of an opening keeps custody. What it attaches is new, and so nobody else's, and what it disposes
needs nobody to answer for it. -/
theorem advances (custody : w.Custody) (found : w.openings[number]? = some o) {startup : Startup}
    {stage : OpeningStage} (advances : Advances number o startup stage w v) : v.Custody where
  toBooked := custody.toBooked.advances found advances
  apart at_i at_j n first second := by
    obtain ⟨p, before, had⟩ | ⟨mine, beyond, -⟩ := advances.hadBefore found at_i first
    · obtain ⟨q, before', had'⟩ | ⟨-, beyond, -⟩ := advances.hadBefore found at_j second
      · exact custody.apart before before' n had had'
      · exact absurd (custody.inside before n had) (Nat.not_lt.mpr beyond)
    · obtain ⟨q, before', had'⟩ | ⟨mine', -⟩ := advances.hadBefore found at_j second
      · exact absurd (custody.inside before' n had') (Nat.not_lt.mpr beyond)
      · exact mine.trans mine'.symm
  undropped := advances.serves.visits ▸ custody.undropped
  awaited visit member i awaiting := by
    rw [advances.serves.visits] at member
    obtain ⟨p, at_i, root⟩ := custody.awaited visit member i awaiting
    obtain ⟨q, at_i, same, -⟩ := advances.abides found i p at_i
    exact ⟨q, at_i, same.trans root⟩
  held visit member n holds := by
    rw [advances.serves.visits] at member
    obtain ⟨inside, unowned⟩ := custody.held visit member n holds
    refine ⟨Nat.lt_of_lt_of_le inside advances.serves.le_length, fun e tracked owned => ?_⟩
    have tracked := advances.fewer.subset tracked
    obtain before | beyond := custody.ownedBefore found advances tracked owned
    · exact unowned e tracked before
    · exact absurd inside (Nat.not_lt.mpr beyond)
  kept n live := by
    have owned (before : w.sessions.length ≤ n ∨ w.IsOwned n) : v.IsOwned n :=
      custody.ownedAfter found advances before live
    by_cases old : n < w.sessions.length
    · obtain before | visiting := custody.kept n (advances.serves.live old live)
      · exact .inl (owned (.inr before))
      · exact .inr ((isVisited_congr advances.serves.visits n).mpr visiting)
    · exact .inl (owned (.inl (Nat.le_of_not_lt old)))
  proper := advances.serves.allProper custody.proper

/-- An opening that is not tracked any more touches nothing that belongs to another: neither an entry, nor
another opening, nor a session that was attached for one. -/
theorem superseded (custody : w.Custody) (found : w.openings[number]? = some o) {startup : Startup}
    {stage : OpeningStage} (advances : Advances number o startup stage w v)
    (untracked : ∀ e ∈ w.entries, e.opening ≠ number) :
    v.entries = w.entries ∧ ∀ m, m ≠ number → v.openings[m]? = w.openings[m]? ∧
      ∀ n, w.sessionOf? m = some n → v.sessions[n]? = w.sessions[n]? := by
  refine ⟨?_, fun m other => ⟨advances.serves.elsewhere m other, fun n owned => ?_⟩⟩
  · obtain same | ⟨left, -⟩ := advances.entries
    · exact same
    · rw [left, leftBy]
      split
      · rfl
      · refine List.filter_eq_self.mpr fun e member => ?_
        simp [untracked e member]
  · obtain ⟨p, at_m, attached⟩ := sessionOf?_eq_some_iff.mp owned
    have theirs : p.Had n := .inl attached
    refine advances.serves.others n (custody.inside at_m n theirs) ?_
    rintro (mine | beyond)
    · exact other (custody.apart at_m found n theirs mine)
    · exact absurd (custody.inside at_m n theirs) (Nat.not_lt.mpr beyond)

end Custody

/-- A session that is attached for an opening that was cancelled before is disposed at once, and nothing is
said on its connection. -/
theorem Opens.stillborn (opens : Opens number o w v) (cancelled : o.startup = .cancelled) {t : Session}
    (beyond : w.sessions.length ≤ n) (found : v.sessions[n]? = some t) : t.IsStillborn := by
  have inside : n < v.sessions.length := (List.getElem?_eq_some_iff.mp found).1
  cases opens with
  | begins _ wanted => exact absurd cancelled wanted
  | breaks _ wanted => exact absurd cancelled wanted
  | expires _ _ stillborn _ _ length =>
    obtain rfl : n = w.sessions.length := by omega
    exact stillborn t found
  | rests _ _ _ length | waits _ _ _ length | goesOn _ _ _ _ length | fails _ _ _ length => omega

/-! ## Where no opening makes a step -/

/-- An entry may be struck out when its opening came to a session. An opening that still goes on keeps its
entry, so that it is tracked or cancelled as before. -/
theorem Booked.passes (booked : w.Booked) {R : Session → Session → Prop}
    (growth : Growth R w { v with entries := w.entries, openings := w.openings, visits := w.visits })
    (openings : v.openings = w.openings) (fewer : v.entries.Sublist w.entries)
    (struck : ∀ e ∈ w.entries, e ∈ v.entries ∨ ∃ o session, w.openings[e.opening]? = some o ∧
      o.stage = .finished session) : v.Booked where
  single := (congrArg (·.config.isMultiRoot) growth.options).trans booked.single
  unarmed := growth.calm booked.unarmed
  unshared := growth.shared.trans booked.unshared
  roots := booked.roots.sublist (fewer.map _)
  tracked e member := openings ▸ booked.tracked e (fewer.subset member)
  wanted found wanted := by
    obtain finished | ⟨e, member, same⟩ := booked.wanted (openings ▸ found) wanted
    · exact .inl finished
    · obtain stays | ⟨o, session, at_e, finished⟩ := struck e member
      · exact .inr ⟨e, stays, same⟩
      · rw [same, ← openings] at at_e
        cases found.symm.trans at_e
        exact .inl ⟨session, finished⟩
  early found := booked.early (openings ▸ found)
  own found := booked.own (openings ▸ found)
  inside found n had :=
    Nat.lt_of_lt_of_le (booked.inside (openings ▸ found) n had) growth.le_length

/-- What an opening came to is what was attached for it. -/
theorem Booked.sessionOf_finished (booked : w.Booked) {m : Nat} (found : w.openings[number]? = some o)
    (finished : o.stage = .finished (some m)) (owned : w.sessionOf? number = some n) : m = n := by
  obtain ⟨p, found', attached⟩ := sessionOf?_eq_some_iff.mp owned
  cases found.symm.trans found'
  obtain attached' | cancelled := booked.own found m (.inr finished)
  · exact Startup.attached.inj (attached'.symm.trans attached)
  · cases attached.symm.trans cancelled

/-- An entry may be struck out if a visitor has its session then. What the visits hold afterwards is asked
for as a hypothesis, since that depends on which of them takes the session. -/
theorem Custody.passes (custody : w.Custody) (grown : Grown (fun _ => True) w v)
    (openings : v.openings = w.openings) (fewer : v.entries.Sublist w.entries)
    (struck : ∀ e ∈ w.entries, e ∈ v.entries ∨ ∃ o n, w.openings[e.opening]? = some o ∧
      o.stage = .finished (some n) ∧ v.IsVisited n)
    (undropped : ∀ visit ∈ v.visits, visit.isDropped = false)
    (awaited : ∀ visit ∈ v.visits, ∀ i, visit.stage = .awaiting i →
      ∃ o, w.openings[i]? = some o ∧ o.root = visit.root)
    (held : ∀ visit ∈ v.visits, ∀ n, visit.stage.Holds n →
      n < v.sessions.length ∧ ∀ e ∈ v.entries, w.sessionOf? e.opening ≠ some n)
    (visited : ∀ n, v.isDisposed n = false → w.sessions.length ≤ n ∨ w.IsVisited n →
      v.IsVisited n) : v.Custody where
  toBooked := custody.toBooked.passes grown.growth openings fewer fun e member =>
    (struck e member).imp_right fun ⟨o, n, at_e, finished, _⟩ => ⟨o, some n, at_e, finished⟩
  apart first second := custody.apart (openings ▸ first) (openings ▸ second)
  undropped := undropped
  awaited := openings ▸ awaited
  held visit member n holds := by
    obtain ⟨inside, unowned⟩ := held visit member n holds
    exact ⟨inside, fun e tracked owned =>
      unowned e tracked ((sessionOf?_of_openings openings _).symm.trans owned)⟩
  kept n live := by
    by_cases old : n < w.sessions.length
    · obtain ⟨e, member, owned⟩ | visiting := custody.kept n (grown.live old live)
      · obtain stays | ⟨o, m, at_e, finished, visiting⟩ := struck e member
        · exact .inl ⟨e, stays, (sessionOf?_of_openings openings _).trans owned⟩
        · exact .inr (custody.sessionOf_finished at_e finished owned ▸ visiting)
      · exact .inr (visited n live (.inr visiting))
    · exact .inr (visited n live (.inl (Nat.le_of_not_lt old)))
  proper := grown.allProper custody.proper

/-- What concerns nobody's custody leaves it as it is: neither the entries nor the openings nor the visits
change, and no session that was disposed comes back. -/
theorem Custody.of_course (custody : w.Custody) (course : Course Session.Later w v) : v.Custody := by
  refine custody.passes (.of_course course fun _ no => absurd trivial no) course.openings
    (course.entries ▸ .refl _) (fun e member => .inl (course.entries ▸ member))
    ?_ ?_ ?_ ?_
  · exact course.visits ▸ custody.undropped
  · exact course.visits ▸ custody.awaited
  · rw [course.visits, course.entries, course.length]
    exact custody.held
  · rintro n live (beyond | visited)
    · exact absurd live (not_live course.length beyond)
    · exact (isVisited_congr course.visits n).mpr visited

/-- Steps that each keep something, one after the other, by induction on the list that they are made for. -/
theorem foldl_keeps {α : Type} {P : World → Prop} {R : World → World → Prop} (refl : ∀ w, R w w)
    (trans : ∀ {w v u}, R w v → R v u → R w u) (step : World → α → World)
    (each : ∀ {w : World} (a : α), P w → P (step w a) ∧ R w (step w a))
    (items : List α) (kept : P w) : P (items.foldl step w) ∧ R w (items.foldl step w) := by
  induction items generalizing w with
  | nil => exact ⟨kept, refl w⟩
  | cons item items ih =>
    obtain ⟨kept, related⟩ := each item kept
    obtain ⟨kept, related'⟩ := ih kept
    exact ⟨kept, trans related related'⟩

/-- Steps that keep custody, one after the other. -/
theorem Custody.foldl {α : Type} {R : World → World → Prop} (refl : ∀ w, R w w)
    (trans : ∀ {w v u}, R w v → R v u → R w u) (step : World → α → World)
    (each : ∀ {w : World} (a : α), w.Custody → (step w a).Custody ∧ R w (step w a))
    (items : List α) (custody : w.Custody) :
    (items.foldl step w).Custody ∧ R w (items.foldl step w) :=
  foldl_keeps refl trans step each items custody

end World

end LanguageClient
