import LanguageClient.Proofs.Roots.Custody
import LanguageClient.Proofs.World.Visits

/-!
# Visits to single roots

A visitor has the session of its root, which is tracked no more from then on, or one of its own. Each
step of a visit keeps custody: where a session changes hands it does so within the step, and it is
disposed in the step in which the visitor lets go of it. While a visit is between two stages it counts
as one whose visitor has the session already.
-/

namespace LanguageClient

namespace World

variable {w v u : World} {number n : Nat} {visit : Visit} {stage : VisitStage}

/-! ## What a step leaves alone -/

/-- What steps of openings and visits leave as it is, besides custody. -/
structure Tends (w v : World) : Prop extends Grown (fun _ => True) w v where
  fewer : v.entries.Sublist w.entries
  abides : Abides w v

namespace Tends

/-- What two steps leave as it is, both together leave as it is. -/
theorem trans (first : Tends w v) (second : Tends v u) : Tends w u :=
  ⟨first.toGrown.trans second.toGrown, second.fewer.trans first.fewer,
    first.abides.trans second.abides⟩

/-- Where no opening changes, cancelled ones stay cancelled, and it is left to see that no root comes to be
tracked. -/
theorem of_grown (grown : Grown (fun _ => True) w v) (openings : v.openings = w.openings)
    (fewer : v.entries.Sublist w.entries) : Tends w v := ⟨grown, fewer, .of_eq openings⟩

/-- Where nothing happens, all is left as it is. -/
theorem refl (w : World) : Tends w w := of_grown (.refl w) rfl (.refl _)

/-- What goes along the course of the world changes neither openings nor entries. -/
theorem of_course (course : Course Session.Later w v) : Tends w v :=
  of_grown (.of_course course fun _ no => absurd trivial no) course.openings
    (course.entries ▸ .refl _)

/-- A session that is attached for a visit is tracked for no root. -/
theorem of_attached {root : Option Url} (attached : Attached root w v) : Tends w v := by
  have growth := attached.growth (R := Session.Later)
  exact of_grown (.of_attached attached) growth.openings (growth.entries ▸ .refl _)

/-- A visit that goes to another stage leaves openings and entries alone. -/
theorem setVisit (w : World) (number : Nat) (stage : VisitStage) :
    Tends w (w.setVisit number stage) := of_grown (.of_eq rfl rfl rfl rfl) rfl (.refl _)

/-- An entry that is struck out for a visitor leaves the others in their order, and its opening is not
cancelled by that. -/
theorem forget (w : World) (root : Url) (opening : Nat) : Tends w (w.forget root opening) :=
  of_grown (.of_eq rfl rfl rfl rfl) rfl List.filter_sublist

end Tends

namespace Custody

/-- A step of an opening, whoever makes it, keeps custody, and leaves the visits alone. It may be the task
of a visit that waits for it. -/
theorem pollOpening (custody : w.Custody) (task : Task) (number : Nat) :
    (w.pollOpening task number).Custody ∧ Tends w (w.pollOpening task number) ∧
      (w.pollOpening task number).visits = w.visits := by
  cases found : w.openings[number]? with
  | none =>
    rw [pollOpening_of_none found]
    exact ⟨custody, .refl w, rfl⟩
  | some o =>
    obtain ⟨startup, stage, advances⟩ :=
      (pollOpening_opens found custody.unarmed task).advances custody.toBooked found
    have serves := advances.serves
    have grown := serves.toGrown.weaken fun _ _ => trivial
    exact ⟨custody.advances found advances, ⟨grown, advances.fewer, advances.abides found⟩,
      serves.visits⟩

/-! ## Changing hands -/

/-- A visit goes to another stage, while the world goes on. It may take what an entry had that is struck
out, or what is new; and what it had and has not any more is disposed by then. -/
theorem handsOver (custody : w.Custody) (found : w.visits[number]? = some visit)
    (grown : Grown (fun _ => True) w v)
    (openings : v.openings = w.openings) (visits : v.visits = w.visits)
    (fewer : v.entries.Sublist w.entries)
    (struck : ∀ e ∈ w.entries, e ∈ v.entries ∨ ∃ o n, w.openings[e.opening]? = some o ∧
      o.stage = .finished (some n) ∧ stage.Holds n)
    (takes : ∀ n, stage.Holds n → visit.stage.Holds n ∨
      n < v.sessions.length ∧ ∀ e ∈ v.entries, w.sessionOf? e.opening ≠ some n)
    (leaves : ∀ n, v.isDisposed n = false → w.sessions.length ≤ n ∨ visit.stage.Holds n →
      stage.Holds n)
    (awaits : ∀ i, stage = .awaiting i → ∃ o, w.openings[i]? = some o ∧ o.root = visit.root) :
    (v.setVisit number stage).Custody := by
  have old := List.mem_of_getElem? found
  have here : { visit with stage } ∈ (v.setVisit number stage).visits := by
    unfold setVisit
    rw [visits]
    exact mem_modify_self found _
  -- the visits afterwards are those of before, except for the one that goes to another stage
  have whose {other : Visit} (member : other ∈ (v.setVisit number stage).visits) :
      other ∈ w.visits ∨ other = { visit with stage } := by
    unfold setVisit at member
    rw [visits] at member
    obtain before | ⟨visit', found', rfl⟩ := mem_modify member
    · exact .inl before
    · cases found.symm.trans found'
      exact .inr rfl
  refine custody.passes (grown.trans (.of_eq rfl rfl rfl rfl)) openings fewer
    ?_ ?_ ?_ ?_ ?_
  · intro e member
    obtain stays | ⟨o, n, at_e, finished, holds⟩ := struck e member
    · exact .inl stays
    · exact .inr ⟨o, n, at_e, finished, _, here, holds⟩
  · intro other member
    obtain before | rfl := whose member
    · exact custody.undropped other before
    · exact custody.undropped visit old
  · intro other member i awaiting
    obtain before | rfl := whose member
    · exact custody.awaited other before i awaiting
    · exact awaits i awaiting
  · intro other member n holds
    have earlier (visit : Visit) (before : visit ∈ w.visits) (holds : visit.stage.Holds n) :
        n < v.sessions.length ∧ ∀ e ∈ v.entries, w.sessionOf? e.opening ≠ some n := by
      obtain ⟨inside, unowned⟩ := custody.held visit before n holds
      exact ⟨Nat.lt_of_lt_of_le inside grown.le_length, fun e tracked =>
        unowned e (fewer.subset tracked)⟩
    obtain before | rfl := whose member
    · exact earlier other before holds
    · obtain held | free := takes n holds
      · exact earlier visit old held
      · exact free
  -- a new session is the visit's; of the others, whoever had it has it still, or the visit left it
  -- disposed
  · rintro n live (beyond | ⟨other, member, holds⟩)
    · exact ⟨_, here, leaves n live (.inl beyond)⟩
    · obtain stays | rfl := mem_modify_or_eq found (fun v => { v with stage }) member
      · refine ⟨other, ?_, holds⟩
        unfold setVisit
        rw [visits]
        exact stays
      · exact ⟨_, here, leaves n live (.inr holds)⟩

/-- A visit goes to another stage, and what it held is held still or disposed. -/
theorem restaged (custody : (w.setVisit number stage).Custody)
    (found : w.visits[number]? = some visit) {next : VisitStage}
    (takes : ∀ n, next.Holds n → stage.Holds n)
    (leaves : ∀ n, stage.Holds n → next.Holds n ∨ w.isDisposed n = true)
    (awaits : ∀ i, next = .awaiting i → ∃ o, w.openings[i]? = some o ∧ o.root = visit.root) :
    (w.setVisit number next).Custody := by
  -- the stage in between is no more than a way to say who has the session
  rw [← setVisit_setVisit w number stage next]
  refine custody.handsOver (setVisit_found found stage) (.refl _) rfl rfl (.refl _)
    (fun e member => .inl member) (fun n holds => .inl (takes n holds)) ?_ awaits
  rintro n live (beyond | holds)
  · exact absurd (lt_of_live live) (Nat.not_lt.mpr beyond)
  · refine (leaves n holds).resolve_right fun disposed => ?_
    exact Bool.noConfusion (live.symm.trans disposed)

/-- Something else goes on while a visit is between two stages. It may be put before or after the change of
stage, since it concerns neither. -/
theorem aside (custody : (w.setVisit number stage).Custody) (course : Course Session.Later w v) :
    (v.setVisit number stage).Custody := by
  have growth := course.toGrowth.rebooked w.entries w.openings (w.setVisit number stage).visits
  have same : { v with
      entries := w.entries, openings := w.openings, visits := (w.setVisit number stage).visits } =
      v.setVisit number stage := by
    rw [← course.entries, ← course.openings]
    unfold setVisit
    rw [course.visits]
  rw [same] at growth
  exact custody.of_course ⟨growth, course.length⟩

/-- A visit that stays at its stage. -/
theorem unmoved (custody : w.Custody) (found : w.visits[number]? = some visit) :
    (w.setVisit number visit.stage).Custody := (setVisit_same found).symm ▸ custody

/-- A new session is in the hands of the visitor for whom it is attached, as if it had the connection
already. Otherwise nobody would have it between this and the greeting. -/
theorem attaches {root : Option Url} (custody : w.Custody) (found : w.visits[number]? = some visit)
    (bare : ∀ n, ¬ visit.stage.Holds n) (attached : Attached root w v) :
    (v.setVisit number (.running w.sessions.length none)).Custody := by
  have growth := attached.growth (R := Session.Later)
  refine custody.handsOver found (.of_attached attached) growth.openings growth.visits
    (growth.entries ▸ .refl _) (fun e member => .inl (growth.entries ▸ member)) ?_ ?_
    nofun
  · rintro n rfl
    refine .inr ⟨attached.length ▸ Nat.lt_succ_self _, fun e member owned => ?_⟩
    obtain ⟨o, at_e, startup⟩ := sessionOf?_eq_some_iff.mp owned
    exact absurd (custody.inside at_e _ (.inl startup)) (Nat.lt_irrefl _)
  · rintro n live (beyond | holds)
    · exact (eq_length_of_live attached.length beyond live).symm
    · exact absurd holds (bare n)

/-- The session of a root goes from its entry into the hands of the visitor. Whether the entry is still
there or somebody has struck it out before, no entry has that session afterwards. -/
theorem takes {opening : Nat} {o : Opening} (custody : w.Custody)
    (found : w.visits[number]? = some visit) (bare : ∀ n, ¬ visit.stage.Holds n)
    (opened : w.openings[opening]? = some o) (root : o.root = visit.root)
    (finished : o.stage = .finished (some n)) :
    ((w.forget visit.root opening).setVisit number (.running n none)).Custody := by
  have had : o.Had n := .inr (.inr finished)
  have forgotten (e : RootEntry) (gone : e ∉ (w.forget visit.root opening).entries)
      (member : e ∈ w.entries) : e.opening = opening := by
    refine Decidable.byContradiction fun other => gone (List.mem_filter.mpr ⟨member, ?_⟩)
    simp [other]
  refine custody.handsOver (v := w.forget visit.root opening) found
    (.of_eq rfl rfl rfl rfl) rfl rfl List.filter_sublist (fun e member => ?_) ?_ ?_ nofun
  · by_cases stays : e ∈ (w.forget visit.root opening).entries
    · exact .inl stays
    · exact .inr ⟨o, n, forgotten e stays member ▸ opened, finished, rfl⟩
  · rintro m rfl
    refine .inr ⟨custody.inside opened _ had, fun e member owned => ?_⟩
    obtain ⟨tracked, kept⟩ := List.mem_filter.mp member
    obtain ⟨p, at_e, startup⟩ := sessionOf?_eq_some_iff.mp owned
    have same : e.opening = opening := custody.apart at_e opened _ (.inl startup) had
    obtain ⟨q, at_e', at_root, -⟩ := custody.tracked e tracked
    rw [same] at at_e'
    cases opened.symm.trans at_e'
    simp [same, ← at_root, root] at kept
  · rintro m live (beyond | holds)
    · exact absurd (lt_of_live live) (Nat.not_lt.mpr beyond)
    · exact absurd holds (bare m)

/-! ## Steps of a visit -/

/-- A visit ends when what it held is disposed, and its caller hears of the outcome. -/
theorem endVisit (custody : (w.setVisit number stage).Custody)
    (found : w.visits[number]? = some visit)
    (gone : ∀ n, stage.Holds n → w.isDisposed n = true) (outcome : Outcome) :
    (w.endVisit number visit outcome).Custody ∧ Tends w (w.endVisit number visit outcome) := by
  have kept : (w.setVisit number .over).Custody :=
    custody.restaged found nofun (fun n holds => .inr (gone n holds)) nofun
  exact ⟨{ kept with }, (Tends.setVisit w number .over).trans (.of_course (conclude_course ..))⟩

/-- The visitor has the connection, or is done with it. In that case the session is disposed before the
visit ends, so that custody has no gap. -/
theorem enter (custody : (w.setVisit number (.running n none)).Custody)
    (found : w.visits[number]? = some visit) (loan : Option Loan) :
    (w.enter number visit n loan).Custody ∧ Tends w (w.enter number visit n loan) := by
  unfold World.enter
  split
  · exact ⟨custody.restaged found (fun _ => id) (fun _ => .inl) nofun, .setVisit ..⟩
  next outcome _ =>
    have calm : w.host.armed = [] := custody.unarmed
    have course : Course Session.Later w (w.dispose n) := dispose_course calm n
    obtain ⟨kept, tends⟩ := (custody.aside course).endVisit (course.visits ▸ found)
      (fun m same => same ▸ isDisposed_dispose calm n) outcome
    unfold leave
    rw [if_neg (by exact Bool.eq_false_iff.mp custody.single)]
    exact ⟨kept, (Tends.of_course course).trans tends⟩

/-- The server of a visit's own session may have answered. If it did not welcome the session, that is
disposed, and the visit ends. -/
theorem awaitOwnGreeting (custody : (w.setVisit number (.running n none)).Custody)
    (found : w.visits[number]? = some visit) (call : Nat) :
    (w.awaitOwnGreeting number visit n call).Custody ∧
      Tends w (w.awaitOwnGreeting number visit n call) := by
  unfold World.awaitOwnGreeting
  split
  · exact ⟨custody.restaged found (fun _ => id) (fun _ => .inl) nofun, .setVisit ..⟩
  next outcome _ =>
    have calm : w.host.armed = [] := custody.unarmed
    have course : Course Session.Later w (w.welcome n outcome).2 :=
      within_course _ (welcome_later w.options outcome) calm n (some .connectionClosed)
    have kept := custody.aside course
    split
    next u welcomed =>
      rw [welcomed] at course kept
      obtain ⟨kept, tends⟩ := kept.enter (course.visits ▸ found) none
      exact ⟨kept, (Tends.of_course course).trans tends⟩
    next failure u failed =>
      have gone := isDisposed_welcome calm failed
      rw [failed] at course kept
      obtain ⟨kept, tends⟩ := kept.endVisit (course.visits ▸ found) (fun m same => same ▸ gone)
        (.error failure)
      exact ⟨kept, (Tends.of_course course).trans tends⟩

/-- A visit waits for a connection of its own. When there is one, a session is attached and its server
greeted within the step. -/
theorem awaitOwnConnection (custody : w.Custody) (found : w.visits[number]? = some visit)
    (bare : ∀ n, ¬ visit.stage.Holds n) :
    (w.awaitOwnConnection number visit).Custody ∧ Tends w (w.awaitOwnConnection number visit) := by
  have empty (n : Nat) (holds : visit.stage.Holds n) : w.isDisposed n = true := absurd holds (bare n)
  unfold World.awaitOwnConnection
  obtain ⟨connector, later⟩ | ⟨failure, connector, refused⟩ | ⟨v, session, attached⟩ :=
    w.connect_cases (.visit number) (some visit.root)
  · rw [later]
    have asked : Course Session.Later w { w with connector } := .of_eq rfl rfl rfl rfl rfl
    have asks := (custody.of_course asked).unmoved found
    exact ⟨asks.restaged found nofun (fun n holds => absurd holds (bare n)) nofun,
      (Tends.of_course asked).trans (.setVisit ..)⟩
  · rw [refused]
    have asked : Course Session.Later w { w with connector } := .of_eq rfl rfl rfl rfl rfl
    obtain ⟨kept, tends⟩ := ((custody.of_course asked).unmoved found).endVisit found empty
      (.error failure)
    exact ⟨kept, (Tends.of_course asked).trans tends⟩
  · rw [session]
    have growth := attached.growth (R := Session.Later)
    have calm := growth.calm custody.unarmed
    have found : v.visits[number]? = some visit := growth.visits ▸ found
    have course : Course Session.Later v (v.greet w.sessions.length none).2 :=
      within_course _ (greet_later v.options none) calm _ (.error .connectionClosed)
    have kept := (custody.attaches (growth.visits ▸ found) bare attached).aside course
    have tends := (Tends.of_attached attached).trans (.of_course course)
    dsimp only
    split
    next failure u failed =>
      have gone := isDisposed_greet calm failed
      rw [failed] at course kept tends
      obtain ⟨kept, tends'⟩ := kept.endVisit (course.visits ▸ found) (fun m same => same ▸ gone)
        (.error failure)
      exact ⟨kept, tends.trans tends'⟩
    next call u greeted =>
      rw [greeted] at course kept tends
      obtain ⟨kept, tends'⟩ := kept.awaitOwnGreeting (course.visits ▸ found) call
      exact ⟨kept, tends.trans tends'⟩

/-- A visit asks for a session of its own. -/
theorem openOwn (custody : w.Custody) (found : w.visits[number]? = some visit)
    (bare : ∀ n, ¬ visit.stage.Holds n) :
    (w.openOwn number visit).Custody ∧ Tends w (w.openOwn number visit) := by
  have asked : Course Session.Later w w.askConnection := .of_eq rfl rfl rfl rfl rfl
  obtain ⟨kept, tends⟩ := (custody.of_course asked).awaitOwnConnection found bare
  exact ⟨kept, (Tends.of_course asked).trans tends⟩

/-- A visit gets the session of its root, if there is one. If the session was disposed meanwhile or could
not be opened, the visit opens one of its own. -/
theorem awaitTracked {opening : Nat} (custody : w.Custody) (found : w.visits[number]? = some visit)
    (bare : ∀ n, ¬ visit.stage.Holds n)
    (awaited : ∃ o, w.openings[opening]? = some o ∧ o.root = visit.root) :
    (w.awaitTracked number visit opening).Custody ∧
      Tends w (w.awaitTracked number visit opening) := by
  obtain ⟨o, at_opening, root⟩ := awaited
  unfold World.awaitTracked
  dsimp only
  generalize polled : (if (w.openingResult? opening).isSome then w
    else w.pollOpening (.visit number) opening) = v
  obtain ⟨kept, tends, visits⟩ : v.Custody ∧ Tends w v ∧ v.visits = w.visits := by
    split at polled
    · exact polled ▸ ⟨custody, .refl w, rfl⟩
    · exact polled ▸ custody.pollOpening _ opening
  have found : v.visits[number]? = some visit := visits ▸ found
  obtain ⟨p, opened, same, -⟩ := tends.abides opening o at_opening
  have root : p.root = visit.root := same.trans root
  split
  · have waits : (v.setVisit number (.awaiting opening)).Custody :=
      (kept.unmoved found).restaged found nofun (fun n holds => absurd holds (bare n))
        fun i same => ⟨p, VisitStage.awaiting.inj same ▸ opened, root⟩
    exact ⟨waits, tends.trans (.setVisit ..)⟩
  · obtain ⟨kept, tends'⟩ := kept.openOwn found bare
    exact ⟨kept, tends.trans tends'⟩
  next session came =>
    obtain ⟨q, opened', finished⟩ := exists_of_openingResult? came
    cases opened.symm.trans opened'
    have takes := kept.takes found bare opened root finished
    have tends := tends.trans (.forget v visit.root opening)
    split
    next disposed =>
      -- nobody takes a session that is disposed
      have leaves := takes.restaged found (fun n holds => absurd holds (bare n))
        (fun n same => .inr (same ▸ disposed)) (kept.awaited visit (List.mem_of_getElem? found))
      rw [setVisit_same (by exact found)] at leaves
      obtain ⟨kept, tends'⟩ := leaves.openOwn found bare
      exact ⟨kept, tends.trans tends'⟩
    next =>
      obtain ⟨kept, tends'⟩ := takes.enter found none
      exact ⟨kept, tends.trans tends'⟩

/-- A step of a visit keeps custody. The cases are those of its stage, and a visit without a session yet is
bare. -/
theorem pollVisit (custody : w.Custody) (number : Nat) :
    (w.pollVisit number).Custody ∧ Tends w (w.pollVisit number) := by
  unfold World.pollVisit
  split
  · exact ⟨custody, .refl w⟩
  next visit found =>
    have member := List.mem_of_getElem? found
    have stays := custody.unmoved found
    rw [if_neg (Bool.eq_false_iff.mp (custody.undropped visit member))]
    cases stage : visit.stage with
    | unstarted =>
      have bare : ∀ n, ¬ visit.stage.Holds n := stage ▸ fun _ => id
      dsimp only
      unfold beginVisit
      rw [if_neg (Bool.eq_false_iff.mp custody.single)]
      split
      next entry tracks =>
        obtain ⟨tracked, at_root⟩ := tracked_of_some tracks
        obtain ⟨o, at_entry, root, -⟩ := custody.tracked entry tracked
        exact custody.awaitTracked found bare ⟨o, at_entry, root.trans at_root⟩
      next => exact custody.openOwn found bare
    | awaiting opening =>
      have bare : ∀ n, ¬ visit.stage.Holds n := stage ▸ fun _ => id
      exact custody.awaitTracked found bare (custody.awaited visit member opening stage)
    | connecting =>
      have bare : ∀ n, ¬ visit.stage.Holds n := stage ▸ fun _ => id
      exact custody.awaitOwnConnection found bare
    | greeting n call =>
      -- the session is in the visitor's hands already, whatever the server answers
      rw [stage] at stays
      have inHand : (w.setVisit number (.running n none)).Custody :=
        stays.restaged found (fun _ => id) (fun _ => .inl) nofun
      exact inHand.awaitOwnGreeting found call
    | running n loan =>
      rw [stage] at stays
      have inHand : (w.setVisit number (.running n none)).Custody :=
        stays.restaged found (fun _ => id) (fun _ => .inl) nofun
      exact inHand.enter found loan
    | «over» => exact ⟨custody, .refl w⟩

end Custody

end World

end LanguageClient
