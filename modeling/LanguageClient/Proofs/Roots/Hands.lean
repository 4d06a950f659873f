import LanguageClient.Proofs.Roots.Lineage
import LanguageClient.Proofs.Roots.Visiting

/-!
# What is in a visitor's hands

A step of a visit that was not dropped loses no session (`World.Rooted.pollVisit`). What the visitor has it
keeps, or the visit is over and the session disposed. What was a tracked root's or is new is a tracked
root's or the visitor's after the step, or it is disposed. So where a visit takes the session of its root or
opens one, it has it in the end or has disposed it, even if its visitor is done within the step. What other
visitors do or have done plays no part.
-/

namespace LanguageClient

/-- Whether a visitor at this stage has borrowed nothing. -/
def VisitStage.IsUnlent : VisitStage → Prop
  | .running _ (some _) => False
  | _ => True

namespace World

variable {w v u : World} {n number call : Nat} {visit : Visit} {hands hands' : Nat → Prop}

/-- What a step of a visit comes to, when some sessions are in the visitor's hands. -/
structure Minds (number : Nat) (hands : Nat → Prop) (w v : World) : Prop where
  rooted : v.Rooted
  grown : Grown (fun _ => True) w v
  fewer : v.entries.Sublist w.entries
  /-- The visitor keeps what it has, or is done with it. Of what was tracked or is new, nothing is lost. -/
  visits : ∃ stage : VisitStage, v.visits = (w.setVisit number stage).visits ∧ stage.IsUnlent ∧
    (∀ n, hands n → stage.Holds n ∨ stage = .over ∧ v.isDisposed n = true) ∧
    ∀ n, v.isDisposed n = false → w.sessions.length ≤ n ∨ w.IsOwned n →
      v.IsOwned n ∨ stage.Holds n

namespace Minds

/-- The visit goes to a stage at which it has what was in its hands, or is done with that. -/
theorem of_stage (rooted : w.Rooted) {stage : VisitStage} (unlent : stage.IsUnlent)
    (keeps : ∀ n, hands n → stage.Holds n ∨ stage = .over ∧ w.isDisposed n = true) :
    Minds number hands w (w.setVisit number stage) where
  rooted := { rooted with }
  grown := .of_eq rfl rfl rfl rfl
  fewer := .refl _
  visits := by
    refine ⟨stage, rfl, unlent, keeps, fun n live before => .inl ?_⟩
    exact before.resolve_left fun beyond => Nat.not_lt.mpr beyond (lt_of_live live)

/-- Something else goes on before, which loses no session either. What it leaves to nobody has to be in the
visitor's hands by then, and what was in them still is. -/
theorem before (grown : Grown (fun _ => True) w v) (fewer : v.entries.Sublist w.entries)
    (visits : v.visits = w.visits) (minds : Minds number hands' v u)
    (held : ∀ n, hands n → hands' n)
    (kept : ∀ n, v.isDisposed n = false → w.sessions.length ≤ n ∨ w.IsOwned n →
      v.IsOwned n ∨ hands' n) : Minds number hands w u := by
  obtain ⟨stage, staged, unlent, keeps, loses⟩ := minds.visits
  refine ⟨minds.rooted, grown.trans minds.grown, minds.fewer.trans fewer, stage, ?_, unlent,
    fun n mine => keeps n (held n mine), fun n live earlier => ?_⟩
  · rw [staged]
    unfold setVisit
    rw [visits]
  · by_cases inside : n < v.sessions.length
    · obtain owned | mine := kept n (minds.grown.live inside live) earlier
      · exact loses n live (.inr owned)
      · obtain holds | ⟨-, gone⟩ := keeps n mine
        · exact .inr holds
        · exact Bool.noConfusion (live.symm.trans gone)
    · exact loses n live (.inl (Nat.le_of_not_lt inside))

/-- The visit ends when what was in its hands is disposed, so that nothing of it is lost. -/
theorem endVisit (rooted : w.Rooted) (gone : ∀ n, hands n → w.isDisposed n = true) (visit : Visit)
    (outcome : Outcome) : Minds number hands w (w.endVisit number visit outcome) := by
  have ended : Minds number hands w (w.setVisit number .over) :=
    of_stage rooted trivial fun n mine => .inr ⟨rfl, gone n mine⟩
  exact { ended with
    rooted := { ended.rooted with }
    grown := ended.grown.trans (.of_eq rfl rfl rfl rfl) }

/-- A course of the world goes before, which makes no session. -/
theorem course (course : Course Session.Later w v) (minds : Minds number hands v u) :
    Minds number hands w u := by
  refine minds.before (.of_course course fun _ no => absurd trivial no) (course.entries ▸ .refl _)
    course.visits (fun _ => id) fun n live earlier => .inl ?_
  obtain beyond | ⟨e, member, owned⟩ := earlier
  · exact absurd live (not_live course.length beyond)
  · exact ⟨e, course.entries ▸ member, (sessionOf?_of_openings course.openings _).trans owned⟩

/-- The visitor has the connection, or is done with it. In the first case the session is still in its hands,
and in the second it is disposed. -/
theorem enter (rooted : w.Rooted) (n : Nat) (visit : Visit) :
    Minds number (n = ·) w (w.enter number visit n none) := by
  unfold World.enter
  split
  · exact of_stage rooted trivial fun _ => .inl
  next outcome _ =>
    have disposed : Course Session.Later w (w.dispose n) := dispose_course rooted.unarmed n
    unfold leave
    rw [if_neg (Bool.eq_false_iff.mp rooted.single)]
    refine course disposed (endVisit (rooted.of_course (disposed.weaken Session.Later.akin)) ?_ ..)
    rintro m rfl
    exact isDisposed_dispose rooted.unarmed n

/-- The server of a visit's own session may have answered. As long as it has not, the visit holds the
session by greeting its server. -/
theorem awaitOwnGreeting (rooted : w.Rooted) (n call : Nat) (visit : Visit) :
    Minds number (n = ·) w (w.awaitOwnGreeting number visit n call) := by
  unfold World.awaitOwnGreeting
  split
  · exact of_stage rooted trivial fun _ => .inl
  next outcome _ =>
    have welcomed : Course Session.Later w (w.welcome n outcome).2 :=
      within_course _ (welcome_later w.options outcome) rooted.unarmed n (some .connectionClosed)
    have rooted' := rooted.of_course (welcomed.weaken Session.Later.akin)
    split
    next v eq =>
      rw [eq] at welcomed rooted'
      exact course welcomed (enter rooted' n visit)
    next failure v eq =>
      have gone := isDisposed_welcome rooted.unarmed eq
      rw [eq] at welcomed rooted'
      exact course welcomed (endVisit rooted' (fun m (same : n = m) => same ▸ gone) visit _)

/-- A visit waits for a connection of its own. It has nothing before, and the session that is attached for
it is in its hands at once. -/
theorem awaitOwnConnection (rooted : w.Rooted) (visit : Visit) :
    Minds number (fun _ => False) w (w.awaitOwnConnection number visit) := by
  have asked (connector : Connector) : Rooted { w with connector } := { rooted with }
  have asking (connector : Connector) : Course Session.Later w { w with connector } :=
    .of_eq rfl rfl rfl rfl rfl
  unfold World.awaitOwnConnection
  obtain ⟨connector, later⟩ | ⟨failure, connector, refused⟩ | ⟨v, session, attached⟩ :=
    w.connect_cases (.visit number) (some visit.root)
  · rw [later]
    exact course (asking connector) (of_stage (asked connector) trivial fun _ => False.elim)
  · rw [refused]
    exact course (asking connector) (endVisit (asked connector) (fun _ => False.elim) visit _)
  · rw [session]
    have growth := attached.growth (R := Session.Later)
    have calm := growth.calm rooted.unarmed
    have grown : Grown (fun _ => True) w v := .of_attached attached
    have rooted' : v.Rooted := rooted.passes (grown.growth.weaken Session.Later.akin)
      growth.openings (growth.entries ▸ .refl _) fun e member => .inl (growth.entries ▸ member)
    have greeted : Course Session.Later v (v.greet w.sessions.length none).2 :=
      within_course _ (greet_later v.options none) calm _ (.error .connectionClosed)
    have rooted'' := rooted'.of_course (greeted.weaken Session.Later.akin)
    refine before grown (growth.entries ▸ .refl _) growth.visits
      (?_ : Minds number (w.sessions.length = ·) v _) (fun _ => False.elim) fun n live earlier => ?_
    · dsimp only
      split
      next failure u eq =>
        have gone := isDisposed_greet calm eq
        rw [eq] at greeted rooted''
        exact course greeted (endVisit rooted'' (fun m (same : _ = m) => same ▸ gone) visit _)
      next call u eq =>
        rw [eq] at greeted rooted''
        exact course greeted (awaitOwnGreeting rooted'' _ call visit)
    · obtain beyond | ⟨e, member, owned⟩ := earlier
      · exact .inr (eq_length_of_live attached.length beyond live).symm
      · exact .inl ⟨e, growth.entries ▸ member,
          (sessionOf?_of_openings growth.openings _).trans owned⟩

/-- A visit that opens a session for itself has none before, and waits for a connection of its own. -/
theorem openOwn (rooted : w.Rooted) (visit : Visit) :
    Minds number (fun _ => False) w (w.openOwn number visit) := by
  have asked : Course Session.Later w w.askConnection := .of_eq rfl rfl rfl rfl rfl
  exact course asked (awaitOwnConnection (rooted.of_course (asked.weaken Session.Later.akin)) visit)

end Minds

namespace Rooted

/-- The session that an opening came to goes from the entry of the root into the hands of a visitor. No
other entry is struck out, since the entry has to be for this very opening. -/
theorem forget (rooted : w.Rooted) (root : Url) {o : Opening} {opening : Nat}
    (found : w.openings[opening]? = some o) (finished : o.stage = .finished (some n)) :
    (w.forget root opening).Rooted ∧ ∀ m, w.IsOwned m → (w.forget root opening).IsOwned m ∨ n = m := by
  have struck (e : RootEntry) (member : e ∈ w.entries) :
      e ∈ (w.forget root opening).entries ∨ e.opening = opening := by
    by_cases same : e.opening = opening
    · exact .inr same
    · refine .inl (List.mem_filter.mpr ⟨member, ?_⟩)
      simp [same]
  have grown : Grown (fun _ => True) w (w.forget root opening) := .of_eq rfl rfl rfl rfl
  refine ⟨rooted.passes (grown.growth.weaken Session.Later.akin) rfl List.filter_sublist
    fun e member => (struck e member).imp_right fun same : e.opening = opening =>
      ⟨o, some n, same.symm ▸ found, finished⟩, ?_⟩
  rintro m ⟨e, member, owned⟩
  obtain stays | rfl := struck e member
  · exact .inl ⟨e, stays, owned⟩
  · exact .inr (rooted.sessionOf_finished found finished owned)

/-- A visit gets the session of its root, if there is one. The opening may make a step first, and what that
attaches is a tracked root's, so it is not lost either. -/
theorem awaitTracked (rooted : w.Rooted) (visit : Visit) (opening : Nat) :
    Minds number (fun _ => False) w (w.awaitTracked number visit opening) := by
  unfold World.awaitTracked
  dsimp only
  generalize polled : (if (w.openingResult? opening).isSome then w
    else w.pollOpening (.visit number) opening) = v
  obtain ⟨rooted', grown, visits, fewer, kept⟩ : v.Rooted ∧ Grown (fun _ => True) w v ∧
      v.visits = w.visits ∧ v.entries.Sublist w.entries ∧
      ∀ n, v.isDisposed n = false → w.sessions.length ≤ n ∨ w.IsOwned n → v.IsOwned n := by
    split at polled
    · exact polled ▸ ⟨rooted, .refl w, rfl, .refl _, fun n live before => before.resolve_left
        (Nat.not_le.mpr (lt_of_live live))⟩
    · exact polled ▸ rooted.pollOpening _ opening
  split
  · exact .before grown fewer visits (.of_stage rooted' trivial fun _ => False.elim) (fun _ => id)
      fun n live earlier => .inl (kept n live earlier)
  · exact .before grown fewer visits (.openOwn rooted' visit) (fun _ => id)
      fun n live earlier => .inl (kept n live earlier)
  next session came =>
    obtain ⟨o, found, finished⟩ := exists_of_openingResult? came
    obtain ⟨forgotten, passed⟩ := rooted'.forget visit.root found finished
    have grown := grown.trans (u := v.forget visit.root opening) (.of_eq rfl rfl rfl rfl)
    have fewer : (v.forget visit.root opening).entries.Sublist w.entries :=
      List.filter_sublist.trans fewer
    split
    next disposed =>
      -- nobody takes a session that is disposed
      refine .before grown fewer visits (.openOwn forgotten visit) (fun _ => id)
        fun n live earlier => .inl ((passed n (kept n live earlier)).resolve_right ?_)
      rintro rfl
      exact Bool.noConfusion (live.symm.trans disposed)
    next =>
      exact .before grown fewer visits (.enter forgotten session visit) (fun _ => False.elim)
        fun n live earlier => passed n (kept n live earlier)

/-- A step of a visit that was not dropped loses no session. The cases are those of its stage, and what the
visitor has in its hands is what the stage holds. -/
theorem pollVisit (rooted : w.Rooted) (found : w.visits[number]? = some visit)
    (undropped : visit.isDropped = false) (unlent : visit.stage.IsUnlent) :
    Minds number visit.stage.Holds w (w.pollVisit number) := by
  unfold World.pollVisit
  rw [found]
  dsimp only
  rw [if_neg (Bool.eq_false_iff.mp undropped)]
  cases stage : visit.stage with
  | unstarted =>
    dsimp only
    unfold beginVisit
    rw [if_neg (Bool.eq_false_iff.mp rooted.single)]
    split
    · exact rooted.awaitTracked visit _
    · exact .openOwn rooted visit
  | awaiting opening => exact rooted.awaitTracked visit opening
  | connecting => exact .awaitOwnConnection rooted visit
  | greeting n call => exact .awaitOwnGreeting rooted n call visit
  | running n loan =>
    obtain rfl : loan = none := by
      cases loan with
      | none => rfl
      | some loan => exact absurd unlent (stage ▸ id)
    exact .enter rooted n visit
  | «over» =>
    have stays := setVisit_same found
    rw [stage] at stays
    have ended : Minds number VisitStage.over.Holds w (w.setVisit number .over) :=
      .of_stage rooted trivial fun _ => False.elim
    rw [stays] at ended
    exact ended

end Rooted

end World

end LanguageClient
