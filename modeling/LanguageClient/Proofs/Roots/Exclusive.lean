import LanguageClient.Proofs.Roots.Handing

/-!
# Visitors and their sessions

With a session for each root, a visitor should have its session for itself until it is done. The session
of a tracked root is handed to those who wait for its opening, and whoever gets it strikes the root out;
but somebody else may have waited for the same opening by then, and gets the same session as long as it
is not disposed. `World.Clashes` says that this happens now, and it is the only way in which two visitors
come to one session, or a visitor loses its session to another.
-/

namespace LanguageClient

namespace World

variable {w v : World} {number n : Nat} {visit : Visit}

/-- No two visitors have one session. -/
def IsExclusive (w : World) : Prop :=
  ∀ (a b : Nat) (x y : Visit) (n : Nat) (loan loan' : Option Loan), w.visits[a]? = some x →
    w.visits[b]? = some y → x.stage = .running n loan → y.stage = .running n loan' → a = b

/-- A move after which every visitor has its session for itself, and which disposes no session of a
visitor because another one is done. -/
structure Respects (w : World) (move : Move) : Prop where
  exclusive : (w.after move).IsExclusive
  spared : ∀ number, move = .poll (.visit number) → ∀ (other : Nat) (y : Visit) (n : Nat)
    (loan : Option Loan), other ≠ number → w.visits[other]? = some y → y.stage = .running n loan →
    w.isDisposed n = false → (w.after move).isDisposed n = false

/-- Whether a visit that has waited for an opening now finds a session that another visitor has. -/
def Clashes (w : World) (number : Nat) : Prop :=
  ∃ (visit : Visit) (i : Nat) (o : Opening) (n : Nat), w.visits[number]? = some visit ∧
    visit.stage = .awaiting i ∧ w.openings[i]? = some o ∧ o.stage = .finished (some n) ∧
    w.isDisposed n = false ∧ ∃ (other : Nat) (y : Visit) (loan : Option Loan), other ≠ number ∧
      w.visits[other]? = some y ∧ y.stage = .running n loan

/-- What an opening had goes to a visitor only when the opening has come to it. -/
def Handed (w : World) : Prop :=
  ∀ {a : Nat} {x : Visit}, w.visits[a]? = some x → ∀ n, x.stage.Holds n →
    ∀ {i : Nat} {o : Opening}, w.openings[i]? = some o → o.Had n →
      o.stage = .finished (some n) ∧ ∃ loan, x.stage = .running n loan

/-- No two visits have one session, or greet the server of one. -/
def Alone (w : World) : Prop :=
  ∀ {a b : Nat} {x y : Visit} {n : Nat}, w.visits[a]? = some x → w.visits[b]? = some y →
    x.stage.Holds n → y.stage.Holds n → a = b

/-- Who does not share what is held does not share what is had, since a visitor that has a session holds it.
-/
theorem Alone.isExclusive (alone : w.Alone) : w.IsExclusive := by
  intro a b x y n loan loan' at_a at_b runs runs'
  refine alone (n := n) at_a at_b ?_ ?_
  · rw [runs]; rfl
  · rw [runs']; rfl

namespace Withholds

/-- As long as no visitor gets a session, what the openings had stays handed out as it was: an opening that
has come to a session does not go back. -/
theorem handed (withholds : Withholds w v) (custody : w.Custody) (handed : w.Handed) : v.Handed := by
  intro a y at_a n holds i p at_i had
  obtain ⟨x, before, same⟩ := withholds.visits at_a n holds
  rw [← same] at holds ⊢
  obtain beyond | ⟨o, opened, had, stays⟩ := withholds.openings at_i n had
  · have inside := (custody.held x (List.mem_of_getElem? before) n holds).1
    exact absurd inside (Nat.not_lt.mpr beyond)
  · obtain ⟨finished, running⟩ := handed before n holds opened had
    exact ⟨stays finished, running⟩

/-- As long as no visitor gets a session, the visitors share none if they shared none. -/
theorem alone (withholds : Withholds w v) (alone : w.Alone) : v.Alone := by
  intro a b x y n at_a at_b first second
  obtain ⟨x', before, same⟩ := withholds.visits at_a n first
  obtain ⟨y', before', same'⟩ := withholds.visits at_b n second
  exact alone before before' (same ▸ first) (same' ▸ second)

end Withholds

/-! ## The step of a visit -/

/-- What the step of a visit comes to: an opening may go on first, and then the visit goes on with
sessions that it had, or with one that no other visitor has unless it clashes. -/
structure Proceeds (number : Nat) (visit : Visit) (w v : World) : Prop where
  comes : ∃ (u : World) (mine : Nat → Prop), u.Custody ∧ Withholds w u ∧ u.visits = w.visits ∧
    (∀ x ∈ w.visits, ∀ n, x.stage.Holds n → u.sessions[n]? = w.sessions[n]?) ∧
    (∀ n, mine n → visit.stage.Holds n ∨
      (∃ (i : Nat) (o : Opening), u.openings[i]? = some o ∧ o.stage = .finished (some n)) ∧
      (w.Clashes number ∨ ∀ (other : Nat) (y : Visit), other ≠ number → w.visits[other]? = some y →
        ¬ y.stage.Holds n)) ∧
    Comes number mine (fun n => ∃ call, visit.stage = .greeting n call) u v

/-- Where no opening goes on, and no session is taken, a visit proceeds with the sessions that it had. -/
theorem Proceeds.of_own {mine : Nat → Prop} (custody : w.Custody)
    (had : ∀ n, mine n → visit.stage.Holds n)
    (comes : Comes number mine (fun n => ∃ call, visit.stage = .greeting n call) w v) :
    Proceeds number visit w v :=
  ⟨w, mine, custody, .refl w, rfl, fun _ _ _ _ => rfl, fun n has => .inl (had n has), comes⟩

/-- An opening that goes on touches no session that a visitor has. If it had that session, it would have
come to its end. -/
theorem Handed.spares (handed : w.Handed) (custody : w.Custody) {opening : Nat} (task : Task)
    (unfinished : w.openingResult? opening = none) {x : Visit} (member : x ∈ w.visits)
    (holds : x.stage.Holds n) :
    (w.pollOpening task opening).sessions[n]? = w.sessions[n]? := by
  have inside := (custody.held x member n holds).1
  cases found : w.openings[opening]? with
  | none => rw [pollOpening_of_none found]
  | some o =>
    obtain ⟨startup, stage, advances⟩ :=
      (pollOpening_opens found custody.unarmed task).advances custody.toBooked found
    refine advances.serves.others n inside ?_
    rintro (had | beyond)
    · obtain ⟨a, at_a⟩ := List.mem_iff_getElem?.mp member
      obtain ⟨finished, -⟩ := handed at_a n holds found had
      simp only [openingResult?, found, Option.map_some, finished, reduceCtorEq] at unfinished
    · exact absurd inside (Nat.not_lt.mpr beyond)

/-- A visit gets the session of its root, if there is one. The opening goes on first, unless it came to its
end before; and then the session is taken, or one is opened if there is none. -/
theorem Handed.awaitTracked (handed : w.Handed) (custody : w.Custody) {opening : Nat}
    (found : w.visits[number]? = some visit)
    (fair : ∀ (o : Opening) (n : Nat), w.openings[opening]? = some o →
      o.stage = .finished (some n) → w.isDisposed n = false → w.Clashes number ∨
        ∀ (other : Nat) (y : Visit), other ≠ number → w.visits[other]? = some y →
          ¬ y.stage.Holds n) :
    Proceeds number visit w (w.awaitTracked number visit opening) := by
  -- the step of the opening comes first, if it has not come to its end
  obtain ⟨u, polled, kept, withholds, visits, untouched, fair⟩ : ∃ u : World,
      (if (w.openingResult? opening).isSome then w else w.pollOpening (.visit number) opening) = u ∧
      u.Custody ∧ Withholds w u ∧ u.visits = w.visits ∧
      (∀ x ∈ w.visits, ∀ n, x.stage.Holds n → u.sessions[n]? = w.sessions[n]?) ∧
      ∀ (o : Opening) (n : Nat), u.openings[opening]? = some o → o.stage = .finished (some n) →
        u.isDisposed n = false → w.Clashes number ∨
          ∀ (other : Nat) (y : Visit), other ≠ number → w.visits[other]? = some y →
            ¬ y.stage.Holds n := by
    refine ⟨_, rfl, ?_⟩
    split
    · exact ⟨custody, .refl w, rfl, fun _ _ _ _ => rfl, fair⟩
    next unfinished =>
      have unfinished := Option.not_isSome_iff_eq_none.mp unfinished
      obtain ⟨kept, -, visits⟩ := custody.pollOpening (.visit number) opening
      have withholds := custody.pollOpening_withholds (.visit number) opening
      refine ⟨kept, withholds, visits, fun x member n holds =>
        handed.spares custody (.visit number) unfinished member holds, ?_⟩
      intro o n opened finished _
      refine .inr fun other y _ at_other holds => ?_
      obtain beyond | ⟨p, before, had, stays⟩ :=
        withholds.openings opened n (.inr (.inr finished))
      · have inside := (custody.held y (List.mem_of_getElem? at_other) n holds).1
        exact absurd inside (Nat.not_lt.mpr beyond)
      · obtain ⟨finished, -⟩ := handed at_other n holds before had
        simp only [openingResult?, before, Option.map_some, finished, reduceCtorEq] at unfinished
  have found' : u.visits[number]? = some visit := visits ▸ found
  unfold World.awaitTracked
  dsimp only
  rw [polled]
  refine ⟨u, fun n => (∃ o, u.openings[opening]? = some o ∧ o.stage = .finished (some n)) ∧
    u.isDisposed n = false, kept, withholds, visits, untouched, ?_, ?_⟩
  · rintro n ⟨⟨o, opened, finished⟩, live⟩
    exact .inr ⟨⟨opening, o, opened, finished⟩, fair o n opened finished live⟩
  · split
    · exact .of_stage (fun _ => False.elim) nofun
    · exact .openOwn kept.single kept.unarmed visit
    next session came =>
      have opened := exists_of_openingResult? came
      have struck {t : World} {mine greets : Nat → Prop}
          (comes : Comes number mine greets (u.forget visit.root opening) t) :
          Comes number mine greets u t :=
        .before (v := u.forget visit.root opening) (.of_eq rfl rfl rfl rfl) rfl rfl comes
          (fun _ => .inl) (fun _ => .inl)
      split
      · exact struck (.openOwn (by exact kept.single) (by exact kept.unarmed) visit)
      next live =>
        refine struck (.enter (by exact kept.single) (by exact kept.unarmed) ?_ visit none)
        exact ⟨opened, Bool.eq_false_iff.mpr live⟩

/-- A session that a tracked root has is nobody's yet: what a visit holds belongs to no entry. -/
theorem Custody.unheld (custody : w.Custody) {e : RootEntry} (tracked : e ∈ w.entries) {o : Opening}
    (opened : w.openings[e.opening]? = some o) (finished : o.stage = .finished (some n)) {x : Visit}
    (member : x ∈ w.visits) : ¬ x.stage.Holds n := by
  intro holds
  obtain ⟨p, found, -, wanted⟩ := custody.tracked e tracked
  cases opened.symm.trans found
  have attached := (custody.own opened n (.inr finished)).resolve_right wanted
  exact (custody.held x member n holds).2 e tracked
    (sessionOf?_eq_some_iff.mpr ⟨o, opened, attached⟩)

/-- What the step of a visit comes to, by the stage at which it is. Only where it has waited for an opening
can it clash, since elsewhere it takes the session of a tracked root or one of its own. -/
theorem Handed.pollVisit (handed : w.Handed) (custody : w.Custody)
    (found : w.visits[number]? = some visit) : Proceeds number visit w (w.pollVisit number) := by
  have member := List.mem_of_getElem? found
  have own {v : World} (comes : Comes number visit.stage.Holds
      (fun n => ∃ call, visit.stage = .greeting n call) w v) : Proceeds number visit w v :=
    .of_own custody (fun _ => id) comes
  unfold World.pollVisit
  rw [found]
  dsimp only
  rw [if_neg (Bool.eq_false_iff.mp (custody.undropped visit member))]
  cases stage : visit.stage with
  | unstarted =>
    dsimp only
    unfold beginVisit
    rw [if_neg (Bool.eq_false_iff.mp custody.single)]
    split
    next entry tracks =>
      -- the session of a tracked root is nobody's, so that this visit cannot clash
      have tracked : entry ∈ w.entries := List.mem_of_find?_eq_some tracks
      refine handed.awaitTracked custody found fun o n opened finished _ => .inr ?_
      intro other y _ at_other
      exact custody.unheld tracked opened finished (List.mem_of_getElem? at_other)
    next => exact own (.openOwn custody.single custody.unarmed visit)
  | awaiting opening =>
    refine handed.awaitTracked custody found fun o n opened finished live => ?_
    -- a visitor that has the session of the opening makes this a clash
    by_cases clashes : w.Clashes number
    · exact .inl clashes
    · refine .inr fun other y apart at_other holds => clashes ?_
      obtain ⟨-, loan, running⟩ := handed at_other n holds opened (.inr (.inr finished))
      exact ⟨visit, opening, o, n, found, stage, opened, finished, live, other, y, loan, apart,
        at_other, running⟩
  | connecting => exact own (.awaitOwnConnection custody.single custody.unarmed visit)
  | greeting n call =>
    refine own (.awaitOwnGreeting custody.single custody.unarmed ?_ ⟨call, stage⟩ visit call)
    rw [stage]
    rfl
  | running n loan =>
    refine own (.enter custody.single custody.unarmed ?_ visit loan)
    rw [stage]
    rfl
  | «over» =>
    have stays : w.setVisit number .over = w := stage ▸ setVisit_same found
    have comes : Comes number visit.stage.Holds (fun n => ∃ call, visit.stage = .greeting n call) w
        (w.setVisit number .over) := .of_stage (fun _ => False.elim) nofun
    rw [stays] at comes
    exact own comes

namespace Proceeds

/-- A session that an opening had is still handed out only when the opening has come to it. What the visit
takes was such a session or is new. -/
theorem handed (proceeds : Proceeds number visit w v) (custody : w.Custody) (handed : w.Handed)
    (found : w.visits[number]? = some visit) : v.Handed := by
  obtain ⟨u, mine, kept, withholds, visits, -, fair, comes⟩ := proceeds.comes
  obtain ⟨stage, staged, holds, greeting⟩ := comes.visits
  have handed : u.Handed := withholds.handed custody handed
  have own {n i : Nat} {o : Opening} (has : visit.stage.Holds n) (at_i : u.openings[i]? = some o)
      (had : o.Had n) : o.stage = .finished (some n) ∧ ∃ loan, visit.stage = .running n loan :=
    handed (visits.symm ▸ found) n has at_i had
  intro a x at_a n has i o at_i had
  rw [comes.openings] at at_i
  have old : ¬ u.sessions.length ≤ n := Nat.not_le.mpr (kept.inside at_i n had)
  rw [staged, setVisit, List.getElem?_modify] at at_a
  obtain ⟨y, before, rfl⟩ := Option.map_eq_some_iff.mp at_a
  split at has
  next here =>
    rw [if_pos here]
    dsimp only at has ⊢
    have takes := (holds n has).resolve_right old
    have finished : o.stage = .finished (some n) := by
      obtain had' | ⟨⟨j, p, at_j, finished⟩, -⟩ := fair n takes
      · exact (own had' at_i had).1
      · cases kept.apart at_i at_j n had (.inr (.inr finished))
        cases at_i.symm.trans at_j
        exact finished
    refine ⟨finished, ?_⟩
    cases stage with
    | running m loan =>
      cases has
      exact ⟨loan, rfl⟩
    | greeting m call =>
      -- the visit greets the server of a session of its own, which no opening had
      cases has
      obtain ⟨call', greets⟩ := (greeting n call rfl).resolve_right old
      obtain ⟨-, loan, running⟩ := own (greets ▸ rfl) at_i had
      cases greets.symm.trans running
    | unstarted | awaiting | connecting | «over» => exact has.elim
  next elsewhere =>
    rw [if_neg elsewhere]
    exact handed before n has at_i had

/-- Unless the visit clashes, no other visitor gets its session, and it touches nobody else's. -/
theorem alone (proceeds : Proceeds number visit w v) (custody : w.Custody) (alone : w.Alone)
    (found : w.visits[number]? = some visit) (clear : ¬ w.Clashes number) :
    v.Alone ∧ ∀ (other : Nat) (y : Visit) (n : Nat), other ≠ number →
      w.visits[other]? = some y → y.stage.Holds n → v.sessions[n]? = w.sessions[n]? := by
  obtain ⟨u, mine, kept, withholds, visits, untouched, fair, comes⟩ := proceeds.comes
  obtain ⟨stage, staged, holds, -⟩ := comes.visits
  -- what the visit may take is not what another visit has
  have free {other : Nat} {y : Visit} {n : Nat} (apart : other ≠ number)
      (at_other : w.visits[other]? = some y) (has : y.stage.Holds n) :
      ¬ (mine n ∨ u.sessions.length ≤ n) := by
    rintro (takes | beyond)
    · obtain had | ⟨-, clashes | nobody⟩ := fair n takes
      · exact apart (alone at_other found has had)
      · exact clear clashes
      · exact nobody other y apart at_other has
    · have inside := (custody.held y (List.mem_of_getElem? at_other) n has).1
      exact absurd (Nat.le_trans withholds.length beyond) (Nat.not_le.mpr inside)
  refine ⟨?_, fun other y n apart at_other has => ?_⟩
  · intro a b x y n at_a at_b first second
    rw [staged, setVisit, visits, List.getElem?_modify] at at_a at_b
    obtain ⟨x', before, rfl⟩ := Option.map_eq_some_iff.mp at_a
    obtain ⟨y', before', rfl⟩ := Option.map_eq_some_iff.mp at_b
    by_cases here : number = a <;> by_cases here' : number = b
    · exact here.symm.trans here'
    · rw [if_pos here] at first
      rw [if_neg here'] at second
      exact absurd (holds n first) (free (Ne.symm here') before' second)
    · rw [if_neg here] at first
      rw [if_pos here'] at second
      exact absurd (holds n second) (free (Ne.symm here) before first)
    · rw [if_neg here] at first
      rw [if_neg here'] at second
      exact alone before before' first second
  · have member := List.mem_of_getElem? at_other
    have inside := (custody.held y member n has).1
    refine (comes.grown.others n (Nat.lt_of_lt_of_le inside withholds.length)
      (free apart at_other has)).trans ?_
    exact untouched y member n has

end Proceeds

/-! ## Moves -/

/-- Where there is no visit, none goes on. -/
theorem after_visit_of_none (none : w.visits[number]? = none) :
    w.after (.poll (.visit number)) = w := by
  change w.pollVisit number = w
  unfold pollVisit
  rw [none]

/-- Every move hands a session that an opening had out only when the opening has come to it: it is the step
of a visit, or it hands nothing out. -/
theorem InCharge.handed_after (charge : w.InCharge) (handed : w.Handed) {move : Move}
    (orderly : move.isOrderly = true) : (w.after move).Handed := by
  by_cases visits : ∃ number, move = .poll (.visit number)
  · obtain ⟨number, rfl⟩ := visits
    cases found : w.visits[number]? with
    | none =>
      rw [after_visit_of_none found]
      exact handed
    | some visit => exact (handed.pollVisit charge.toCustody found).handed charge.toCustody handed found
  · exact (charge.withholds orderly fun number same => visits ⟨number, same⟩).handed
      charge.toCustody handed

/-- A move in which no visit clashes leaves every visitor its session, and disposes none because another
visitor is done. -/
theorem InCharge.alone_after (charge : w.InCharge) (handed : w.Handed) (alone : w.Alone) {move : Move}
    (orderly : move.isOrderly = true) (clear : ∀ number, move = .poll (.visit number) →
      ¬ w.Clashes number) : (w.after move).Alone ∧ Respects w move := by
  by_cases visits : ∃ number, move = .poll (.visit number)
  · obtain ⟨number, rfl⟩ := visits
    cases found : w.visits[number]? with
    | none =>
      have rests := after_visit_of_none found
      refine ⟨?_, ?_, fun _ _ _ _ _ _ _ _ _ live => ?_⟩ <;> rw [rests]
      · exact alone
      · exact alone.isExclusive
      · exact live
    | some visit =>
      obtain ⟨alone', others⟩ := (handed.pollVisit charge.toCustody found).alone charge.toCustody
        alone found (clear number rfl)
      refine ⟨alone', alone'.isExclusive, fun number' same other y n loan apart at_other runs live => ?_⟩
      cases same
      have kept : (w.pollVisit number).sessions[n]? = w.sessions[n]? :=
        others other y n apart at_other (runs ▸ rfl)
      change (w.pollVisit number).isDisposed n = false
      unfold isDisposed at live ⊢
      rw [kept]
      exact live
  · have alone' : (w.after move).Alone :=
      (charge.withholds orderly fun number same => visits ⟨number, same⟩).alone alone
    exact ⟨alone', alone'.isExclusive, fun number same => absurd ⟨number, same⟩ visits⟩

/-- A visit that clashes takes a session that another visitor has, or disposes it. Which of the two depends
on whether its own visitor is done at once. -/
theorem InCharge.not_respects (charge : w.InCharge) (clashes : w.Clashes number) :
    ¬ Respects w (.poll (.visit number)) := by
  obtain ⟨visit, i, o, n, found, awaiting, opened, finished, live, other, y, loan, apart, at_other,
    runs⟩ := clashes
  intro respects
  have custody := charge.toCustody
  have result : w.openingResult? i = some (some n) := by
    simp only [openingResult?, opened, Option.map_some, finished]
  -- the session is not disposed, so the visit has it
  have enters : w.after (.poll (.visit number)) =
      (w.forget visit.root i).enter number visit n none := by
    change w.pollVisit number = _
    unfold pollVisit
    rw [found]
    dsimp only
    rw [if_neg (Bool.eq_false_iff.mp (custody.undropped visit (List.mem_of_getElem? found))), awaiting]
    dsimp only
    unfold awaitTracked
    dsimp only
    rw [result, Option.isSome_some, if_pos rfl, result]
    dsimp only
    have still : (w.forget visit.root i).isDisposed n = false := live
    rw [still, if_neg Bool.false_ne_true]
  have at_number : (w.forget visit.root i).visits[number]? = some visit := found
  have spared := respects.spared number rfl other y n loan apart at_other runs live
  have exclusive := respects.exclusive
  rw [enters] at spared exclusive
  unfold enter at spared exclusive
  split at spared
  next undecided =>
    rw [undecided] at exclusive
    refine apart (exclusive other number y { visit with stage := .running n none } n loan none ?_
      (setVisit_found at_number _) runs rfl)
    simp only [setVisit, List.getElem?_modify, if_neg (Ne.symm apart)]
    exact (Option.map_id' ..).trans at_other
  next outcome decided =>
    unfold leave at spared
    rw [if_neg (by exact Bool.eq_false_iff.mp custody.single)] at spared
    have gone : ((w.forget visit.root i).dispose n).isDisposed n = true :=
      isDisposed_dispose (by exact custody.unarmed) n
    exact Bool.noConfusion (gone.symm.trans spared)

/-! ## Runs -/

/-- At the start nobody visits, so nothing is handed out. -/
theorem start_handed (options : ClientOptions) : (start options).Handed :=
  fun found => nomatch found

/-- At the start nobody visits, so nothing is shared. -/
theorem start_alone (options : ClientOptions) : (start options).Alone :=
  fun found => nomatch found

/-- In every run of orderly moves a session that an opening had is handed out only when the opening has come
to it. -/
theorem InCharge.run_handed (charge : w.InCharge) (handed : w.Handed) {moves : List Move}
    (orderly : ∀ move ∈ moves, move.isOrderly = true) : (w.run moves).InCharge ∧ (w.run moves).Handed :=
  run_induction (fun v => v.InCharge ∧ v.Handed)
    (fun _ _ orderly ⟨charge, handed⟩ =>
      ⟨(charge.after orderly).1, charge.handed_after handed orderly⟩)
    orderly ⟨charge, handed⟩

/-- Every visitor has its session for itself as long as no visit clashes, and only so long. A visit that
clashes does not respect the others; that all is well without one goes by induction on the moves. -/
theorem InCharge.respects_iff (charge : w.InCharge) (handed : w.Handed) (alone : w.Alone)
    {moves : List Move} (orderly : ∀ move ∈ moves, move.isOrderly = true) :
    (∀ before move later, moves = before ++ move :: later → Respects (w.run before) move) ↔
      ∀ before number later, moves = before ++ .poll (.visit number) :: later →
        ¬ (w.run before).Clashes number := by
  constructor
  · intro respects before number later split clashes
    have orderly : ∀ move ∈ before, move.isOrderly = true := fun move member =>
      orderly move (split ▸ List.mem_append_left _ member)
    exact (charge.run_handed handed orderly).1.not_respects clashes
      (respects before (.poll (.visit number)) later split)
  · intro clear
    induction moves generalizing w with
    | nil =>
      intro before move later split
      cases before <;> cases split
    | cons first moves ih =>
      have here : first.isOrderly = true := orderly first List.mem_cons_self
      obtain ⟨alone', respects⟩ := charge.alone_after handed alone here
        fun number same => clear [] number moves (same ▸ rfl)
      have rest := ih (charge.after here).1 (charge.handed_after handed here) alone'
        (fun move member => orderly move (List.mem_cons_of_mem _ member))
        (fun before number later split => clear (first :: before) number later (split ▸ rfl))
      intro before move later split
      cases before with
      | nil =>
        cases split
        exact respects
      | cons _ before =>
        cases split
        exact rest before move later rfl

/-- With a session for each root, every visitor has its session for itself, and no visitor that is done
disposes another's, in just those runs in which no visit clashes. -/
theorem run_respects_iff {options : ClientOptions} (single : options.config.isMultiRoot = false)
    {moves : List Move} (orderly : ∀ move ∈ moves, move.isOrderly = true) :
    (∀ before move later, moves = before ++ move :: later →
        Respects ((start options).run before) move) ↔
      ∀ before number later, moves = before ++ .poll (.visit number) :: later →
        ¬ ((start options).run before).Clashes number :=
  (start_inCharge single).respects_iff (start_handed options) (start_alone options) orderly

/-- Two visitors come for the session of a root while it is being opened. -/
def Sample.crowded : List Move :=
  [.register "client", .poll .register, .roots [⟨"file:///here"⟩], .poll .reconciler,
    .poll (.opening 0), .visit "first" ⟨"file:///here"⟩, .visit "second" ⟨"file:///here"⟩,
    .poll (.visit 0), .poll (.visit 1),
    .send 0 [.response ⟨"2.0", some (.number 1), some (.obj []), none⟩], .poll (.reader 0),
    .poll (.visit 0)]

/-- No visit of the crowded run is dropped, and its host does not end the client. -/
theorem crowded_orderly : ∀ move ∈ Sample.crowded ++ [.poll (.visit 1)], move.isOrderly = true := by
  decide

/-- In the crowded run the second visitor finds the session of the first. -/
theorem crowded_clashes : ((start Sample.single).run Sample.crowded).Clashes 1 :=
  ⟨_, 0, _, 0, rfl, rfl, rfl, rfl, by decide, 0, _, _, by decide, rfl, rfl⟩

/-- Two visitors that have waited for one opening do not both get a session of their own: the second of them
clashes, so not every move of the run respects them. -/
theorem run_respects_iff_crowded :
    Sample.single.config.isMultiRoot = false ∧
      (∀ move ∈ Sample.crowded ++ [.poll (.visit 1)], move.isOrderly = true) ∧
      ¬ ∀ before move later, Sample.crowded ++ [.poll (.visit 1)] = before ++ move :: later →
        Respects ((start Sample.single).run before) move := by
  have single : Sample.single.config.isMultiRoot = false := rfl
  refine ⟨single, crowded_orderly, fun respects => ?_⟩
  exact (run_respects_iff single crowded_orderly).mp respects Sample.crowded 1 [] rfl
    crowded_clashes

/-- Both visitors get the session, and the first disposes it when it is done, while the second still has
it. -/
theorem run_shares_session :
    let w := (start Sample.single).run (Sample.crowded ++ [.poll (.visit 1)])
    let v := w.run [.verdict 0 (.ok .null), .poll (.visit 0)]
    ¬ w.IsExclusive ∧ w.isDisposed 0 = false ∧ v.isDisposed 0 = true ∧
      (v.visits[1]?).map Visit.stage = some (.running 0 none) := by
  refine ⟨fun exclusive => ?_, by decide, by decide, rfl⟩
  exact absurd (exclusive 0 1 _ _ 0 none none rfl rfl rfl rfl) (by decide)

end World

end LanguageClient
