import LanguageClient.Proofs.Roots.Roster
import LanguageClient.Proofs.Teardown.Silence

/-!
# Visitors that leave

With a session for each root, a visitor has a session for itself, and when it leaves nothing should be left
of that session. A step of a visit that was not dropped loses no session: what it takes or opens is the
visitor's then or torn down. A visitor keeps its session until its visit is over, and once that is so the
session is torn down or the visit was dropped.

A visit that was dropped is over with its next step, without a word to anybody. Its session is let go of
with the next sweep, if nobody else has it: its providers are withdrawn and its connection is closed, but it
is not disposed. So what it shows is still shown, and its reporters are never completed; nothing is left of
it only if it shows nothing and has no reporter (`World.run_leaves`).
-/

namespace LanguageClient

namespace World

variable {w v : World} {number n : Nat} {visit : Visit} {s : Session} {move : Move}
  {moves later : List Move} {events past : List HostEvent}

/-- A session was disposed, and nothing is left of it. -/
def TornDown (w : World) (events : List HostEvent) (n : Nat) : Prop :=
  ∃ s, w.sessions[n]? = some s ∧ s.isDisposed = true ∧ w.Clears events n s

/-- Whether the visitor of a visit has a session, or its visit greets the server of it. -/
def Lodges (w : World) (number n : Nat) : Prop :=
  ∃ visit, w.visits[number]? = some visit ∧ visit.stage.Holds n

/-- Whether nothing of a session is shown, and each of its reporters was completed. -/
structure IsBare (w : World) (events : List HostEvent) (n : Nat) : Prop where
  views : ∀ view ∈ w.host.views, shown events (n + 1) view.id = []
  reporters : ∀ reporter, w.host.reporterSession? reporter = some n →
    (completed events).count reporter = 1

/-- Whether nobody has a session, and nobody can use its connection. -/
structure Forsakes (w : World) (n : Nat) (s : Session) : Prop where
  unheld : w.holds n = false
  asked : ∀ request ∈ w.requests, request.session = n → request.stage = .over
  answered : ∀ job ∈ s.connection.jobs, job.isFinished = true

/-- A session that was disposed in a run was torn down. Whoever has disposed it, the books of the world
balance, and of a disposed session that leaves nothing. -/
theorem run_tornDown (options : ClientOptions) (unarmed : ∀ move ∈ moves, move.isUnarmed = true)
    (inside : n < ((start options).run moves).sessions.length)
    (disposed : ((start options).run moves).isDisposed n = true) :
    ((start options).run moves).TornDown ((start options).history moves) n := by
  obtain ⟨s, found⟩ : ∃ s, ((start options).run moves).sessions[n]? = some s :=
    ⟨_, List.getElem?_eq_getElem inside⟩
  rw [isDisposed_of_found found] at disposed
  have balances := (run_balances (start_isLawful options) (start_balances options) unarmed).2
  exact ⟨s, found, disposed, .of_balances balances found disposed⟩

/-! ## Sessions that are let go of -/

/-- A sweep lets go of a session that nobody has and of its connection, and does not dispose it. -/
theorem Forsakes.swept (forsaken : w.Forsakes n s) (found : w.sessions[n]? = some s)
    (active : s.isActive = true) : ∃ t, w.sweep.sessions[n]? = some t ∧
      t.isDisposed = s.isDisposed ∧ t.registrations = .empty ∧ t.connection.isOver = true := by
  have unvisited : w.visits.any (w.visitHolds n) = false :=
    (Bool.or_eq_false_iff.mp forsaken.unheld).2
  have unasked : w.requests.any (fun r => r.session = n && r.stage ≠ .over) = false := by
    refine List.any_eq_false.mpr fun request member asks => ?_
    obtain ⟨mine, waits⟩ := Bool.and_eq_true_iff.mp asks
    exact of_decide_eq_true waits (forsaken.asked request member (of_decide_eq_true mine))
  have idle : s.released.connection.jobs.any (fun job => !job.isFinished) = false := by
    refine List.any_eq_false.mpr fun job member waits => ?_
    rw [forsaken.answered job member] at waits
    cases waits
  have unused : w.holdsConnection n s.released = false := by
    unfold World.holdsConnection
    rw [unasked, unvisited, idle]
    rfl
  have after := sweep_found found
  simp only [active, holds_releaseEntries forsaken.unheld, Bool.not_false, Bool.and_self,
    ↓reduceIte, unused, Bool.and_true] at after
  refine ⟨_, after, ?_⟩
  cases finished : s.released.connection.isOver with
  | true => exact ⟨rfl, rfl, finished⟩
  | false =>
    have closed := (Connection.ends_release finished).isOver
    exact ⟨rfl, rfl, closed⟩

/-- Whether a session is bare depends on the views and on who has which reporter, and on nothing else of the
world. -/
theorem isBare_congr (views : v.host.views = w.host.views)
    (reporters : v.host.reporterSessions = w.host.reporterSessions) :
    v.IsBare events n ↔ w.IsBare events n := by
  have session (reporter : Nat) : v.host.reporterSession? reporter =
      w.host.reporterSession? reporter := by
    cases reporter with
    | zero => rfl
    | succ place => exact congrArg (·[place]?) reporters
  refine ⟨fun bare => ⟨views ▸ bare.views, fun reporter mine => ?_⟩,
    fun bare => ⟨views ▸ bare.views, fun reporter mine => ?_⟩⟩
  · exact bare.reporters reporter ((session reporter).trans mine)
  · exact bare.reporters reporter ((session reporter).symm.trans mine)

/-- Of a session that has no provider and no connection any more, nothing is left if it is bare. -/
theorem clears_iff (balances : w.scene.Balances past) (found : w.sessions[n]? = some s)
    (empty : s.registrations = .empty) (finished : s.connection.isOver = true) :
    w.Clears (past ++ w.host.trace) n s ↔ w.IsBare (past ++ w.host.trace) n := by
  have accounts : s.Accounts _ n s.handling w.host := balances.accounts found
  have providers := accounts.providers
  rw [empty] at providers
  refine ⟨fun clears => ⟨clears.views, clears.reporters⟩, fun bare => ?_⟩
  refine ⟨?_, bare.reporters, bare.views, ?_, finished, accounts.neat.idle finished⟩
  · exact fun p member mine => providers.settled ⟨p, member, rfl, mine⟩
  · rw [accounts.neat.hook, finished]
    rfl

/-- After a sweep nothing is left of a session that nobody has just if it was bare before. -/
theorem Forsakes.clears_iff (forsaken : w.Forsakes n s) (found : w.sessions[n]? = some s)
    (active : s.isActive = true) (balances : w.sweep.scene.Balances past) :
    ∃ t, w.sweep.sessions[n]? = some t ∧ t.isDisposed = false ∧
      (w.sweep.Clears (past ++ w.sweep.host.trace) n t ↔ w.IsBare (past ++ w.host.trace) n) := by
  obtain ⟨t, swept, same, empty, finished⟩ := forsaken.swept found active
  have live : s.isDisposed = false :=
    Bool.not_eq_eq_eq_not.mp (Bool.and_eq_true_iff.mp active).1
  obtain ⟨withdrawn, host⟩ := w.sweep_host
  have trace : w.sweep.host.trace = w.host.trace := by rw [host]
  have bare : w.sweep.IsBare (past ++ w.sweep.host.trace) n ↔ w.IsBare (past ++ w.host.trace) n := by
    rw [trace]
    exact isBare_congr (by rw [host]) (by rw [host])
  exact ⟨t, swept, same.trans live, (World.clears_iff balances swept empty finished).trans bare⟩

/-! ## Visits that go on -/

/-- A visit that a session was had for: its visitor has it still, or is done. -/
structure Lodged (number n : Nat) (w : World) : Prop where
  rostered : w.Rostered
  lawful : w.IsLawful
  balances : ∃ past, w.scene.Balances past
  inside : n < w.sessions.length
  visit : ∃ visit, w.visits[number]? = some visit ∧ (visit.stage.Holds n ∨
    visit.stage = .over ∧ (visit.isDropped = true ∨ w.isDisposed n = true))

/-- A step of the visit itself: the visitor keeps the session, or leaves. -/
theorem Lodged.pollVisit (lodged : Lodged number n w) :
    ∃ visit, (w.pollVisit number).visits[number]? = some visit ∧ (visit.stage.Holds n ∨
      visit.stage = .over ∧ (visit.isDropped = true ∨ (w.pollVisit number).isDisposed n = true)) := by
  obtain ⟨visit, found, stage⟩ := lodged.visit
  cases dropped : visit.isDropped with
  | true =>
    rw [lodged.rostered.pollVisit_dropped found dropped]
    exact ⟨_, setVisit_found found .over, .inr ⟨rfl, .inl dropped⟩⟩
  | false =>
    obtain holds | ⟨finished, disposed⟩ := stage
    · have minds := lodged.rostered.toRooted.pollVisit found dropped
        (lodged.rostered.unlent visit (List.mem_of_getElem? found))
      obtain ⟨stage, visits, -, keeps, -⟩ := minds.visits
      refine ⟨{ visit with stage }, ?_, (keeps n holds).imp_right (And.imp_right .inr)⟩
      rw [visits]
      exact setVisit_found found stage
    · have stays : w.pollVisit number = w := by
        unfold World.pollVisit
        rw [found]
        dsimp only
        rw [dropped, finished]
        rfl
      rw [stays]
      exact ⟨visit, found, .inr ⟨finished, disposed⟩⟩

/-- Every move by which the host does not end the client leaves the session with the visitor, or the
visitor has left. -/
theorem Lodged.after (lodged : Lodged number n w) (unarmed : move.isUnarmed = true) :
    Lodged number n (w.after move) where
  rostered := (lodged.rostered.after number unarmed).1
  lawful := after_isLawful lodged.lawful unarmed
  balances := by
    obtain ⟨past, balances⟩ := lodged.balances
    exact ⟨_, after_balances lodged.lawful unarmed balances⟩
  inside := Nat.lt_of_lt_of_le lodged.inside (after_length_le lodged.lawful unarmed)
  visit := by
    by_cases own : move = .poll (.visit number)
    · subst own
      exact lodged.pollVisit
    · obtain ⟨visit, found, stage⟩ := lodged.visit
      obtain ⟨visit', found', same, dropped⟩ :=
        (lodged.rostered.after number unarmed).2 own visit found
      refine ⟨visit', found', same ▸ stage.imp_right (And.imp_right ?_)⟩
      rintro (before | disposed)
      · exact .inl (dropped before)
      · -- a session that was disposed stays so, whatever happens
        obtain ⟨past, balances⟩ := lodged.balances
        obtain ⟨s, at_n⟩ : ∃ s, w.sessions[n]? = some s :=
          ⟨_, List.getElem?_eq_getElem lodged.inside⟩
        rw [isDisposed_of_found at_n] at disposed
        obtain ⟨-, t, at_n', rests⟩ :=
          after_bypasses lodged.lawful balances unarmed at_n disposed
        exact .inr ((isDisposed_of_found at_n').trans rests.disposed)

/-- After every run in which the host does not end the client from inside a callback. A step of a visit
that was not dropped loses no session that was a tracked root's or is new. A visitor that has a session has
it until its visit is over; then the session is torn down or the visit was dropped. The step of a visit that
was dropped does nothing else than to end it, and when nobody has its session then, nothing is left of that
after a sweep just if it was bare before. -/
theorem run_leaves {options : ClientOptions} (single : options.config.isMultiRoot = false)
    (unarmed : ∀ move ∈ moves, move.isUnarmed = true)
    (found : ((start options).run moves).visits[number]? = some visit) :
    let w := (start options).run moves
    let v := w.after (.poll (.visit number))
    (visit.isDropped = false → ∀ n, n < v.sessions.length → w.sessions.length ≤ n ∨ w.IsOwned n →
        v.IsOwned n ∨ v.Lodges number n ∨
          v.TornDown ((start options).history (moves ++ [.poll (.visit number)])) n) ∧
    (∀ n, n < w.sessions.length → visit.stage.Holds n →
      ∀ later, (∀ move ∈ later, move.isUnarmed = true) → ∃ visit',
        (w.run later).visits[number]? = some visit' ∧ (visit'.stage.Holds n ∨
          visit'.stage = .over ∧ (visit'.isDropped = true ∨
            (w.run later).TornDown ((start options).history (moves ++ later)) n))) ∧
    (visit.isDropped = true → v = w.setVisit number .over ∧ ∀ n s, w.sessions[n]? = some s →
      visit.stage.Holds n → s.isActive = true → v.Forsakes n s →
        ∃ t, v.sweep.sessions[n]? = some t ∧ t.isDisposed = false ∧
          (v.sweep.Clears ((start options).history (moves ++ [.poll (.visit number), .sweep])) n t ↔
            w.IsBare ((start options).history moves) n)) := by
  intro w v
  have rostered : w.Rostered := run_rostered (start_rostered single) unarmed
  have both (more : List Move) (unarmed' : ∀ move ∈ more, move.isUnarmed = true) :
      ∀ move ∈ moves ++ more, move.isUnarmed = true :=
    fun move member => (List.mem_append.mp member).elim (unarmed move) (unarmed' move)
  refine ⟨fun undropped n inside before => ?_, fun n inside holds later unarmed' => ?_,
    fun dropped => ?_⟩
  · have minds := rostered.toRooted.pollVisit found undropped
      (rostered.unlent visit (List.mem_of_getElem? found))
    obtain ⟨stage, visits, -, -, loses⟩ := minds.visits
    cases gone : v.isDisposed n with
    | true =>
      have torn := run_tornDown (n := n) options
        (both [.poll (.visit number)] (List.forall_mem_singleton.mpr rfl))
      rw [run_append] at torn
      exact .inr (.inr (torn inside gone))
    | false =>
      refine (loses n gone before).imp_right fun holds => .inl ⟨{ visit with stage }, ?_, holds⟩
      change (w.pollVisit number).visits[number]? = _
      rw [visits]
      exact setVisit_found found stage
  · obtain ⟨lawful, balances⟩ := run_balances (start_isLawful options) (start_balances options) unarmed
    have lodged : Lodged number n (w.run later) :=
      run_induction (Lodged number n) (fun _ _ unarmed lodged => lodged.after unarmed) unarmed'
        ⟨rostered, lawful, ⟨_, balances⟩, inside, visit, found, .inl holds⟩
    obtain ⟨visit', found', stage⟩ := lodged.visit
    have torn := run_tornDown (n := n) options (both later unarmed')
    rw [run_append] at torn
    exact ⟨visit', found', stage.imp_right (And.imp_right (Or.imp_right (torn lodged.inside)))⟩
  · have ended : v = w.setVisit number .over := rostered.pollVisit_dropped found dropped
    refine ⟨ended, fun n s at_n _ active forsaken => ?_⟩
    have balances := (run_balances (start_isLawful options) (start_balances options)
      (both [.poll (.visit number), .sweep]
        (List.forall_mem_cons.mpr ⟨rfl, List.forall_mem_singleton.mpr rfl⟩))).2
    -- neither the step nor the sweep tells anybody anything
    have told : (start options).toldAll (moves ++ [.poll (.visit number), .sweep]) =
        (start options).toldAll moves := by
      rw [toldAll_append]
      exact List.append_nil _
    unfold history
    rw [run_append, told] at balances ⊢
    obtain ⟨t, swept, live, clears⟩ := forsaken.clears_iff (ended ▸ at_n) active balances
    refine ⟨t, swept, live, clears.trans ?_⟩
    rw [ended]
    exact isBare_congr rfl rfl

/-! ## Samples -/

/-- A visitor has the session of a root, whose server publishes something and tells of progress. -/
def Sample.hosting : List Move :=
  Sample.watched ++
    [.visit "guest" ⟨"file:///here"⟩, .poll (.visit 0),
    .send 0 [Sample.published "one",
      .notification ⟨"2.0", ProgressParams.method, some (.obj [("id", .str "token")])⟩],
    .poll (.reader 0), .poll (.diagnostics 0), .poll (.progress 0)]

/-- The visitor is done. -/
def Sample.parting : List Move := [.verdict 0 (.ok .null), .poll (.visit 0)]

/-- A visitor whose session has drawn something and reports some progress is done. The session is torn down
by that, so of what it showed nothing is left. -/
theorem run_leaves_parting :
    let w := (start Sample.single).run Sample.hosting
    Sample.single.config.isMultiRoot = false ∧
      (∀ move ∈ Sample.hosting, move.isUnarmed = true) ∧
      (∀ move ∈ Sample.parting, move.isUnarmed = true) ∧ ∃ visit,
        w.visits[0]? = some visit ∧ visit.stage.Holds 0 ∧ w.isDisposed 0 = false ∧
        ¬ w.IsBare ((start Sample.single).history Sample.hosting) 0 ∧
        (w.run Sample.parting).TornDown
          ((start Sample.single).history (Sample.hosting ++ Sample.parting)) 0 := by
  have single : Sample.single.config.isMultiRoot = false := rfl
  have unarmed : ∀ move ∈ Sample.hosting, move.isUnarmed = true := by decide
  have unarmed' : ∀ move ∈ Sample.parting, move.isUnarmed = true := by decide
  have shows : ∃ view ∈ ((start Sample.single).run Sample.hosting).host.views,
      shown ((start Sample.single).history Sample.hosting) 1 view.id ≠ [] := by decide
  have done : (((start Sample.single).run Sample.hosting).run Sample.parting).visits[0]?.map
      (fun visit => (visit.stage, visit.isDropped)) = some (.over, false) := by decide
  refine ⟨single, unarmed, unarmed', _, rfl, rfl, by decide, fun bare => ?_, ?_⟩
  · obtain ⟨view, visible, something⟩ := shows
    exact something (bare.views view visible)
  · have visiting : ((start Sample.single).run Sample.hosting).visits[0]? = some _ := rfl
    obtain ⟨visit, found, stage⟩ := (run_leaves single unarmed visiting).2.1 0 (by decide) rfl
      Sample.parting unarmed'
    rw [found] at done
    simp only [Option.map_some, Option.some.injEq, Prod.mk.injEq] at done
    obtain ⟨left, undropped⟩ := done
    rw [left] at stage
    obtain holds | ⟨-, dropped | torn⟩ := stage
    · exact holds.elim
    · exact Bool.noConfusion (undropped.symm.trans dropped)
    · exact torn

/-- The visit is dropped instead. -/
def Sample.abandoned : List Move :=
  Sample.hosting ++ [.drop "guest", .poll (.visit 0), .sweep]

/-- The visit is over and nobody has the session any more, but it was not disposed: what it has drawn is
still shown, and its reporter was not completed. -/
theorem run_leaves_behind :
    let w := (start Sample.single).run Sample.abandoned
    let events := (start Sample.single).history Sample.abandoned
    (w.visits[0]?).map Visit.stage = some .over ∧ w.holds 0 = false ∧ w.isDisposed 0 = false ∧
      (∃ view ∈ w.host.views, shown events 1 view.id ≠ []) ∧
      w.host.reporterSession? 1 = some 0 ∧ completed events = [] ∧ ¬ w.TornDown events 0 := by
  have live : ((start Sample.single).run Sample.abandoned).isDisposed 0 = false := by decide
  refine ⟨by decide, by decide, live, by decide, by decide, by decide, ?_⟩
  rintro ⟨s, found, disposed, -⟩
  rw [isDisposed_of_found found, disposed] at live
  cases live

end World

end LanguageClient
