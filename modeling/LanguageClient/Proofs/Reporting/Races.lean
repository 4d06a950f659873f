import LanguageClient.Proofs.Reporting.Board

/-!
# Notifications in a race

A session handles one notification at a time, but a board takes up a notification also while others are
being handled. In a `Race`, any of them may go on next, the host answers them in any order, and the board
may be ended at any moment. A race keeps account of the reporters that were made, each with the token of
the notification that it was made for, and of what they were told.

Whatever the order, a reporter hears of nothing after it was completed (`Race.run_final`), and a reporter
that was not completed is in a slot (`Race.run_uncompleted`). Whether the slot still belongs to a token is
another question.
-/

namespace LanguageClient

/-- The slot of a notification that is still being handled. -/
def ProgressStage.slot? : ProgressStage → Option Nat
  | .waiting slot | .creating slot => some slot
  | .finished _ => none

/-- A reporter hears of nothing after it was completed, and is not completed again. -/
def Final (events : List ReporterEvent) : Prop :=
  events.Pairwise fun event later => ∀ reporter, event = .complete reporter → later.about ≠ reporter

/-- A reporter is among the completions if its completion is among the events. -/
theorem mem_completions {events : List ReporterEvent} {reporter : Nat} :
    reporter ∈ completions events ↔ .complete reporter ∈ events := by
  refine List.mem_flatMap.trans ⟨?_, fun member => ⟨_, member, List.mem_singleton_self _⟩⟩
  rintro ⟨event, member, same⟩
  match event, same with
  | .complete _, same => exact List.mem_singleton.mp same ▸ member

/-- Events of which none is a completion may come before others: what is final stays so, because only a
completion says something of what follows. -/
theorem Final.append {first second : List ReporterEvent}
    (updates : ∀ event ∈ first, ∀ reporter, event ≠ .complete reporter) (last : Final second) :
    Final (first ++ second) := by
  refine List.pairwise_append.mpr ⟨?_, last, ?_⟩
  · refine List.Pairwise.imp_of_mem ?_ (List.pairwise_of_forall fun _ _ => trivial)
    exact fun member _ _ reporter same => absurd same (updates _ member reporter)
  · exact fun event member _ _ reporter same => absurd same (updates event member reporter)

/-- Completions of reporters that are told apart are final, in whatever order. The end of a board tells its
reporters nothing else. -/
theorem final_of_completions {events : List ReporterEvent}
    (all : ∀ event ∈ events, event = .complete event.about) (nodup : (completions events).Nodup) :
    Final events := by
  have abouts : completions events = events.map ReporterEvent.about := by
    unfold completions
    rw [List.map_eq_flatMap]
    refine List.flatMap_congr fun event member => ?_
    rw [all event member]
    rfl
  rw [abouts] at nodup
  refine (List.pairwise_map.mp nodup).imp fun {event later} apart reporter same heard => ?_
  rw [same] at apart
  exact apart heard.symm

namespace ProgressBoard

variable {board after : ProgressBoard} {call slot : Nat} {params : ProgressParams}

/-- What may happen next to the notifications of a board. -/
inductive Move where
  | begin (params : ProgressParams)
  | advance (call : Nat)
  | created (call reporter : Nat)
  | refused (call : Nat) (refusal : HostError)
  | completeAll

/-! ## What the moves do to a board -/

/-- A notification that is still being handled is not the one that was finished, and is as it was before.
The conditions on unfinished notifications are carried over a mark by this. -/
theorem of_mark_finished {n : Nat} {found : ProgressCall} {refusal : Option HostError}
    (known : (board.mark call (.finished refusal)).calls[n]? = some found)
    (unended : found.stage.slot? = some slot) : call ≠ n ∧ board.calls[n]? = some found := by
  rw [getElem?_mark] at known
  obtain ⟨before, at_n, rfl⟩ := Option.map_eq_some_iff.mp known
  by_cases same : call = n
  · rw [if_pos same] at unended
    cases unended
  · rw [if_neg same]
    exact ⟨same, at_n⟩

/-- What the beginning of a notification does to a board: a closed board only counts it, a token with a slot
lets it wait there, and a new token gets a vacant slot at the end. -/
theorem begin_cases (board : ProgressBoard) (params : ProgressParams) :
    board.isClosed = true ∧ (board.begin params).2 =
        { board with calls := board.calls ++ [⟨params, .finished none⟩] } ∨
      (∃ slot, board.tokens.lookup params.id = some slot ∧ (board.begin params).2 =
        { board with calls := board.calls ++ [⟨params, .waiting slot⟩] }) ∨
      (board.tokens.lookup params.id = none ∧ (board.begin params).2 =
        { board with
          slots := board.slots ++ [.vacant]
          tokens := board.tokens ++ [(params.id, board.slots.length)]
          calls := board.calls ++ [⟨params, .waiting board.slots.length⟩] }) := by
  unfold ProgressBoard.begin
  split
  next closed => exact .inl ⟨closed, rfl⟩
  next =>
    unfold slotOf
    cases known : board.tokens.lookup params.id with
    | some slot => exact .inr (.inl ⟨slot, rfl, rfl⟩)
    | none => exact .inr (.inr ⟨rfl, rfl⟩)

/-- No slot gets or loses a reporter when a notification begins. A new slot is vacant. -/
theorem reporters_begin (board : ProgressBoard) (params : ProgressParams) :
    (board.begin params).2.reporters = board.reporters := by
  obtain ⟨-, begun⟩ | ⟨slot, -, begun⟩ | ⟨-, begun⟩ := board.begin_cases params
  all_goals rw [begun]
  · rfl
  · rfl
  · exact List.flatMap_append.trans (List.append_nil _)

/-! ## Notifications that wait for the host -/

/-- Each notification that waits for the host has a slot for itself, which is to be filled. -/
structure Claims (board : ProgressBoard) : Prop where
  creating : ∀ {n : Nat} {params : ProgressParams} {slot : Nat},
    board.calls[n]? = some ⟨params, .creating slot⟩ → board.slots[slot]? = some .creating
  alone : ∀ {n m : Nat} {params later : ProgressParams} {slot : Nat},
    board.calls[n]? = some ⟨params, .creating slot⟩ →
      board.calls[m]? = some ⟨later, .creating slot⟩ → n = m

/-- A board keeps the claims on its slots if each claim that it has was there before, and the slots that
were being filled are being filled still. The steps of a board that ask for nothing all come under this. -/
theorem Claims.mono (claims : board.Claims)
    (kept : ∀ {n : Nat} {params : ProgressParams} {slot : Nat},
      after.calls[n]? = some ⟨params, .creating slot⟩ →
        board.calls[n]? = some ⟨params, .creating slot⟩ ∧
          (board.slots[slot]? = some .creating → after.slots[slot]? = some .creating)) :
    after.Claims :=
  ⟨fun found => (kept found).2 (claims.creating (kept found).1),
    fun first second => claims.alone (kept first).1 (kept second).1⟩

/-- Nobody waits for the host on a new board. -/
theorem claims_new (suffix : String) : (new suffix).Claims := ⟨nofun, nofun⟩

/-- A notification that begins claims no slot: it waits, or it is finished at once. -/
theorem Claims.begin (claims : board.Claims) (params : ProgressParams) :
    (board.begin params).2.Claims := by
  obtain ⟨-, begun⟩ | ⟨place, -, begun⟩ | ⟨-, begun⟩ := board.begin_cases params
  all_goals
    rw [begun]
    refine claims.mono fun known => ⟨(getElem?_concat_iff.mp known).resolve_right nofun, ?_⟩
  · exact id
  · exact id
  · exact fun creating => getElem?_concat_iff.mpr (.inl creating)

/-- A notification asks the host for the reporter of its slot. The slot was vacant, hence claimed by no
other, and is now to be filled. -/
theorem Claims.ask (claims : board.Claims) (vacant : board.slots[slot]? = some .vacant) :
    ((board.put slot .creating).mark call (.creating slot)).Claims := by
  have fresh {n : Nat} {params : ProgressParams} :
      board.calls[n]? ≠ some ⟨params, .creating slot⟩ := by
    intro found
    cases vacant.symm.trans (claims.creating found)
  have cases_of {n place : Nat} {params : ProgressParams}
      (known : ((board.put slot .creating).mark call (.creating slot)).calls[n]? =
        some ⟨params, .creating place⟩) :
      call = n ∧ slot = place ∨
        slot ≠ place ∧ board.calls[n]? = some ⟨params, .creating place⟩ := by
    rw [getElem?_mark] at known
    obtain ⟨before, at_n, same⟩ := Option.map_eq_some_iff.mp known
    split at same
    next here =>
      cases same
      exact .inl ⟨here, rfl⟩
    next =>
      refine .inr ⟨?_, same ▸ at_n⟩
      rintro rfl
      exact fresh (same ▸ at_n)
  have inside := (List.getElem?_eq_some_iff.mp vacant).1
  refine ⟨fun known => ?_, fun first second => ?_⟩
  · obtain ⟨-, rfl⟩ | ⟨elsewhere, before⟩ := cases_of known
    · exact List.getElem?_set_self inside
    · exact (List.getElem?_set_ne elsewhere).trans (claims.creating before)
  · obtain ⟨rfl, rfl⟩ | ⟨elsewhere, before⟩ := cases_of first
    · obtain ⟨same, -⟩ | ⟨apart, -⟩ := cases_of second
      · exact same
      · exact absurd rfl apart
    · obtain ⟨-, same⟩ | ⟨-, too⟩ := cases_of second
      · exact absurd same elsewhere
      · exact claims.alone before too

/-- A notification that is finished gives up its claim, and the other claims stay as they are. -/
theorem Claims.mark (claims : board.Claims) (call : Nat) (refusal : Option HostError) :
    (board.mark call (.finished refusal)).Claims :=
  claims.mono fun known => ⟨(of_mark_finished known rfl).2, id⟩

/-- Forgetting a token touches neither a slot nor a notification. -/
theorem Claims.evict (claims : board.Claims) (token : String) (slot : Nat) :
    (board.evict token slot).Claims := by
  refine claims.mono fun known => ?_
  rw [calls_evict] at known
  rw [slots_evict]
  exact ⟨known, id⟩

/-- A notification that waited for the host is finished, and something else is in its slot. No other claim
is lost by that, since the slot was claimed by this one alone. -/
theorem Claims.finish (claims : board.Claims)
    (found : board.calls[call]? = some ⟨params, .creating slot⟩) (content : ReporterSlot)
    (refusal : Option HostError) :
    ((board.put slot content).mark call (.finished refusal)).Claims := by
  refine claims.mono fun {n later other} known => ?_
  obtain ⟨apart, before⟩ := of_mark_finished known rfl
  have still : board.calls[n]? = some ⟨later, .creating other⟩ := before
  refine ⟨still, fun creating => ?_⟩
  have elsewhere : slot ≠ other := by
    rintro rfl
    exact apart (claims.alone found still)
  exact (List.getElem?_set_ne elsewhere).trans creating

/-- A notification is delivered to a slot that is ready, or what was left of it is completed there. Only
that slot may change, and it was not being filled. -/
theorem Claims.deliver (claims : (board.mark call (.finished none)).Claims) {reporter : Option Nat}
    (ready : board.slots[slot]? = some (.ready reporter)) :
    (board.deliver call slot params).1.Claims := by
  have empty {other : Nat} (creating : board.slots[other]? = some .creating) :
      (board.put slot (.ready none)).slots[other]? = some .creating := by
    have elsewhere : slot ≠ other := by
      rintro rfl
      cases ready.symm.trans creating
    exact (List.getElem?_set_ne elsewhere).trans creating
  rw [deliver_fst ready]
  split
  · exact claims.mono fun known => ⟨known, empty⟩
  split
  · refine claims.mono fun known => ?_
    rw [put, slots_evict]
    rw [put, calls_evict] at known
    exact ⟨known, empty⟩
  · exact claims

/-! ## What is told -/

/-- Completing one slot is one completion at most, so it is final. -/
theorem complete_final (board : ProgressBoard) (slot : Nat) : Final (board.complete slot).2 := by
  unfold complete
  split
  · exact List.pairwise_singleton ..
  · exact .nil

/-- A delivery tells its reporter what is new first and completes it last. -/
theorem deliver_final (board : ProgressBoard) (call slot : Nat) (params : ProgressParams) :
    Final (board.deliver call slot params).2 := by
  have updates : ∀ event ∈ board.updates slot params, ∀ reporter, event ≠ .complete reporter := by
    unfold ProgressBoard.updates
    split
    · split
      · rintro event member reporter rfl
        cases List.mem_singleton.mp member
      · rintro event ⟨⟩
    · rintro event ⟨⟩
  cases closed : board.isClosed with
  | true =>
    rw [deliver_of_closed closed]
    exact complete_final ..
  | false =>
    rw [deliver_eq closed]
    split
    · exact .append updates (complete_final ..)
    · exact List.append_nil (board.updates slot params) ▸ Final.append updates .nil

/-- The end of a board completes each reporter that it holds, and no reporter twice if the board held none
twice. -/
theorem completeAll_final (nodup : board.reporters.Nodup) : Final board.completeAll.2 := by
  obtain ⟨contents, events, completed, exchanges, told, -⟩ := board.completeAll_empties
  rw [completed]
  exact final_of_completions told (exchanges.split.nodup_iff.mp nodup).of_append_left

/-- A board that was ended is closed. -/
theorem isClosed_completeAll (board : ProgressBoard) : board.completeAll.1.isClosed = true := by
  obtain ⟨contents, events, completed, -⟩ := board.completeAll_empties
  rw [completed]

/-- The reporters that a board held are those that its end completes and those that it holds still. That the
latter are none takes more than this, see `Race.Rooted`. -/
theorem completeAll_exchanges (board : ProgressBoard) :
    Exchanges board.reporters board.completeAll.2 board.completeAll.1.reporters := by
  obtain ⟨contents, events, completed, exchanges, -⟩ := board.completeAll_empties
  rw [completed]
  exact exchanges

/-- The end of a board leaves the notifications and the slots that are being filled as they are: it
completes what is ready and takes nothing from who waits. -/
theorem Claims.completeAll (claims : board.Claims) : board.completeAll.1.Claims := by
  obtain ⟨contents, events, completed, -, -, emptied⟩ := board.completeAll_empties
  rw [completed]
  refine claims.mono fun known => ⟨known, fun creating => ?_⟩
  refine (emptied _).trans ?_
  rw [creating]
  split <;> rfl

end ProgressBoard

/-! ## Races -/

/-- A board whose notifications are handled in any order. -/
structure Race where
  board : ProgressBoard
  /-- The reporters that were made, with the tokens that they were made for. -/
  made : List (String × Nat)
  told : List ReporterEvent

namespace Race

variable {race next : Race} {suffix : String} {move : ProgressBoard.Move}
  {moves : List ProgressBoard.Move} {call slot : Nat} {params : ProgressParams}

def start (suffix : String) : Race := ⟨.new suffix, [], []⟩

/-- The reporters that were made. -/
abbrev reporters (race : Race) : List Nat := race.made.map Prod.snd

/-- The reporters hear of something while the board changes. -/
def tells (race : Race) (found : ProgressBoard × List ReporterEvent) : Race :=
  { race with board := found.1, told := race.told ++ found.2 }

/-- Being told nothing leaves what the reporters have heard as it was. -/
theorem tells_nil (race : Race) (board : ProgressBoard) :
    race.tells (board, []) = { race with board } := by
  unfold tells
  rw [List.append_nil]

/-- The host makes a reporter for a slot. -/
def gets (race : Race) (token : String) (slot reporter : Nat) : Race :=
  { race with
    board := race.board.put slot (.ready (some reporter))
    made := race.made ++ [(token, reporter)] }

def after (race : Race) : ProgressBoard.Move → Race
  | .begin params => { race with board := (race.board.begin params).2 }
  | .advance call => race.tells (race.board.advance call)
  | .created call reporter =>
    match race.board.calls[call]? with
    | some ⟨params, .creating _⟩ =>
      { race with made := race.made ++ [(params.id, reporter)] }.tells
        (race.board.created call reporter)
    | _ => race
  | .refused call refusal => { race with board := race.board.refused call refusal }
  | .completeAll => race.tells race.board.completeAll

def run (race : Race) (moves : List ProgressBoard.Move) : Race := moves.foldl after race

/-! ## One move -/

/-- What a move comes down to. -/
inductive Steps (race : Race) : ProgressBoard.Move → Race → Prop
  | stays (move : ProgressBoard.Move) : Steps race move race
  | begins (params : ProgressParams) :
    Steps race (.begin params) { race with board := (race.board.begin params).2 }
  | asks {call slot : Nat} {params : ProgressParams}
    (found : race.board.calls[call]? = some ⟨params, .waiting slot⟩)
    (vacant : race.board.slots[slot]? = some .vacant) :
    Steps race (.advance call)
      { race with board := (race.board.put slot .creating).mark call (.creating slot) }
  | delivers {call slot : Nat} {params : ProgressParams} {reporter : Option Nat}
    (found : race.board.calls[call]? = some ⟨params, .waiting slot⟩)
    (ready : race.board.slots[slot]? = some (.ready reporter)) :
    Steps race (.advance call) (race.tells (race.board.deliver call slot params))
  | makes {call slot : Nat} {params : ProgressParams}
    (found : race.board.calls[call]? = some ⟨params, .creating slot⟩) (reporter : Nat) :
    Steps race (.created call reporter)
      ((race.gets params.id slot reporter).tells
        ((race.board.put slot (.ready (some reporter))).deliver call slot params))
  | refuses {call slot : Nat} {params : ProgressParams}
    (found : race.board.calls[call]? = some ⟨params, .creating slot⟩) (refusal : HostError) :
    Steps race (.refused call refusal)
      { race with
        board := ((race.board.put slot .vacant).evict params.id slot).mark call
          (.finished (some refusal)) }
  | ends : Steps race .completeAll (race.tells race.board.completeAll)

/-- Every move of a race is one of the steps in the list above. The lemmas below are by cases on the step,
and no longer on what a board finds where. -/
theorem steps_after (race : Race) (move : ProgressBoard.Move) :
    race.Steps move (race.after move) := by
  cases move with
  | begin params => exact .begins params
  | advance call =>
    change race.Steps _ (race.tells (race.board.advance call))
    unfold ProgressBoard.advance
    split
    next params slot found =>
      split
      next reporter ready => exact .delivers found ready
      next vacant =>
        rw [tells_nil]
        exact .asks found vacant
      next =>
        rw [tells_nil]
        exact .stays _
    next =>
      rw [tells_nil]
      exact .stays _
  | created call reporter =>
    dsimp only [after]
    split
    next params slot found =>
      unfold ProgressBoard.created
      rw [found]
      exact .makes found reporter
    next => exact .stays _
  | refused call refusal =>
    dsimp only [after]
    unfold ProgressBoard.refused
    split
    next params slot found => exact .refuses found refusal
    next => exact .stays _
  | completeAll => exact .ends

/-- A board that was ended stays closed, whatever comes: no notification and no answer of the host opens it
again. -/
theorem Steps.isClosed (steps : race.Steps move next) (closed : race.board.isClosed = true) :
    next.board.isClosed = true := by
  cases steps with
  | stays | asks => exact closed
  | begins params =>
    obtain ⟨-, begun⟩ | ⟨slot, -, begun⟩ | ⟨-, begun⟩ := race.board.begin_cases params
    all_goals
      dsimp only
      rw [begun]
      exact closed
  | delivers | makes => exact (ProgressBoard.isClosed_deliver ..).trans closed
  | refuses found refusal => exact (ProgressBoard.isClosed_evict ..).trans closed
  | ends => exact race.board.isClosed_completeAll

/-- A race in which the board was ended at some moment has a closed board at the end. -/
theorem run_isClosed (ended : .completeAll ∈ moves) : (race.run moves).board.isClosed = true := by
  obtain ⟨before, later, rfl⟩ := List.append_of_mem ended
  unfold run
  rw [List.foldl_append, List.foldl_cons]
  exact List.foldlRecOn (motive := fun race : Race => race.board.isClosed = true) later after
    (ProgressBoard.isClosed_completeAll _) fun race closed move _ =>
      (race.steps_after move).isClosed closed

/-! ## Every race -/

/-- The reporters that were made are those that were completed and those that are in a slot. -/
structure Tallied (race : Race) : Prop where
  split : race.reporters.Perm (completions race.told ++ race.board.reporters)
  about : ∀ event ∈ race.told, event.about ∈ race.reporters
  last : race.reporters.Nodup → Final race.told

/-- The account is about which reporters are in slots and not about which slots these are. -/
theorem Tallied.of_perm (tallied : race.Tallied) {board : ProgressBoard}
    (same : board.reporters.Perm race.board.reporters) : { race with board }.Tallied :=
  ⟨tallied.split.trans (same.symm.append_left _), tallied.about, tallied.last⟩

/-- A reporter that the host makes is one more on either side of the account: it was made, and it is in a
slot that held none. -/
theorem Tallied.gets (tallied : race.Tallied) (creating : race.board.slots[slot]? = some .creating)
    (token : String) (reporter : Nat) : (race.gets token slot reporter).Tallied := by
  have more : (race.gets token slot reporter).reporters = race.reporters ++ [reporter] :=
    List.map_append
  have held : (race.board.put slot (.ready (some reporter))).reporters.Perm
      (reporter :: race.board.reporters) :=
    ProgressBoard.reporters_put creating (.ready (some reporter))
  refine ⟨?_, fun event member => ?_, fun nodup => ?_⟩
  · rw [more]
    refine List.perm_append_comm.trans ?_
    refine ((tallied.split.cons reporter).trans List.perm_middle.symm).trans ?_
    exact held.symm.append_left _
  · rw [more]
    exact List.mem_append_left _ (tallied.about event member)
  · rw [more] at nodup
    exact tallied.last nodup.of_append_left

/-- What the reporters are told is added to the account. Those that are completed leave their slots, and as
they were in slots until then, nothing was told to them after an earlier completion. -/
theorem Tallied.tells (tallied : race.Tallied) {found : ProgressBoard × List ReporterEvent}
    (exchanges : ProgressBoard.Exchanges race.board.reporters found.2 found.1.reporters)
    (last : race.board.reporters.Nodup → Final found.2) : (race.tells found).Tallied := by
  refine ⟨?_, fun event member => ?_, fun nodup => ?_⟩
  · change race.reporters.Perm (completions (race.told ++ found.2) ++ found.1.reporters)
    rw [completions_append, List.append_assoc]
    exact tallied.split.trans (exchanges.split.append_left _)
  · refine (List.mem_append.mp member).elim (tallied.about event) fun now => ?_
    exact tallied.split.mem_iff.mpr (List.mem_append_right _ (exchanges.about event now))
  · have apart := List.nodup_append'.mp (tallied.split.nodup_iff.mp nodup)
    refine List.pairwise_append.mpr ⟨tallied.last nodup, last apart.2.1, ?_⟩
    rintro _ completed later now reporter rfl heard
    exact apart.2.2 (mem_completions.mpr completed) (heard ▸ exchanges.about later now)

/-- The reporters of a race are accounted for, and the notifications that wait for the host are apart. -/
structure Fair (race : Race) : Prop extends Tallied race where
  claims : race.board.Claims

/-- A race begins with no reporter and nobody who waits. -/
theorem fair_start (suffix : String) : (start suffix).Fair where
  split := .nil
  about := nofun
  last _ := .nil
  claims := ProgressBoard.claims_new suffix

/-- One step keeps the account of the reporters and the claims on the slots, by cases on the step. A
reporter that is made goes into a slot first and hears of its notification next, which are two of the lemmas
above, one after the other. -/
theorem Fair.steps (fair : race.Fair) (steps : race.Steps move next) : next.Fair := by
  cases steps with
  | stays => exact fair
  | begins params =>
    exact ⟨fair.of_perm (.of_eq (race.board.reporters_begin params)), fair.claims.begin params⟩
  | asks found vacant =>
    exact ⟨fair.of_perm (ProgressBoard.reporters_put vacant .creating), fair.claims.ask vacant⟩
  | @delivers call slot params reporter found ready =>
    refine ⟨fair.tells (race.board.deliver_exchanges ..) fun _ => race.board.deliver_final .., ?_⟩
    exact (fair.claims.mark call none).deliver ready
  | @makes call slot params found reporter =>
    have creating := fair.claims.creating found
    have inside := (List.getElem?_eq_some_iff.mp creating).1
    refine ⟨(fair.gets creating params.id reporter).tells (ProgressBoard.deliver_exchanges ..)
      fun _ => ProgressBoard.deliver_final .., ?_⟩
    have finished := fair.claims.finish found (.ready (some reporter)) none
    have ready : (race.board.put slot (.ready (some reporter))).slots[slot]? =
        some (.ready (some reporter)) := List.getElem?_set_self inside
    exact finished.deliver ready
  | @refuses call slot params found refusal =>
    have creating := fair.claims.creating found
    rw [ProgressBoard.mark_evict]
    refine ⟨fair.of_perm ?_, (fair.claims.finish found .vacant _).evict ..⟩
    rw [ProgressBoard.reporters_evict]
    exact ProgressBoard.reporters_put creating .vacant
  | ends =>
    exact ⟨fair.tells race.board.completeAll_exchanges ProgressBoard.completeAll_final,
      fair.claims.completeAll⟩

/-- Every race is fair from its start to its end, by the step. -/
theorem run_fair (suffix : String) (moves : List ProgressBoard.Move) :
    ((start suffix).run moves).Fair :=
  List.foldlRecOn moves after (fair_start suffix) fun race fair move _ => fair.steps (race.steps_after move)

/-- In every race, a reporter hears of nothing after it was completed. The host numbers the reporters that
it makes, which is why no two are the same. -/
theorem run_final (nodup : ((start suffix).run moves).reporters.Nodup) :
    Final ((start suffix).run moves).told :=
  (run_fair suffix moves).last nodup

/-- In every race, a reporter was completed unless it is in a slot: it is in one of the two by the account,
and not in both, as no two reporters are the same. -/
theorem run_uncompleted (nodup : ((start suffix).run moves).reporters.Nodup) {reporter : Nat}
    (made : reporter ∈ ((start suffix).run moves).reporters) :
    .complete reporter ∉ ((start suffix).run moves).told ↔
      ∃ slot, ((start suffix).run moves).board.live? slot = some reporter := by
  have fair := run_fair suffix moves
  have apart := (List.nodup_append'.mp (fair.split.nodup_iff.mp nodup)).2.2
  rw [← mem_completions, ← ProgressBoard.mem_reporters]
  constructor
  · exact fun uncompleted =>
      (List.mem_append.mp (fair.split.mem_iff.mp made)).resolve_left uncompleted
  · exact fun held completed => apart completed held

end Race

end LanguageClient
