import LanguageClient.Proofs.Reporting.Races

/-!
# Calm races

A race is calm if the host never refuses a notification while another waits for the same slot. In a calm
race each reporter is in the slot of its token, and a closed board holds no reporter (`Race.Rooted`). So a
token has one reporter at a time (`Race.run_unique`), and when the board was ended, each reporter was
completed once (`Race.run_completed`).

A race that is not calm may lose a reporter. `ProgressBoard.refused_orphans` says how: the notification that
waited gets a reporter in a slot that its token has lost.
-/

namespace LanguageClient

namespace ProgressBoard

variable {board : ProgressBoard} {slot : Nat} {params : ProgressParams}

/-- The host refuses a notification while another waits for the same slot. -/
def Contends (board : ProgressBoard) (move : Move) : Prop :=
  board.isClosed = false ∧ ∃ (call other slot : Nat) (params later : ProgressParams) (refusal : HostError),
    move = .refused call refusal ∧ board.calls[call]? = some ⟨params, .creating slot⟩ ∧
      board.calls[other]? = some ⟨later, .waiting slot⟩

/-- A token is not forgotten with the slot of another: evicting looks at the slot, and each token has one
entry. -/
theorem mem_tokens_evict_of_ne (keys : (board.tokens.map Prod.fst).Nodup) {token : String}
    {entry : String × Nat} (member : entry ∈ board.tokens) (apart : entry.2 ≠ slot) :
    entry ∈ (board.evict token slot).tokens := by
  unfold evict
  split
  next known =>
    refine List.mem_filter.mpr ⟨member, decide_eq_true fun same => apart ?_⟩
    have found : board.tokens.lookup entry.1 = some entry.2 := lookup_of_mem keys member
    exact Option.some.inj (found.symm.trans (same ▸ known))
  next => exact member

/-- A slot that is not ready is not ready with another content either, unless this one is. So the other
slots and this one are ready exactly where they were. -/
theorem ready_put_iff {old new : ReporterSlot} (found : board.slots[slot]? = some old)
    (unready : ∀ reporter, old ≠ .ready reporter) (still : ∀ reporter, new ≠ .ready reporter)
    {other : Nat} {reporter : Option Nat} :
    (board.put slot new).slots[other]? = some (.ready reporter) ↔
      board.slots[other]? = some (.ready reporter) := by
  by_cases same : slot = other
  · subst same
    have inside := (List.getElem?_eq_some_iff.mp found).1
    have put : (board.put slot new).slots[slot]? = some new := List.getElem?_set_self inside
    rw [put, found]
    exact iff_of_false (fun equal => still _ (Option.some.inj equal))
      (fun equal => unready _ (Option.some.inj equal))
  · rw [show (board.put slot new).slots[other]? = _ from List.getElem?_set_ne same]

/-- If the host refuses a notification on an open board while another waits for the same slot, the other
gets its reporter in a slot of no token: the token is absent, so that the next notification asks for another
reporter, and the end of the board does not complete this one. -/
theorem refused_orphans {first second : Nat} {params' : ProgressParams}
    (unclosed : board.isClosed = false)
    (creates : board.calls[first]? = some ⟨params, .creating slot⟩)
    (waits : board.calls[second]? = some ⟨params', .waiting slot⟩)
    (creating : board.slots[slot]? = some .creating)
    (lone : ∀ entry ∈ board.tokens, entry.2 = slot → entry.1 = params.id)
    (known : board.tokens.lookup params.id = some slot) (undone : params'.isDone = false)
    (refusal : HostError) (reporter : Nat) :
    let asked := ((board.refused first refusal).advance second).1
    let made := (asked.created second reporter).1
    asked.wanted? second = some (Desk.title board.suffix params') ∧
      made.live? slot = some reporter ∧ made.tokens.lookup params.id = none ∧
      made.completeAll.1.live? slot = some reporter := by
  have apart : first ≠ second := by
    rintro rfl
    cases creates.symm.trans waits
  have inside := (List.getElem?_eq_some_iff.mp creating).1
  -- the three boards that the host comes to see: refused, asked again, and answered
  let left := board.tokens.filter fun entry => entry.1 ≠ params.id
  let refused := { board.put slot .vacant with tokens := left }.mark first
    (.finished (some refusal))
  let asked := (refused.put slot .creating).mark second (.creating slot)
  let made := (asked.put slot (.ready (some reporter))).mark second (.finished none)
  have waits' : refused.calls[second]? = some ⟨params', .waiting slot⟩ := by
    rw [getElem?_mark]
    change Option.map _ board.calls[second]? = _
    rw [waits, Option.map_some, if_neg apart]
  have vacant : refused.slots[slot]? = some .vacant := List.getElem?_set_self inside
  have asks : ((board.refused first refusal).advance second).1 = asked := by
    rw [refused_eq creates known]
    unfold advance
    rw [waits']
    dsimp only
    rw [vacant]
  have busy : asked.calls[second]? = some ⟨params', .creating slot⟩ := by
    rw [getElem?_mark]
    change Option.map _ refused.calls[second]? = _
    rw [waits', Option.map_some, if_pos rfl]
  have makes : (asked.created second reporter).1 = made := by
    unfold created
    rw [busy]
    dsimp only
    have unclosed' : (asked.put slot (.ready (some reporter))).isClosed = false := unclosed
    rw [deliver_eq unclosed', if_neg (by rw [undone]; exact Bool.false_ne_true)]
  have filled : made.slots[slot]? = some (.ready (some reporter)) := by
    refine List.getElem?_set_self ?_
    simpa [asked, refused, put, mark] using inside
  have forgotten : ∀ entry ∈ made.tokens, entry.1 ≠ params.id := fun entry member =>
    of_decide_eq_true (List.mem_filter.mp member).2
  dsimp only
  rw [asks, makes]
  refine ⟨?_, live?_eq_some.mpr filled, ?_, ?_⟩
  · unfold wanted?
    rw [busy]
    rfl
  · exact lookup_filter_self
  -- completing tells only the reporters of known tokens, and no token is left for this slot
  · obtain ⟨contents, events, completed, -, -, emptied⟩ := made.completeAll_empties
    rw [completed]
    refine live?_eq_some.mpr ((emptied slot).trans ((if_neg fun held => ?_).trans filled))
    obtain ⟨entry, member, same⟩ := List.mem_map.mp held
    exact forgotten entry member (lone entry (List.mem_filter.mp member).1 same)

/-- The reporter of the second notification of a token is not completed, as the first was refused. -/
example :
    let params : ProgressParams := ⟨"t", none, none, none, none⟩
    let board := ((((new "").begin params).2.begin params).2.advance 0).1
    let asked := ((board.refused 0 Host.unavailable).advance 1).1
    (asked.created 1 1).2 = [.update 1 none none] ∧ (asked.created 1 1).1.completeAll.2 = [] := by
  decide

end ProgressBoard

namespace Race

variable {race next : Race} {suffix : String} {move : ProgressBoard.Move}
  {moves : List ProgressBoard.Move} {call slot : Nat} {params : ProgressParams}

/-- The host never refuses a notification while another waits for the same slot. -/
def Calm (race : Race) : List ProgressBoard.Move → Prop
  | [] => True
  | move :: moves => ¬ race.board.Contends move ∧ (race.after move).Calm moves

/-- Each reporter is in the slot of its token. A closed board has no reporter, unless it has just got
one that it is to complete. -/
structure Rooted (filling : Option Nat) (race : Race) : Prop where
  keys : (race.board.tokens.map Prod.fst).Nodup
  asks : race.board.isClosed = false → ∀ {n slot : Nat} {call : ProgressCall},
    race.board.calls[n]? = some call → call.stage.slot? = some slot →
      (∀ reporter, race.board.slots[slot]? ≠ some (.ready reporter)) →
        (call.params.id, slot) ∈ race.board.tokens
  owned : race.board.isClosed = false → ∀ {slot reporter : Nat},
    race.board.slots[slot]? = some (.ready (some reporter)) →
      ∃ token, (token, slot) ∈ race.board.tokens ∧ (token, reporter) ∈ race.made
  closed : race.board.isClosed = true → ∀ {slot reporter : Nat},
    race.board.slots[slot]? = some (.ready (some reporter)) → filling = some slot

/-- A race begins with no token, no call and no reporter. -/
theorem rooted_start (suffix : String) : (start suffix).Rooted none :=
  ⟨.nil, fun _ => nofun, fun _ => nofun, fun _ => nofun⟩

/-- Where no slot is being filled, it may be said that one is. -/
theorem Rooted.weaken {filling : Option Nat} (rooted : race.Rooted none) : race.Rooted filling :=
  ⟨rooted.keys, rooted.asks, rooted.owned, fun closed _ _ held => by cases rooted.closed closed held⟩

/-- A notification that begins waits in the slot of its token, an old one or one that it has just got, and
no slot gets a reporter. -/
theorem Rooted.begin (rooted : race.Rooted none) (params : ProgressParams) :
    Rooted none { race with board := (race.board.begin params).2 } := by
  obtain ⟨closed, begun⟩ | ⟨place, known, begun⟩ | ⟨unknown, begun⟩ := race.board.begin_cases params
  all_goals rw [begun]
  · refine ⟨rooted.keys, fun unclosed => ?_, rooted.owned, rooted.closed⟩
    cases unclosed.symm.trans closed
  · refine ⟨rooted.keys, fun unclosed {n slot call} found at_slot unready => ?_, rooted.owned,
      rooted.closed⟩
    obtain before | ⟨-, rfl⟩ := getElem?_concat_iff.mp found
    · exact rooted.asks unclosed before at_slot unready
    · cases at_slot
      exact mem_of_lookup known
  · have ready {slot : Nat} {reporter : Option Nat} :
        (race.board.slots ++ [ReporterSlot.vacant])[slot]? = some (.ready reporter) ↔
          race.board.slots[slot]? = some (.ready reporter) :=
      getElem?_concat_iff.trans (or_iff_left nofun)
    refine ⟨keys_concat rooted.keys unknown _, fun unclosed {n slot call} found at_slot unready => ?_,
      fun unclosed {slot reporter} held => ?_, fun closed {slot reporter} held => ?_⟩
    · obtain before | ⟨-, rfl⟩ := getElem?_concat_iff.mp found
      · refine List.mem_append_left _ (rooted.asks unclosed before at_slot fun reporter => ?_)
        exact fun held => unready reporter (ready.mpr held)
      · cases at_slot
        exact List.mem_append_right _ List.mem_cons_self
    · obtain ⟨token, known, made⟩ := rooted.owned unclosed (ready.mp held)
      exact ⟨token, List.mem_append_left _ known, made⟩
    · exact rooted.closed closed (ready.mp held)

/-- The host is asked for the reporter of a slot, which belongs to the token of the notification before and
after. -/
theorem Rooted.ask (rooted : race.Rooted none)
    (found : race.board.calls[call]? = some ⟨params, .waiting slot⟩)
    (vacant : race.board.slots[slot]? = some .vacant) :
    Rooted none
      { race with board := (race.board.put slot .creating).mark call (.creating slot) } := by
  have ready {other : Nat} {reporter : Option Nat} :
      (race.board.put slot .creating).slots[other]? = some (.ready reporter) ↔
        race.board.slots[other]? = some (.ready reporter) :=
    ProgressBoard.ready_put_iff vacant (by rintro _ ⟨⟩) (by rintro _ ⟨⟩)
  refine ⟨rooted.keys, fun unclosed {n place later} known at_slot unready => ?_,
    fun unclosed {place reporter} held => rooted.owned unclosed (ready.mp held),
    fun closed {place reporter} held => rooted.closed closed (ready.mp held)⟩
  rw [ProgressBoard.getElem?_mark] at known
  obtain ⟨before, at_n, same⟩ := Option.map_eq_some_iff.mp known
  have before_slot : before.stage.slot? = some place ∧ before.params = later.params := by
    split at same
    next here =>
      subst here
      cases found.symm.trans at_n
      subst same
      exact ⟨at_slot, rfl⟩
    next => exact ⟨same ▸ at_slot, congrArg ProgressCall.params same⟩
  rw [← before_slot.2]
  exact rooted.asks unclosed at_n before_slot.1 fun reporter held => unready reporter (ready.mpr held)

/-- The host makes a reporter for the slot of a token. If the board is closed meanwhile, this is the one
reporter that it still holds, until it hears of its notification. -/
theorem Rooted.gets (rooted : race.Rooted none)
    (found : race.board.calls[call]? = some ⟨params, .creating slot⟩)
    (creating : race.board.slots[slot]? = some .creating) (reporter : Nat) :
    (race.gets params.id slot reporter).Rooted (some slot) := by
  have inside := (List.getElem?_eq_some_iff.mp creating).1
  have elsewhere {other : Nat} (apart : slot ≠ other) :
      (race.gets params.id slot reporter).board.slots[other]? = race.board.slots[other]? :=
    List.getElem?_set_ne apart
  have here : (race.gets params.id slot reporter).board.slots[slot]? =
      some (.ready (some reporter)) := List.getElem?_set_self inside
  refine ⟨rooted.keys, fun unclosed {n place later} known at_slot unready => ?_,
    fun unclosed {place other} held => ?_, fun closed {place other} held => ?_⟩
  · have apart : slot ≠ place := by
      rintro rfl
      exact unready _ here
    exact rooted.asks unclosed known at_slot fun other held =>
      unready other ((elsewhere apart).trans held)
  · by_cases apart : slot = place
    · subst apart
      cases here.symm.trans held
      have known := rooted.asks unclosed found rfl fun other ready => by
        cases creating.symm.trans ready
      exact ⟨params.id, known, List.mem_append_right _ List.mem_cons_self⟩
    · rw [elsewhere apart] at held
      obtain ⟨token, known, made⟩ := rooted.owned unclosed held
      exact ⟨token, known, List.mem_append_left _ made⟩
  · by_cases apart : slot = place
    · exact congrArg some apart
    · rw [elsewhere apart] at held
      cases rooted.closed closed held

/-- A notification is finished. It needs its slot no longer, and the others need theirs as before. -/
theorem Rooted.mark {filling : Option Nat} (rooted : race.Rooted filling) (call : Nat)
    (refusal : Option HostError) :
    Rooted filling { race with board := race.board.mark call (.finished refusal) } :=
  ⟨rooted.keys, fun unclosed {_ _ _} known at_slot =>
    rooted.asks unclosed (ProgressBoard.of_mark_finished known at_slot).2 at_slot,
    rooted.owned, rooted.closed⟩

/-- A slot that holds no reporter any more leaves the reporters of the others where they were. -/
theorem ready_of_put {board : ProgressBoard} {content : ReporterSlot} (unheld : content.held = [])
    {other reporter : Nat}
    (held : (board.put slot content).slots[other]? = some (.ready (some reporter))) :
    slot ≠ other ∧ board.slots[other]? = some (.ready (some reporter)) := by
  have apart : slot ≠ other := by
    rintro rfl
    rw [ProgressBoard.put, List.getElem?_set, if_pos rfl] at held
    split at held
    · rw [Option.some.inj held] at unheld
      cases unheld
    · cases held
  exact ⟨apart, (List.getElem?_set_ne apart).symm.trans held⟩

/-- A slot holds no reporter any more, and its token is forgotten. No notification that is still being
handled may need the slot, unless the slot is left ready: then they are delivered to it in vain and ask for
nothing. -/
theorem Rooted.vacate (rooted : race.Rooted (some slot)) (token : String) {content : ReporterSlot}
    (unheld : content.held = []) (inside : slot < race.board.slots.length)
    (unasked : race.board.isClosed = false → ∀ {n : Nat} {call : ProgressCall},
      race.board.calls[n]? = some call → call.stage.slot? = some slot → content = .ready none) :
    Rooted none { race with board := (race.board.put slot content).evict token slot } := by
  refine ⟨(race.board.put slot content).keys_evict rooted.keys ..,
    fun unclosed {n place later} known at_slot unready => ?_,
    fun unclosed {place reporter} held => ?_, fun closed {place reporter} held => ?_⟩
  · rw [ProgressBoard.isClosed_evict] at unclosed
    rw [ProgressBoard.calls_evict] at known
    rw [ProgressBoard.slots_evict] at unready
    have apart : slot ≠ place := by
      rintro rfl
      refine unready none ((List.getElem?_set_self inside).trans ?_)
      rw [unasked unclosed known at_slot]
    have before := rooted.asks unclosed known at_slot fun reporter held =>
      unready reporter ((List.getElem?_set_ne apart).trans held)
    exact (race.board.put slot content).mem_tokens_evict_of_ne rooted.keys before apart.symm
  · rw [ProgressBoard.isClosed_evict] at unclosed
    rw [ProgressBoard.slots_evict] at held
    obtain ⟨apart, before⟩ := ready_of_put unheld held
    obtain ⟨owner, known, made⟩ := rooted.owned unclosed before
    exact ⟨owner,
      (race.board.put slot content).mem_tokens_evict_of_ne rooted.keys known apart.symm, made⟩
  · rw [ProgressBoard.isClosed_evict] at closed
    rw [ProgressBoard.slots_evict] at held
    obtain ⟨apart, before⟩ := ready_of_put unheld held
    exact absurd (Option.some.inj (rooted.closed closed before)) apart

/-- A notification is delivered to a slot that is ready. If the board is closed, that completes the reporter
that was being filled in; otherwise it is completed if the work is done, with its token. -/
theorem Rooted.deliver (rooted : race.Rooted (some slot)) {content : Option Nat}
    (ready : race.board.slots[slot]? = some (.ready content)) (call : Nat) (params : ProgressParams) :
    (race.tells (race.board.deliver call slot params)).Rooted none := by
  have inside := (List.getElem?_eq_some_iff.mp ready).1
  suffices delivered :
      Rooted none { race with board := (race.board.deliver call slot params).1 } from
    ⟨delivered.keys, delivered.asks, delivered.owned, delivered.closed⟩
  have rested := rooted.mark call none
  rw [ProgressBoard.deliver_fst ready]
  split
  next closed =>
    refine ⟨rested.keys, fun unclosed => ?_, fun unclosed => ?_, fun _ {other reporter} held => ?_⟩
    · cases unclosed.symm.trans closed
    · cases unclosed.symm.trans closed
    · obtain ⟨apart, before⟩ := ready_of_put rfl held
      exact absurd (Option.some.inj (rested.closed closed before)) apart
  next unclosed =>
    split
    · rw [ProgressBoard.put_evict]
      exact rested.vacate params.id rfl inside fun _ _ _ _ _ => rfl
    · exact ⟨rested.keys, rested.asks, rested.owned, fun closed => absurd closed unclosed⟩

/-- The host refuses a notification while no other waits for the same slot. This is where being calm is
needed, as the slot is lost to its token. -/
theorem Rooted.refuse (rooted : race.Rooted none) (claims : race.board.Claims)
    (found : race.board.calls[call]? = some ⟨params, .creating slot⟩) {refusal : HostError}
    (calm : ¬ race.board.Contends (.refused call refusal)) :
    Rooted none
      { race with
        board := ((race.board.put slot .vacant).evict params.id slot).mark call
          (.finished (some refusal)) } := by
  have inside := (List.getElem?_eq_some_iff.mp (claims.creating found)).1
  rw [ProgressBoard.mark_evict]
  refine (rooted.mark call (some refusal)).weaken.vacate params.id rfl inside ?_
  intro unclosed n later known at_slot
  obtain ⟨apart, before⟩ := ProgressBoard.of_mark_finished known at_slot
  obtain ⟨about, stage⟩ := later
  cases stage with
  | waiting place =>
    cases at_slot
    exact absurd ⟨unclosed, call, n, slot, params, about, refusal, rfl, found, before⟩ calm
  | creating place =>
    cases at_slot
    exact absurd (claims.alone found before) apart
  | finished => cases at_slot

/-- The end of the board completes the reporters of all tokens, and there are no others: a reporter in a
slot of no token would be left out. -/
theorem Rooted.completeAll (rooted : race.Rooted none) :
    (race.tells race.board.completeAll).Rooted none := by
  obtain ⟨contents, events, completed, -, -, emptied⟩ := race.board.completeAll_empties
  rw [completed]
  refine ⟨List.nodup_nil, nofun, nofun, fun _ {slot reporter} held => ?_⟩
  have there := (emptied slot).symm.trans held
  split at there
  · obtain ⟨content, -, same⟩ := Option.map_eq_some_iff.mp there
    cases content <;> cases same
  next untaken =>
    cases closed : race.board.isClosed with
    | true => exact rooted.closed closed there
    | false =>
      obtain ⟨token, known, -⟩ := rooted.owned closed there
      exact absurd (List.mem_map_of_mem (f := Prod.snd) known) untaken

/-- One step of a calm race leaves each reporter in the slot of its token, by cases on the step. -/
theorem Rooted.steps (rooted : race.Rooted none) (fair : race.Fair)
    (calm : ¬ race.board.Contends move) (steps : race.Steps move next) : next.Rooted none := by
  cases steps with
  | stays => exact rooted
  | begins params => exact rooted.begin params
  | asks found vacant => exact rooted.ask found vacant
  | delivers found ready => exact rooted.weaken.deliver ready ..
  | makes found reporter =>
    have creating := fair.claims.creating found
    have inside := (List.getElem?_eq_some_iff.mp creating).1
    exact (rooted.gets found creating reporter).deliver (List.getElem?_set_self inside) ..
  | refuses found refusal => exact rooted.refuse fair.claims found calm
  | ends => exact rooted.completeAll

/-- The same for a whole run, with the claims on the slots carried along. -/
theorem Calm.run_rooted (fair : race.Fair) (rooted : race.Rooted none) (calm : race.Calm moves) :
    (race.run moves).Rooted none := by
  induction moves generalizing race with
  | nil => exact rooted
  | cons move moves ih =>
    have steps := race.steps_after move
    exact ih (fair.steps steps) (rooted.steps fair calm.1 steps) calm.2

/-- In a calm race, a token has one reporter at a time. Two that were not completed are both in slots of the
token, by the account of the race, and a token has one slot. -/
theorem run_unique (calm : (start suffix).Calm moves)
    (nodup : ((start suffix).run moves).reporters.Nodup) {token : String} {reporter other : Nat}
    (first : (token, reporter) ∈ ((start suffix).run moves).made)
    (second : (token, other) ∈ ((start suffix).run moves).made)
    (uncompleted : .complete reporter ∉ ((start suffix).run moves).told)
    (uncompleted' : .complete other ∉ ((start suffix).run moves).told) : reporter = other := by
  have rooted := calm.run_rooted (fair_start suffix) (rooted_start suffix)
  have placed {reporter : Nat} (made : (token, reporter) ∈ ((start suffix).run moves).made)
      (uncompleted : .complete reporter ∉ ((start suffix).run moves).told) :
      ∃ slot, (token, slot) ∈ ((start suffix).run moves).board.tokens ∧
        ((start suffix).run moves).board.live? slot = some reporter := by
    obtain ⟨slot, live⟩ :=
      (run_uncompleted nodup (List.mem_map_of_mem (f := Prod.snd) made)).mp uncompleted
    have held := ProgressBoard.live?_eq_some.mp live
    cases closed : ((start suffix).run moves).board.isClosed with
    | true => cases rooted.closed closed held
    | false =>
      obtain ⟨owner, known, same⟩ := rooted.owned closed held
      cases List.inj_on_of_nodup_map nodup same made rfl
      exact ⟨slot, known, live⟩
  obtain ⟨place, known, live⟩ := placed first uncompleted
  obtain ⟨place', known', live'⟩ := placed second uncompleted'
  cases (lookup_of_mem rooted.keys known).symm.trans (lookup_of_mem rooted.keys known')
  exact Option.some.inj (live.symm.trans live')

/-- When the board was ended in a calm race, all reporters that were made are completed, each once. The
closed board holds none of them, so the account leaves only the completions. -/
theorem run_completed (calm : (start suffix).Calm moves) (ended : .completeAll ∈ moves) :
    (completions ((start suffix).run moves).told).Perm ((start suffix).run moves).reporters := by
  have rooted := calm.run_rooted (fair_start suffix) (rooted_start suffix)
  have closed : ((start suffix).run moves).board.isClosed = true := run_isClosed ended
  have empty : ((start suffix).run moves).board.reporters = [] := by
    refine List.eq_nil_iff_forall_not_mem.mpr fun reporter member => ?_
    obtain ⟨slot, live⟩ := ProgressBoard.mem_reporters.mp member
    cases rooted.closed closed (ProgressBoard.live?_eq_some.mp live)
  have split := (run_fair suffix moves).split
  rw [empty, List.append_nil] at split
  exact split.symm

end Race

end LanguageClient
