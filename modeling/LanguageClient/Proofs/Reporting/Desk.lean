import LanguageClient.Host
import LanguageClient.Proofs.Session.Reporters
import Mathlib.Data.List.Induction
import Mathlib.Data.List.Nodup
import Mathlib.Logic.Function.Basic

/-!
# Desks

What a server may expect of its notifications of progress, as a machine that knows nothing of slots and
calls. A token is absent or live, and a live token has one reporter. A notification of an absent token
asks the host for a reporter; if the host refuses, that was all. Then the reporter of the token hears of
what is new, and is completed if the work is done, which makes the token absent. The desk is closed once,
when its session is torn down, and that completes the reporters of all live tokens. This may happen
between any two notifications, and also after the host has made a reporter and before the reporter hears
of anything.

Several sessions share a host, each with a desk of its own. `Desks.play_tallies` says what follows for
the events that the host sees, whatever comes to the desks: a reporter is made for one token of one
session, it is completed once, and it hears of nothing afterwards.
-/

namespace LanguageClient

/-! ## Events about reporters -/

namespace HostEvent

/-- Whether an event is about a reporter, or about one that the host refused. -/
def isReporting : HostEvent → Bool
  | .decorated _ _ _ => false
  | _ => true

/-- The reporter that the host has made. -/
def made? : HostEvent → Option Nat
  | .reporterCreated number _ => some number
  | _ => none

/-- The reporter that the host is told something about. -/
def about? : HostEvent → Option Nat
  | .reporter event => some event.about
  | _ => none

end HostEvent

/-! ## One desk -/

/-- What comes to the desk of a session. -/
inductive Errand where
  /-- A notification is handled. It comes with what the host says if it is asked for a reporter, and
  with whether the session is torn down before the reporter hears of it. -/
  | notice (params : ProgressParams) (answer : Option Nat) (isTorn : Bool)
  | tearDown
  deriving DecidableEq, Repr

/-- The notification that is handled. -/
def Errand.params? : Errand → Option ProgressParams
  | .notice params _ _ => some params
  | .tearDown => none

structure Desk where
  /-- The live tokens with their reporters, in the order in which these were made. -/
  live : List (String × Nat)
  isClosed : Bool
  deriving DecidableEq, Repr

namespace Desk

def fresh : Desk := ⟨[], false⟩

/-- The live tokens. -/
abbrev tokens (desk : Desk) : List String := desk.live.map Prod.fst

/-- The reporters of the live tokens. -/
abbrev reporters (desk : Desk) : List Nat := desk.live.map Prod.snd

/-- The reporter of a token, if the token is live. -/
def reporter? (desk : Desk) (token : String) : Option Nat := desk.live.lookup token

/-- The desk when an absent token has got a reporter. -/
def opened (desk : Desk) (params : ProgressParams) (reporter : Nat) : Desk :=
  { desk with live := desk.live ++ [(params.id, reporter)] }

/-- What the reporter of a notification is titled; it has no title if the notification has none. -/
def title (suffix : String) (params : ProgressParams) : Option String :=
  params.title.map fun title => title ++ suffix

/-- Asks for a reporter if the token is absent. -/
def ask (suffix : String) (desk : Desk) (params : ProgressParams) (answer : Option Nat) :
    Desk × List HostEvent :=
  if (desk.reporter? params.id).isSome then (desk, [])
  else
    match answer with
    | some reporter =>
      (desk.opened params reporter, [.reporterCreated reporter (title suffix params)])
    | none => (desk, [.reporterRefused (title suffix params)])

/-- A reporter hears of a notification that says something new, or that the work goes on. -/
def updates (params : ProgressParams) (reporter : Nat) : List HostEvent :=
  if params.percentage.isSome ∨ params.message.isSome ∨ params.done ≠ some true then
    [.reporter (.update reporter params.percentage params.message)]
  else []

/-- The reporter of a live token hears of what is new, and is completed if the work is done. -/
def tell (desk : Desk) (params : ProgressParams) : Desk × List HostEvent :=
  match desk.reporter? params.id with
  | none => (desk, [])
  | some reporter =>
    if params.done = some true then
      ({ desk with live := desk.live.filter fun entry => entry.1 ≠ params.id },
       updates params reporter ++ [.reporter (.complete reporter)])
    else (desk, updates params reporter)

/-- Completes the reporters of all live tokens. -/
def tearDown (desk : Desk) : Desk × List HostEvent :=
  (⟨[], true⟩, desk.live.map fun entry => .reporter (.complete entry.2))

/-- The desk is closed if the session is torn down. -/
def tearDownIf (desk : Desk) (isTorn : Bool) : Desk × List HostEvent :=
  if isTorn then desk.tearDown else (desk, [])

/-- The desk after an errand, and what the host sees of it. A closed desk takes no notice of anything. -/
def after (suffix : String) (desk : Desk) : Errand → Desk × List HostEvent
  | .tearDown => desk.tearDown
  | .notice params answer isTorn =>
    if desk.isClosed then (desk, [])
    else
      let (desk, asked) := desk.ask suffix params answer
      let (desk, ended) := desk.tearDownIf isTorn
      let (desk, told) := desk.tell params
      (desk, asked ++ ended ++ told)

/-- The desk after several errands. -/
def play (suffix : String) (desk : Desk) : List Errand → Desk × List HostEvent
  | [] => (desk, [])
  | errand :: errands =>
    let (desk, events) := desk.after suffix errand
    let (desk, later) := desk.play suffix errands
    (desk, events ++ later)

/-- Errands that come one after the other: the later ones find the desk as the earlier ones have left it. -/
theorem play_append (suffix : String) (desk : Desk) (first second : List Errand) :
    desk.play suffix (first ++ second) =
      (((desk.play suffix first).1.play suffix second).1,
        (desk.play suffix first).2 ++ ((desk.play suffix first).1.play suffix second).2) := by
  induction first generalizing desk with
  | nil => rfl
  | cons errand errands ih => simp only [List.cons_append, play, ih, List.append_assoc]

section Notices

variable {suffix : String} {desk : Desk} {params : ProgressParams}

/-- A closed desk takes no notice of a notification. -/
theorem play_closed (closed : desk.isClosed = true) (answer : Option Nat) (isTorn : Bool) :
    desk.play suffix [.notice params answer isTorn] = (desk, []) := by
  simp only [play, after, closed, if_true, List.append_nil]

/-- A notification of a live token goes to its reporter. The host is asked for nothing, so the errand comes
with no answer of it. -/
theorem play_live (unclosed : desk.isClosed = false) {reporter : Nat}
    (live : desk.reporter? params.id = some reporter) :
    desk.play suffix [.notice params none false] = desk.tell params := by
  have asked : desk.ask suffix params none = (desk, []) := by
    unfold ask
    rw [live]
    rfl
  simp only [play, after, unclosed, asked, tearDownIf, Bool.false_eq_true, if_false,
    List.nil_append, List.append_nil]

/-- A notification of an absent token comes to nothing if the host refuses a reporter, apart from the
refusal itself. -/
theorem play_refused (unclosed : desk.isClosed = false) (absent : desk.reporter? params.id = none) :
    desk.play suffix [.notice params none false] =
      (desk, [.reporterRefused (title suffix params)]) := by
  have asked : desk.ask suffix params none = (desk, [.reporterRefused (title suffix params)]) := by
    unfold ask
    rw [absent]
    rfl
  have untold : desk.tell params = (desk, []) := by
    unfold tell
    rw [absent]
  simp only [play, after, unclosed, asked, tearDownIf, untold, Bool.false_eq_true, if_false,
    List.append_nil]

/-- A notification of an absent token makes it live when the host makes a reporter, whose title is that of
the notification with the suffix. -/
theorem ask_absent (absent : desk.reporter? params.id = none) (reporter : Nat) :
    desk.ask suffix params (some reporter) =
      (desk.opened params reporter, [.reporterCreated reporter (title suffix params)]) := by
  unfold ask
  rw [absent]
  rfl

/-- The reporter that the host has just made hears of the notification that it was made for, and is
completed right away if the work is done already. -/
theorem play_made (unclosed : desk.isClosed = false) (absent : desk.reporter? params.id = none)
    (reporter : Nat) : desk.play suffix [.notice params (some reporter) false] =
      (((desk.opened params reporter).tell params).1,
        .reporterCreated reporter (title suffix params) ::
          ((desk.opened params reporter).tell params).2) := by
  simp only [play, after, unclosed, ask_absent absent, tearDownIf, Bool.false_eq_true, if_false,
    List.append_nil, List.singleton_append]

/-- A reporter that the host makes while it tears the session down is completed with the others, as the last
of them, and hears of nothing. -/
theorem play_torn (unclosed : desk.isClosed = false) (absent : desk.reporter? params.id = none)
    (reporter : Nat) : desk.play suffix [.notice params (some reporter) true] =
      (⟨[], true⟩, .reporterCreated reporter (title suffix params) ::
        (desk.tearDown.2 ++ [.reporter (.complete reporter)])) := by
  have untold : (⟨[], true⟩ : Desk).tell params = (⟨[], true⟩, []) := rfl
  have ended : (desk.opened params reporter).tearDown =
      (⟨[], true⟩, desk.tearDown.2 ++ [.reporter (.complete reporter)]) := by
    simp only [tearDown, opened, List.map_append, List.map_cons, List.map_nil]
  simp only [play, after, unclosed, ask_absent absent, tearDownIf, ended, untold,
    Bool.false_eq_true, if_false, if_true, List.append_nil, List.singleton_append]

end Notices

/-! ## What one thing does to a desk -/

/-- What becomes of the tokens of a desk, when perhaps one more gets a reporter: those that are live no
more are those whose reporters are completed. -/
structure Turns (desk : Desk) (new : Option (String × Nat)) (after : Desk)
    (events : List HostEvent) : Prop where
  made : events.filterMap HostEvent.made? = (new.map Prod.snd).toList
  live : after.live.Sublist (desk.live ++ new.toList)
  keys : ((desk.live ++ new.toList).map Prod.fst).Nodup
  closed : (desk.isClosed = true → desk.live = []) → after.isClosed = true → after.live = []
  completed : ∀ entry ∈ desk.live ++ new.toList,
    HostEvent.reporter (.complete entry.2) ∈ events ↔ entry ∉ after.live
  about : ∀ event, HostEvent.reporter event ∈ events → event.about ∈ desk.reporters
  last : events.Pairwise fun event later => ∀ reporter,
    event = .reporter (.complete reporter) → later.about? ≠ some reporter

variable {suffix : String} {desk : Desk} {params : ProgressParams} {answer : Option Nat}

section Turning

variable {new : Option (String × Nat)} {after : Desk} {more : List HostEvent}

/-- The reporters that are made in two stretches, when it is known of the second which one it makes. -/
theorem Turns.made_append (turns : Turns desk new after more) (events : List HostEvent) :
    (events ++ more).filterMap HostEvent.made? =
      events.filterMap HostEvent.made? ++ (new.map Prod.snd).toList := by
  rw [List.filterMap_append, turns.made]

/-- A reporter of a desk is one that the desk had, or the new one. -/
theorem Turns.reporter_cases (turns : Turns desk new after more) {reporter : Nat}
    (member : reporter ∈ after.reporters) :
    reporter ∈ desk.reporters ∨ new.map Prod.snd = some reporter := by
  obtain ⟨entry, held, rfl⟩ := List.mem_map.mp member
  rcases List.mem_append.mp (turns.live.subset held) with old | fresh
  · exact .inl (List.mem_map_of_mem (f := Prod.snd) old)
  · exact .inr (congrArg (Option.map Prod.snd) (Option.mem_toList.mp fresh))

end Turning

/-- Nothing happens that concerns a reporter: none is made and none is told anything. Refusals are such
events. -/
theorem turns_refl (keys : desk.tokens.Nodup) {events : List HostEvent}
    (silent : ∀ event ∈ events, event.made? = none ∧ event.about? = none) :
    Turns desk none desk events := by
  have mute (event : ReporterEvent) : HostEvent.reporter event ∉ events :=
    fun member => absurd (silent _ member).2 (by rintro ⟨⟩)
  refine ⟨?_, ?_, ?_, id, fun entry member => ?_, fun event member => absurd member (mute event), ?_⟩
  · exact List.filterMap_eq_nil_iff.mpr fun event member => (silent event member).1
  · simp
  · simpa using keys
  · simpa using iff_of_false (mute _) (not_not_intro (by simpa using member))
  · refine List.Pairwise.imp_of_mem ?_ (List.pairwise_of_forall fun _ _ => trivial)
    rintro event later member - - reporter rfl
    exact absurd member (mute _)

/-- A token has no reporter at a desk if it is not among the live tokens. -/
theorem reporter?_eq_none : desk.reporter? params.id = none ↔
    params.id ∉ desk.tokens := lookup_eq_none

/-- The token that gets a reporter by a notification. -/
def opens? (desk : Desk) (params : ProgressParams) (answer : Option Nat) : Option (String × Nat) :=
  if (desk.reporter? params.id).isSome then none else answer.map (params.id, ·)

/-- Asking the host makes a token live with the reporter that the host makes, if it makes one. A token that
is live already asks for none. -/
theorem ask_turns (keys : desk.tokens.Nodup) (unclosed : desk.isClosed = false) :
    Turns desk (desk.opens? params answer) (desk.ask suffix params answer).1
      (desk.ask suffix params answer).2 := by
  unfold opens? ask
  split
  · exact turns_refl keys (by rintro event ⟨⟩)
  next absent =>
    rw [Option.not_isSome_iff_eq_none, reporter?_eq_none] at absent
    cases answer with
    | none =>
      refine turns_refl keys fun event member => ?_
      rw [List.mem_singleton.mp member]
      exact ⟨rfl, rfl⟩
    | some reporter =>
      refine ⟨rfl, .refl _, ?_, ?_, ?_, ?_, List.pairwise_singleton ..⟩
      · rw [List.map_append]
        exact List.Nodup.append keys (List.nodup_singleton _) (by simpa using absent)
      · rintro - closed
        exact absurd (unclosed.symm.trans closed) Bool.noConfusion
      · intro entry member
        exact iff_of_false (by simp) (not_not_intro member)
      · intro event member
        cases List.mem_singleton.mp member

/-- Tearing a session down completes the reporters of all live tokens, each once, and no token is live
afterwards. -/
theorem tearDown_turns (keys : desk.tokens.Nodup)
    (numbers : desk.reporters.Nodup) :
    Turns desk none desk.tearDown.1 desk.tearDown.2 := by
  refine ⟨?_, List.nil_sublist _, by simpa using keys, fun _ _ => rfl, ?_, ?_, ?_⟩
  · simp [tearDown, HostEvent.made?, List.filterMap_map]
  · intro entry member
    refine iff_of_true ?_ List.not_mem_nil
    exact List.mem_map.mpr ⟨entry, by simpa using member, rfl⟩
  · intro event member
    obtain ⟨entry, there, same⟩ := List.mem_map.mp member
    cases same
    exact List.mem_map_of_mem (f := Prod.snd) there
  · refine List.pairwise_map.mpr ?_
    refine List.Pairwise.imp ?_ (List.pairwise_map.mp numbers)
    rintro entry later apart reporter same hears
    cases same
    exact apart (Option.some.inj hears).symm

/-- The same if the session is torn down while the notification is handled. Otherwise nothing turns. -/
theorem tearDownIf_turns (keys : desk.tokens.Nodup)
    (numbers : desk.reporters.Nodup) (isTorn : Bool) :
    Turns desk none (desk.tearDownIf isTorn).1 (desk.tearDownIf isTorn).2 := by
  unfold tearDownIf
  split
  · exact tearDown_turns keys numbers
  · exact turns_refl keys (by rintro event ⟨⟩)

/-- The entry of a live token, and the others, which have neither its token nor its reporter. -/
theorem live_split (keys : desk.tokens.Nodup) (numbers : desk.reporters.Nodup)
    {token : String} {reporter : Nat} (live : desk.reporter? token = some reporter) :
    (token, reporter) ∈ desk.live ∧
      ∀ entry ∈ desk.live, (entry.1 = token ↔ entry.2 = reporter) := by
  have member : (token, reporter) ∈ desk.live := mem_of_lookup live
  refine ⟨member, fun entry there => ?_⟩
  constructor
  · intro same
    exact congrArg Prod.snd (List.inj_on_of_nodup_map keys there member same)
  · intro same
    exact congrArg Prod.fst (List.inj_on_of_nodup_map numbers there member same)

/-- A notification updates a reporter once at most, with its percentage and its message. -/
theorem updates_sublist (params : ProgressParams) (reporter : Nat) : (updates params reporter).Sublist
    [.reporter (.update reporter params.percentage params.message)] := by
  unfold updates
  split
  · exact .refl _
  · exact List.nil_sublist _

/-- The one event that an update can be. -/
theorem eq_of_mem_updates {reporter : Nat} {event : HostEvent}
    (member : event ∈ updates params reporter) :
    event = .reporter (.update reporter params.percentage params.message) :=
  List.mem_singleton.mp ((updates_sublist params reporter).subset member)

/-- Updating a reporter makes none. -/
theorem updates_unmade (params : ProgressParams) (reporter : Nat) :
    (updates params reporter).filterMap HostEvent.made? = [] :=
  List.filterMap_eq_nil_iff.mpr fun event member => by rw [eq_of_mem_updates member]; rfl

/-- Updating a reporter completes none, so nothing can come too late. -/
theorem updates_last (params : ProgressParams) (reporter : Nat) :
    (updates params reporter).Pairwise fun event later => ∀ reporter,
      event = .reporter (.complete reporter) → later.about? ≠ some reporter :=
  (List.pairwise_singleton ..).sublist (updates_sublist params reporter)

/-- A reporter hears of what is new. It has to be a reporter of this desk, and no token is live or absent by
it that was not so before. -/
theorem updates_turns (keys : desk.tokens.Nodup) {reporter : Nat}
    (mine : reporter ∈ desk.reporters) : Turns desk none desk (updates params reporter) := by
  refine ⟨updates_unmade params reporter, by simp, by simpa using keys, id, fun entry there => ?_, ?_,
    updates_last params reporter⟩
  · refine iff_of_false (fun member => ?_) (not_not_intro (by simpa using there))
    cases eq_of_mem_updates member
  · intro event member
    cases eq_of_mem_updates member
    exact mine

/-- A reporter hears of what is new and is completed, and its token is live no more. The completion is the
last that it hears, as the update stands before it. -/
theorem completion_turns (keys : desk.tokens.Nodup) (numbers : desk.reporters.Nodup) {reporter : Nat}
    (live : desk.reporter? params.id = some reporter) :
    Turns desk none { desk with live := desk.live.filter fun entry => entry.1 ≠ params.id }
      (updates params reporter ++ [.reporter (.complete reporter)]) := by
  obtain ⟨member, same⟩ := live_split keys numbers live
  have mine : reporter ∈ desk.reporters := List.mem_map_of_mem (f := Prod.snd) member
  refine ⟨?_, by simp, by simpa using keys, fun closed ended => ?_, fun entry there => ?_, ?_, ?_⟩
  · rw [List.filterMap_append, updates_unmade]
    rfl
  · dsimp only
    rw [closed ended]
    rfl
  · have there : entry ∈ desk.live := by simpa using there
    have completed : HostEvent.reporter (.complete entry.2) ∈
        updates params reporter ++ [.reporter (.complete reporter)] ↔ entry.2 = reporter := by
      rw [List.mem_append, List.mem_singleton]
      constructor
      · rintro (member | same)
        · cases eq_of_mem_updates member
        · cases same
          rfl
      · rintro rfl
        exact .inr rfl
    simp [completed, ← same entry there, there]
  · intro event member
    rcases List.mem_append.mp member with member | member
    · cases eq_of_mem_updates member
      exact mine
    · cases List.mem_singleton.mp member
      exact mine
  · refine List.pairwise_append.mpr ⟨updates_last params reporter, List.pairwise_singleton .., ?_⟩
    rintro event member - - completed rfl
    cases eq_of_mem_updates member

/-- Whatever a notification says, telling it turns a desk: nothing for an absent token, an update, or an
update and the completion. -/
theorem tell_turns (params : ProgressParams) (keys : desk.tokens.Nodup)
    (numbers : desk.reporters.Nodup) :
    Turns desk none (desk.tell params).1 (desk.tell params).2 := by
  unfold tell
  split
  · exact turns_refl keys (by rintro event ⟨⟩)
  next reporter live =>
    split
    · exact completion_turns keys numbers live
    · exact updates_turns keys
        (List.mem_map_of_mem (f := Prod.snd) (live_split keys numbers live).1)

end Desk

/-! ## The desks of all sessions -/

/-- The desk of each session. -/
abbrev Desks := Nat → Desk

namespace Desks

def fresh : Desks := fun _ => .fresh

/-- The desks after an errand to the desk of one session. -/
def after (suffix : String) (desks : Desks) (entry : Nat × Errand) : Desks × List HostEvent :=
  let (desk, events) := (desks entry.1).after suffix entry.2
  (Function.update desks entry.1 desk, events)

/-- The desks after several errands, each to the desk of one session. -/
def play (suffix : String) (desks : Desks) : List (Nat × Errand) → Desks × List HostEvent
  | [] => (desks, [])
  | entry :: entries =>
    let (desks, events) := desks.after suffix entry
    let (desks, later) := desks.play suffix entries
    (desks, events ++ later)

/-- Errands to several desks that come one after the other. The invariant of the desks is carried from the
first to the second by this. -/
theorem play_append (suffix : String) (desks : Desks) (first second : List (Nat × Errand)) :
    desks.play suffix (first ++ second) =
      (((desks.play suffix first).1.play suffix second).1,
        (desks.play suffix first).2 ++ ((desks.play suffix first).1.play suffix second).2) := by
  induction first generalizing desks with
  | nil => rfl
  | cons entry entries ih => simp only [List.cons_append, play, ih, List.append_assoc]

/-- Errands to one desk leave the others as they are, and the events are those of that desk alone. -/
theorem play_single (suffix : String) (desks : Desks) (n : Nat) (errands : List Errand) :
    desks.play suffix (errands.map (n, ·)) =
      (Function.update desks n ((desks n).play suffix errands).1,
        ((desks n).play suffix errands).2) := by
  induction errands generalizing desks with
  | nil => simp [play, Desk.play]
  | cons errand errands ih =>
    simp only [List.map_cons, play, Desk.play, after, ih, Function.update_self,
      Function.update_idem]

/-- What the host has seen of the reporters goes along with the desks. -/
structure Tallies (events : List HostEvent) (desks : Desks) : Prop where
  /-- A live token has one reporter, which belongs to this token and this session. -/
  keys : ∀ n, (desks n).tokens.Nodup
  numbers : ∀ n, (desks n).reporters.Nodup
  apart : ∀ {n m reporter : Nat}, reporter ∈ (desks n).reporters →
    reporter ∈ (desks m).reporters → n = m
  closed : ∀ n, (desks n).isClosed = true → (desks n).live = []
  made : ∀ {n reporter : Nat}, reporter ∈ (desks n).reporters →
    reporter ∈ events.filterMap HostEvent.made?
  /-- A reporter that was made is completed, unless it is the reporter of a live token. -/
  completed : ∀ reporter ∈ events.filterMap HostEvent.made?,
    (HostEvent.reporter (.complete reporter) ∈ events ↔
      ∀ n, reporter ∉ (desks n).reporters)
  about : ∀ event, HostEvent.reporter event ∈ events →
    event.about ∈ events.filterMap HostEvent.made?
  /-- A reporter that is completed hears of nothing more, and is not completed again. -/
  last : events.Pairwise fun event later => ∀ reporter,
    event = .reporter (.complete reporter) → later.about? ≠ some reporter

variable {suffix : String} {desks : Desks} {events : List HostEvent}

/-- At the start no reporter was made and every desk is fresh. -/
theorem tallies_fresh : Tallies [] fresh :=
  ⟨fun _ => List.nodup_nil, fun _ => List.nodup_nil, fun member => absurd member List.not_mem_nil,
    fun _ _ => rfl, fun member => absurd member List.not_mem_nil, by simp, by simp, .nil⟩

section Turning

variable {n : Nat} {new : Option (String × Nat)} {after : Desk} {more : List HostEvent}

/-- A reporter that is new has not been made before, hence is none of those that the events speak of. -/
theorem Tallies.ne_new (unmade : ∀ entry ∈ new, entry.2 ∉ events.filterMap HostEvent.made?)
    {reporter : Nat} (made : reporter ∈ events.filterMap HostEvent.made?) :
    new.map Prod.snd ≠ some reporter := by
  intro fresh
  obtain ⟨entry, known, rfl⟩ := Option.map_eq_some_iff.mp fresh
  exact unmade entry known made

/-- A reporter of another desk is none of this desk, neither before it turned nor after: the desks were
apart, and the new reporter is nobody's yet. -/
theorem Tallies.elsewhere (tallies : Tallies events desks) (turns : (desks n).Turns new after more)
    (unmade : ∀ entry ∈ new, entry.2 ∉ events.filterMap HostEvent.made?) {m reporter : Nat}
    (other : m ≠ n) (member : reporter ∈ (desks m).reporters) : reporter ∉ after.reporters := by
  intro here
  rcases turns.reporter_cases here with old | fresh
  · exact other (tallies.apart member old)
  · exact Tallies.ne_new unmade (tallies.made member) fresh

/-- The reporters that are completed are those that were made and have no live token any more. The cases are
the reporters from before, of this desk or of another, and the new one. -/
theorem Tallies.turn_completed (tallies : Tallies events desks)
    (turns : (desks n).Turns new after more)
    (unmade : ∀ entry ∈ new, entry.2 ∉ events.filterMap HostEvent.made?) {reporter : Nat}
    (made : reporter ∈ (events ++ more).filterMap HostEvent.made?) :
    HostEvent.reporter (.complete reporter) ∈ events ++ more ↔
      reporter ∉ after.reporters ∧ ∀ m ≠ n, reporter ∉ (desks m).reporters := by
  have lost {entry : String × Nat} (member : entry ∈ (desks n).live ++ new.toList)
      (gone : entry.2 ∉ after.reporters) : HostEvent.reporter (.complete entry.2) ∈ more :=
    (turns.completed entry member).mpr fun kept =>
      gone (List.mem_map_of_mem (f := Prod.snd) kept)
  constructor
  · intro completed
    rcases List.mem_append.mp completed with before | now
    · have known := tallies.about _ before
      have gone := (tallies.completed reporter known).mp before
      refine ⟨fun here => ?_, fun m _ => gone m⟩
      rcases turns.reporter_cases here with old | fresh
      · exact gone n old
      · exact Tallies.ne_new unmade known fresh
    · refine ⟨fun here => ?_, fun m other there => other (tallies.apart there (turns.about _ now))⟩
      obtain ⟨entry, kept, rfl⟩ := List.mem_map.mp here
      exact (turns.completed entry (turns.live.subset kept)).mp now kept
  · rintro ⟨gone, others⟩
    rw [turns.made_append, List.mem_append] at made
    rcases made with before | fresh
    · by_cases completed : HostEvent.reporter (.complete reporter) ∈ events
      · exact List.mem_append_left _ completed
      · -- It had a live token, which was a token of this desk.
        obtain ⟨m, there⟩ := not_forall.mp (mt (tallies.completed reporter before).mpr completed)
        have here : m = n := by_contra fun other => there (others m other)
        obtain ⟨entry, held, rfl⟩ := List.mem_map.mp (here ▸ not_not.mp there)
        exact List.mem_append_right _ (lost (List.mem_append_left _ held) gone)
    · obtain ⟨entry, known, rfl⟩ := Option.map_eq_some_iff.mp (Option.mem_toList.mp fresh)
      exact List.mem_append_right _
        (lost (List.mem_append_right _ (Option.mem_toList.mpr known)) gone)

/-- What happens to one desk, with a reporter that is new, goes along with what the host sees of it. This is
the step of the invariant; what the parts of an errand do to a desk are instances of `Desk.Turns`. -/
theorem Tallies.turn (tallies : Tallies events desks) (turns : (desks n).Turns new after more)
    (unmade : ∀ entry ∈ new, entry.2 ∉ events.filterMap HostEvent.made?) :
    Tallies (events ++ more) (Function.update desks n after) := by
  -- the reporter of a new row is one that nobody has made before
  have numbers : (((desks n).live ++ new.toList).map Prod.snd).Nodup := by
    rw [List.map_append]
    refine List.Nodup.append (tallies.numbers n) (by cases new <;> simp) ?_
    intro reporter old fresh
    obtain ⟨entry, known, rfl⟩ := List.mem_map.mp fresh
    exact unmade entry (Option.mem_toList.mp known) (tallies.made old)
  refine ⟨?_, ?_, ?_, ?_, ?_, ?_, ?_, ?_⟩
  · exact (Function.forall_update_iff desks fun _ desk => desk.tokens.Nodup).mpr
      ⟨turns.keys.sublist (turns.live.map Prod.fst), fun m _ => tallies.keys m⟩
  · exact (Function.forall_update_iff desks fun _ desk => desk.reporters.Nodup).mpr
      ⟨numbers.sublist (turns.live.map Prod.snd), fun m _ => tallies.numbers m⟩
  · intro m k reporter first second
    -- of two desks with one reporter, one is not that of the turn, and the turn gives its own no
    -- such reporter
    by_cases here : m = n <;> by_cases too : k = n
    · rw [here, too]
    · rw [here, Function.update_self] at first
      rw [Function.update_of_ne too] at second
      exact absurd first (tallies.elsewhere turns unmade too second)
    · rw [Function.update_of_ne here] at first
      rw [too, Function.update_self] at second
      exact absurd second (tallies.elsewhere turns unmade here first)
    · rw [Function.update_of_ne here] at first
      rw [Function.update_of_ne too] at second
      exact tallies.apart first second
  · exact (Function.forall_update_iff desks fun _ desk => desk.isClosed = true → desk.live = []).mpr
      ⟨turns.closed (tallies.closed n), fun m _ => tallies.closed m⟩
  · intro m reporter member
    rw [turns.made_append, List.mem_append]
    by_cases here : m = n
    · rw [here, Function.update_self] at member
      rcases turns.reporter_cases member with old | fresh
      · exact .inl (tallies.made old)
      · exact .inr (Option.mem_toList.mpr fresh)
    · rw [Function.update_of_ne here] at member
      exact .inl (tallies.made member)
  · intro reporter made
    rw [tallies.turn_completed turns unmade made]
    exact (Function.forall_update_iff desks fun _ desk => reporter ∉ desk.reporters).symm
  · intro event member
    rw [turns.made_append]
    rcases List.mem_append.mp member with before | now
    · exact List.mem_append_left _ (tallies.about event before)
    · exact List.mem_append_left _ (tallies.made (turns.about event now))
  · refine List.pairwise_append.mpr ⟨tallies.last, turns.last, ?_⟩
    -- whoever was told its end before is on no desk, but who is told something now is on the desk
    -- of the turn
    rintro _ completed later now reporter rfl hears
    cases later with
    | reporter event =>
      have held := turns.about event now
      rw [Option.some.inj hears] at held
      exact (tallies.completed _ (tallies.about _ completed)).mp completed n held
    | decorated | reporterCreated | reporterRefused => cases hears

end Turning

/-- A reporter that was made is completed once, unless it is the reporter of a live token. It is not
completed twice, as it hears of nothing after the first time. -/
theorem Tallies.count_complete (tallies : Tallies events desks) {reporter : Nat}
    (made : reporter ∈ events.filterMap HostEvent.made?) :
    events.count (.reporter (.complete reporter)) ≤ 1 ∧
      (events.count (.reporter (.complete reporter)) = 1 ↔
        ∀ n, reporter ∉ (desks n).reporters) := by
  have once : events.count (.reporter (.complete reporter)) ≤ 1 := by
    have apart := tallies.last.filter (· == .reporter (.complete reporter))
    rw [List.filter_beq, List.pairwise_replicate] at apart
    rcases apart with once | again
    · exact once
    · exact absurd rfl (again reporter rfl)
  refine ⟨once, ?_⟩
  rw [← tallies.completed reporter made, ← List.count_pos_iff]
  omega

/-- The tokens and the reporters of the desk that has just changed are told apart. -/
theorem Tallies.here {n : Nat} {desk : Desk}
    (tallies : Tallies events (Function.update desks n desk)) :
    desk.tokens.Nodup ∧ desk.reporters.Nodup := by
  have keys := tallies.keys n
  have numbers := tallies.numbers n
  rw [Function.update_self] at keys numbers
  exact ⟨keys, numbers⟩

/-- The desk that has just changed changes again, without a new reporter. -/
theorem Tallies.again {n : Nat} {desk after : Desk} {more : List HostEvent}
    (tallies : Tallies events (Function.update desks n desk)) (turns : desk.Turns none after more) :
    Tallies (events ++ more) (Function.update desks n after) := by
  have same : Function.update desks n desk n = desk := Function.update_self ..
  have turned := tallies.turn (n := n) (same.symm ▸ turns) (by rintro entry ⟨⟩)
  rw [Function.update_idem] at turned
  exact turned

/-- An errand to a desk goes along with what the host sees of it, if the host makes no reporter twice. A
notification turns the desk three times: it asks the host, the session may be torn down, and the reporter
hears of it. -/
theorem Tallies.after (tallies : Tallies events desks) (entry : Nat × Errand)
    (nodup : ((events ++ (desks.after suffix entry).2).filterMap HostEvent.made?).Nodup) :
    Tallies (events ++ (desks.after suffix entry).2) (desks.after suffix entry).1 := by
  obtain ⟨n, errand⟩ := entry
  unfold Desks.after at nodup ⊢
  cases errand with
  | tearDown =>
    exact tallies.turn (Desk.tearDown_turns (tallies.keys n) (tallies.numbers n))
      (by rintro entry ⟨⟩)
  | notice params answer isTorn =>
    unfold Desk.after at nodup ⊢
    dsimp only at nodup ⊢
    split
    · rw [Function.update_eq_self, List.append_nil]
      exact tallies
    next unclosed =>
      rw [if_neg unclosed] at nodup
      rw [Bool.not_eq_true] at unclosed
      have asked : (desks n).Turns _ _ ((desks n).ask suffix params answer).2 :=
        Desk.ask_turns (tallies.keys n) unclosed
      have first := tallies.turn asked fun entry new known => by
        have made := asked.made
        rw [Option.mem_def.mp new] at made
        simp only [List.filterMap_append, List.append_assoc] at nodup
        refine (List.nodup_append'.mp nodup).2.2 known (List.mem_append_left _ ?_)
        rw [made]
        exact List.mem_singleton_self _
      have second := first.again (Desk.tearDownIf_turns first.here.1 first.here.2 isTorn)
      have third := second.again (Desk.tell_turns params second.here.1 second.here.2)
      rw [← List.append_assoc, ← List.append_assoc]
      exact third

/-- However many errands come to the desks, the host sees of each reporter that it is made for one token,
that it is completed once if at all, and that it hears of nothing afterwards. By induction on the errands
from the last one, with `Tallies.after` for each. -/
theorem play_tallies (suffix : String) (entries : List (Nat × Errand))
    (nodup : ((fresh.play suffix entries).2.filterMap HostEvent.made?).Nodup) :
    Tallies (fresh.play suffix entries).2 (fresh.play suffix entries).1 := by
  induction entries using List.reverseRecOn with
  | nil => exact tallies_fresh
  | append_singleton entries entry ih =>
    have last : (fresh.play suffix (entries ++ [entry])) =
        (((fresh.play suffix entries).1.after suffix entry).1,
          (fresh.play suffix entries).2 ++ ((fresh.play suffix entries).1.after suffix entry).2) := by
      rw [play_append]
      simp only [play, List.append_nil]
    rw [last] at nodup ⊢
    refine (ih ?_).after entry nodup
    rw [List.filterMap_append] at nodup
    exact nodup.of_append_left

end Desks

end LanguageClient
