import LanguageClient.Proofs.World.Connect
import LanguageClient.Proofs.World.Visits

/-!
# Worlds at rest

A world is at rest when no task can go on and nothing is left to release: nothing more happens before a
server, the host or a user of the client does something (`World.IsAtRest`). A session has nothing to do
when all that came was dealt with (`Session.IsIdle`), and an opening when its server has not answered
(`World.IsStuck`); their tasks leave the world as it is then (`World.poll_idle`,
`World.pollOpening_stuck`), for good if no server ever answers.
-/

namespace LanguageClient

/-- A session that has dealt with all that came. -/
structure Session.IsIdle (s : Session) : Prop where
  untold : s.connection.log = [] ∧ s.connection.signals = []
  unread : s.connection.reader = .running →
    s.connection.incoming.waiting = [] ∧ s.connection.incoming.hasWriter = true
  answered : ∀ job ∈ s.connection.jobs, job.isFinished = true
  unfed : ∀ feed ∈ s.connection.feeds, feed.waiting = []
  unopened : s.openedDocuments = 0
  unhandled : s.handling = none
  connected : s.isActive = true → s.connection.isOver = false

instance (s : Session) : Decidable s.IsIdle :=
  decidable_of_iff
    ((s.connection.log = [] ∧ s.connection.signals = []) ∧
      (s.connection.reader = .running →
        s.connection.incoming.waiting = [] ∧ s.connection.incoming.hasWriter = true) ∧
      (∀ job ∈ s.connection.jobs, job.isFinished = true) ∧
      (∀ feed ∈ s.connection.feeds, feed.waiting = []) ∧ s.openedDocuments = 0 ∧
      s.handling = none ∧ (s.isActive = true → s.connection.isOver = false))
    ⟨fun ⟨untold, unread, answered, unfed, unopened, unhandled, connected⟩ =>
      ⟨untold, unread, answered, unfed, unopened, unhandled, connected⟩,
    fun idle => ⟨idle.untold, idle.unread, idle.answered, idle.unfed, idle.unopened,
      idle.unhandled, idle.connected⟩⟩

namespace Session.IsIdle

variable {s : Session}

/-- The reader of an idle session changes nothing: either it has ended, or it runs and finds nothing to read
while the server can still write. -/
theorem read (idle : s.IsIdle) : s.connection.read = s.connection := by
  unfold Connection.read
  split
  next running =>
    obtain ⟨nothing, hasWriter⟩ := idle.unread running
    have same : { s.connection with incoming := { s.connection.incoming with waiting := [] } } =
        s.connection := by rw [← nothing]
    dsimp only
    rw [nothing, same, List.foldl_nil, if_pos hasWriter]
  next => rfl

/-- An idle session has no request of its server left to answer, so no task of such a request can go on. -/
theorem job? (idle : s.IsIdle) (number : Nat) : s.connection.job? number = none := by
  unfold Connection.job?
  split
  next job found => rw [if_pos (idle.answered job (List.mem_of_getElem? found))]
  next => rfl

/-- Nothing waits in any feed of an idle session, whether the session has that feed or not. -/
theorem waiting (idle : s.IsIdle) (feed : Nat) : s.connection.waiting feed = [] := by
  unfold Connection.waiting
  cases found : s.connection.feeds[feed]? with
  | none => rfl
  | some fed => exact idle.unfed fed (List.mem_of_getElem? found)

/-- Draining a feed of an idle session yields no items and leaves the connection as it is. The three
projections of a session below all begin with this. -/
theorem drainAs (idle : s.IsIdle) {α : Type} (method : String) (decode : Json → Option α)
    (feed : Nat) : s.connection.drainAs method decode feed = ([], s.connection) := by
  have same : s.connection.feeds.modify feed Feed.emptied = s.connection.feeds := by
    cases found : s.connection.feeds[feed]? with
    | none => exact List.modify_eq_self (List.getElem?_eq_none_iff.mp found)
    | some fed =>
      refine World.modify_same found ?_
      unfold Feed.emptied
      rw [← idle.unfed fed (List.mem_of_getElem? found)]
  unfold Connection.drainAs Connection.drain
  rw [idle.waiting, same]
  rfl

/-- The task that passes log messages on leaves an idle session, and the host with it, as it found them. -/
theorem forwardLog {h : Hosted} (idle : h.session.IsIdle) : h.forwardLog = h := by
  unfold Hosted.forwardLog Hosted.drainAs
  rw [idle.drainAs]
  rfl

/-- The task of the diagnostics stays where it is. It needs two parts of idleness: nothing was published,
and no document was opened since the session last looked. -/
theorem followDiagnostics {h : Hosted} (idle : h.session.IsIdle) (rewriter : Rewriter) :
    h.followDiagnostics rewriter = h := by
  have same : { h.session with openedDocuments := 0 } = h.session := by rw [← idle.unopened]
  unfold Hosted.followDiagnostics Hosted.drainAs
  rw [idle.drainAs]
  change (List.replicate h.session.openedDocuments ()).foldl _
    { h with session := { h.session with openedDocuments := 0 } } = h
  rw [same, idle.unopened]
  rfl

/-- The task of the progress reporters stays where it is, because no notification waits and none is being
handled. -/
theorem followProgress {h : Hosted} (idle : h.session.IsIdle) : h.followProgress = h := by
  unfold Hosted.followProgress
  rw [idle.waiting]
  unfold Hosted.progressSteps
  rw [idle.unhandled]
  unfold Hosted.progressSteps Hosted.nextProgress Connection.next
  rw [idle.waiting]
  rfl

end Session.IsIdle

/-- The session that a task serves. -/
def Task.session? : Task → Option Nat
  | .reader n | .job n _ | .log n | .diagnostics n | .progress n | .watcher n => some n
  | _ => none

namespace World

variable {w : World} {n : Nat} {s : Session}

/-- No task can go on, and nothing is left to release. -/
structure IsAtRest (w : World) : Prop where
  tasks : ∀ task, w.poll task = w
  released : w.sweep = w

/-! ## Sessions that have nothing to do -/

/-- Putting an idle session back where it was changes nothing, as it has no log to hand over and no signal
that would wake a task. -/
theorem put_same (found : w.sessions[n]? = some s) (idle : s.IsIdle) : w.put n s = w := by
  obtain ⟨log, signals⟩ := idle.untold
  have same : { s with connection := s.connection.withoutNews } = s := by
    unfold Connection.withoutNews
    rw [← log, ← signals]
  have sessions : w.sessions.set n s = w.sessions := by
    obtain ⟨inside, rfl⟩ := List.getElem?_eq_some_iff.mp found
    exact List.set_getElem_self inside
  have put : w.put n s = wake { w with
      sessions := w.sessions.set n { s with connection := s.connection.withoutNews }
      log := w.log ++ s.connection.log } (s.connection.signals.flatMap (w.waiters n)) := rfl
  rw [put, same, sessions, log, signals, List.append_nil, List.flatMap_nil]
  unfold wake
  rw [List.append_nil]

/-- An operation that leaves an idle session alone leaves the world alone. The hypothesis asks this of every
view of the session, since the reach of the host is of no account here. -/
theorem during_same (found : w.sessions[n]? = some s) (idle : s.IsIdle) {run : Hosted → Hosted}
    (same : ∀ h : Hosted, h.session = s → run h = h) : w.during n run = w := by
  unfold during within onSession
  rw [found]
  dsimp only
  rw [same _ rfl]
  exact put_same found idle

/-- The tasks of a session that has nothing to do leave all as it is. There is one case for each of the six
kinds of task that serve a session. -/
theorem poll_idle (found : w.sessions[n]? = some s) (idle : s.IsIdle) {task : Task}
    (own : task.session? = some n) : w.poll task = w := by
  have whileActive {run : Hosted → Hosted} (same : s.isActive = true → ∀ h : Hosted,
      h.session = s → run h = h) : w.whileActive n run = w := by
    unfold World.whileActive
    rw [found]
    split
    next active => exact during_same found idle (same active)
    next => rfl
  -- whichever of its tasks it is, there is nothing left for it to take up
  cases task with
  | reader m =>
    cases own
    change w.onConnection n Connection.read = w
    unfold onConnection
    rw [found]
    dsimp only
    rw [idle.read]
    exact put_same found idle
  | job m number =>
    cases own
    refine during_same found idle fun h same => ?_
    unfold Hosted.runJob
    rw [same, idle.job?]
  | log m =>
    cases own
    exact whileActive fun _ h same => Session.IsIdle.forwardLog (same ▸ idle)
  | diagnostics m =>
    cases own
    exact whileActive fun _ h same => Session.IsIdle.followDiagnostics (same ▸ idle) _
  | progress m =>
    cases own
    exact whileActive fun _ h same => Session.IsIdle.followProgress (same ▸ idle)
  | watcher m =>
    cases own
    refine whileActive fun active h same => ?_
    rw [same, idle.connected active]
    rfl
  | opening | reconciler | register | visit | request => cases own

/-- The same where there is no session of that number, whose tasks find nothing to work on. -/
theorem poll_of_none (none : w.sessions[n]? = none) {task : Task} (own : task.session? = some n) :
    w.poll task = w := by
  have during (run : Hosted → Hosted) : w.during n run = w := by
    unfold World.during within onSession
    rw [none]
    rfl
  have whileActive (run : Hosted → Hosted) : w.whileActive n run = w := by
    unfold World.whileActive
    rw [none]
    rfl
  cases task with
  | reader m =>
    cases own
    change w.onConnection n Connection.read = w
    unfold onConnection
    rw [none]
  | job m number => cases own; exact during _
  | log m | diagnostics m | progress m | watcher m => cases own; exact whileActive _
  | opening | reconciler | register | visit | request => cases own

/-! ## Openings that cannot go on -/

/-- Whether an opening has come to its end, or its server has not answered. -/
def IsStuck (w : World) (o : Opening) : Bool :=
  match o.stage with
  | .finished _ => true
  | .greeting session call => (w.outcome? session call).isNone
  | _ => false

/-- An opening that has ended, or whose server has not answered, stays where it is for a task that waits for
it already. A task that did not wait for it yet would be added to those that do. -/
theorem pollOpening_stuck {o : Opening} {task : Task} {number : Nat}
    (found : w.openings[number]? = some o) (watches : task ∈ o.watchers)
    (stuck : w.IsStuck o = true) : w.pollOpening task number = w := by
  have watched : w.watchOpening number task = w := by
    unfold watchOpening
    rw [modify_same found (by rw [if_pos watches])]
  unfold pollOpening
  dsimp only
  rw [watched, found]
  dsimp only
  cases stage : o.stage with
  | finished => rfl
  | greeting session call =>
    simp only [IsStuck, stage, Option.isNone_iff_eq_none] at stuck
    dsimp only
    unfold awaitGreeting
    rw [stuck]
    dsimp only
    unfold setStage
    rw [modify_same found (by rw [← stage])]
  | unstarted | connecting => simp only [IsStuck, stage, Bool.false_eq_true] at stuck

/-- A world without visits and requests is at rest when no session has anything to do, no opening can go on,
and neither those who follow the roots nor those who register can. The runs in which the client falls behind
the roots end in such worlds, so that what they miss is missed for good. -/
theorem IsAtRest.of_idle (sessions : ∀ s ∈ w.sessions, s.IsIdle)
    (openings : ∀ entry ∈ w.openings.zipIdx, .opening entry.2 ∈ entry.1.watchers ∧
      w.IsStuck entry.1 = true)
    (visits : w.visits = []) (requests : w.requests = []) (followed : w.poll .reconciler = w)
    (registered : w.poll .register = w) (released : w.sweep = w) : w.IsAtRest where
  released := released
  tasks task := by
    cases own : task.session? with
    | some n =>
      cases found : w.sessions[n]? with
      | none => exact poll_of_none found own
      | some s => exact poll_idle found (sessions s (List.mem_of_getElem? found)) own
    | none =>
      cases task with
      | opening number =>
        cases found : w.openings[number]? with
        | none => exact pollOpening_of_none found _
        | some o =>
          obtain ⟨watches, stuck⟩ := openings (o, number) (List.mk_mem_zipIdx_iff_getElem?.mpr found)
          exact pollOpening_stuck found watches stuck
      | reconciler => exact followed
      | register => exact registered
      | visit number =>
        change w.pollVisit number = w
        unfold pollVisit
        rw [visits]
        rfl
      | request number =>
        change w.pollRequest number = w
        unfold pollRequest
        rw [requests]
        rfl
      | reader | job | log | diagnostics | progress | watcher => cases own

end World

end LanguageClient
