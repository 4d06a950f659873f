import LanguageClient.Proofs.Run
import LanguageClient.Proofs.Session.Course
import LanguageClient.Proofs.World.Parts

/-!
# The course of the world

What an operation of one session, or a move that concerns neither the roots nor the sessions' holders,
leaves of the world. `World.Course` relates the sessions pairwise and fixes all that says who has
which session and what the server of several roots was told.

As long as the host has armed no callback, no operation of a session ends the client, so each is such
a course.
-/

namespace LanguageClient

/-- A relation between the states of a session that every operation beside the folders goes along. -/
class Session.IsCourse (R : Session → Session → Prop) : Prop where
  of_beside : ∀ {s t : Session}, s.Beside t → R s t
  trans : ∀ {s t u : Session}, R s t → R t u → R s u

instance : Session.IsCourse Session.Beside := ⟨id, .trans⟩

instance : Session.IsCourse Session.Later := ⟨Session.Beside.toLater, .trans⟩

/-- An operation that is beside the folders goes along every relation of this kind. Both instances, beside
and later, are reached from one proof by it. -/
theorem Hosted.Beside.course {R : Session → Session → Prop} [Session.IsCourse R] {h k : Hosted}
    (beside : Hosted.Beside h k) : Hosted.Course R h k :=
  beside.of_session (Session.IsCourse.of_beside beside.session)

/-- A task that serves a session or a request, which nothing but that depends on. -/
def Task.isMinor : Task → Bool
  | .opening _ | .reconciler | .register | .visit _ => false
  | _ => true

/-- The method of what a request is for. -/
def Purpose.method : Purpose → String
  | .plain method _ => method
  | .question feature _ => feature.method

namespace World

variable {R : Session → Session → Prop} {w v u : World}

/-- The world after something that concerns neither the roots nor who has which of its sessions,
but for sessions that were added. -/
structure Growth (R : Session → Session → Prop) (w v : World) : Prop where
  rest : v = { w with
    host := v.host, connector := v.connector, sessions := v.sessions, requests := v.requests,
    finished := v.finished, log := v.log, woken := v.woken }
  roots : v.host.roots = w.host.roots
  calm : w.host.armed = [] → v.host.armed = []
  purposes : v.requests.map PendingRequest.purpose = w.requests.map PendingRequest.purpose
  session : ∀ {n : Nat} {s : Session}, w.sessions[n]? = some s → ∃ t, v.sessions[n]? = some t ∧ R s t

/-- The world after something that concerns neither the roots nor who has which session. -/
structure Course (R : Session → Session → Prop) (w v : World) : Prop extends Growth R w v where
  length : v.sessions.length = w.sessions.length

namespace Growth

theorem options (growth : Growth R w v) : v.options = w.options := by rw [growth.rest]

theorem phase (growth : Growth R w v) : v.phase = w.phase := by rw [growth.rest]

theorem label (growth : Growth R w v) : v.label = w.label := by rw [growth.rest]

theorem isDropped (growth : Growth R w v) : v.isDropped = w.isDropped := by rw [growth.rest]

theorem changes (growth : Growth R w v) : v.changes = w.changes := by rw [growth.rest]

theorem following (growth : Growth R w v) : v.following = w.following := by rw [growth.rest]

theorem before (growth : Growth R w v) : v.before = w.before := by rw [growth.rest]

/-- The session that serves all roots is the same. These field lemmas read off `rest`, so that no proof
takes the record apart again. -/
theorem shared (growth : Growth R w v) : v.shared = w.shared := by rw [growth.rest]

theorem folders (growth : Growth R w v) : v.folders = w.folders := by rw [growth.rest]

/-- The tracked roots are the same, each with its opening. -/
theorem entries (growth : Growth R w v) : v.entries = w.entries := by rw [growth.rest]

/-- The openings are the same, with the stages that they are at. -/
theorem openings (growth : Growth R w v) : v.openings = w.openings := by rw [growth.rest]

/-- The visits are the same, with the stages that they are at and what they have borrowed. -/
theorem visits (growth : Growth R w v) : v.visits = w.visits := by rw [growth.rest]

/-- Growth composes if the relation between the states of a session does. What the second step leaves alone
was left alone by the first. -/
theorem trans [Session.IsCourse R] (first : Growth R w v) (second : Growth R v u) :
    Growth R w u where
  rest := by rw [second.rest, first.rest]
  roots := second.roots.trans first.roots
  calm := second.calm ∘ first.calm
  purposes := second.purposes.trans first.purposes
  session found := by
    obtain ⟨t, found, related⟩ := first.session found
    obtain ⟨u, found, related'⟩ := second.session found
    exact ⟨u, found, Session.IsCourse.trans related related'⟩

/-- A growth for a relation is one for any relation that follows from it. -/
theorem weaken {Q : Session → Session → Prop} (weaker : ∀ {s t}, R s t → Q s t)
    (growth : Growth R w v) : Growth Q w v where
  rest := growth.rest
  roots := growth.roots
  calm := growth.calm
  purposes := growth.purposes
  session found := by
    obtain ⟨t, found, related⟩ := growth.session found
    exact ⟨t, found, weaker related⟩

/-- The phase and the shared session play no part in it. So a step of registering can be taken before or
after. -/
theorem staged (growth : Growth R w v) (phase : Phase) (shared : Option Nat) :
    Growth R { w with phase, shared } { v with phase, shared } where
  rest := by
    simp only [growth.options, growth.label, growth.isDropped, growth.changes, growth.following,
      growth.before, growth.folders, growth.entries, growth.openings, growth.visits]
  roots := growth.roots
  calm := growth.calm
  purposes := growth.purposes
  session := growth.session

end Growth

namespace Course

/-- A change of what nothing here depends on. Sessions may change one by one, each in the relation. -/
theorem of_sessions (rest : v = { w with
    host := v.host, connector := v.connector, sessions := v.sessions, requests := v.requests,
    finished := v.finished, log := v.log, woken := v.woken })
    (roots : v.host.roots = w.host.roots) (armed : v.host.armed = w.host.armed)
    (requests : v.requests = w.requests) (length : v.sessions.length = w.sessions.length)
    (session : ∀ {n : Nat} {s : Session}, w.sessions[n]? = some s →
      ∃ t, v.sessions[n]? = some t ∧ R s t) : Course R w v :=
  ⟨⟨rest, roots, fun quiet => armed.trans quiet, by rw [requests], session⟩, length⟩

theorem refl [Session.IsCourse R] (w : World) : Course R w w :=
  of_sessions rfl rfl rfl rfl rfl fun {_ s} found =>
    ⟨s, found, Session.IsCourse.of_beside (.refl s)⟩

/-- Courses compose, and no session comes in either. -/
theorem trans [Session.IsCourse R] (first : Course R w v) (second : Course R v u) :
    Course R w u :=
  ⟨first.toGrowth.trans second.toGrowth, second.length.trans first.length⟩

/-- A change that leaves the sessions alone is a course for any relation, since the relation holds of a
session and itself. -/
theorem of_eq [Session.IsCourse R] (rest : v = { w with
    host := v.host, connector := v.connector, sessions := v.sessions, requests := v.requests,
    finished := v.finished, log := v.log, woken := v.woken })
    (roots : v.host.roots = w.host.roots) (armed : v.host.armed = w.host.armed)
    (requests : v.requests = w.requests) (sessions : v.sessions = w.sessions) : Course R w v :=
  of_sessions rest roots armed requests (by rw [sessions]) fun {_ s} found =>
    ⟨s, by rw [sessions]; exact found, Session.IsCourse.of_beside (.refl s)⟩

/-- A course for a relation is one for any relation that follows from it. -/
theorem weaken {Q : Session → Session → Prop} (weaker : ∀ {s t}, R s t → Q s t)
    (course : Course R w v) : Course Q w v :=
  ⟨course.toGrowth.weaken weaker, course.length⟩

/-- The phase plays no part in it. -/
theorem phased (course : Course R w v) (phase : Phase) :
    Course R { w with phase } { v with phase } := by
  have same : { v with phase, shared := w.shared } = { v with phase } := by rw [← course.shared]
  have growth := course.toGrowth.staged phase w.shared
  rw [same] at growth
  exact ⟨growth, course.length⟩

end Course

/-- Sending a request that waits in the background relates the session to what it was. -/
def Asks (R : Session → Session → Prop) (w : World) : Prop :=
  ∀ request ∈ w.requests, ∀ (s : Session) (params : Json),
    R s { s with connection := (s.connection.request request.purpose.method params).2 }

/-- The requests in the background greet no server. -/
def AsksNoGreeting (w : World) : Prop :=
  ∀ request ∈ w.requests, request.purpose.method ≠ initializeMethod

/-- Where no request in the background is a greeting, to send one is beside the folders. -/
theorem AsksNoGreeting.asks (quiet : w.AsksNoGreeting) : w.Asks Session.Beside :=
  fun request member _ _ => .of_connection (Connection.request_beside _ (quiet request member))

/-- Whatever request is sent in the background, it leads the session to a later state, greeting or not. -/
theorem asks_later (w : World) : w.Asks Session.Later :=
  fun _ _ _ _ => .of_connection (Connection.request_later ..)

/-- Requests in the background keep what they are for, so that none of them is a greeting is kept as well.
-/
theorem Growth.asksNoGreeting (growth : Growth R w v) (asks : w.AsksNoGreeting) :
    v.AsksNoGreeting := by
  intro request member
  have purpose : request.purpose ∈ w.requests.map PendingRequest.purpose :=
    growth.purposes ▸ List.mem_map_of_mem member
  obtain ⟨asked, member, same⟩ := List.mem_map.mp purpose
  rw [← same]
  exact asks asked member

/-! ## Operations of a session -/

variable [Session.IsCourse R]

theorem note_course (w : World) (level : LogLevel) (message : String)
    (fields : List (String × String)) : Course R w (w.note level message fields) :=
  .of_eq rfl rfl rfl rfl rfl

theorem conclude_course (w : World) (label : String) (finding : Finding) :
    Course R w (w.conclude label finding) := .of_eq rfl rfl rfl rfl rfl

/-- A session is put back after something that relates it to what it was. Its log and its signals are taken,
which is beside everything. -/
theorem put_course {number : Nat} {s t : Session} (found : w.sessions[number]? = some s)
    (related : R s t) : Course R w (w.put number t) := by
  refine .of_sessions rfl rfl rfl rfl ?_ ?_
  · exact List.length_set
  · intro n u at_n
    rw [put, wake, List.getElem?_set]
    by_cases same : number = n
    · subst same
      rw [found] at at_n
      cases at_n
      have inside : number < w.sessions.length := (List.getElem?_eq_some_iff.mp found).1
      rw [if_pos rfl, if_pos inside]
      exact ⟨_, rfl, Session.IsCourse.trans related
        (Session.IsCourse.of_beside (.of_connection Connection.withoutNews_beside))⟩
    · rw [if_neg same]
      exact ⟨u, at_n, Session.IsCourse.of_beside (.refl u)⟩

/-- A change of a connection is a course if it is in the relation for every session. -/
theorem onConnection_course {change : Connection SessionHandler → Connection SessionHandler}
    (each : ∀ s : Session, R s { s with connection := change s.connection }) (w : World)
    (number : Nat) : Course R w (w.onConnection number change) := by
  unfold onConnection
  split
  · exact .refl w
  next s found => exact put_course found (each s)

/-- An operation of a session is a course, and it does not end the client. The host has armed nothing, so it
has no occasion to. -/
theorem onSession_course {α : Type} (run : Hosted → α × Hosted)
    (each : ∀ h, Hosted.Course R h (run h).2) (quiet : w.host.armed = []) (number : Nat)
    (default : α) : Course R w (w.onSession number default run).2.2 ∧
      (w.onSession number default run).2.1 = false := by
  unfold onSession
  split
  · exact ⟨.refl w, rfl⟩
  next s found =>
    obtain ⟨-, roots, calm, related⟩ := each ⟨s, number, w.host, w.reachOf number, false⟩
    obtain ⟨unarmed, ended⟩ := calm quiet
    refine ⟨?_, ended⟩
    have hosted : Course R w
        { w with host := (run ⟨s, number, w.host, w.reachOf number, false⟩).2.host } :=
      ⟨⟨rfl, roots, fun _ => unarmed, rfl, fun {_ t} at_n =>
        ⟨t, at_n, Session.IsCourse.of_beside (.refl t)⟩⟩, rfl⟩
    exact hosted.trans (put_course found related)

/-- A host that does not end the client leaves an operation at what it does to the session. -/
theorem within_eq {α : Type} (run : Hosted → α × Hosted)
    (each : ∀ h, Hosted.Course R h (run h).2) (quiet : w.host.armed = []) (number : Nat)
    (default : α) : w.within number default run =
      ((w.onSession number default run).1, (w.onSession number default run).2.2) := by
  have ended := (onSession_course run each quiet number default).2
  unfold within
  generalize w.onSession number default run = outcome at ended ⊢
  obtain ⟨result, ended', after⟩ := outcome
  cases ended
  rfl

/-- An operation of a session, with all that it does to the client, is a course if it is one of the session
and the host has armed nothing. -/
theorem within_course {α : Type} (run : Hosted → α × Hosted)
    (each : ∀ h, Hosted.Course R h (run h).2) (quiet : w.host.armed = []) (number : Nat)
    (default : α) : Course R w (w.within number default run).2 := by
  rw [within_eq run each quiet]
  exact (onSession_course run each quiet number default).1

theorem during_course {run : Hosted → Hosted} (each : ∀ h, Hosted.Course R h (run h))
    (quiet : w.host.armed = []) (number : Nat) : Course R w (w.during number run) :=
  within_course (fun h => ((), run h)) each quiet number ()

/-- An operation that is done only while the session follows its server is a course, also where it is not
done. -/
theorem whileActive_course {run : Hosted → Hosted} (each : ∀ h, Hosted.Course R h (run h))
    (quiet : w.host.armed = []) (number : Nat) : Course R w (w.whileActive number run) := by
  unfold whileActive
  split
  · exact during_course each quiet number
  · exact .refl w

/-! ## Tasks that hold nothing -/

/-- Disposing a session is a course. What is said of who has which session is not changed by it. -/
theorem dispose_course (quiet : w.host.armed = []) (number : Nat) :
    Course R w (w.dispose number) :=
  within_course (fun h => ((), h.dispose)) (fun h => (Hosted.dispose_beside h).course) quiet number
    ()

/-- A request in the background is at another stage, and is for what it was for. -/
theorem setRequest_course (w : World) (number : Nat) (stage : RequestStage) :
    Course R w (w.setRequest number stage) where
  rest := rfl
  roots := rfl
  calm := id
  purposes := by
    apply List.ext_getElem?
    intro i
    simp only [setRequest, List.getElem?_map, List.getElem?_modify]
    cases w.requests[i]? with
    | none => rfl
    | some request => by_cases at_number : number = i <;> simp [at_number]
  length := rfl
  session found := ⟨_, found, Session.IsCourse.of_beside (.refl _)⟩

theorem endRequest_course (w : World) (number : Nat) (request : PendingRequest)
    (finding : Finding) : Course R w (w.endRequest number request finding) :=
  (setRequest_course w number .over).trans (conclude_course ..)

/-- A request whose call has come out is over, and its finding is told. -/
theorem awaitResponse_course (w : World) (number : Nat) (request : PendingRequest) (call : Nat) :
    Course R w (w.awaitResponse number request call) := by
  unfold awaitResponse
  split
  · exact setRequest_course ..
  · exact endRequest_course ..

/-- What a request in the background is worded as has the method of its purpose, be it plain or a question
of the host. -/
theorem wording_method {purpose : Purpose} {method : String} {params : Json}
    (worded : w.wording purpose = .ok (method, params)) : method = purpose.method := by
  cases purpose with
  | plain said _ => cases worded; rfl
  | question feature question =>
    simp only [wording] at worded
    cases asked : feature.ask w.options.rewriter question with
    | error failure => rw [asked] at worded; cases worded
    | ok params => rw [asked] at worded; cases worded; rfl

/-- Sending a request that waits in the background is a course, in the relation that is asked of all such
requests. -/
theorem sendRequest_course {number : Nat} {request : PendingRequest} (asks : w.Asks R)
    (member : request ∈ w.requests) : Course R w (w.sendRequest number request) := by
  unfold sendRequest
  split
  · exact endRequest_course ..
  · exact endRequest_course ..
  next method params session worded found =>
    cases wording_method worded
    exact (put_course found (asks request member session params)).trans (awaitResponse_course ..)

/-- The task of a request in the background is a course from every stage of it. -/
theorem pollRequest_course (asks : w.Asks R) (number : Nat) :
    Course R w (w.pollRequest number) := by
  unfold pollRequest
  split
  · exact .refl w
  next request found =>
    split
    · unfold dropRequest
      split
      · exact (onConnection_course (fun s => Session.IsCourse.of_beside
          (.of_connection (Connection.abandon_beside _))) w _).trans (setRequest_course ..)
      · exact setRequest_course ..
    · split
      · exact sendRequest_course asks (List.mem_of_getElem? found)
      · exact awaitResponse_course ..
      · exact .refl w

/-- A task that serves a session or a request is a course. The tasks of openings, visits, registering and
following are not among them. -/
theorem poll_course (quiet : w.host.armed = []) (asks : w.Asks R) {task : Task}
    (minor : task.isMinor = true) : Course R w (w.poll task) := by
  cases task with
  | reader number =>
    exact onConnection_course (fun s => Session.IsCourse.of_beside
      (.of_connection Connection.read_beside)) w number
  | job number job =>
    exact during_course (fun h => (Hosted.runJob_beside h _ job).course) quiet number
  | log number => exact whileActive_course (fun h => (Hosted.forwardLog_beside h).course) quiet number
  | diagnostics number =>
    exact whileActive_course (fun h => (Hosted.followDiagnostics_beside h _).course) quiet number
  | progress number =>
    exact whileActive_course (fun h => (Hosted.followProgress_beside h).course) quiet number
  | watcher number =>
    refine whileActive_course (fun h => ?_) quiet number
    split
    · exact (Hosted.dispose_beside h).course
    · exact (Hosted.Beside.refl h).course
  | request number => exact pollRequest_course asks number
  | opening number => cases minor
  | reconciler => cases minor
  | register => cases minor
  | visit number => cases minor

/-! ## Moves that nothing depends on -/

/-- A move that concerns neither the roots nor who has which session, whatever it sends. -/
def Move.isMinor : Move → Bool
  | .poll task => task.isMinor
  | .addDocument _ | .openDocument _ | .showView _ | .hideView _ | .holdConnections
  | .releaseConnections | .refuseConnections _ | .holdReporters | .releaseReporters
  | .refuseReporters _ | .send _ _ | .hangUp _ | .report => true
  | _ => false

/-- That the host opens a document is told to the sessions, each of which only counts it. -/
theorem openDocument_course (w : World) (document : TextDocument) :
    Course R w (w.openDocument document) := by
  refine .of_sessions rfl rfl rfl rfl (List.length_map _) ?_
  intro n s found
  refine ⟨s.hearOfDocument, ?_, Session.IsCourse.of_beside ?_⟩
  · exact (List.getElem?_map ..).trans (congrArg (Option.map Session.hearOfDocument) found)
  · unfold Session.hearOfDocument
    split
    · exact .of_eq rfl rfl rfl rfl
    · exact .refl s

/-- What a server sends arrives on its connection, message by message, and waits there. -/
theorem serverSend_course (w : World) (number : Nat) (messages : List Message) :
    Course R w (w.serverSend number messages) := by
  have arrived (s : Session) : R s { s with
      connection := messages.foldl Connection.arrive s.connection } :=
    Session.IsCourse.of_beside (.of_connection (Connection.arriveAll_beside messages))
  unfold serverSend
  exact onConnection_course arrived w number

/-- A move that nothing depends on is a course. It covers all moves but those that concern the roots or who
has which session. -/
theorem after_course (quiet : w.host.armed = []) (asks : w.Asks R) {move : Move}
    (minor : move.isMinor = true) : Course R w (w.after move) := by
  cases move with
  | poll task => exact poll_course quiet asks minor
  | openDocument document => exact openDocument_course w document
  | send number messages =>
    exact serverSend_course w number messages
  | hangUp number =>
    exact onConnection_course (fun s => Session.IsCourse.of_beside
      (.of_connection Connection.hangUp_beside)) w number
  | addDocument | showView | hideView | holdConnections | releaseConnections | refuseConnections
  | holdReporters | releaseReporters | refuseReporters | report =>
    exact .of_eq rfl rfl rfl rfl rfl
  | _ => cases minor

/-- A notification that a user sends is a course, in whatever relation its sending is. For changes of
folders that is the relation of later states only. -/
theorem notifyIfPossible_course {method : String}
    (worded : ∀ {s : Session} {params : Json} {connection : Connection SessionHandler},
      s.connection.notify method params = .ok connection → R s { s with connection })
    (w : World) (number : Nat) (params : Json) :
    Course R w (w.notifyIfPossible number method params) := by
  rcases w.notifyIfPossible_cases number method params with
    same | ⟨s, connection, found, told, sent⟩
  · rw [same]
    exact .refl w
  · rw [sent]
    exact put_course found (worded told)

omit [Session.IsCourse R] in
/-- A server that stops reading loses what was not read. It is a later state for its session and the same
for all others. -/
theorem stopReading_course (w : World) (number : Nat) :
    Course Session.Later w (w.serverStopsReading number) :=
  onConnection_course (fun _ => .of_connection Connection.stopReading_later) w number

end World

end LanguageClient
