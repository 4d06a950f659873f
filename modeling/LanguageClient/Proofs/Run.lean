import LanguageClient.Client.Step

/-!
# Runs

A `World.Move` is one thing that happens: a task is polled, or the host, a server or a user of the
client does something. A run is any list of moves, in any order, so whatever holds after every run
holds for every order in which tasks are polled. A move that is not possible leaves the world as it
is.

A server reads what was sent to it without the client's noticing, and no move stands for that: the
pipe to a server keeps all that was ever put into it, up to the moment at which the server reads no
more.
-/

namespace LanguageClient

namespace World

/-- One thing that happens. -/
inductive Move where
  /-- A task makes a step. -/
  | poll (task : Task)
  /-- What nobody holds is released. -/
  | sweep
  /-- The host has these roots now. -/
  | roots (roots : List Url)
  | addDocument (document : TextDocument)
  | openDocument (document : TextDocument)
  | showView (document : Url)
  | hideView (view : Nat)
  | endStreams
  | holdConnections
  | releaseConnections
  | refuseConnections (count : Nat)
  | holdReporters
  | releaseReporters
  | refuseReporters (count : Nat)
  | arm (call : HostCall)
  | register (label : String)
  | shutdown
  /-- Somebody asks for a connection that serves a root. -/
  | visit (label : String) (root : Url)
  /-- A visitor comes to its end. -/
  | verdict (visit : Nat) (outcome : Outcome)
  | request (label : String) (session : Nat) (purpose : Purpose)
  | notify (session : Nat) (method : String) (params : Json)
  | drop (label : String)
  /-- A server sends messages. -/
  | send (session : Nat) (messages : List Message)
  | hangUp (session : Nat)
  | stopReading (session : Nat)
  /-- What has happened is told to those who watch. -/
  | report

/-- The client is registered, once. -/
def registerOnce (w : World) (label : String) : World :=
  if w.phase = .absent then w.register label else w

/-- The client is ended, if it can be. -/
def shutdownIfPossible (w : World) : World :=
  match w.shutdown with
  | .ok w => w
  | .error _ => w

/-- The client is ended if it runs and nobody visits; otherwise nothing happens. It is the one place that
looks at why `World.shutdown` can fail. -/
theorem shutdownIfPossible_cases (w : World) : w.shutdownIfPossible = w ∨
    w.phase = .running ∧ (∀ visit ∈ w.visits, visit.stage = .over) ∧
      w.shutdownIfPossible = w.endClient := by
  unfold shutdownIfPossible shutdown
  by_cases running : w.phase = .running
  · rw [if_neg (Decidable.not_not.mpr running)]
    split
    next v ended =>
      split at ended
      · cases ended
      next idle =>
        cases ended
        refine .inr ⟨running, fun visit member => ?_, rfl⟩
        refine Decidable.byContradiction fun underway => idle ?_
        exact List.any_eq_true.mpr ⟨visit, member, decide_eq_true underway⟩
    next => exact .inl rfl
  · rw [if_pos running]
    exact .inl rfl

/-- A visitor comes to its end, once. -/
def judge (w : World) (number : Nat) (outcome : Outcome) : World :=
  match (w.visits[number]?).map Visit.verdict with
  | some none => w.setVerdict number outcome
  | _ => w

/-- A notification is sent, if that is still possible. -/
def notifyIfPossible (w : World) (number : Nat) (method : String) (params : Json) : World :=
  match w.notify number method params with
  | .ok w => w
  | .error _ => w

/-- A notification goes out on the connection of its session, or nothing happens. -/
theorem notifyIfPossible_cases (w : World) (number : Nat) (method : String) (params : Json) :
    w.notifyIfPossible number method params = w ∨
      ∃ s connection, w.sessions[number]? = some s ∧
        s.connection.notify method params = .ok connection ∧
        w.notifyIfPossible number method params = w.put number { s with connection } := by
  unfold notifyIfPossible notify
  cases found : w.sessions[number]? with
  | none => exact .inl rfl
  | some s =>
    dsimp only
    cases told : s.connection.notify method params with
    | error failure => exact .inl rfl
    | ok connection => exact .inr ⟨s, connection, rfl, told, rfl⟩

/-- The world after its news were told. -/
def reported (w : World) : World :=
  { w with finished := [], log := [], woken := [], host := { w.host with trace := [] } }

/-- The world after a move. -/
def after (w : World) : Move → World
  | .poll task => w.poll task
  | .sweep => w.sweep
  | .roots roots => w.setRoots roots
  | .addDocument document => w.addDocument document
  | .openDocument document => w.openDocument document
  | .showView document => { w with host := (w.host.addView document).2 }
  | .hideView view => { w with host := w.host.removeView view }
  | .endStreams => w.endStreams
  | .holdConnections => w.holdConnections
  | .releaseConnections => w.releaseConnections
  | .refuseConnections count => w.refuseConnections count
  | .holdReporters => w.holdReporters
  | .releaseReporters => w.releaseReporters
  | .refuseReporters count => w.refuseReporters count
  | .arm call => w.arm call
  | .register label => w.registerOnce label
  | .shutdown => w.shutdownIfPossible
  | .visit label root => (w.visit label root).getD w
  | .verdict visit outcome => w.judge visit outcome
  | .request label session purpose => w.spawnRequest label session purpose
  | .notify session method params => w.notifyIfPossible session method params
  | .drop label => w.drop label
  | .send session messages => w.serverSend session messages
  | .hangUp session => w.serverHangsUp session
  | .stopReading session => w.serverStopsReading session
  | .report => w.reported

/-- The world after several moves. -/
def run (w : World) (moves : List Move) : World := moves.foldl after w

@[simp] theorem run_nil (w : World) : w.run [] = w := rfl

/-- The first move of a run is made first. With `run_nil` this is the shape in which every induction over a
run opens it. -/
@[simp] theorem run_cons (w : World) (move : Move) (moves : List Move) :
    w.run (move :: moves) = (w.after move).run moves := rfl

/-- A run may be cut anywhere: the second part goes on from where the first has led. Run lemmas that speak
of a moment within a run are stated at such a cut. -/
theorem run_append (w : World) (first second : List Move) :
    w.run (first ++ second) = (w.run first).run second := List.foldl_append

/-- What every move of a kind preserves, every run of such moves preserves. An invariant of the world is
proved by its step lemma and this one; the kind says which moves the invariant is claimed for. -/
theorem run_induction {kind : Move → Prop} (property : World → Prop)
    (preserved : ∀ w move, kind move → property w → property (w.after move)) {w : World}
    {moves : List Move} (allowed : ∀ move ∈ moves, kind move) (start : property w) :
    property (w.run moves) := by
  induction moves generalizing w with
  | nil => exact start
  | cons move moves ih =>
    rw [run_cons]
    refine ih (fun later member => allowed later (List.mem_cons_of_mem _ member)) ?_
    exact preserved w move (allowed move List.mem_cons_self) start

end World

end LanguageClient
