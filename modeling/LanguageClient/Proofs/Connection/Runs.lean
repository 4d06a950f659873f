import LanguageClient.Proofs.Connection.Course
import Mathlib.Algebra.Group.Nat.Defs

/-!
# Runs of a connection

A run of a connection is any list of moves, in any order: what this side does, what the server does,
and when what has arrived is handled. The events of a run are what can decide calls: a response that
is handled, the end of the connection, and that nobody waits for a call any more.

`Sound` is what holds of the calls in every state: their ids count them, so as long as there are
fewer calls than ids, an id that is waited for belongs to one call. `Stands` says how a call stands
after the events so far. Most moves concern no call; `Alike` says so.
-/

namespace LanguageClient

namespace Connection

variable {η : Type} {c d e : Connection η}

/-! ## Runs -/

/-- One thing that is done with a connection. -/
inductive Move (η : Type) where
  | start
  | request (method : String) (params : Json)
  /-- Nobody waits for the outcome of a call any more. -/
  | abandon (number : Nat)
  | notify (method : String) (params : Json)
  | observe (method : String)
  | drain (feed : Nat)
  | next (feed : Nat)
  | dropFeed (feed : Nat)
  | handle (method : String) (handler : η)
  | finish (job : Nat) (outcome : Outcome)
  | close
  | release
  /-- One message of the server is handled. -/
  | dispatch (message : Message)
  /-- All that has arrived is handled, and that the server hung up. -/
  | read
  /-- The server sends a message. -/
  | arrive (message : Message)
  /-- The server takes all that was sent to it. -/
  | deliver
  | hangUp
  | stopReading

/-- Whether a move makes a call. -/
def Move.isRequest : Move η → Bool
  | .request _ _ => true
  | _ => false

/-- A notification is sent, if that is still possible. -/
def notifyIfPossible (c : Connection η) (method : String) (params : Json) : Connection η :=
  match c.notify method params with
  | .ok sent => sent
  | .error _ => c

/-- The connection after a move. -/
def after (c : Connection η) : Move η → Connection η
  | .start => c.start
  | .request method params => (c.request method params).2
  | .abandon number => c.abandon number
  | .notify method params => c.notifyIfPossible method params
  | .observe method => (c.observe method).2
  | .drain feed => (c.drain feed).2
  | .next feed => (c.next feed).2
  | .dropFeed feed => c.dropFeed feed
  | .handle method handler => c.handle method handler
  | .finish job outcome => c.finish job outcome
  | .close => c.close
  | .release => c.release
  | .dispatch message => c.dispatch message
  | .read => c.read
  | .arrive message => c.arrive message
  | .deliver => c.delivered.2
  | .hangUp => c.hangUp
  | .stopReading => c.stopReading

/-- The connection after several moves. -/
def run (c : Connection η) (moves : List (Move η)) : Connection η := moves.foldl after c

@[simp] theorem run_nil (c : Connection η) : c.run [] = c := rfl

@[simp] theorem run_cons (c : Connection η) (move : Move η) (moves : List (Move η)) :
    c.run (move :: moves) = (c.after move).run moves := rfl

/-- A run may be cut anywhere. The correlation theorem speaks of the moment at which a request is made, and
that is such a cut. -/
theorem run_append (c : Connection η) (first second : List (Move η)) :
    c.run (first ++ second) = (c.run first).run second := List.foldl_append

/-! ## Events -/

/-- What can decide a call. -/
inductive Event where
  | answered (response : Response)
  | closed
  | released
  | abandoned (number : Nat)

/-- The event that a message of the server is, if it is one. -/
def eventOf : Message → Option Event
  | .response response => some (.answered response)
  | _ => none

/-- What a move can decide. -/
def events (c : Connection η) : Move η → List Event
  | .abandon number => [.abandoned number]
  | .close => [.closed]
  | .release => [.released]
  | .dispatch message => (eventOf message).toList
  | .read =>
    if c.reader = .running then
      c.incoming.waiting.filterMap eventOf ++ if c.incoming.hasWriter then [] else [.closed]
    else []
  | _ => []

/-- The events of a run. -/
def course (c : Connection η) : List (Move η) → List Event
  | [] => []
  | move :: moves => c.events move ++ (c.after move).course moves

/-- What an event decides for a call: its outcome, or that there will be none. -/
def Event.verdict (number : Nat) (id : Int64) (method : String) : Event → Option (Option Outcome)
  | .answered response =>
    if response.id = some (.number id) then some (some (outcomeOf response method)) else none
  | .closed => some (some (.error .connectionClosed))
  | .released => some none
  | .abandoned other => if other = number then some none else none

/-- The outcome of a call that is made on the connection, after these events. -/
def sequel (c : Connection η) (method : String) (events : List Event) : Option Outcome :=
  if c.isOver then some (.error .connectionClosed)
  else if c.outgoing.hasReader then
    (events.findSome? (Event.verdict c.calls.length c.nextId method)).join
  else some (.error (.transport (.send method)))

/-! ## Ids -/

/-- The id of the call of a number: the first id is one. -/
def idAt (number : Nat) : Int64 := Int64.ofNat (number + 1)

/-- Calls have different ids as long as there are fewer than ids. The bound is the one hypothesis of the
correlation theorem, as the counter wraps around behind it. -/
theorem idAt_inj {m n : Nat} (first : m < 2 ^ 64) (second : n < 2 ^ 64) (same : idAt m = idAt n) :
    m = n := by
  have bits := congrArg (fun id : Int64 => id.toBitVec.toNat) same
  simp only [idAt, Int64.toBitVec_ofNat', BitVec.toNat_ofNat] at bits
  omega

/-- The id of the next call is one more, also where the counter wraps around. So the counter is always the
id of the number of calls. -/
theorem idAt_succ (number : Nat) : idAt number + 1 = idAt (number + 1) :=
  (Int64.ofNat_add (number + 1) 1).symm

/-- What holds of the calls and of what is waited for, in every state. -/
structure Sound (c : Connection η) : Prop where
  next : c.nextId = idAt c.calls.length
  id : ∀ {number : Nat} {call : Call}, c.calls[number]? = some call → call.id = idAt number
  /-- Who is waited for has the id and no outcome. -/
  waits : ∀ entry ∈ c.pending, entry.1 = .number (idAt entry.2) ∧
    ∃ call, c.calls[entry.2]? = some call ∧ call.outcome = none
  idle : c.isOver = true → c.pending = []
  writer : c.outgoing.hasWriter = !c.isOver

/-- How a call stands: it waits for a response, or it is decided and nothing concerns it. -/
def Stands (c : Connection η) (number : Nat) (method : String) : Option (Option Outcome) → Prop
  | none => c.calls[number]? = some ⟨idAt number, method, none, false⟩ ∧
      (.number (idAt number), number) ∈ c.pending
  | some outcome => ∃ isAbandoned, c.calls[number]? = some ⟨idAt number, method, outcome, isAbandoned⟩ ∧
      (isAbandoned = false → ∀ entry ∈ c.pending, entry.2 ≠ number)

/-- The call of which `Stands` speaks, whatever the verdict: it is there under its number, with its id, its
method and the outcome that was decided. -/
theorem Stands.known {number : Nat} {method : String} {verdict : Option (Option Outcome)}
    (stands : c.Stands number method verdict) :
    ∃ isAbandoned, c.calls[number]? = some ⟨idAt number, method, verdict.join, isAbandoned⟩ := by
  cases verdict with
  | none => exact ⟨false, stands.1⟩
  | some outcome =>
    obtain ⟨isAbandoned, found, -⟩ := stands
    exact ⟨isAbandoned, found⟩

/-- Two states that agree in all that concerns the calls. -/
structure Alike (c d : Connection η) : Prop where
  calls : d.calls = c.calls
  pending : d.pending = c.pending
  nextId : d.nextId = c.nextId
  isOver : d.isOver = c.isOver
  writer : d.outgoing.hasWriter = c.outgoing.hasWriter

theorem Alike.refl (c : Connection η) : c.Alike c := ⟨rfl, rfl, rfl, rfl, rfl⟩

/-- Two steps that concern no call make one. All five fields are equations, so it is a chain of them. -/
theorem Alike.trans (first : c.Alike d) (second : d.Alike e) : c.Alike e :=
  ⟨second.calls.trans first.calls, second.pending.trans first.pending,
    second.nextId.trans first.nextId, second.isOver.trans first.isOver,
    second.writer.trans first.writer⟩

/-- What is sound stays so in a state that is alike: the invariant reads nothing else of the connection. -/
theorem Sound.alike (sound : c.Sound) (alike : c.Alike d) : d.Sound where
  next := by rw [alike.nextId, alike.calls]; exact sound.next
  id := by rw [alike.calls]; exact sound.id
  waits := by rw [alike.calls, alike.pending]; exact sound.waits
  idle := by rw [alike.isOver, alike.pending]; exact sound.idle
  writer := by rw [alike.isOver, alike.writer]; exact sound.writer

/-- A call stands in a state as it stands in one that is alike, since neither it nor what is waited for has
changed. -/
theorem Stands.alike {number : Nat} {method : String} {verdict : Option (Option Outcome)}
    (stands : c.Stands number method verdict) (alike : c.Alike d) :
    d.Stands number method verdict := by
  cases verdict
  all_goals
    unfold Stands at stands ⊢
    rw [alike.calls, alike.pending]
    exact stands

/-! ## Moves that concern no call -/

/-- A message that is sent concerns no call and takes no end of the pipe away. The way to send it was there
before and is there still. -/
theorem alike_send {message : Message} (sent : c.send message = .ok d) : c.Alike d := by
  unfold send Pipe.send at sent
  split at sent
  · split at sent
    next pipe ok =>
      split at ok
      · cases ok
        cases sent
        exact ⟨rfl, rfl, rfl, rfl, rfl⟩
      · cases ok
    next => cases sent
  · cases sent

/-- An answer to the server is sent or is lost, and either way the calls of this side are not concerned. -/
theorem alike_reply (response : Response) : c.Alike (c.reply response) := by
  unfold reply
  split
  next sent => exact alike_send sent
  next => exact .refl c

theorem alike_note (level : LogLevel) (message : String) (fields : List (String × String)) :
    c.Alike (c.note level message fields) := ⟨rfl, rfl, rfl, rfl, rfl⟩

/-- A request of the server becomes a job or is refused. Neither has to do with the calls of this side,
though both use ids. -/
theorem alike_answer (request : Request) : c.Alike (c.answer request) := by
  unfold answer
  split
  · exact (alike_note ..).trans (alike_reply _)
  · exact ⟨rfl, rfl, rfl, rfl, rfl⟩

/-- A handler that ends is no event of the calls: it changes its job, the log and what is sent. -/
theorem alike_finish (number : Nat) (outcome : Outcome) : c.Alike (c.finish number outcome) := by
  unfold finish
  split
  · exact .refl c
  · have finished (jobs : List (Job η)) : c.Alike { c with jobs } := ⟨rfl, rfl, rfl, rfl, rfl⟩
    split
    · exact (finished _).trans (alike_reply _)
    · exact (finished _).trans ((alike_note ..).trans (alike_reply _))

/-- A notification has no id, so nobody waits for it; if it cannot be sent, nothing happens at all. -/
theorem alike_notifyIfPossible (method : String) (params : Json) :
    c.Alike (c.notifyIfPossible method params) := by
  unfold notifyIfPossible
  split
  next sent => exact alike_send sent
  next => exact .refl c

/-- Handlers are for the requests of the server. Which are there decides no call of this side. -/
theorem alike_handle (method : String) (handler : η) : c.Alike (c.handle method handler) := by
  unfold handle
  split
  · exact .refl c
  · exact ⟨rfl, rfl, rfl, rfl, rfl⟩

theorem alike_tellReader : c.Alike c.tellReader := by
  unfold tellReader
  split
  · exact ⟨rfl, rfl, rfl, rfl, rfl⟩
  · exact .refl c

/-- What has arrived only waits. A response decides its call when it is handled, which is a move of its own.
-/
theorem alike_arrive (message : Message) : c.Alike (c.arrive message) := by
  unfold arrive
  split
  · split
    next pipe _ =>
      have put : c.Alike { c with incoming := pipe } := ⟨rfl, rfl, rfl, rfl, rfl⟩
      exact put.trans alike_tellReader
    next => exact .refl c
  · exact .refl c

/-- That the server is gone is found out when what has arrived is handled, so this move decides nothing yet.
-/
theorem alike_hangUp : c.Alike c.hangUp := by
  have gone : c.Alike { c with incoming := c.incoming.dropWriter } := ⟨rfl, rfl, rfl, rfl, rfl⟩
  exact gone.trans alike_tellReader

/-- That incoming messages are dispatched from now on decides no call by itself, and happens once. -/
theorem alike_start : c.Alike c.start := by
  unfold start
  split
  · exact ⟨rfl, rfl, rfl, rfl, rfl⟩
  · exact .refl c

end Connection

end LanguageClient
