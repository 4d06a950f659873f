import LanguageClient.Proofs.Connection.Upkeep

/-!
# Feeds

What a feed gives is what the server said: `Connection.heard` collects the params of the
notifications of a method that are dispatched in a run, up to the end of the connection, and
`Connection.given` collects what is taken from a feed. Each move keeps the balance of a feed, which is
that what waited and what is said is what is taken and what waits then (`Tunes.after`); so a run keeps
it (`Tunes.run`), whoever else listens.

Nothing is said here of when a feed is read. A connection that nobody can use any more has no new
observers, which is why the law begins with somebody who has the connection.
-/

namespace LanguageClient

namespace Connection

variable {η : Type} {c d e : Connection η} {number : Nat} {method : String} {listens : Bool}
  {waiting : List Json}

/-! ## What is said and what is taken -/

/-- The params of a message, if it is a notification of the method. -/
def paramsIn (method : String) : Message → Option Json
  | .notification said => if said.method = method then some (said.params.getD .null) else none
  | _ => none

/-- The messages that a move dispatches. -/
def dispatched (c : Connection η) : Move η → List Message
  | .dispatch message => [message]
  | .read => if c.reader = .running then c.incoming.waiting else []
  | _ => []

/-- What a move tells those who listen to a method; nobody listens to a connection that is over. -/
def tells (c : Connection η) (method : String) (move : Move η) : List Json :=
  if c.isOver then [] else (c.dispatched move).filterMap (paramsIn method)

/-- What a run tells those who listen to a method. -/
def heard (c : Connection η) (method : String) : List (Move η) → List Json
  | [] => []
  | move :: moves => c.tells method move ++ (c.after move).heard method moves

/-- What a move takes from a feed. -/
def gives (c : Connection η) (number : Nat) : Move η → List Json
  | .drain feed => if feed = number then (c.drain feed).1 else []
  | .next feed => if feed = number then (c.next feed).1.toList else []
  | _ => []

/-- What a run takes from a feed. -/
def given (c : Connection η) (number : Nat) : List (Move η) → List Json
  | [] => []
  | move :: moves => c.gives number move ++ (c.after move).given number moves

/-- What a move takes from a feed for somebody who wants values of a type. -/
def givesAs {α : Type} (c : Connection η) (method : String) (decode : Json → Option α)
    (number : Nat) : Move η → List α
  | .drain feed => if feed = number then (c.drainAs method decode feed).1 else []
  | .next feed =>
    if feed = number then
      ((c.next feed).1 >>= fun params => (c.decoded method decode params).1).toList
    else []
  | _ => []

/-- What a run takes from a feed for somebody who wants values of a type. -/
def givenAs {α : Type} (c : Connection η) (method : String) (decode : Json → Option α)
    (number : Nat) : List (Move η) → List α
  | [] => []
  | move :: moves =>
    c.givesAs method decode number move ++ (c.after move).givenAs method decode number moves

/-- What a run takes from a feed is what its first part takes and then what the rest takes. -/
theorem given_append (first second : List (Move η)) :
    c.given number (first ++ second) = c.given number first ++ (c.run first).given number second := by
  induction first generalizing c with
  | nil => rfl
  | cons move first ih => simp only [List.cons_append, given, run_cons, ih, List.append_assoc]

/-! ## Moves that concern no feed -/

/-- Two states with the same feeds, of which both are over or none. -/
structure Mute (c d : Connection η) : Prop where
  feeds : d.feeds = c.feeds
  isOver : d.isOver = c.isOver

theorem Mute.refl (c : Connection η) : c.Mute c := ⟨rfl, rfl⟩

/-- Two steps without a word to any feed are one: the feeds are those of the beginning. -/
theorem Mute.trans (first : c.Mute d) (second : d.Mute e) : c.Mute e :=
  ⟨second.feeds.trans first.feeds, second.isOver.trans first.isOver⟩

/-- What is sent to the server says nothing to those who listen to it. -/
theorem send_mute {message : Message} (sent : c.send message = .ok d) : c.Mute d := by
  refine ⟨?_, (alike_send sent).isOver⟩
  unfold send at sent
  split at sent
  · split at sent
    · cases sent
      rfl
    · cases sent
  · cases sent

/-- The answer to a request is for the server, and no feed is concerned, whether it goes out or is lost. -/
theorem reply_mute (response : Response) : c.Mute (c.reply response) := by
  unfold reply
  split
  next sent => exact send_mute sent
  next => exact .refl c

/-- A handler that comes to its end changes a job and sends an answer, and all feeds are as they were. -/
theorem finish_mute (job : Nat) (outcome : Outcome) : c.Mute (c.finish job outcome) := by
  unfold finish
  split
  · exact .refl c
  · have finished (jobs : List (Job η)) : c.Mute { c with jobs } := ⟨rfl, rfl⟩
    split
    · exact (finished _).trans (reply_mute _)
    · have noted (d : Connection η) (level : LogLevel) (message : String)
          (fields : List (String × String)) : d.Mute (d.note level message fields) := ⟨rfl, rfl⟩
      exact (finished _).trans ((noted ..).trans (reply_mute _))

/-- A call that is made ready to wait for its response is nothing to the feeds, also where an older one
fails for it. -/
theorem awaiting_mute (method : String) : c.Mute (c.awaiting method) := by
  have cleared : c.Mute (c.cleared method) := by
    unfold cleared
    split <;> exact ⟨rfl, rfl⟩
  exact cleared.trans ⟨rfl, rfl⟩

/-- Requests and feeds have nothing to do with each other: a response goes to its call, never into a feed.
-/
theorem request_mute (method : String) (params : Json) : c.Mute (c.request method params).2 := by
  cases closed : c.isClosed with
  | true =>
    unfold request
    rw [if_pos closed]
    exact ⟨rfl, rfl⟩
  | false =>
    rw [request_eq closed]
    split
    next sent => exact (awaiting_mute method).trans (send_mute sent)
    next => exact (awaiting_mute method).trans ⟨rfl, rfl⟩

/-- Notifications of this side go out to the server and come into no feed of this side. -/
theorem notifyIfPossible_mute (method : String) (params : Json) :
    c.Mute (c.notifyIfPossible method params) := by
  unfold notifyIfPossible
  split
  next sent => exact send_mute sent
  next => exact .refl c

/-- What has arrived is in no feed as yet. It gets there when the reader handles it. -/
theorem arrive_mute (message : Message) : c.Mute (c.arrive message) := by
  refine ⟨?_, (alike_arrive message).isOver⟩
  unfold arrive tellReader
  split
  · split
    · split <;> rfl
    · rfl
  · rfl

/-- That the server is gone is noticed by the reader later, so no feed has ended by it yet. -/
theorem hangUp_mute : c.Mute c.hangUp := by
  refine ⟨?_, alike_hangUp.isOver⟩
  unfold hangUp tellReader
  split <;> rfl

/-- Who serves the requests of a method does not decide who hears its notifications. -/
theorem handle_mute (method : String) (handler : η) : c.Mute (c.handle method handler) := by
  unfold handle
  split
  · exact .refl c
  · exact ⟨rfl, rfl⟩

/-- The reader that starts has told nobody anything before it has read. -/
theorem start_mute : c.Mute c.start := by
  unfold start
  split
  · exact ⟨rfl, rfl⟩
  · exact .refl c

/-- A response goes to the call that waits for it. Feeds get the notifications only. -/
theorem complete_mute (response : Response) : c.Mute (c.complete response) := by
  unfold complete
  split
  · exact ⟨rfl, rfl⟩
  · split <;> exact ⟨rfl, rfl⟩

/-- A request of the server goes to a handler or is refused, and those who listen to its method hear nothing
of it. -/
theorem answer_mute (request : Request) : c.Mute (c.answer request) := by
  unfold answer
  split
  · have noted (fields : List (String × String)) :
        c.Mute (c.note .warn "no handler for server request" fields) := ⟨rfl, rfl⟩
    exact (noted _).trans (reply_mute _)
  · exact ⟨rfl, rfl⟩

/-- To look into params that were taken changes no feed. They are gone from it already. -/
theorem decoded_mute {α : Type} (method : String) (decode : Json → Option α) (params : Json) :
    c.Mute (c.decoded method decode params).2 := by
  unfold decoded
  split <;> exact ⟨rfl, rfl⟩

/-! ## The end of a connection -/

/-- No message ends the connection. Only the reader does that, when the server is gone. -/
theorem isOver_dispatch (message : Message) : (c.dispatch message).isOver = c.isOver := by
  cases message with
  | notification said => rfl
  | response response => exact (complete_mute response).isOver
  | request request => exact (answer_mute request).isOver

theorem isOver_dispatchAll (messages : List Message) :
    (messages.foldl dispatch c).isOver = c.isOver := by
  induction messages generalizing c with
  | nil => rfl
  | cons message messages ih => exact ih.trans (isOver_dispatch message)

/-- A connection that is over stays so when what has arrived is handled. -/
theorem isOver_read (ended : c.isOver = true) : c.read.isOver = true := by
  by_cases running : c.reader = .running
  · rw [read_of_running running]
    split
    · exact (isOver_dispatchAll c.incoming.waiting).trans ended
    · exact isOver_close _
  · rw [read_of_not_running running]
    exact ended

/-- No move revives a connection. The cases are the moves, and each leaves both marks of the end alone or
sets one. -/
theorem isOver_after (ended : c.isOver = true) (move : Move η) : (c.after move).isOver = true := by
  have mute {d : Connection η} (mute : c.Mute d) : d.isOver = true := mute.isOver.trans ended
  cases move with
  | request method params => exact mute (request_mute method params)
  | notify method params => exact mute (notifyIfPossible_mute method params)
  | handle method handler => exact mute (handle_mute method handler)
  | finish job outcome => exact mute (finish_mute job outcome)
  | arrive message => exact mute (arrive_mute message)
  | hangUp => exact mute hangUp_mute
  | start => exact mute start_mute
  | close => exact isOver_close c
  | release =>
    show c.release.isOver = true
    rw [release_of_isOver ended]
    exact ended
  | dispatch message => exact (isOver_dispatch message).trans ended
  | read => exact isOver_read ended
  | abandon | deliver | stopReading | observe | drain | next | dropFeed => exact ended

/-- What is over at some moment is over ever after. -/
theorem isOver_run (ended : c.isOver = true) (moves : List (Move η)) :
    (c.run moves).isOver = true := by
  induction moves generalizing c with
  | nil => exact ended
  | cons move moves ih => exact ih (isOver_after ended move)

/-- A connection that is over says nothing, whatever is dispatched on it: those who listen have been
detached. -/
theorem heard_of_isOver (ended : c.isOver = true) (method : String) (moves : List (Move η)) :
    c.heard method moves = [] := by
  induction moves generalizing c with
  | nil => rfl
  | cons move moves ih =>
    have silent : c.tells method move = [] := by
      unfold tells
      exact if_pos ended
    rw [heard, silent, List.nil_append]
    exact ih (isOver_after ended move)

/-! ## The balance of a feed -/

/-- A feed of a method with what waits in it. It is attached as long as the connection is there and
nobody has dropped it. -/
def Tunes (c : Connection η) (number : Nat) (method : String) (listens : Bool)
    (waiting : List Json) : Prop :=
  c.feeds[number]? = some ⟨method, listens && !c.isOver, waiting⟩

/-- What a move tells a feed, if nobody has dropped it. -/
def tellsIf (c : Connection η) (listens : Bool) (method : String) (move : Move η) : List Json :=
  if listens then c.tells method move else []

/-- A step without a word to any feed leaves a feed as it is known to be. -/
theorem Tunes.mute (tunes : c.Tunes number method listens waiting) (mute : c.Mute d) :
    d.Tunes number method listens waiting := by
  unfold Tunes
  rw [mute.feeds, mute.isOver]
  exact tunes

/-- What waits in a feed is what is known to wait in it. It turns the invariant into what an observer sees.
-/
theorem Tunes.waiting_eq (tunes : c.Tunes number method listens waiting) :
    c.waiting number = waiting := by
  unfold Connection.waiting
  rw [tunes]
  rfl

/-- Somebody who has the connection gets a feed that listens, and nothing waits in it. If the connection is
closed, it has ended in the same moment. -/
theorem tunes_observe (held : c.isReleased = false) (method : String) :
    (c.observe method).2.Tunes c.feeds.length method true [] := by
  have ended : (c.observe method).2.isOver = c.isClosed := by
    simp only [observe, isOver, held, Bool.or_false]
  unfold Tunes
  rw [ended]
  simp only [observe, Bool.true_and, List.getElem?_concat_length]

/-- A feed takes a message exactly if it listens and the message is a notification of its method. Other
feeds of the method do not come into it. -/
theorem Tunes.dispatch (tunes : c.Tunes number method listens waiting) (message : Message) :
    (c.dispatch message).Tunes number method listens
      (waiting ++ if listens && !c.isOver then (paramsIn method message).toList else []) := by
  have unmoved (mute : c.Mute (c.dispatch message)) (other : paramsIn method message = none) :
      (c.dispatch message).Tunes number method listens
        (waiting ++ if listens && !c.isOver then (paramsIn method message).toList else []) := by
    rw [other, Option.toList_none, ite_self, List.append_nil]
    exact tunes.mute mute
  cases message with
  | response response => exact unmoved (complete_mute response) rfl
  | request request => exact unmoved (answer_mute request) rfl
  | notification said =>
    have published : (c.publish said).feeds[number]? = some (Feed.offered
        ⟨method, listens && !c.isOver, waiting⟩ said.method (said.params.getD .null)) := by
      simp only [publish, signal, List.getElem?_map]
      rw [tunes]
      rfl
    refine published.trans ?_
    have kept : (c.publish said).isOver = c.isOver := rfl
    rw [Connection.dispatch, kept]
    unfold Feed.offered Feed.accepts paramsIn
    generalize (listens && !c.isOver) = attached
    cases attached with
    | false => simp
    | true =>
      by_cases same : said.method = method
      · simp [same]
      · have other : method ≠ said.method := fun equal => same equal.symm
        simp [same, other]

/-- Messages that are handled one after the other come into a feed in their order, as far as they are for
it. -/
theorem Tunes.dispatchAll (messages : List Message)
    (tunes : c.Tunes number method listens waiting) :
    (messages.foldl Connection.dispatch c).Tunes number method listens
      (waiting ++ if listens && !c.isOver then messages.filterMap (paramsIn method) else []) := by
  induction messages generalizing c waiting with
  | nil =>
    rw [List.filterMap_nil, ite_self, List.append_nil]
    exact tunes
  | cons message messages ih =>
    have rest := ih (tunes.dispatch message)
    rw [isOver_dispatch, List.append_assoc] at rest
    have split : (message :: messages).filterMap (paramsIn method) =
        (paramsIn method message).toList ++ messages.filterMap (paramsIn method) := by
      rw [List.filterMap_cons]
      cases paramsIn method message <;> rfl
    rw [split]
    generalize (listens && !c.isOver) = attached at rest ⊢
    cases attached <;> exact rest

/-- The end of a connection detaches a feed and leaves in it what waits. `close` and `release` share this
step. -/
theorem Tunes.detached (tunes : c.Tunes number method listens waiting)
    (feeds : d.feeds = c.feeds.map Feed.detached) (ended : d.isOver = true) :
    d.Tunes number method listens waiting := by
  unfold Tunes
  rw [feeds, List.getElem?_map, tunes, ended, Bool.not_true, Bool.and_false]
  rfl

/-- A feed outlives the connection that is closed, with what waits in it; it takes nothing more. -/
theorem Tunes.close (tunes : c.Tunes number method listens waiting) :
    c.close.Tunes number method listens waiting := by
  cases running : c.isOver with
  | true =>
    rw [close_of_isOver running]
    exact tunes
  | false =>
    refine tunes.detached ?_ c.isOver_close
    have settled (entries : List (RequestId × Nat)) (d : Connection η) : (entries.foldl
        (fun d entry => d.settle entry.2 (.error .connectionClosed)) d).feeds = d.feeds := by
      induction entries generalizing d with
      | nil => rfl
      | cons entry entries ih => exact ih _
    rw [close_of_running running]
    exact congrArg (List.map Feed.detached) (settled c.pending _)

/-- A feed of a connection that nobody holds any more keeps what waits in it, as with a close. -/
theorem Tunes.release (tunes : c.Tunes number method listens waiting) :
    c.release.Tunes number method listens waiting := by
  cases running : c.isOver with
  | true =>
    rw [release_of_isOver running]
    exact tunes
  | false =>
    refine tunes.detached ?_ (ends_release running).isOver
    rw [release_of_running running]
    rfl

/-- Handling what has arrived puts into a feed what it is told, before the connection is closed if the
server is gone. -/
theorem Tunes.read (tunes : c.Tunes number method listens waiting) :
    c.read.Tunes number method listens (waiting ++ c.tellsIf listens method .read) := by
  by_cases running : c.reader = .running
  · have taken : c.taken.Tunes number method listens waiting := tunes
    have heard := taken.dispatchAll c.incoming.waiting
    have said : (if listens && !c.taken.isOver then c.incoming.waiting.filterMap (paramsIn method)
        else []) = c.tellsIf listens method .read := by
      have same : c.taken.isOver = c.isOver := rfl
      simp only [tellsIf, tells, dispatched, running, same, if_true]
      cases listens <;> cases c.isOver <;> rfl
    rw [said] at heard
    rw [read_of_running running]
    split
    · exact heard
    · exact heard.close
  · rw [read_of_not_running running]
    simp only [tellsIf, tells, dispatched, running, if_false, List.filterMap_nil, ite_self,
      List.append_nil]
    exact tunes

/-- What happens to another feed is nothing to this one. That is all that is needed for the independence of
observers. -/
theorem Tunes.apart (tunes : c.Tunes number method listens waiting) {other : Nat}
    (change : Feed → Feed) (apart : other ≠ number) :
    { c with feeds := c.feeds.modify other change }.Tunes number method listens waiting := by
  have same : (c.feeds.modify other change)[number]? = c.feeds[number]? := by
    simp only [List.getElem?_modify, apart, if_false, Option.map_eq_map, Option.map_id']
  exact same.trans tunes

/-- What happens to a feed itself, given by what the change makes of its record. Draining, taking one item
and dropping are the three instances. -/
theorem Tunes.self (tunes : c.Tunes number method listens waiting) {hears : Bool} {left : List Json}
    (change : Feed → Feed) (changed : change ⟨method, listens && !c.isOver, waiting⟩ =
      ⟨method, hears && !c.isOver, left⟩) :
    { c with feeds := c.feeds.modify number change }.Tunes number method hears left := by
  have same : (c.feeds.modify number change)[number]? = (c.feeds[number]?).map change := by
    simp only [List.getElem?_modify, if_true, Option.map_eq_map]
  refine same.trans ?_
  rw [tunes]
  exact congrArg some changed

/-- What a feed that was dropped waits for is nothing: it listens no more, and what was in it is gone. -/
theorem Tunes.drop (tunes : c.Tunes number method listens waiting) :
    (c.dropFeed number).Tunes number method false [] :=
  tunes.self (fun feed => feed.detached.emptied) rfl

/-- Every move keeps the balance of a feed, unless it drops the feed: what is taken and what is left are
what waited and what is said. The cases are the moves, of which only those that read or take change either
side. -/
theorem Tunes.after (tunes : c.Tunes number method listens waiting) {move : Move η}
    (kept : move ≠ .dropFeed number) :
    ∃ left, (c.after move).Tunes number method listens left ∧
      c.gives number move ++ left = waiting ++ c.tellsIf listens method move := by
  -- a move that neither reads the feed nor dispatches anything leaves what waits in it
  have silent {move : Move η} (tunes : (c.after move).Tunes number method listens waiting)
      (gives : c.gives number move = []) (dispatched : c.dispatched move = []) :
      ∃ left, (c.after move).Tunes number method listens left ∧
        c.gives number move ++ left = waiting ++ c.tellsIf listens method move := by
    refine ⟨waiting, tunes, ?_⟩
    rw [gives, tellsIf, tells, dispatched, List.filterMap_nil, ite_self, ite_self, List.append_nil]
    rfl
  cases move with
  | drain feed =>
    by_cases same : feed = number
    · subst same
      refine ⟨[], tunes.self Feed.emptied rfl, ?_⟩
      simp only [gives, if_true, drain, tunes.waiting_eq, tellsIf, tells, dispatched,
        List.filterMap_nil, ite_self]
    · refine silent (tunes.apart _ same) ?_ rfl
      simp only [gives, same, if_false]
  | next feed =>
    by_cases same : feed = number
    · subst same
      refine ⟨waiting.drop 1, tunes.self Feed.tail rfl, ?_⟩
      simp only [gives, if_true, Connection.next, tunes.waiting_eq, tellsIf, tells, dispatched,
        List.filterMap_nil, ite_self, List.append_nil]
      cases waiting <;> rfl
    · refine silent (tunes.apart _ same) ?_ rfl
      simp only [gives, same, if_false]
  | dropFeed feed =>
    refine silent (tunes.apart _ ?_) rfl rfl
    rintro rfl
    exact kept rfl
  | observe other =>
    refine silent ?_ rfl rfl
    have known := (List.getElem?_eq_some_iff.mp tunes).1
    exact (List.getElem?_append_left known).trans tunes
  | dispatch message =>
    refine ⟨_, tunes.dispatch message, ?_⟩
    simp only [gives, List.nil_append, tellsIf, tells, dispatched, List.filterMap_cons,
      List.filterMap_nil]
    -- what is dispatched waits for the observer just if it listens, the connection is not over, and
    -- the params decode
    cases listens <;> cases c.isOver <;> cases paramsIn method message <;> rfl
  | read => exact ⟨_, tunes.read, rfl⟩
  | close => exact silent tunes.close rfl rfl
  | release => exact silent tunes.release rfl rfl
  | request method params => exact silent (tunes.mute (request_mute method params)) rfl rfl
  | notify method params => exact silent (tunes.mute (notifyIfPossible_mute method params)) rfl rfl
  | handle method handler => exact silent (tunes.mute (handle_mute method handler)) rfl rfl
  | finish job outcome => exact silent (tunes.mute (finish_mute job outcome)) rfl rfl
  | arrive message => exact silent (tunes.mute (arrive_mute message)) rfl rfl
  | hangUp => exact silent (tunes.mute hangUp_mute) rfl rfl
  | start => exact silent (tunes.mute start_mute) rfl rfl
  | abandon | deliver | stopReading => exact silent (tunes.mute ⟨rfl, rfl⟩) rfl rfl

/-- A run keeps the balance of a feed that it does not drop, by induction on the moves. What the first move
leaves is what waits for the rest. -/
theorem Tunes.run (tunes : c.Tunes number method true waiting) {moves : List (Move η)}
    (kept : .dropFeed number ∉ moves) :
    ∃ left, (c.run moves).Tunes number method true left ∧
      c.given number moves ++ left = waiting ++ c.heard method moves := by
  induction moves generalizing c waiting with
  | nil => exact ⟨waiting, tunes, by simp only [given, heard, List.nil_append, List.append_nil]⟩
  | cons move moves ih =>
    obtain ⟨middle, tunes, balance⟩ :=
      tunes.after fun drops => kept (drops ▸ List.mem_cons_self)
    obtain ⟨left, tunes, rest⟩ := ih tunes fun member => kept (List.mem_cons_of_mem _ member)
    refine ⟨left, tunes, ?_⟩
    simp only [tellsIf, if_true] at balance
    calc c.given number (move :: moves) ++ left
        = c.gives number move ++ (middle ++ (c.after move).heard method moves) := by
          simp only [given, List.append_assoc, rest]
      _ = (waiting ++ c.tells method move) ++ (c.after move).heard method moves := by
          rw [← List.append_assoc, balance]
      _ = waiting ++ c.heard method (move :: moves) := by
          simp only [heard, List.append_assoc]

/-- A feed stays in its place, with its method, in every run, also if it is dropped. So its number always
means the same observer. -/
theorem Tunes.stays (tunes : c.Tunes number method listens waiting) (moves : List (Move η)) :
    ∃ listens waiting, (c.run moves).Tunes number method listens waiting := by
  induction moves generalizing c listens waiting with
  | nil => exact ⟨listens, waiting, tunes⟩
  | cons move moves ih =>
    by_cases drops : move = .dropFeed number
    · subst drops
      exact ih tunes.drop
    · obtain ⟨left, tunes, -⟩ := tunes.after drops
      exact ih tunes

/-- A feed that was dropped gives nothing any more, though moves may still ask it for something. -/
theorem Tunes.given_of_dropped (tunes : c.Tunes number method false []) (moves : List (Move η)) :
    c.given number moves = [] := by
  induction moves generalizing c with
  | nil => rfl
  | cons move moves ih =>
    by_cases drops : move = .dropFeed number
    · subst drops
      exact ih tunes.drop
    · obtain ⟨left, tunes, balance⟩ := tunes.after drops
      obtain ⟨gives, rfl⟩ := List.append_eq_nil_iff.mp balance
      simp only [given, gives, List.nil_append]
      exact ih tunes

/-! ## Values of a type -/

/-- Decoding keeps the order and drops what does not decode, with a word in the log. The list of values
found so far is an argument, as the induction needs it general. -/
theorem foldl_decoded {α : Type} (method : String) (decode : Json → Option α)
    (params : List Json) (values : List α) (c : Connection η) : ∃ log,
    params.foldl (fun (found : List α × Connection η) value =>
        (found.1 ++ (found.2.decoded method decode value).1.toList,
          (found.2.decoded method decode value).2)) (values, c) =
      (values ++ params.filterMap decode, { c with log }) := by
  induction params generalizing values c with
  | nil => exact ⟨c.log, by rw [List.filterMap_nil, List.append_nil]; rfl⟩
  | cons value params ih =>
    rw [List.foldl_cons, List.filterMap_cons]
    cases found : decode value with
    | some decoded =>
      have taken : c.decoded method decode value = (some decoded, c) := by
        simp only [Connection.decoded, found]
      obtain ⟨log, rest⟩ := ih (values ++ [decoded]) c
      refine ⟨log, ?_⟩
      rw [taken]
      refine rest.trans ?_
      rw [List.append_assoc, List.singleton_append]
    | none =>
      have dropped : c.decoded method decode value =
          (none, c.note .warn "dropping malformed notification" [("method", method)]) := by
        simp only [Connection.decoded, found]
      obtain ⟨log, rest⟩ :=
        ih values (c.note .warn "dropping malformed notification" [("method", method)])
      refine ⟨log, ?_⟩
      rw [dropped, Option.toList_none, List.append_nil]
      exact rest

/-- Whoever wants values of a type gets what decodes of all that waits, in its order, and the feed is empty.
-/
theorem drainAs_eq {α : Type} (c : Connection η) (method : String) (decode : Json → Option α)
    (number : Nat) : ∃ log, c.drainAs method decode number =
      ((c.waiting number).filterMap decode, { (c.drain number).2 with log }) :=
  foldl_decoded method decode (c.waiting number) [] (c.drain number).2

/-- What a move takes from a feed as values of a type is what it takes, as far as that decodes. -/
theorem givesAs_eq {α : Type} (c : Connection η) (method : String) (decode : Json → Option α)
    (number : Nat) (move : Move η) :
    c.givesAs method decode number move = (c.gives number move).filterMap decode := by
  cases move with
  | drain feed =>
    obtain ⟨log, drained⟩ := c.drainAs_eq method decode feed
    by_cases same : feed = number
    · simp only [givesAs, gives, same, if_true]
      rw [← same, drained]
      rfl
    · simp only [givesAs, gives, same, if_false, List.filterMap_nil]
  | next feed =>
    by_cases same : feed = number
    · simp only [givesAs, gives, same, if_true]
      cases (c.next number).1 with
      | none => rfl
      | some params =>
        simp only [Option.bind_eq_bind, Option.bind_some, Option.toList_some, decoded,
          List.filterMap_cons, List.filterMap_nil]
        cases decode params <;> rfl
    · simp only [givesAs, gives, same, if_false, List.filterMap_nil]
  | _ => rfl

/-- What a run takes from a feed as values of a type is what it takes, as far as that decodes, by one
equation for each move. -/
theorem givenAs_eq {α : Type} (c : Connection η) (method : String) (decode : Json → Option α)
    (number : Nat) (moves : List (Move η)) :
    c.givenAs method decode number moves = (c.given number moves).filterMap decode := by
  induction moves generalizing c with
  | nil => rfl
  | cons move moves ih => simp only [givenAs, given, givesAs_eq, ih, List.filterMap_append]

/-! ## The feeds of a run -/

/-- How the feed that an observer gets goes along with a run. -/
structure Conveys (c : Connection η) (method : String) (moves : List (Move η)) : Prop where
  /-- What was taken and what waits is what was said, each once and in that order. -/
  gives : .dropFeed c.feeds.length ∉ moves →
    (c.observe method).2.given c.feeds.length moves ++
      ((c.observe method).2.run moves).waiting c.feeds.length =
        (c.observe method).2.heard method moves
  /-- The feed has ended once the connection is over and nothing waits. -/
  ends : .dropFeed c.feeds.length ∉ moves →
    (((c.observe method).2.run moves).hasEnded c.feeds.length = true ↔
      ((c.observe method).2.run moves).isOver = true ∧
        ((c.observe method).2.run moves).waiting c.feeds.length = [])
  /-- A feed that is asked for when the connection is over is empty and has ended. -/
  late : c.isOver = true → .dropFeed c.feeds.length ∉ moves →
    (c.observe method).2.given c.feeds.length moves = [] ∧
      ((c.observe method).2.run moves).hasEnded c.feeds.length = true
  /-- It gives nothing when it was dropped. -/
  drops : ∀ first second, moves = first ++ .dropFeed c.feeds.length :: second →
    (c.observe method).2.given c.feeds.length moves =
      (c.observe method).2.given c.feeds.length first
  /-- Whoever wants values of a type gets what decodes of what was said. -/
  decodes : .dropFeed c.feeds.length ∉ moves → ∀ {α : Type} (decode : Json → Option α),
    (c.observe method).2.givenAs method decode c.feeds.length moves ++
      (((c.observe method).2.run moves).drainAs method decode c.feeds.length).1 =
        ((c.observe method).2.heard method moves).filterMap decode

/-- Whenever somebody starts to listen to a method, what the feed gives from then on is what is said, up to
the end of the connection. The hypothesis is that somebody has the connection, without which there is no
asking for a feed. -/
theorem run_conveys (before moves : List (Move η)) (method : String)
    (held : (new.run before : Connection η).isReleased = false) :
    Conveys (new.run before : Connection η) method moves := by
  generalize (new.run before : Connection η) = c at held ⊢
  have start := tunes_observe held method
  have ends (kept : .dropFeed c.feeds.length ∉ moves) :
      (((c.observe method).2.run moves).hasEnded c.feeds.length = true ↔
        ((c.observe method).2.run moves).isOver = true ∧
          ((c.observe method).2.run moves).waiting c.feeds.length = []) := by
    obtain ⟨left, tunes, -⟩ := start.run kept
    rw [tunes.waiting_eq, hasEnded, tunes]
    simp only [Feed.isEnded, Bool.true_and, Bool.not_not, Bool.and_eq_true, List.isEmpty_iff]
  refine ⟨fun kept => ?_, ends, fun ended kept => ?_, ?_, fun kept _ decode => ?_⟩
  · obtain ⟨left, tunes, balance⟩ := start.run kept
    rw [tunes.waiting_eq]
    exact balance
  · have observed : (c.observe method).2.isOver = true := isOver_after ended (.observe method)
    obtain ⟨left, tunes, balance⟩ := start.run kept
    rw [heard_of_isOver observed, List.nil_append] at balance
    obtain ⟨nothing, rfl⟩ := List.append_eq_nil_iff.mp balance
    exact ⟨nothing, (ends kept).mpr ⟨isOver_run observed moves, tunes.waiting_eq⟩⟩
  · rintro first second rfl
    obtain ⟨listens, waiting, tunes⟩ := start.stays first
    have silent := tunes.drop.given_of_dropped second
    rw [given_append]
    exact (congrArg _ silent).trans (List.append_nil _)
  · obtain ⟨left, tunes, balance⟩ := start.run kept
    obtain ⟨log, drained⟩ := ((c.observe method).2.run moves).drainAs_eq method decode c.feeds.length
    rw [drained, givenAs_eq, tunes.waiting_eq, ← List.filterMap_append, balance]
    rfl

/-- An earlier listener to the method goes away, and the connection ends before the last word. -/
def overheard : List (Move Unit) :=
  [.start, .arrive (.notification ⟨protocolVersion, "say", some (.bool true)⟩),
    .arrive (.notification ⟨protocolVersion, "other", some (.bool true)⟩), .read, .next 2,
    .dropFeed 0, .dispatch (.notification ⟨protocolVersion, "say", none⟩), .close,
    .dispatch (.notification ⟨protocolVersion, "say", some (.bool false)⟩), .next 2]

/-- The theorem at a run with two earlier listeners, of whom one goes away, and what the third is given
before the end. -/
theorem overheard_conveys : (new.run [.observe "say", .observe "other"] :
      Connection Unit).isReleased = false ∧
    Conveys (new.run [.observe "say", .observe "other"]) "say" overheard ∧
    ((new.run [.observe "say", .observe "other"]).observe "say").2.given 2 overheard =
      [.bool true, .null] :=
  ⟨rfl, run_conveys [.observe "say", .observe "other"] overheard "say" rfl, by rfl⟩

end Connection

end LanguageClient
