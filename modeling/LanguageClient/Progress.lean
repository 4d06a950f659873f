import LanguageClient.Error
import LanguageClient.Protocol.Progress

/-!
# Progress reporters

Each token of a server has at most one reporter of the host at a time. The first notification of a
token makes a slot for it and asks the host for a reporter; those that come meanwhile wait for the
same slot. If the host refuses, the next of them may ask again. A notification that says the work is
done completes the reporter and forgets the token. After `ProgressBoard.completeAll` every reporter
is completed, and one that the host still makes is completed at once.

Notifications may be handled at the same time: each is a call, and a call is advanced whenever its
turn comes. What the host is told is a list of events.
-/

namespace LanguageClient

/-- What the host is told about a reporter of its own. -/
inductive ReporterEvent where
  | update (reporter : Nat) (percentage : Option Binary64) (message : Option String)
  | complete (reporter : Nat)
  deriving DecidableEq, Repr

/-- Where the reporter of a token is kept. -/
inductive ReporterSlot where
  /-- The host has not been asked, or has refused. -/
  | vacant
  /-- The host has been asked. -/
  | creating
  /-- The reporter, until it is completed. -/
  | ready (reporter : Option Nat)
  deriving DecidableEq, Repr

/-- How far a notification has been handled. -/
inductive ProgressStage where
  /-- It waits for the slot to be ready or vacant. -/
  | waiting (slot : Nat)
  /-- It waits for the host. -/
  | creating (slot : Nat)
  | finished (refusal : Option HostError)
  deriving DecidableEq, Repr

/-- A notification that is handled. -/
structure ProgressCall where
  params : ProgressParams
  stage : ProgressStage
  deriving DecidableEq, Repr

/-- The reporters of one server. -/
structure ProgressBoard where
  /-- What is put behind every title. -/
  suffix : String
  slots : List ReporterSlot
  tokens : List (String × Nat)
  calls : List ProgressCall
  isClosed : Bool
  deriving DecidableEq, Repr

namespace ProgressBoard

def new (suffix : String) : ProgressBoard := ⟨suffix, [], [], [], false⟩

/-- The slot of a token, a new one if it has none. -/
def slotOf (board : ProgressBoard) (token : String) : Nat × ProgressBoard :=
  match board.tokens.lookup token with
  | some slot => (slot, board)
  | none =>
    (board.slots.length,
     { board with
       slots := board.slots ++ [.vacant]
       tokens := board.tokens ++ [(token, board.slots.length)] })

def mark (board : ProgressBoard) (call : Nat) (stage : ProgressStage) : ProgressBoard :=
  { board with calls := board.calls.modify call fun found => { found with stage } }

def put (board : ProgressBoard) (slot : Nat) (content : ReporterSlot) : ProgressBoard :=
  { board with slots := board.slots.set slot content }

/-- A notification arrives. A closed board takes no notice of it. -/
def begin (board : ProgressBoard) (params : ProgressParams) : Nat × ProgressBoard :=
  if board.isClosed then
    (board.calls.length, { board with calls := board.calls ++ [⟨params, .finished none⟩] })
  else
    let (slot, board) := board.slotOf params.id
    (board.calls.length, { board with calls := board.calls ++ [⟨params, .waiting slot⟩] })

/-- Forgets a token if the slot is still its own. -/
def evict (board : ProgressBoard) (token : String) (slot : Nat) : ProgressBoard :=
  if board.tokens.lookup token = some slot then
    { board with tokens := board.tokens.filter fun entry => entry.1 ≠ token }
  else board

/-- The reporter that a slot holds. -/
def live? (board : ProgressBoard) (slot : Nat) : Option Nat :=
  match board.slots[slot]? with
  | some (.ready reporter) => reporter
  | _ => none

/-- Completes the reporter of a slot, if it holds one. -/
def complete (board : ProgressBoard) (slot : Nat) : ProgressBoard × List ReporterEvent :=
  match board.live? slot with
  | some reporter => (board.put slot (.ready none), [.complete reporter])
  | none => (board, [])

/-- Tells a reporter what a notification says. -/
def deliver (board : ProgressBoard) (call slot : Nat) (params : ProgressParams) :
    ProgressBoard × List ReporterEvent :=
  let board := board.mark call (.finished none)
  if board.isClosed then board.complete slot
  else
    let updates := match board.live? slot with
      | some reporter =>
        if params.hasUpdate ∨ !params.isDone then
          [ReporterEvent.update reporter params.percentage params.message]
        else []
      | none => []
    if params.isDone then
      let (board, completions) := (board.evict params.id slot).complete slot
      (board, updates ++ completions)
    else (board, updates)

/-- A call goes on as far as it can without the host. -/
def advance (board : ProgressBoard) (call : Nat) : ProgressBoard × List ReporterEvent :=
  match board.calls[call]? with
  | some ⟨params, .waiting slot⟩ =>
    match board.slots[slot]? with
    | some (.ready _) => board.deliver call slot params
    | some .vacant => ((board.put slot .creating).mark call (.creating slot), [])
    | _ => (board, [])
  | _ => (board, [])

/-- The title of the reporter that a call waits for, if it waits for one. -/
def wanted? (board : ProgressBoard) (call : Nat) : Option (Option String) :=
  match board.calls[call]? with
  | some ⟨params, .creating _⟩ => some (params.title.map fun title => title ++ board.suffix)
  | _ => none

/-- The host has made the reporter that a call waited for. -/
def created (board : ProgressBoard) (call reporter : Nat) :
    ProgressBoard × List ReporterEvent :=
  match board.calls[call]? with
  | some ⟨params, .creating slot⟩ =>
    (board.put slot (.ready (some reporter))).deliver call slot params
  | _ => (board, [])

/-- The host has refused the reporter that a call waited for. -/
def refused (board : ProgressBoard) (call : Nat) (refusal : HostError) : ProgressBoard :=
  match board.calls[call]? with
  | some ⟨params, .creating slot⟩ =>
    ((board.put slot .vacant).evict params.id slot).mark call (.finished (some refusal))
  | _ => board

/-- Whether a call was handled to the end, and what the host said if it refused. -/
def ending? (board : ProgressBoard) (call : Nat) : Option (Option HostError) :=
  match board.calls[call]? with
  | some ⟨_, .finished refusal⟩ => some refusal
  | _ => none

/-- Completes the reporters of all tokens and takes no more notifications. -/
def completeAll (board : ProgressBoard) : ProgressBoard × List ReporterEvent :=
  let slots := board.tokens.map Prod.snd
  slots.foldl (fun (board, events) slot =>
    let (board, completions) := board.complete slot
    (board, events ++ completions)) ({ board with tokens := [], isClosed := true }, [])

end ProgressBoard

end LanguageClient
