import LanguageClient.Client.Registering

/-!
# Visits

A visitor gets a connection that serves a root, for as long as it needs it. Where one session serves
all roots, the visitor gets its connection, and the root is lent if the host does not have it. Where
each root has its own, the visitor gets the session of the root, which is then tracked no more, or
one that is opened for it; either is disposed when the visitor is done.

A visit that is dropped gives its loan back and lets go of its session, but does not dispose it.
-/

namespace LanguageClient

namespace World

def setVisit (w : World) (number : Nat) (stage : VisitStage) : World :=
  { w with visits := w.visits.modify number fun v => { v with stage } }

def endVisit (w : World) (number : Nat) (visit : Visit) (outcome : Outcome) : World :=
  (w.setVisit number .over).conclude visit.label
    (match outcome with
     | .ok value => .value value
     | .error failure => .failure failure)

def giveBack (w : World) (session : Nat) (loan : Loan) : World :=
  match w.sessions[session]? with
  | none => w
  | some found =>
    let (folders, connection) := w.folders.giveBack found.connection loan
    { w with folders }.put session { found with connection }

/-- The visitor is done: the loan is given back, or the session is disposed. -/
def leave (w : World) (number : Nat) (visit : Visit) (session : Nat) (loan : Option Loan)
    (outcome : Outcome) : World :=
  let w :=
    if w.isMultiRoot then
      match loan with
      | some loan => w.giveBack session loan
      | none => w
    else w.dispose session
  w.endVisit number visit outcome

def enter (w : World) (number : Nat) (visit : Visit) (session : Nat) (loan : Option Loan) :
    World :=
  match visit.verdict with
  | none => w.setVisit number (.running session loan)
  | some outcome => w.leave number visit session loan outcome

/-- A visit to the shared session begins. -/
def enterShared (w : World) (number : Nat) (visit : Visit) : World :=
  match w.shared >>= fun session => (w.sessions[session]?).map (session, ·) with
  | none => w.endVisit number visit (.error .connectionClosed)
  | some (session, found) =>
    match w.folders.lend w.options.rewriter found.connection visit.root with
    | .error failure => w.endVisit number visit (.error failure)
    | .ok (loan, folders, connection) =>
      ({ w with folders }.put session { found with connection }).enter number visit session loan

/-- The server of a visit's own session may have answered. -/
def awaitOwnGreeting (w : World) (number : Nat) (visit : Visit) (session call : Nat) : World :=
  match w.outcome? session call with
  | none => w.setVisit number (.greeting session call)
  | some outcome =>
    match w.welcome session outcome with
    | (none, w) => w.enter number visit session none
    | (some failure, w) => w.endVisit number visit (.error failure)

/-- A visit waits for a connection of its own. -/
def awaitOwnConnection (w : World) (number : Nat) (visit : Visit) : World :=
  match w.connect (.visit number) (some visit.root) with
  | (.later, w) => w.setVisit number .connecting
  | (.refused failure, w) => w.endVisit number visit (.error failure)
  | (.session session, w) =>
    match w.greet session none with
    | (.error failure, w) => w.endVisit number visit (.error failure)
    | (.ok call, w) => w.awaitOwnGreeting number visit session call

def openOwn (w : World) (number : Nat) (visit : Visit) : World :=
  w.askConnection.awaitOwnConnection number visit

/-- A visit waits for the session of a tracked root. If it is open, it is the visitor's and tracked
no more; if there is none, or it was disposed, the visit opens its own. -/
def awaitTracked (w : World) (number : Nat) (visit : Visit) (opening : Nat) : World :=
  let w := if (w.openingResult? opening).isSome then w
    else w.pollOpening (.visit number) opening
  match w.openingResult? opening with
  | none => w.setVisit number (.awaiting opening)
  | some none => w.openOwn number visit
  | some (some session) =>
    let w := w.forget visit.root opening
    if w.isDisposed session then w.openOwn number visit else w.enter number visit session none

def beginVisit (w : World) (number : Nat) (visit : Visit) : World :=
  if w.isMultiRoot then w.enterShared number visit
  else
    match w.entry? visit.root with
    | some entry => w.awaitTracked number visit entry.opening
    | none => w.openOwn number visit

def dropVisit (w : World) (number : Nat) (visit : Visit) : World :=
  let w := match visit.stage with
    | .running session (some loan) => w.giveBack session loan
    | _ => w
  w.setVisit number .over

def pollVisit (w : World) (number : Nat) : World :=
  match w.visits[number]? with
  | none => w
  | some visit =>
    if visit.isDropped then w.dropVisit number visit
    else
      match visit.stage with
      | .unstarted => w.beginVisit number visit
      | .awaiting opening => w.awaitTracked number visit opening
      | .connecting => w.awaitOwnConnection number visit
      | .greeting session call => w.awaitOwnGreeting number visit session call
      | .running session loan => w.enter number visit session loan
      | .over => w

end World

end LanguageClient
