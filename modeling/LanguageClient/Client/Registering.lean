import LanguageClient.Client.Opening

/-!
# Registering a client

A client for several roots opens one session and announces to it the roots that the host has then;
it is there when the session is open. A client for single roots opens a session for each root of the
host and is there when each of these openings has come to an end, well or not.

From then on the roots of the host are followed. With one session, the first look announces all
roots that the host has, and each later one what has changed since the last. With a session for each
root, sessions are disposed and opened as roots go and come.
-/

namespace LanguageClient

namespace World

/-! ## Following the roots -/

/-- Tells the shared session of the changes since the last look. -/
def reconcileShared (w : World) : World :=
  let after := w.host.roots
  let w := match w.shared >>= fun session => (w.sessions[session]?).map (session, ·) with
    | none => w
    | some (number, session) =>
      let (folders, connection) :=
        w.folders.reconcile w.options.rewriter session.connection w.before after
      { w with folders }.put number { session with connection }
  { w with before := after }

/-- Opens and disposes sessions by the changes since the last look. -/
def reconcileEach (w : World) : World :=
  let after := w.host.roots
  let diff := RootDiff.between w.before after
  let w := diff.removed.foldl removeRoot w
  let w := diff.added.foldl (fun w root => (w.addRoot root).2) w
  { w with before := after }

def reconcile (w : World) : World :=
  if w.isMultiRoot then w.reconcileShared else w.reconcileEach

/-- Looks at the roots of the host once for each change. The host may end the client meanwhile. -/
def followChanges : Nat → World → World
  | 0, w => w
  | count + 1, w => followChanges count w.reconcile

def pollReconciler (w : World) : World :=
  let proceed (w : World) : World :=
    let w := followChanges w.changes.waiting { w with changes := { w.changes with waiting := 0 } }
    if w.following = .ongoing ∧ w.changes.hasEnded then { w with following := .over } else w
  match w.following with
  | .fresh => proceed { w.reconcile with following := .ongoing }
  | .ongoing => proceed w
  | _ => w

def follow (w : World) (following : Following) : World :=
  { w with following }.wakeTasks [.reconciler]

/-! ## Registering -/

def notRegistered (w : World) (failure : ClientError) : World :=
  { w with phase := .over, shared := none }.conclude w.label (.failure failure)

def registered (w : World) : World :=
  { w with phase := .running }.conclude w.label (.registered w.isMultiRoot)

def sharedOpened (w : World) : World :=
  let w := { w with folders := ⟨w.host.roots, []⟩, before := [] }
  (w.follow .fresh).registered

/-- The server of the shared session may have answered. -/
def awaitSharedGreeting (w : World) (session call : Nat) : World :=
  match w.outcome? session call with
  | none => { w with phase := .greeting session call }
  | some outcome =>
    match w.welcome session outcome with
    | (none, w) => w.sharedOpened
    | (some failure, w) => w.notRegistered failure

def awaitSharedConnection (w : World) : World :=
  match w.connect .register none with
  | (.later, w) => w
  | (.refused failure, w) => w.notRegistered failure
  | (.session session, w) =>
    match w.before.mapM w.options.rewriter.folder with
    | .error failure => w.notRegistered (.conversion failure)
    | .ok folders =>
      match { w with shared := some session }.greet session (some folders) with
      | (.error failure, w) => w.notRegistered failure
      | (.ok call, w) => w.awaitSharedGreeting session call

/-- Opens the shared session, if each root can be named to its server. -/
def openShared (w : World) : World :=
  let w := { w with before := w.host.roots }
  match w.before.mapM w.options.rewriter.folder with
  | .error failure => w.notRegistered (.conversion failure)
  | .ok _ => { w.askConnection with phase := .connecting }.awaitSharedConnection

/-- Waits for the openings of the roots. -/
def join (w : World) (openings : List Nat) : World :=
  let w := openings.foldl (fun w number =>
    if (w.openingResult? number).isSome then w else w.pollOpening .register number) w
  if openings.all fun number => (w.openingResult? number).isSome then
    (w.follow .ongoing).registered
  else { w with phase := .joining openings }

/-- Opens a session for each root. -/
def openEach (w : World) : World :=
  let w := { w with before := w.host.roots }
  let (openings, w) := w.before.foldl (fun (openings, w) root =>
    let (number, w) := addRoot w root
    (openings ++ [number], w)) (([] : List Nat), w)
  { w with phase := .joining openings }.join openings

def pollRegister (w : World) : World :=
  if w.isDropped then
    match w.phase with
    | .running | .over => w
    | _ => { w with phase := .over, shared := none }
  else
    match w.phase with
    | .starting =>
      let w := { w with changes := ⟨0, false⟩ }.note .info "registering language client"
        [("multi_root", toString w.isMultiRoot)]
      if w.isMultiRoot then w.openShared else w.openEach
    | .connecting => w.awaitSharedConnection
    | .greeting session call => w.awaitSharedGreeting session call
    | .joining openings => w.join openings
    | _ => w

end World

end LanguageClient
