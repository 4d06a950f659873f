import LanguageClient.Client.Step

/-!
# Operations of the client in parts

Some operations of the client make several changes one after the other. Here the changes have names,
so that what holds of such an operation is shown of one change at a time.
-/

namespace LanguageClient

namespace World

/-! ## Ending the client -/

/-- Disposes of a session, if there is one. -/
def tearDownAny (w : World) (session : Option Nat) : World :=
  match session with
  | some session => (w.tearDown session).2
  | none => w

/-- The end of a client in its parts: the phase and what it follows, the shared session, the tracked roots,
and the word in the log. -/
theorem endClient_eq (w : World) :
    w.endClient = (w.entries.foldl (fun w entry => (revoke w entry.opening).2)
      ({ w with phase := .over, following := .over, entries := [], shared := none }.tearDownAny
        w.shared)).note .info "language client shut down" [] := rfl

/-! ## Following the roots -/

/-- The client finds the session that serves all roots among its sessions. -/
theorem found_of_shared {w : World} {n : Nat} {s : Session}
    (shares : (w.shared >>= fun session => (w.sessions[session]?).map (session, ·)) = some (n, s)) :
    w.sessions[n]? = some s := by
  obtain ⟨_, -, known⟩ := Option.bind_eq_some_iff.mp shares
  obtain ⟨_, found, same⟩ := Option.map_eq_some_iff.mp known
  cases same
  exact found

/-- Tells the server of all roots which roots came and which went. -/
def tellFolders (w : World) : World :=
  match w.shared >>= fun session => (w.sessions[session]?).map (session, ·) with
  | none => w
  | some (number, session) =>
    let (folders, connection) :=
      w.folders.reconcile w.options.rewriter session.connection w.before w.host.roots
    { w with folders }.put number { session with connection }

/-- A look at the roots tells the server of changes and then remembers what it saw. -/
theorem reconcileShared_eq (w : World) :
    w.reconcileShared = { w.tellFolders with before := w.host.roots } := rfl

/-- Begins an opening for each root, and adds the numbers of the openings to those that there are. -/
def addEach (w : World) (roots : List Url) (numbers : List Nat) : List Nat × World :=
  roots.foldl (fun (numbers, w) root =>
    let (number, w) := addRoot w root
    (numbers ++ [number], w)) (numbers, w)

/-- To open a session for each root is to begin the openings and then to join them. -/
theorem openEach_eq (w : World) :
    w.openEach =
      let (numbers, v) := { w with before := w.host.roots }.addEach w.host.roots []
      { v with phase := .joining numbers }.join numbers := rfl

/-- The numbers of the openings play no part in what happens to the world. They only say which openings are
joined. -/
theorem addEach_snd (w : World) (roots : List Url) (numbers : List Nat) :
    (w.addEach roots numbers).2 = roots.foldl (fun w root => (w.addRoot root).2) w := by
  unfold addEach
  induction roots generalizing w numbers with
  | nil => rfl
  | cons root roots ih => exact ih _ _

/-! ## Dropping what a label names -/

/-- Drops the last visit with a label. -/
def dropLastVisit (w : World) (label : String) : World :=
  match lastWith w.visits fun v => v.label = label && isUnderway v with
  | some number =>
    { w with visits := w.visits.modify number Visit.dropped }.wakeTasks [.visit number]
  | none => w

/-- Drops the last request with a label. -/
def dropLastRequest (w : World) (label : String) : World :=
  match lastWith w.requests fun r => r.label = label && r.stage ≠ .over with
  | some number =>
    { w with requests := w.requests.modify number PendingRequest.dropped }.wakeTasks
      [.request number]
  | none => w

/-- Drops the registering of the client, if it has the label. -/
def dropRegistering (w : World) (label : String) : World :=
  match w.phase with
  | .absent | .running | .over => w
  | _ => if w.label = label then { w with isDropped := true }.wakeTasks [.register] else w

/-- Dropping by a label drops the last visit with it, the last request with it, and the registering if that
has it. -/
theorem drop_eq (w : World) (label : String) :
    w.drop label = ((w.dropLastVisit label).dropLastRequest label).dropRegistering label := rfl

end World

end LanguageClient
