import LanguageClient.Proofs.Run
import LanguageClient.Proofs.World.Parts

/-!
# What the client does, by what it lets its sessions do

The client does a few things to one session at a time: it greets the server, goes on after the answer, disposes
the session, and so on. `Hosted.Conduct` lists them as the conditions of a relation of a session before and
after. Everything that a task of the client does, but for reading what a server has sent, is then made up of
such operations, of new sessions, and of changes that neither the sessions nor the host notice
(`World.Leads`), whatever the host does from inside its callbacks.

So what is to hold of all tasks is shown of the operations of one session, and of a new one.
-/

namespace LanguageClient

/-! ## Operations on one session -/

/-- A relation that the operations of the client on one session stand in. -/
structure Hosted.Conduct (options : ClientOptions) (D : Hosted → Hosted → Prop) : Prop where
  refl (h : Hosted) : D h h
  tell {h : Hosted} {change : FolderChange} {connection : Connection SessionHandler}
    (told : Folders.tell h.session.connection change = .ok connection) : D h (h.withConnection connection)
  record (h : Hosted) (event : LogEvent) : D h (h.withConnection (h.session.connection.record event))
  request (h : Hosted) (method : String) (params : Json) :
    D h (h.withConnection (h.session.connection.request method params).2)
  abandon (h : Hosted) (call : Nat) : D h (h.withConnection (h.session.connection.abandon call))
  /-- Nobody can use the connection any more. -/
  cut (h : Hosted) : D h (h.withConnection h.session.connection.release)
  dispose (h : Hosted) : D h h.dispose
  release (h : Hosted) : D h h.release
  greet (h : Hosted) (folders : Option (List WorkspaceFolder)) : D h (h.greet options folders).2
  welcome (h : Hosted) (outcome : Outcome) : D h (h.welcome options outcome).2
  runJob (h : Hosted) (isHeld : Bool) (number : Nat) : D h (h.runJob isHeld number)
  forwardLog (h : Hosted) : D h h.forwardLog
  followDiagnostics {h : Hosted} (active : h.session.isActive = true) :
    D h (h.followDiagnostics options.rewriter)
  followProgress {h : Hosted} (active : h.session.isActive = true) : D h h.followProgress

namespace Folders

variable {η : Type} {c d : Connection η} {folders : Folders} {rewriter : Rewriter} {P : Connection η → Prop}

/-- What comes of a connection when the server may be told of changes of the roots: what a word in the log
and a message about folders preserve is preserved. -/
theorem reconcile_induction (keeps : P c) (records : ∀ event, P (c.record event))
    (tells : ∀ {change d}, tell c change = .ok d → P d) (before after : List Url) :
    P (folders.reconcile rewriter c before after).2 := by
  unfold reconcile
  dsimp only
  split
  · exact keeps
  · split
    next published =>
      unfold publish at published
      split at published
      · cases published
      · exact tells published
    · exact records _

/-- The same for lending a root, which sends a message only if the root is new to the server. -/
theorem lend_induction (keeps : P c) (tells : ∀ {change d}, tell c change = .ok d → P d) {root : Url}
    {loan : Option Loan} {after : Folders} (lent : folders.lend rewriter c root = .ok (loan, after, d)) :
    P d := by
  unfold lend at lent
  split at lent
  · cases lent
    exact keeps
  · split at lent
    · cases lent
    · dsimp only at lent
      split at lent
      · cases lent
        exact keeps
      · split at lent
        · cases lent
        next told =>
          cases lent
          exact tells told

/-- The same for giving a root back, which sends a message only if nobody else borrows the root and the host
does not have it. -/
theorem giveBack_induction (keeps : P c) (records : ∀ event, P (c.record event))
    (tells : ∀ {change d}, tell c change = .ok d → P d) (loan : Loan) : P (folders.giveBack c loan).2 := by
  unfold giveBack
  dsimp only
  split
  · exact keeps
  · split
    next told => exact tells told
    · exact records _

end Folders

namespace World

/-- The second world comes of the first by what sessions do and by new sessions. -/
inductive Leads (D : ClientOptions → Hosted → Hosted → Prop) : World → World → Prop where
  /-- Neither the sessions nor the host change. -/
  | aside {w v : World} (options : v.options = w.options) (sessions : v.sessions = w.sessions)
      (host : v.host = w.host) : Leads D w v
  | operated {w : World} {h k : Hosted} (host : h.host = w.host)
      (found : w.sessions[h.number]? = some h.session) (does : D w.options h k) :
      Leads D w ({ w with host := k.host }.put h.number k.session)
  /-- There is a new session. -/
  | attach {w v : World} (root : Option Url) (options : v.options = w.options)
      (sessions : v.sessions = w.sessions ++
        [Session.attach root (w.host.lastDecorationKind + 1) w.options.config.progressSuffix])
      (host : v.host = w.host.newDecorationKind.2) : Leads D w v
  | trans {w v u : World} (first : Leads D w v) (second : Leads D v u) : Leads D w u

variable {D : ClientOptions → Hosted → Hosted → Prop} {w v u : World} {n : Nat}

namespace Leads

theorem refl (w : World) : Leads D w w := .aside rfl rfl rfl

/-- A change of what is nothing to sessions, afterwards. It spares the tasks of the client a step of their
own for every stage that they set. -/
theorem beside (leads : Leads D w v) (options : u.options = v.options) (sessions : u.sessions = v.sessions)
    (host : u.host = v.host) : Leads D w u := leads.trans (.aside options sessions host)

end Leads

/-- Steps that are made up of such operations, one after the other, are so together, by induction on what
they are done for. -/
theorem foldl_leads {α : Type} {step : World → α → World} (each : ∀ w a, Leads D w (step w a))
    (items : List α) (w : World) : Leads D w (items.foldl step w) := by
  induction items generalizing w with
  | nil => exact .refl w
  | cons item items ih => exact (each w item).trans (ih _)

/-- Something happens to the connection of a session. It is one operation, in which the host has no part. -/
theorem put_leads {s : Session} {connection : Connection SessionHandler}
    (found : w.sessions[n]? = some s)
    (does : D w.options ⟨s, n, w.host, .nobody, false⟩
      (Hosted.withConnection ⟨s, n, w.host, .nobody, false⟩ connection)) :
    Leads D w (w.put n { s with connection }) :=
  .operated (h := ⟨s, n, w.host, .nobody, false⟩) rfl found does

/-- A change of the connection of a session, if there is one of that number, and nothing otherwise. -/
theorem onConnection_leads {change : Connection SessionHandler → Connection SessionHandler}
    (does : ∀ h : Hosted, D w.options h (h.withConnection (change h.session.connection))) :
    Leads D w (w.onConnection n change) := by
  unfold onConnection
  split
  · exact .refl w
  next found => exact put_leads found (does _)

/-- An operation of a session, if there is one. What is asked of the operation is asked for that session
alone, so it may depend on its state. -/
theorem onSession_leads {α : Type} {run : Hosted → α × Hosted} (default : α)
    (each : ∀ h, w.sessions[n]? = some h.session → D w.options h (run h).2) :
    Leads D w (w.onSession n default run).2.2 := by
  unfold onSession
  split
  · exact .refl w
  next s found =>
    exact .operated (h := ⟨s, n, w.host, w.reachOf n, false⟩) rfl found (each _ found)

/-- An opening that failed leaves a word in the log and is tracked no more. No session has a part in that.
-/
theorem notOpened_leads (w : World) (number : Nat) (opening : Opening) (failure : ClientError) :
    Leads D w (w.notOpened number opening failure) := by
  unfold notOpened
  dsimp only
  split <;> exact .aside rfl rfl rfl

/-- A root that is tracked gets an opening, which has no session yet. -/
theorem addRoot_leads (w : World) (root : Url) : Leads D w (w.addRoot root).2 := by
  unfold addRoot
  split <;> exact .aside rfl rfl rfl

/-- A request in the background that has its response comes to its end, and no session notices. -/
theorem awaitResponse_leads (w : World) (number : Nat) (request : PendingRequest) (call : Nat) :
    Leads D w (w.awaitResponse number request call) := by
  unfold awaitResponse
  split <;> exact .aside rfl rfl rfl

/-- Who is dropped is marked, and finds out when its task is polled next. So sessions are not concerned in
this move. -/
theorem drop_leads (w : World) (label : String) : Leads D w (w.drop label) := by
  have first : Leads D w (w.dropLastVisit label) := by
    unfold dropLastVisit
    split <;> exact .aside rfl rfl rfl
  have second : Leads D w ((w.dropLastVisit label).dropLastRequest label) := by
    unfold dropLastRequest
    split
    · exact first.beside rfl rfl rfl
    · exact first
  rw [drop_eq]
  unfold dropRegistering
  split
  · exact second
  · exact second
  · exact second
  · split
    · exact second.beside rfl rfl rfl
    · exact second

section Conduct

variable (conduct : ∀ options, Hosted.Conduct options (D options))

include conduct

/-! ## Ending the client -/

/-- To tear a session down is to dispose it, which is one of the operations that are listed. -/
theorem tearDown_leads (w : World) (n : Nat) : Leads D w (w.tearDown n).2 :=
  onSession_leads () fun h _ => (conduct _).dispose h

/-- An opening that is revoked is cancelled, and its session, if it has one, is disposed. -/
theorem revoke_leads (w : World) (number : Nat) : Leads D w (w.revoke number).2 := by
  have cancelled : Leads D w (w.setStartup number .cancelled) := .aside rfl rfl rfl
  unfold revoke
  dsimp only
  split
  · exact cancelled.trans (tearDown_leads conduct ..)
  · exact cancelled

/-- The end of the client disposes the session that serves all roots and those of the tracked roots, one
after the other. -/
theorem endClient_leads (w : World) : Leads D w w.endClient := by
  have any (v : World) (session : Option Nat) : Leads D v (v.tearDownAny session) := by
    cases session with
    | none => exact .refl v
    | some session => exact tearDown_leads conduct v session
  have ended : Leads D w { w with phase := .over, following := .over, entries := [], shared := none } :=
    .aside rfl rfl rfl
  rw [endClient_eq]
  exact ((ended.trans (any _ w.shared)).trans
    (foldl_leads (fun v (entry : RootEntry) => revoke_leads conduct v entry.opening) w.entries _)).beside
      rfl rfl rfl

/-- If the host has ended the client from inside a callback, the rest of the client ends, and otherwise
nothing happens. -/
theorem endIf_leads (ended : Bool) (w : World) : Leads D w (endIf (ended, w)) := by
  cases ended with
  | true => exact endClient_leads conduct w
  | false => exact .refl w

/-- An operation of a session with all that it does to the client. The host may end the client in it, and
then the other sessions are disposed behind it. -/
theorem within_leads {α : Type} {run : Hosted → α × Hosted} (default : α)
    (each : ∀ h, w.sessions[n]? = some h.session → D w.options h (run h).2) :
    Leads D w (w.within n default run).2 := by
  have operated : Leads D w (w.onSession n default run).2.2 := onSession_leads default each
  unfold within
  exact operated.trans (endIf_leads conduct ..)

/-- An operation without a result is one with a result that nobody asks for. -/
theorem during_leads {run : Hosted → Hosted}
    (each : ∀ h, w.sessions[n]? = some h.session → D w.options h (run h)) :
    Leads D w (w.during n run) :=
  within_leads conduct () each

/-- An operation that is done only while the session follows its server may count on that. -/
theorem whileActive_leads {run : Hosted → Hosted}
    (each : ∀ h, h.session.isActive = true → D w.options h (run h)) :
    Leads D w (w.whileActive n run) := by
  unfold whileActive
  split
  next active =>
    refine during_leads conduct fun h found => each h ?_
    rw [found] at active
    exact active
  · exact .refl w

/-- Disposing a session for the client is to tear it down, with the end of the client if the host wants that
meanwhile. -/
theorem dispose_leads (w : World) (n : Nat) : Leads D w (w.dispose n) :=
  during_leads conduct fun h _ => (conduct _).dispose h

/-- Cancelling an opening is to revoke it, with the end of the client in the same way. -/
theorem cancel_leads (w : World) (number : Nat) : Leads D w (w.cancel number) :=
  (revoke_leads conduct w number).trans (endIf_leads conduct ..)

/-! ## Opening sessions -/

/-- A new session is attached, and the first word goes into its log. The session that comes is the one that
the new constructor of `Leads` names. -/
theorem attach_leads (w : World) (root : Option Url) : Leads D w (w.attach root).2 := by
  let s := Session.attach root (w.host.lastDecorationKind + 1) w.options.config.progressSuffix
  let v : World := { w with
    sessions := w.sessions ++ [s], host := w.host.newDecorationKind.2,
    woken := (w.attach root).2.woken }
  -- The session is new and is put back at once, by which what has happened to it is told.
  have attached : Leads D w v := .attach root rfl rfl rfl
  have found : v.sessions[w.sessions.length]? = some s := List.getElem?_concat_length ..
  have told : Leads D v (v.put w.sessions.length { s with connection := s.connection }) :=
    put_leads found ((conduct _).refl _)
  exact (attached.trans told).beside rfl rfl rfl

/-- Asking for a connection gives a new session, or a refusal, or nothing as yet. -/
theorem connect_leads (w : World) (asker : Task) (root : Option Url) :
    Leads D w (w.connect asker root).2 := by
  unfold connect
  dsimp only
  split
  · exact .aside rfl rfl rfl
  · split
    · exact .aside rfl rfl rfl
    · exact attach_leads conduct w root

/-- Greeting a server for the client is the operation of the session that greets. -/
theorem greet_leads (w : World) (n : Nat) (folders : Option (List WorkspaceFolder)) :
    Leads D w (w.greet n folders).2 :=
  within_leads conduct _ fun h _ => (conduct _).greet h folders

/-- Going on after the greeting is the operation of the session that goes on, whatever the answer was. -/
theorem welcome_leads (w : World) (n : Nat) (outcome : Outcome) :
    Leads D w (w.welcome n outcome).2 :=
  within_leads conduct _ fun h _ => (conduct _).welcome h outcome

/-- An opening whose server may have answered goes on with the answer, fails with it, or waits. -/
theorem awaitGreeting_leads (w : World) (number : Nat) (opening : Opening) (n call : Nat) :
    Leads D w (w.awaitGreeting number opening n call) := by
  unfold awaitGreeting
  split
  · exact .aside rfl rfl rfl
  next outcome _ =>
    have welcomed := welcome_leads conduct w n outcome
    split
    next eq => rw [eq] at welcomed; exact welcomed.beside rfl rfl rfl
    next eq => rw [eq] at welcomed; exact welcomed.trans (notOpened_leads ..)

/-- A session that was attached for an opening is greeted, or is disposed at once if the opening was
cancelled meanwhile. -/
theorem attached_leads (w : World) (number : Nat) (opening : Opening) (n : Nat) :
    Leads D w (w.attached number opening n) := by
  unfold attached
  split
  · exact (dispose_leads conduct w n).trans (notOpened_leads ..)
  · have started : Leads D w (w.setStartup number (.attached n)) := .aside rfl rfl rfl
    have greeted := started.trans (greet_leads conduct _ n none)
    split
    next eq => rw [eq] at greeted; exact greeted.trans (notOpened_leads ..)
    next eq => rw [eq] at greeted; exact greeted.trans (awaitGreeting_leads conduct ..)

/-- An opening asks for its connection and goes on as far as that leads. The three answers are the three
cases. -/
theorem awaitConnection_leads (w : World) (number : Nat) (opening : Opening) :
    Leads D w (w.awaitConnection number opening) := by
  have asked := connect_leads conduct w (.opening number) (some opening.root)
  unfold awaitConnection
  split
  next eq => rw [eq] at asked; exact asked.beside rfl rfl rfl
  next eq => rw [eq] at asked; exact asked.trans (notOpened_leads ..)
  next eq => rw [eq] at asked; exact asked.trans (attached_leads conduct ..)

/-- An opening goes on from the stage that it is at, for whoever polls it. -/
theorem pollOpening_leads (w : World) (task : Task) (number : Nat) :
    Leads D w (w.pollOpening task number) := by
  have watched : Leads D w (w.watchOpening number task) := .aside rfl rfl rfl
  unfold pollOpening
  dsimp only
  split
  · exact watched
  · split
    · have asked : Leads D w (w.watchOpening number task).askConnection := watched.beside rfl rfl rfl
      exact asked.trans (awaitConnection_leads conduct ..)
    · exact watched.trans (awaitConnection_leads conduct ..)
    · exact watched.trans (awaitGreeting_leads conduct ..)
    · exact watched

/-- A root that is tracked no more has its opening cancelled, with a word in the log. -/
theorem removeRoot_leads (w : World) (root : Url) : Leads D w (w.removeRoot root) := by
  unfold removeRoot
  split
  · exact .refl w
  next entry _ =>
    have gone : Leads D w { w with entries := w.entries.filter fun e => e.root ≠ root } :=
      .aside rfl rfl rfl
    exact (gone.trans (cancel_leads conduct _ entry.opening)).beside rfl rfl rfl

/-! ## Following the roots -/

/-- The shared session tells its server of the roots that came and went since the last look, by at most one
message. -/
theorem reconcileShared_leads (w : World) : Leads D w w.reconcileShared := by
  have told : Leads D w w.tellFolders := by
    unfold tellFolders
    split
    · exact .refl w
    next n s shares =>
      have found := found_of_shared shares
      have kept : Leads D w { w with folders :=
        (w.folders.reconcile w.options.rewriter s.connection w.before w.host.roots).1 } :=
        .aside rfl rfl rfl
      refine kept.trans (put_leads found ?_)
      exact Folders.reconcile_induction ((conduct _).refl _) ((conduct _).record _) (conduct _).tell ..
  rw [reconcileShared_eq]
  exact told.beside rfl rfl rfl

/-- A look at the roots of the host, for a client of either kind. With a session for each root it is a fold
over those that went and one over those that came. -/
theorem reconcile_leads (w : World) : Leads D w w.reconcile := by
  unfold reconcile
  split
  · exact reconcileShared_leads conduct w
  · exact ((foldl_leads (removeRoot_leads conduct) _ w).trans (foldl_leads addRoot_leads _ _)).beside
      rfl rfl rfl

/-- As many looks as there were changes, by induction on their number. -/
theorem followChanges_leads (count : Nat) (w : World) : Leads D w (followChanges count w) := by
  induction count generalizing w with
  | zero => exact .refl w
  | succ count ih => exact (reconcile_leads conduct w).trans (ih _)

/-- The task that follows the roots: its first look, the looks after that, and its end when the host tells
of no more. -/
theorem pollReconciler_leads (w : World) : Leads D w w.pollReconciler := by
  have proceed (v : World) : Leads D v
      (let u := followChanges v.changes.waiting { v with changes := { v.changes with waiting := 0 } }
       if u.following = .ongoing ∧ u.changes.hasEnded then { u with following := .over } else u) := by
    have taken : Leads D v { v with changes := { v.changes with waiting := 0 } } := .aside rfl rfl rfl
    have followed := taken.trans (followChanges_leads conduct v.changes.waiting _)
    dsimp only
    split
    · exact followed.beside rfl rfl rfl
    · exact followed
  unfold pollReconciler
  dsimp only
  split
  · have going : Leads D w { w.reconcile with following := .ongoing } :=
      (reconcile_leads conduct w).beside rfl rfl rfl
    exact going.trans (proceed _)
  · exact proceed w
  · exact .refl w

/-! ## Registering -/

/-- The session that serves all roots goes on with the answer of its server, or the client is not
registered. -/
theorem awaitSharedGreeting_leads (w : World) (n call : Nat) :
    Leads D w (w.awaitSharedGreeting n call) := by
  unfold awaitSharedGreeting
  split
  · exact .aside rfl rfl rfl
  next outcome _ =>
    have welcomed := welcome_leads conduct w n outcome
    split
    next eq => rw [eq] at welcomed; exact welcomed.beside rfl rfl rfl
    next eq => rw [eq] at welcomed; exact welcomed.beside rfl rfl rfl

/-- The session that serves all roots gets its connection and greets with the roots that the host has then.
-/
theorem awaitSharedConnection_leads (w : World) : Leads D w w.awaitSharedConnection := by
  have asked := connect_leads conduct w .register none
  unfold awaitSharedConnection
  split
  next eq => rw [eq] at asked; exact asked
  next eq => rw [eq] at asked; exact asked.beside rfl rfl rfl
  next n v eq =>
    rw [eq] at asked
    split
    · exact asked.beside rfl rfl rfl
    next folders _ =>
      have shared : Leads D w { v with shared := some n } := asked.beside rfl rfl rfl
      have greeted := shared.trans (greet_leads conduct _ n (some folders))
      split
      next eq => rw [eq] at greeted; exact greeted.beside rfl rfl rfl
      next eq => rw [eq] at greeted; exact greeted.trans (awaitSharedGreeting_leads conduct ..)

/-- The session that serves all roots is opened only if each of the roots can be named. Otherwise nothing is
asked of anybody. -/
theorem openShared_leads (w : World) : Leads D w w.openShared := by
  unfold openShared
  dsimp only
  split
  · exact .aside rfl rfl rfl
  · have asked : Leads D w { askConnection { w with before := w.host.roots } with
        phase := .connecting } := .aside rfl rfl rfl
    exact asked.trans (awaitSharedConnection_leads conduct _)

/-- The client waits for the openings of its roots and polls those that are not finished, so it leads where
they lead. -/
theorem join_leads (w : World) (openings : List Nat) : Leads D w (w.join openings) := by
  have polled : Leads D w (openings.foldl (fun w number =>
      if (w.openingResult? number).isSome then w else w.pollOpening .register number) w) := by
    refine foldl_leads (fun v number => ?_) openings w
    split
    · exact .refl v
    · exact pollOpening_leads conduct v .register number
  unfold join
  dsimp only
  split <;> exact polled.beside rfl rfl rfl

/-- A client with a session for each root begins an opening for each, and waits for them. -/
theorem openEach_leads (w : World) : Leads D w w.openEach := by
  have looked : Leads D w { w with before := w.host.roots } := .aside rfl rfl rfl
  have all := looked.trans (foldl_leads addRoot_leads w.host.roots _)
  rw [← addEach_snd _ w.host.roots []] at all
  rw [openEach_eq]
  generalize { w with before := w.host.roots }.addEach w.host.roots [] = pair at all ⊢
  obtain ⟨openings, v⟩ := pair
  have joining : Leads D w { v with phase := .joining openings } := all.beside rfl rfl rfl
  exact joining.trans (join_leads conduct _ openings)

/-- The task that registers the client, from the stage that it is at. -/
theorem pollRegister_leads (w : World) : Leads D w w.pollRegister := by
  unfold pollRegister
  split
  · split <;> exact .aside rfl rfl rfl
  · split
    · have told : Leads D w ({ w with changes := ⟨0, false⟩ }.note .info
          "registering language client" [("multi_root", toString w.isMultiRoot)]) := .aside rfl rfl rfl
      dsimp only
      split
      · exact told.trans (openShared_leads conduct _)
      · exact told.trans (openEach_leads conduct _)
    · exact awaitSharedConnection_leads conduct w
    · exact awaitSharedGreeting_leads conduct w ..
    · exact join_leads conduct w _
    · exact .refl w

/-! ## Visits -/

/-- A loan is given back on the session that it was taken from, if that is there. -/
theorem giveBack_leads (w : World) (n : Nat) (loan : Loan) : Leads D w (w.giveBack n loan) := by
  unfold giveBack
  split
  · exact .refl w
  next s found =>
    have kept : Leads D w { w with folders := (w.folders.giveBack s.connection loan).1 } :=
      .aside rfl rfl rfl
    refine kept.trans (put_leads found ?_)
    exact Folders.giveBack_induction ((conduct _).refl _) ((conduct _).record _) (conduct _).tell loan

/-- A visitor that is done gives its loan back or has its session disposed, by the kind of the client. -/
theorem leave_leads (w : World) (number : Nat) (visit : Visit) (n : Nat) (loan : Option Loan)
    (outcome : Outcome) : Leads D w (w.leave number visit n loan outcome) := by
  unfold leave
  dsimp only
  split
  · split
    · exact (giveBack_leads conduct w n _).beside rfl rfl rfl
    · exact .aside rfl rfl rfl
  · exact (dispose_leads conduct w n).beside rfl rfl rfl

/-- A visitor that has its session keeps it until it is done, which may be at once. -/
theorem enter_leads (w : World) (number : Nat) (visit : Visit) (n : Nat) (loan : Option Loan) :
    Leads D w (w.enter number visit n loan) := by
  unfold enter
  split
  · exact .aside rfl rfl rfl
  · exact leave_leads conduct ..

/-- A visit to the shared session borrows its root, or ends with the failure to announce it. -/
theorem enterShared_leads (w : World) (number : Nat) (visit : Visit) :
    Leads D w (w.enterShared number visit) := by
  unfold enterShared
  split
  · exact .aside rfl rfl rfl
  next n s shares =>
    have found := found_of_shared shares
    split
    · exact .aside rfl rfl rfl
    next loan folders connection lent =>
      have kept : Leads D w { w with folders } := .aside rfl rfl rfl
      have told : Leads D w (World.put { w with folders } n { s with connection }) :=
        kept.trans (put_leads found (Folders.lend_induction ((conduct _).refl _) (conduct _).tell lent))
      exact told.trans (enter_leads conduct ..)

/-- A visit that opened a session of its own goes on with the answer of its server. -/
theorem awaitOwnGreeting_leads (w : World) (number : Nat) (visit : Visit) (n call : Nat) :
    Leads D w (w.awaitOwnGreeting number visit n call) := by
  unfold awaitOwnGreeting
  split
  · exact .aside rfl rfl rfl
  next outcome _ =>
    have welcomed := welcome_leads conduct w n outcome
    split
    next eq => rw [eq] at welcomed; exact welcomed.trans (enter_leads conduct ..)
    next eq => rw [eq] at welcomed; exact welcomed.beside rfl rfl rfl

/-- A visit asks for a connection of its own and greets on it as soon as there is one. -/
theorem awaitOwnConnection_leads (w : World) (number : Nat) (visit : Visit) :
    Leads D w (w.awaitOwnConnection number visit) := by
  have asked := connect_leads conduct w (.visit number) (some visit.root)
  unfold awaitOwnConnection
  split
  next eq => rw [eq] at asked; exact asked.beside rfl rfl rfl
  next eq => rw [eq] at asked; exact asked.beside rfl rfl rfl
  next n v eq =>
    rw [eq] at asked
    have greeted := asked.trans (greet_leads conduct v n none)
    split
    next eq => rw [eq] at greeted; exact greeted.beside rfl rfl rfl
    next eq => rw [eq] at greeted; exact greeted.trans (awaitOwnGreeting_leads conduct ..)

/-- A visit that opens a session of its own asks once, and goes on with what comes of that. -/
theorem openOwn_leads (w : World) (number : Nat) (visit : Visit) :
    Leads D w (w.openOwn number visit) := by
  have asked : Leads D w w.askConnection := .aside rfl rfl rfl
  exact asked.trans (awaitOwnConnection_leads conduct ..)

/-- A visit to a tracked root waits for its opening, takes the session over, or opens one of its own where
there is none to take. -/
theorem awaitTracked_leads (w : World) (number : Nat) (visit : Visit) (opening : Nat) :
    Leads D w (w.awaitTracked number visit opening) := by
  have polled : Leads D w (if (w.openingResult? opening).isSome then w
      else w.pollOpening (.visit number) opening) := by
    split
    · exact .refl w
    · exact pollOpening_leads conduct ..
  unfold awaitTracked
  generalize (if (w.openingResult? opening).isSome then w
    else w.pollOpening (.visit number) opening) = v at polled ⊢
  dsimp only
  split
  · exact polled.beside rfl rfl rfl
  · exact polled.trans (openOwn_leads conduct ..)
  · have forgotten : Leads D w (v.forget visit.root opening) := polled.beside rfl rfl rfl
    split
    · exact forgotten.trans (openOwn_leads conduct ..)
    · exact forgotten.trans (enter_leads conduct ..)

/-- A visit that is dropped gives its loan back. Its session is not disposed in this step. -/
theorem dropVisit_leads (w : World) (number : Nat) (visit : Visit) :
    Leads D w (w.dropVisit number visit) := by
  unfold dropVisit
  dsimp only
  split
  · exact (giveBack_leads conduct w ..).beside rfl rfl rfl
  · exact .aside rfl rfl rfl

/-- The task of a visit, from the stage that it is at, or its end if it was dropped. -/
theorem pollVisit_leads (w : World) (number : Nat) : Leads D w (w.pollVisit number) := by
  unfold pollVisit
  split
  · exact .refl w
  · split
    · exact dropVisit_leads conduct ..
    · split
      · unfold beginVisit
        split
        · exact enterShared_leads conduct ..
        · split
          · exact awaitTracked_leads conduct ..
          · exact openOwn_leads conduct ..
      · exact awaitTracked_leads conduct ..
      · exact awaitOwnConnection_leads conduct ..
      · exact awaitOwnGreeting_leads conduct ..
      · exact enter_leads conduct ..
      · exact .refl w

/-! ## Requests in the background -/

/-- A request in the background is sent, waits, or is abandoned if it was dropped. -/
theorem pollRequest_leads (w : World) (number : Nat) : Leads D w (w.pollRequest number) := by
  unfold pollRequest
  split
  · exact .refl w
  next request _ =>
    split
    · unfold dropRequest
      dsimp only
      split
      next call _ =>
        have abandoned : Leads D w (w.onConnection request.session fun c => c.abandon call) :=
          onConnection_leads fun h => (conduct _).abandon h call
        exact abandoned.beside rfl rfl rfl
      · exact .aside rfl rfl rfl
    · split
      · unfold sendRequest
        split
        · exact .aside rfl rfl rfl
        · exact .aside rfl rfl rfl
        next found =>
          exact (put_leads found ((conduct _).request ..)).trans (awaitResponse_leads ..)
      · exact awaitResponse_leads ..
      · exact .refl w

/-! ## Sweeping -/

/-- A session that nobody holds any more is released and takes its providers back. -/
theorem releaseSession_leads (w : World) (n : Nat) : Leads D w (w.releaseSession n) := by
  unfold releaseSession
  split
  · exact .refl w
  · split
    · exact during_leads conduct fun h _ => (conduct _).release h
    · exact .refl w

/-- A connection that nobody can use any more is cut. -/
theorem releaseConnection_leads (w : World) (n : Nat) : Leads D w (w.releaseConnection n) := by
  unfold releaseConnection
  split
  · exact .refl w
  · split
    · exact onConnection_leads (conduct _).cut
    · exact .refl w

/-- A sweep releases what nobody holds, sessions first and then connections. -/
theorem sweep_leads (w : World) : Leads D w w.sweep := by
  have kept : Leads D w w.releaseEntries := by
    unfold releaseEntries
    split <;> exact .aside rfl rfl rfl
  exact (kept.trans (foldl_leads (releaseSession_leads conduct) _ _)).trans
    (foldl_leads (releaseConnection_leads conduct) _ _)

/-- Any task but those that read what a server has sent. The reader is left out because what the server says
is nothing that the client does. -/
theorem poll_leads (w : World) {task : Task} (unread : ∀ n, task ≠ .reader n) :
    Leads D w (w.poll task) := by
  cases task with
  | reader n => exact absurd rfl (unread n)
  | job n job => exact during_leads conduct fun h _ => (conduct _).runJob h _ job
  | log n => exact whileActive_leads conduct fun h _ => (conduct _).forwardLog h
  | diagnostics n => exact whileActive_leads conduct fun _ active => (conduct _).followDiagnostics active
  | progress n => exact whileActive_leads conduct fun _ active => (conduct _).followProgress active
  | watcher n =>
    refine whileActive_leads conduct fun h _ => ?_
    split
    · exact (conduct _).dispose h
    · exact (conduct _).refl h
  | opening n => exact pollOpening_leads conduct w (.opening n) n
  | reconciler => exact pollReconciler_leads conduct w
  | register => exact pollRegister_leads conduct w
  | visit n => exact pollVisit_leads conduct w n
  | request n => exact pollRequest_leads conduct w n

/-- A move in which neither the host nor a server has a part, but for what the host does from inside its
callbacks, and by which nobody is told anything. -/
def Move.isOwn : Move → Bool
  | .poll (.reader _) => false
  | .poll _ | .sweep | .holdConnections | .releaseConnections | .refuseConnections _ | .register _
  | .shutdown | .visit _ _ | .verdict _ _ | .request _ _ _ | .drop _ => true
  | _ => false

/-- Every move of the client's own is made up of what it lets its sessions do. It is the lemma that the
others of this module are for. -/
theorem after_leads (w : World) {move : Move} (own : move.isOwn = true) : Leads D w (w.after move) := by
  cases move with
  | poll task =>
    refine poll_leads conduct w fun n reads => ?_
    rw [reads] at own
    cases own
  | sweep => exact sweep_leads conduct w
  | holdConnections | releaseConnections | refuseConnections | request => exact .aside rfl rfl rfl
  | register label =>
    change Leads D w (w.registerOnce label)
    unfold registerOnce
    split
    · exact .aside rfl rfl rfl
    · exact .refl w
  | shutdown =>
    change Leads D w w.shutdownIfPossible
    rcases w.shutdownIfPossible_cases with same | ⟨-, -, ended⟩
    · rw [same]
      exact .refl w
    · rw [ended]
      exact endClient_leads conduct w
  | visit label root =>
    change Leads D w ((w.visit label root).getD w)
    unfold visit
    split <;> exact .aside rfl rfl rfl
  | verdict number outcome =>
    change Leads D w (w.judge number outcome)
    unfold judge
    split
    · exact .aside rfl rfl rfl
    · exact .refl w
  | drop label => exact drop_leads w label
  | _ => cases own

end Conduct

end World

end LanguageClient
