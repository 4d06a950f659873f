import LanguageClient.Proofs.World.Steps
import LanguageClient.Proofs.World.Sweep

/-!
# Moves by acts

Registering, visiting, asking and all other moves are steps by acts, as long as the host does not end
the client from inside a callback. `World.Move.turn` says whose turn a move is, and `World.after_steps`
that the scene of the sessions changes by acts of that turn, apart from views that are shown and
hidden.
-/

namespace LanguageClient

/-! ## Telling of folders -/

namespace Folders

variable {η : Type} {c d : Connection η} {folders : Folders} {rewriter : Rewriter}

/-- Telling a server of folders sends a notification. No call is answered by that, and no job is touched. -/
theorem tell_unread {change : FolderChange} (told : tell c change = .ok d) :
    c.Unread d ∧ d.jobs = c.jobs :=
  ⟨Connection.notify_unread told, (Connection.send_jobs told).1⟩

/-- The same of a look at the roots, which sends one notification or none. -/
theorem reconcile_unread (folders : Folders) (rewriter : Rewriter) (c : Connection η)
    (before after : List Url) : c.Unread (folders.reconcile rewriter c before after).2 ∧
      (folders.reconcile rewriter c before after).2.jobs = c.jobs := by
  unfold reconcile
  dsimp only
  split
  · exact ⟨.refl c, rfl⟩
  · split
    next d published =>
      unfold publish at published
      split at published
      · cases published
      · exact tell_unread published
    · exact ⟨Connection.record_unread _, rfl⟩

/-- The same of lending a root, if it was lent: at most one notification is sent for it, and none is read.
-/
theorem lend_unread {root : Url} {loan : Option Loan} {after : Folders}
    (lent : folders.lend rewriter c root = .ok (loan, after, d)) : c.Unread d ∧ d.jobs = c.jobs := by
  unfold lend at lent
  split at lent
  · cases lent
    exact ⟨.refl c, rfl⟩
  · split at lent
    · cases lent
    · dsimp only at lent
      split at lent
      · cases lent
        exact ⟨.refl c, rfl⟩
      · split at lent
        · cases lent
        next told =>
          cases lent
          exact tell_unread told

/-- The same of giving a root back. The loan is gone even if the server cannot be told. -/
theorem giveBack_unread (folders : Folders) (c : Connection η) (loan : Loan) :
    c.Unread (folders.giveBack c loan).2 ∧ (folders.giveBack c loan).2.jobs = c.jobs := by
  unfold giveBack
  dsimp only
  split
  · exact ⟨.refl c, rfl⟩
  · split
    next told => exact tell_unread told
    · exact ⟨Connection.record_unread _, rfl⟩

end Folders

namespace World

/-- Whose turn a move is. -/
def Move.turn : Move → Turn
  | .poll (.reader _) => .reader
  | .poll (.job session _) => .job session
  | .sweep => .sweep
  | _ => .other

/-- A move that neither arms a callback, nor shows or hides a view, nor tells those who watch what has
happened. -/
def Move.isAct : Move → Bool
  | .arm _ | .showView _ | .hideView _ | .report => false
  | _ => true

variable {w v : World} {turn : Turn} {n : Nat}

/-- Something that is not read from the server happens to the connection of a session. It is an act of the
session, allowed in every turn. -/
theorem put_steps {s : Session} (lawful : w.IsLawful) (found : w.sessions[n]? = some s)
    {connection : Connection SessionHandler} (unread : s.connection.Unread connection)
    (jobs : connection.jobs = s.connection.jobs) :
    Steps turn w (w.put n { s with connection }) :=
  lawful.unstaged rfl (put_acts lawful.quiet found (.of_unread unread jobs)) rfl rfl rfl rfl

/-! ## Following the roots -/

/-- A look at the roots of the host tells the shared server of changes, and nobody's stage has changed by
it. -/
theorem reconcileShared_steps (lawful : w.IsLawful) : Steps .other w w.reconcileShared := by
  have told : Steps .other w w.tellFolders := by
    unfold tellFolders
    split
    · exact .refl lawful
    next n s shares =>
      have found := found_of_shared shares
      obtain ⟨unread, jobs⟩ := w.folders.reconcile_unread w.options.rewriter s.connection w.before
        w.host.roots
      have kept : Steps .other w { w with folders :=
        (w.folders.reconcile w.options.rewriter s.connection w.before w.host.roots).1 } :=
        lawful.of_eq rfl rfl rfl rfl rfl rfl
      exact kept.trans (put_steps kept.lawful found unread jobs)
  rw [reconcileShared_eq]
  exact told.trans (told.lawful.of_eq rfl rfl rfl rfl rfl rfl)

/-- A look at the roots is a step for a client of either kind. -/
theorem reconcile_steps (lawful : w.IsLawful) : Steps .other w w.reconcile := by
  unfold reconcile
  split
  · exact reconcileShared_steps lawful
  · exact reconcileEach_steps lawful

/-- As many looks as there were changes are steps, one after the other. -/
theorem followChanges_steps (lawful : w.IsLawful) (count : Nat) :
    Steps .other w (followChanges count w) := by
  induction count generalizing w with
  | zero => exact .refl lawful
  | succ count ih =>
    have reconciled := reconcile_steps lawful
    exact reconciled.trans (ih reconciled.lawful)

/-- The task that follows the roots makes steps and comes to its end, if it does, without any session's
noticing. -/
theorem pollReconciler_steps (lawful : w.IsLawful) : Steps .other w w.pollReconciler := by
  have proceed {v : World} (lawful : v.IsLawful) : Steps .other v
      (let u := followChanges v.changes.waiting { v with changes := { v.changes with waiting := 0 } }
       if u.following = .ongoing ∧ u.changes.hasEnded then { u with following := .over } else u) := by
    have taken : Steps .other v { v with changes := { v.changes with waiting := 0 } } :=
      lawful.of_eq rfl rfl rfl rfl rfl rfl
    have followed := taken.trans (followChanges_steps taken.lawful v.changes.waiting)
    dsimp only
    split
    · exact followed.trans (followed.lawful.of_eq rfl rfl rfl rfl rfl rfl)
    · exact followed
  unfold pollReconciler
  dsimp only
  split
  · have reconciled := reconcile_steps lawful
    have going : Steps .other w.reconcile { w.reconcile with following := .ongoing } :=
      reconciled.lawful.of_eq rfl rfl rfl rfl rfl rfl
    exact (reconciled.trans going).trans (proceed going.lawful)
  · exact proceed lawful
  · exact .refl lawful

/-! ## Registering -/

theorem follow_steps (lawful : w.IsLawful) (following : Following) :
    Steps turn w (w.follow following) := lawful.of_eq rfl rfl rfl rfl rfl rfl

theorem conclude_steps (lawful : w.IsLawful) (label : String) (finding : Finding) :
    Steps turn w (w.conclude label finding) := lawful.of_eq rfl rfl rfl rfl rfl rfl

/-- A client that is not registered has no session for all roots, so its phase asks for nothing. -/
theorem notRegistered_steps (lawful : w.IsLawful) (failure : ClientError) :
    Steps turn w (w.notRegistered failure) := by
  have ended : Steps turn w { w with phase := .over, shared := none } :=
    staged_steps lawful ⟨fun _ => rfl, trivial⟩
  exact ended.trans (conclude_steps ended.lawful ..)

/-- The client runs, with the session that serves all roots, if there is one. What that session's server
advertised must be registered by then. -/
theorem registered_steps (lawful : w.IsLawful)
    (advertises : ∀ n, w.shared = some n → w.scene.Advertises w.options n) :
    Steps turn w w.registered := by
  have running : Steps turn w { w with phase := .running, shared := w.shared } :=
    staged_steps lawful ⟨lawful.phase.1, advertises⟩
  exact running.trans (conclude_steps running.lawful ..)

/-- A good answer to the greeting lets the client run, because what the server advertised was registered on
the way. -/
theorem awaitSharedGreeting_steps (lawful : w.IsLawful) (shared : w.shared = some n) :
    Steps .other w (w.awaitSharedGreeting n 0) := by
  unfold awaitSharedGreeting
  split
  · have staged : Steps .other w { w with phase := .greeting n 0, shared := w.shared } :=
      staged_steps lawful ⟨lawful.phase.1, rfl, shared⟩
    exact staged
  next outcome answered =>
    obtain ⟨welcomed, same, advertises⟩ := welcome_steps lawful answered
    split
    next v eq =>
      rw [eq] at welcomed same advertises
      have folders : Steps .other v { v with folders := ⟨v.host.roots, []⟩, before := [] } :=
        welcomed.lawful.of_eq rfl rfl rfl rfl rfl rfl
      have followed := folders.trans (follow_steps folders.lawful .fresh)
      refine (welcomed.trans followed).trans (registered_steps followed.lawful ?_)
      intro m known
      cases (same.trans shared).symm.trans known
      exact advertises rfl
    next eq =>
      rw [eq] at welcomed
      exact welcomed.trans (notRegistered_steps welcomed.lawful _)

/-- The shared session is greeted by the first call on its new connection, and the client waits for just
that call. -/
theorem awaitSharedConnection_steps (lawful : w.IsLawful) (phase : w.phase = .connecting) :
    Steps .other w w.awaitSharedConnection := by
  unfold awaitSharedConnection
  have connecting := (w.connect_phase .register none).trans phase
  obtain ⟨asked, fresh⟩ : Steps .other w _ ∧ _ := connect_steps lawful .register none
  split
  next eq =>
    rw [eq] at asked
    exact asked
  next eq =>
    rw [eq] at asked
    exact asked.trans (notRegistered_steps asked.lawful _)
  next n v eq =>
    rw [eq] at asked fresh connecting
    dsimp only at asked connecting
    obtain ⟨s, found, uncalled⟩ := fresh n rfl
    split
    · exact asked.trans (notRegistered_steps asked.lawful _)
    next folders _ =>
      have fair := asked.lawful.phase
      unfold FairPhase at fair
      rw [connecting] at fair
      -- the session is shared as long as the client connects, which it goes on to do
      have shared : Steps .other v { v with phase := v.phase, shared := some n } := by
        refine staged_steps asked.lawful ⟨?_, ?_⟩
        · intro single
          exact absurd (fair.2.symm.trans single) (by rintro ⟨⟩)
        · dsimp only
          rw [connecting]
          exact fair.2
      obtain ⟨greeted, same, first⟩ := greet_steps shared.lawful n (some folders)
      have both := (asked.trans shared).trans greeted
      split
      next eq =>
        rw [eq] at both
        exact both.trans (notRegistered_steps both.lawful _)
      next call u eq =>
        rw [eq] at both same first
        obtain rfl := first found uncalled rfl
        exact both.trans (awaitSharedGreeting_steps both.lawful same)

/-- Opening the shared session is a step for a client with many roots. The other kind never comes to this
phase. -/
theorem openShared_steps (lawful : w.IsLawful) (multi : w.isMultiRoot = true) :
    Steps .other w w.openShared := by
  unfold openShared
  have looked : Steps .other w { w with before := w.host.roots } :=
    lawful.of_eq rfl rfl rfl rfl rfl rfl
  dsimp only
  split
  · exact looked.trans (notRegistered_steps looked.lawful _)
  · let v : World := askConnection { w with before := w.host.roots }
    have asked : Steps .other w v := lawful.of_eq rfl rfl rfl rfl rfl rfl
    have connecting : Steps .other v { v with phase := .connecting, shared := v.shared } :=
      staged_steps asked.lawful ⟨asked.lawful.phase.1, multi⟩
    exact (asked.trans connecting).trans (awaitSharedConnection_steps connecting.lawful rfl)

/-- A client that joins the openings of its roots has no session for all of them. So it runs as soon as all
openings are over, and nothing is asked of any. -/
theorem join_steps (lawful : w.IsLawful) (single : w.isMultiRoot = false) (openings : List Nat) :
    Steps .other w (w.join openings) := by
  unfold join
  have polled : Steps .other w (openings.foldl (fun w number =>
      if (w.openingResult? number).isSome then w else w.pollOpening .register number) w) := by
    refine foldl_steps ?_ lawful openings
    intro w lawful number
    split
    · exact .refl lawful
    · exact pollOpening_steps lawful .register number
  generalize openings.foldl (fun w number =>
    if (w.openingResult? number).isSome then w else w.pollOpening .register number) w = v at polled ⊢
  have still : v.isMultiRoot = false := (isMultiRoot_congr polled.options).trans single
  dsimp only
  split
  · have followed := polled.trans (follow_steps polled.lawful .ongoing)
    refine followed.trans (registered_steps followed.lawful ?_)
    intro n known
    exact absurd ((polled.lawful.phase.1 still).symm.trans known) (by rintro ⟨⟩)
  · have joining : Steps .other v { v with phase := .joining openings, shared := v.shared } :=
      staged_steps polled.lawful ⟨polled.lawful.phase.1, still⟩
    exact polled.trans joining

/-- An opening is begun for each root of the host, and they are joined. -/
theorem openEach_steps (lawful : w.IsLawful) (single : w.isMultiRoot = false) :
    Steps .other w w.openEach := by
  have looked : Steps .other w { w with before := w.host.roots } :=
    lawful.of_eq rfl rfl rfl rfl rfl rfl
  have all := looked.trans (foldl_steps addRoot_steps looked.lawful w.host.roots)
  rw [← addEach_snd _ w.host.roots []] at all
  rw [openEach_eq]
  generalize { w with before := w.host.roots }.addEach w.host.roots [] = pair at all ⊢
  obtain ⟨openings, v⟩ := pair
  have still : v.isMultiRoot = false := (isMultiRoot_congr all.options).trans single
  have joining : Steps .other v { v with phase := .joining openings, shared := v.shared } :=
    staged_steps all.lawful ⟨all.lawful.phase.1, still⟩
  exact (all.trans joining).trans (join_steps joining.lawful still openings)

/-- The task that registers the client makes steps, whatever stage it is at; one that was dropped ends it.
-/
theorem pollRegister_steps (lawful : w.IsLawful) : Steps .other w w.pollRegister := by
  have dropped : Steps .other w { w with phase := .over, shared := none } :=
    staged_steps lawful ⟨fun _ => rfl, trivial⟩
  have fair := lawful.phase
  unfold FairPhase at fair
  unfold pollRegister
  split
  · split
    · exact .refl lawful
    · exact .refl lawful
    · exact dropped
  · split
    · have told : Steps .other w ({ w with changes := ⟨0, false⟩ }.note .info
          "registering language client" [("multi_root", toString w.isMultiRoot)]) :=
        lawful.of_eq rfl rfl rfl rfl rfl rfl
      dsimp only
      split
      next multi => exact told.trans (openShared_steps told.lawful multi)
      next single =>
        exact told.trans (openEach_steps told.lawful (Bool.eq_false_iff.mpr single))
    next phase => exact awaitSharedConnection_steps lawful phase
    next n call phase =>
      rw [phase] at fair
      obtain ⟨-, rfl, shared⟩ := fair
      exact awaitSharedGreeting_steps lawful shared
    next openings phase =>
      rw [phase] at fair
      exact join_steps lawful fair.2 openings
    · exact .refl lawful

/-! ## Visits -/

/-- The end of a visit is a stage that asks for nothing. -/
theorem endVisit_steps (lawful : w.IsLawful) (number : Nat) (visit : Visit) (outcome : Outcome) :
    Steps turn w (w.endVisit number visit outcome) := by
  have ended : Steps turn w (w.setVisit number .over) := setVisit_steps lawful number trivial
  exact ended.trans (conclude_steps ended.lawful ..)

/-- A loan that is given back is something that happens to a connection. -/
theorem giveBack_steps (lawful : w.IsLawful) (n : Nat) (loan : Loan) :
    Steps .other w (w.giveBack n loan) := by
  unfold giveBack
  split
  · exact .refl lawful
  next s found =>
    obtain ⟨unread, jobs⟩ := w.folders.giveBack_unread s.connection loan
    have kept : Steps .other w
        { w with folders := (w.folders.giveBack s.connection loan).1 } :=
      lawful.of_eq rfl rfl rfl rfl rfl rfl
    exact kept.trans (put_steps kept.lawful found unread jobs)

/-- A visitor that is done leaves by giving back or disposing, and then its visit ends. -/
theorem leave_steps (lawful : w.IsLawful) (number : Nat) (visit : Visit) (n : Nat)
    (loan : Option Loan) (outcome : Outcome) :
    Steps .other w (w.leave number visit n loan outcome) := by
  have ended {v : World} (left : Steps .other w v) :
      Steps .other w (v.endVisit number visit outcome) :=
    left.trans (endVisit_steps left.lawful number visit outcome)
  unfold leave
  dsimp only
  split
  · split
    · exact ended (giveBack_steps lawful n _)
    · exact ended (.refl lawful)
  · exact ended (dispose_steps lawful n)

/-- A visitor comes to have a session, if that is fair: what the session's server advertised is registered,
where the session is the visitor's own. -/
theorem enter_steps (lawful : w.IsLawful) (number : Nat) (visit : Visit) (loan : Option Loan)
    (fair : w.FairVisit (.running n loan)) : Steps .other w (w.enter number visit n loan) := by
  unfold enter
  split
  · exact setVisit_steps lawful number fair
  · exact leave_steps lawful ..

/-- A visitor of the shared session borrows its root. Nothing is asked of the session here, as it is not the
visitor's own. -/
theorem enterShared_steps (lawful : w.IsLawful) (multi : w.isMultiRoot = true) (number : Nat)
    (visit : Visit) : Steps .other w (w.enterShared number visit) := by
  unfold enterShared
  split
  · exact endVisit_steps lawful ..
  next n s shares =>
    have found := found_of_shared shares
    split
    · exact endVisit_steps lawful ..
    next loan folders connection lent =>
      obtain ⟨unread, jobs⟩ := Folders.lend_unread lent
      have kept : Steps .other w { w with folders } := lawful.of_eq rfl rfl rfl rfl rfl rfl
      have told := kept.trans (put_steps kept.lawful found unread jobs)
      refine told.trans (enter_steps told.lawful number visit loan ?_)
      intro single
      exact absurd (multi.symm.trans single) (by rintro ⟨⟩)

/-- A visitor enters the session of its own once the greeting came to a good end, and what was advertised is
registered then. -/
theorem awaitOwnGreeting_steps (lawful : w.IsLawful) (number : Nat) (visit : Visit) (n : Nat) :
    Steps .other w (w.awaitOwnGreeting number visit n 0) := by
  unfold awaitOwnGreeting
  split
  · exact setVisit_steps lawful number rfl
  next outcome answered =>
    obtain ⟨welcomed, -, advertises⟩ := welcome_steps lawful answered
    split
    next eq =>
      rw [eq] at welcomed advertises
      exact welcomed.trans (enter_steps welcomed.lawful number visit none fun _ => advertises rfl)
    next eq =>
      rw [eq] at welcomed
      exact welcomed.trans (endVisit_steps welcomed.lawful ..)

/-- The session of a visit is greeted by the first call on its new connection. -/
theorem awaitOwnConnection_steps (lawful : w.IsLawful) (number : Nat) (visit : Visit) :
    Steps .other w (w.awaitOwnConnection number visit) := by
  unfold awaitOwnConnection
  obtain ⟨asked, fresh⟩ : Steps .other w _ ∧ _ :=
    connect_steps lawful (.visit number) (some visit.root)
  split
  next eq =>
    rw [eq] at asked
    exact asked.trans (setVisit_steps asked.lawful number trivial)
  next eq =>
    rw [eq] at asked
    exact asked.trans (endVisit_steps asked.lawful ..)
  next n v eq =>
    rw [eq] at asked fresh
    obtain ⟨s, found, uncalled⟩ := fresh n rfl
    obtain ⟨greeted, -, first⟩ := greet_steps asked.lawful n none
    have both := asked.trans greeted
    split
    next eq =>
      rw [eq] at both
      exact both.trans (endVisit_steps both.lawful ..)
    next call u eq =>
      rw [eq] at both first
      obtain rfl := first found uncalled rfl
      exact both.trans (awaitOwnGreeting_steps both.lawful number visit n)

theorem openOwn_steps (lawful : w.IsLawful) (number : Nat) (visit : Visit) :
    Steps .other w (w.openOwn number visit) := by
  have asked : Steps .other w w.askConnection := lawful.of_eq rfl rfl rfl rfl rfl rfl
  exact asked.trans (awaitOwnConnection_steps asked.lawful number visit)

/-- A visitor enters the session of a finished opening. It was opened for a root before, so its server's
features are registered. -/
theorem awaitTracked_steps (lawful : w.IsLawful) (number : Nat) (visit : Visit) (opening : Nat) :
    Steps .other w (w.awaitTracked number visit opening) := by
  have polled : Steps .other w (if (w.openingResult? opening).isSome then w
      else w.pollOpening (.visit number) opening) := by
    split
    · exact .refl lawful
    · exact pollOpening_steps lawful ..
  unfold awaitTracked
  generalize (if (w.openingResult? opening).isSome then w
    else w.pollOpening (.visit number) opening) = v at polled ⊢
  dsimp only
  split
  · exact polled.trans (setVisit_steps polled.lawful number trivial)
  · exact polled.trans (openOwn_steps polled.lawful number visit)
  next n result =>
    have forgotten : Steps .other v (v.forget visit.root opening) :=
      polled.lawful.of_eq rfl rfl rfl rfl rfl rfl
    split
    · exact (polled.trans forgotten).trans (openOwn_steps forgotten.lawful number visit)
    · refine (polled.trans forgotten).trans (enter_steps forgotten.lawful number visit none ?_)
      intro _
      refine forgotten.lawful.advertises (.inl ?_)
      obtain ⟨found, at_place, stage⟩ := exists_of_openingResult? result
      exact ⟨found, List.mem_of_getElem? at_place, stage⟩

/-- A visit begins by the kind of the client and by whether its root is tracked. -/
theorem beginVisit_steps (lawful : w.IsLawful) (number : Nat) (visit : Visit) :
    Steps .other w (w.beginVisit number visit) := by
  unfold beginVisit
  split
  next multi => exact enterShared_steps lawful multi number visit
  · split
    · exact awaitTracked_steps lawful ..
    · exact openOwn_steps lawful ..

/-- A visit that is dropped is over, with its loan given back. -/
theorem dropVisit_steps (lawful : w.IsLawful) (number : Nat) (visit : Visit) :
    Steps .other w (w.dropVisit number visit) := by
  have ended {v : World} (given : Steps .other w v) : Steps .other w (v.setVisit number .over) :=
    given.trans (setVisit_steps given.lawful number trivial)
  unfold dropVisit
  dsimp only
  split
  · exact ended (giveBack_steps lawful ..)
  · exact ended (.refl lawful)

/-- The task of a visit makes steps from every stage that the visit can be at. -/
theorem pollVisit_steps (lawful : w.IsLawful) (number : Nat) :
    Steps .other w (w.pollVisit number) := by
  unfold pollVisit
  split
  · exact .refl lawful
  next visit found =>
    have fair := lawful.visits visit (List.mem_of_getElem? found)
    split
    · exact dropVisit_steps lawful ..
    · split
      · exact beginVisit_steps lawful ..
      · exact awaitTracked_steps lawful ..
      · exact awaitOwnConnection_steps lawful ..
      next n call stage =>
        rw [stage] at fair
        obtain rfl : call = 0 := fair
        exact awaitOwnGreeting_steps lawful ..
      next n loan stage =>
        rw [stage] at fair
        exact enter_steps lawful number visit loan fair
      · exact .refl lawful

/-! ## Ending the client -/

/-- The end of the client disposes its sessions one after the other, and none of that ends a client again,
since the host has armed nothing. -/
theorem endClient_steps (lawful : w.IsLawful) : Steps .other w w.endClient := by
  let v : World := { w with phase := .over, shared := none }
  have ended : Steps .other w v := staged_steps lawful ⟨fun _ => rfl, trivial⟩
  let u : World := { v with following := .over, entries := [] }
  have left : Steps .other w u := ended.trans (ended.lawful.of_eq rfl rfl rfl rfl rfl rfl)
  have torn : Steps .other w (u.tearDownAny w.shared) := by
    unfold tearDownAny
    split
    · exact left.trans (tearDown_steps left.lawful _).1
    · exact left
  have revoked := foldl_steps (fun lawful (entry : RootEntry) =>
    (revoke_steps lawful entry.opening).1) torn.lawful w.entries
  rw [endClient_eq]
  exact (torn.trans revoked).trans (note_steps revoked.lawful ..)

/-! ## Requests in the background -/

/-- A request in the background is sent on the connection of its session. Its call is a new one, so no
greeting is among those that it could answer. -/
theorem sendRequest_acts (quiet : w.host.armed = []) (number : Nat) (request : PendingRequest) :
    Scene.Acts w.options .other w.scene (w.sendRequest number request).scene := by
  have awaited (v : World) (call : Nat) : (v.awaitResponse number request call).scene = v.scene := by
    unfold awaitResponse
    split <;> rfl
  unfold sendRequest
  split
  · exact .refl
  · exact .refl
  next method params s worded found =>
    dsimp only
    rw [awaited]
    exact put_acts quiet found (.of_unread (Connection.request_unread ..)
      (Connection.request_jobs ..))

/-- A request in the background is sent, abandoned or answered, all of which are acts of the connection. -/
theorem pollRequest_acts (quiet : w.host.armed = []) (number : Nat) :
    Scene.Acts w.options .other w.scene (w.pollRequest number).scene := by
  unfold pollRequest
  split
  · exact .refl
  next request _ =>
    split
    · unfold dropRequest
      dsimp only
      split
      · exact onConnection_acts quiet fun c => .of_unread (c.abandon_unread _) rfl
      · exact .refl
    · split
      · exact sendRequest_acts quiet ..
      · unfold awaitResponse
        split <;> exact .refl
      · exact .refl

/-! ## Sweeping -/

/-- Releasing a session takes its providers back, in the turn of the sweep. -/
theorem releaseSession_acts (quiet : w.host.armed = []) (n : Nat) :
    Scene.Acts w.options .sweep w.scene (w.releaseSession n).scene := by
  unfold releaseSession
  split
  · exact .refl
  next s found =>
    split
    next unheld =>
      simp only [Session.isActive, Bool.and_eq_true, Bool.not_eq_true'] at unheld
      let h : Hosted := ⟨s, n, w.host, w.reachOf n, false⟩
      have released : (w.during n Hosted.release).scene = ⟨w.sessions.set n { h.release.session with
          connection := h.release.session.connection.withoutNews }, h.release.host⟩ := by
        unfold during within onSession
        rw [found]
        rfl
      have acts : Hosted.Acts w.options .sweep h
          (h.release.withConnection h.release.session.connection.withoutNews) :=
        (Hosted.Act.release unheld.1.1).acts.tail
          (.connection (.of_unread Connection.withoutNews_unread rfl))
      rw [released]
      exact .of_hosted (c := w.scene) (h := h) quiet rfl found acts
    · exact .refl

/-- Cutting a connection that nobody can use is an act in the turn of the sweep only. -/
theorem releaseConnection_acts (quiet : w.host.armed = []) (n : Nat) :
    Scene.Acts w.options .sweep w.scene (w.releaseConnection n).scene := by
  unfold releaseConnection
  split
  · exact .refl
  · split
    · refine onConnection_acts quiet fun c => ⟨c.release_goes.1, fun _ => .of_eq c.release_goes.2, ?_⟩
      intro _ swept
      exact absurd rfl swept
    · exact .refl

/-- A sweep is acts in its own turn: the sessions that nobody holds are released first, and then the
connections that nobody can use. -/
theorem sweep_acts (quiet : w.host.armed = []) :
    Scene.Acts w.options .sweep w.scene w.sweep.scene := by
  have each {step : World → Nat → World} (options : ∀ v n, (step v n).options = v.options)
      (acts : ∀ {v : World}, v.host.armed = [] → ∀ n,
        Scene.Acts v.options .sweep v.scene (step v n).scene) (numbers : List Nat) {v : World}
      (quiet : v.host.armed = []) :
      (numbers.foldl step v).options = v.options ∧ (numbers.foldl step v).host.armed = [] ∧
        Scene.Acts v.options .sweep v.scene (numbers.foldl step v).scene := by
    induction numbers generalizing v with
    | nil => exact ⟨rfl, quiet, .refl⟩
    | cons n numbers ih =>
      have first := acts quiet n
      have calm := (first.induction (fun _ => True) (fun _ _ => id) quiet trivial).1
      obtain ⟨same, still, rest⟩ := ih (v := step v n) calm
      rw [options] at same rest
      exact ⟨same, still, first.trans rest⟩
  have kept : w.releaseEntries.options = w.options ∧ w.releaseEntries.scene = w.scene := by
    unfold releaseEntries
    split <;> exact ⟨rfl, rfl⟩
  have unarmed : w.releaseEntries.host.armed = [] := by
    rw [← quiet]
    exact congrArg (fun c => c.host.armed) kept.2
  obtain ⟨options, calm, released⟩ := each (fun v n => (releaseSession_swept v n).options)
    releaseSession_acts (List.range w.sessions.length) unarmed
  obtain ⟨-, -, closed⟩ := each (fun v n => (releaseConnection_swept v n).options)
    releaseConnection_acts (List.range w.sessions.length) calm
  rw [options] at closed
  have all := released.trans closed
  rw [kept.1, kept.2] at all
  exact all

/-! ## All moves -/

/-- Every task makes steps in the turn that is its own: the reader in that of the reader, a job in that of
its session, and the rest in none. -/
theorem poll_steps (lawful : w.IsLawful) (task : Task) :
    Steps (Move.turn (.poll task)) w (w.poll task) := by
  have quiet := lawful.quiet
  have course (minor : task.isMinor = true) : Growth Session.Later w (w.poll task) :=
    (poll_course quiet w.asks_later minor).toGrowth
  -- a task of a session runs on that session; the others are steps of the client
  cases task with
  | reader n =>
    refine lawful.course (course rfl) (onConnection_acts quiet ?_)
    intro c
    obtain ⟨goes, spawns⟩ := c.read_goes
    exact ⟨goes, fun _ => spawns, fun unread => absurd rfl unread⟩
  | job n job =>
    refine lawful.course (course rfl) (during_acts (fun h => (h.runJob_beside _ job).course) quiet ?_)
    rintro h rfl host _
    exact Hosted.runJob_acts (host ▸ quiet) rfl _ job
  | log n =>
    refine lawful.course (course rfl) (whileActive_acts (fun h => h.forwardLog_beside.course) quiet ?_)
    intro h _ _ _
    exact h.forwardLog_acts
  | diagnostics n =>
    refine lawful.course (course rfl)
      (whileActive_acts (fun h => (h.followDiagnostics_beside _).course) quiet ?_)
    intro h _ quiet live
    exact Hosted.followDiagnostics_acts quiet live _
  | progress n =>
    refine lawful.course (course rfl)
      (whileActive_acts (fun h => h.followProgress_beside.course) quiet ?_)
    intro h _ quiet live
    exact Hosted.followProgress_acts quiet live
  | watcher n =>
    refine lawful.course (course rfl) (whileActive_acts (fun h => ?_) quiet ?_)
    · split
      · exact h.dispose_beside.course
      · exact (Hosted.Beside.refl h).course
    · intro h _ _ _
      split
      · exact Hosted.dispose_acts (by rintro ⟨⟩) (by rintro ⟨⟩)
      · exact .refl
  | request n => exact lawful.course (course rfl) (pollRequest_acts quiet n)
  | opening n => exact pollOpening_steps lawful (.opening n) n
  | reconciler => exact pollReconciler_steps lawful
  | register => exact pollRegister_steps lawful
  | visit n => exact pollVisit_steps lawful n

/-- Somebody who is dropped stays at the stage where it is. Visits and requests are marked, and what they
have is let go of later. -/
theorem drop_steps (lawful : w.IsLawful) (label : String) : Steps .other w (w.drop label) := by
  have visits (number : Nat) (tasks : List Task) : Steps .other w
      ({ w with visits := w.visits.modify number Visit.dropped }.wakeTasks tasks) := by
    have dropped : Steps .other w { w with visits := w.visits.modify number Visit.dropped } :=
      changeVisit_steps lawful number fun _ => .inl rfl
    exact dropped.trans (dropped.lawful.of_eq rfl rfl rfl rfl rfl rfl)
  have first : Steps .other w (w.dropLastVisit label) := by
    unfold dropLastVisit
    split
    · exact visits ..
    · exact .refl lawful
  have second : Steps .other (w.dropLastVisit label)
      ((w.dropLastVisit label).dropLastRequest label) := by
    unfold dropLastRequest
    split
    · exact first.lawful.of_eq rfl rfl rfl rfl rfl rfl
    · exact .refl first.lawful
  rw [drop_eq]
  refine first.trans (second.trans ?_)
  unfold dropRegistering
  split
  · exact .refl second.lawful
  · exact .refl second.lawful
  · exact .refl second.lawful
  · split
    · exact second.lawful.of_eq rfl rfl rfl rfl rfl rfl
    · exact .refl second.lawful

/-- Every move is a step by acts of its turn. The moves that are left out arm a callback, change the views,
or tell what has happened. -/
theorem after_steps (lawful : w.IsLawful) {move : Move} (acts : move.isAct = true) :
    Steps move.turn w (w.after move) := by
  -- one case per move; the minor ones go along the course of the world, so only their acts are left
  -- to name
  have quiet := lawful.quiet
  have course (minor : move.isMinor = true) : Growth Session.Later w (w.after move) :=
    (after_course quiet w.asks_later minor).toGrowth
  have hosted (host : Host) (same : host = { w.host with
      roots := host.roots, documents := host.documents, reporters := host.reporters,
      waiting := host.waiting }) : Scene.Acts w.options .other w.scene ⟨w.sessions, host⟩ :=
    (Scene.Act.host host same).acts
  cases move with
  | poll task => exact poll_steps lawful task
  | sweep =>
    have swept := w.sweep_swept
    have kept : w.releaseEntries = { w with entries := w.releaseEntries.entries } := by
      unfold releaseEntries
      split <;> rfl
    rw [kept] at swept
    exact lawful.unstaged swept.options (sweep_acts quiet) swept.openings swept.visits swept.phase
      swept.shared
  | roots roots =>
    exact lawful.unstaged rfl (hosted { w.host with roots } rfl) rfl rfl rfl rfl
  | addDocument document =>
    exact lawful.unstaged rfl
      (hosted { w.host with documents := w.host.documents ++ [document] } rfl) rfl rfl rfl rfl
  -- the document is there before anybody hears of it: two acts of the host, in this order
  | openDocument document =>
    let host : Host := { w.host with documents := w.host.documents ++ [document] }
    have told : Scene.Act w.options .other ⟨w.sessions, host⟩
        ⟨w.sessions.map Session.hearOfDocument, host⟩ := by
      refine .hear Session.hearOfDocument ?_
      intro s
      unfold Session.hearOfDocument
      split
      · exact ⟨_, _, rfl⟩
      · exact ⟨_, _, rfl⟩
    exact lawful.unstaged rfl ((hosted host rfl).tail told) rfl rfl rfl rfl
  | endStreams =>
    have told : Scene.Act w.options .other w.scene ⟨w.sessions.map Session.hearNoMore, w.host⟩ :=
      .hear Session.hearNoMore fun s => ⟨_, _, rfl⟩
    exact lawful.unstaged rfl told.acts rfl rfl rfl rfl
  | holdConnections | releaseConnections | refuseConnections =>
    exact lawful.of_eq rfl rfl rfl rfl rfl rfl
  | holdReporters | releaseReporters | refuseReporters =>
    exact lawful.unstaged rfl (Scene.Act.host _ rfl).acts rfl rfl rfl rfl
  | register label =>
    change Steps .other w (w.registerOnce label)
    unfold registerOnce
    split
    · have starting : Steps .other w { w with phase := .starting, shared := w.shared } :=
        staged_steps lawful ⟨lawful.phase.1, trivial⟩
      exact starting.trans (starting.lawful.of_eq rfl rfl rfl rfl rfl rfl)
    · exact .refl lawful
  | shutdown =>
    change Steps .other w w.shutdownIfPossible
    rcases w.shutdownIfPossible_cases with same | ⟨-, -, ended⟩
    · rw [same]
      exact .refl lawful
    · rw [ended]
      exact endClient_steps lawful
  | visit label root =>
    change Steps .other w ((w.visit label root).getD w)
    unfold visit
    split
    · exact .refl lawful
    -- the visits that were there go on, and the new one is the last
    · refine lawful.steps rfl .refl (fun opening member => .inl ⟨opening, member, rfl⟩) ?_
        (.inl ⟨rfl, rfl⟩)
      intro visit member
      rcases List.mem_append.mp member with old | new
      · exact .inl ⟨visit, old, rfl⟩
      · rw [List.mem_singleton.mp new]
        exact .inr trivial
  | verdict number outcome =>
    change Steps .other w (w.judge number outcome)
    unfold judge
    split
    · have decided : Steps .other w
          { w with visits := w.visits.modify number (Visit.decided · outcome) } :=
        changeVisit_steps lawful number fun _ => .inl rfl
      exact decided.trans (decided.lawful.of_eq rfl rfl rfl rfl rfl rfl)
    · exact .refl lawful
  | request => exact lawful.of_eq rfl rfl rfl rfl rfl rfl
  | notify number method params =>
    change Steps .other w (w.notifyIfPossible number method params)
    rcases w.notifyIfPossible_cases number method params with
      same | ⟨s, connection, found, told, sent⟩
    · rw [same]
      exact .refl lawful
    · rw [sent]
      exact put_steps lawful found (Connection.notify_unread told) (Connection.send_jobs told).1
  | drop label => exact drop_steps lawful label
  | send number messages =>
    refine lawful.course (course rfl) (onConnection_acts quiet fun c => ?_)
    obtain ⟨unread, jobs⟩ := c.arriveAll_unread messages
    exact .of_unread unread jobs
  | hangUp number =>
    refine lawful.course (course rfl) (onConnection_acts quiet fun c => ?_)
    obtain ⟨unread, jobs⟩ := c.hangUp_unread
    exact .of_unread unread jobs
  | stopReading number =>
    exact lawful.course (stopReading_course w number).toGrowth
      (onConnection_acts quiet fun c => .of_unread c.stopReading_unread rfl)
  | arm | showView | hideView | report => cases acts

end World

end LanguageClient
