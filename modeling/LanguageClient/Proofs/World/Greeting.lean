import LanguageClient.Client.Requesting
import LanguageClient.Proofs.World.Onward

/-!
# Greeting the servers of sessions

Sessions are opened for the roots, for visits, and for all roots at once. Each of these tasks greets a
server by the first call on a new connection, waits, and goes on after a good answer; only then it
counts the session as open. The steps of these tasks are steps of `World.Onward`, whatever the host
does from inside its callbacks.
-/

namespace LanguageClient

namespace World

variable {serving : Nat → Prop} {w v : World} {n call : Nat}

/-! ## Connections -/

/-- A new session has said nothing and has no calls, and the host has only numbered a kind of decorations
for it. -/
theorem attach_onward (orderly : w.IsOrderly) (root : Option Url) :
    Onward serving w (w.attach root).2 := by
  let n := w.sessions.length
  let s := Session.attach root (w.host.lastDecorationKind + 1) w.options.config.progressSuffix
  let v : World := ({ w with
    sessions := w.sessions ++ [s], host := w.host.newDecorationKind.2 }.wake [.server n]).wakeTasks
      [.log n, .diagnostics n, .progress n, .watcher n]
  have added : Onward serving w v := by
    refine .unstaged rfl rfl rfl rfl rfl orderly rfl (fun {n t} found => ⟨t, ?_, .refl t⟩)
      fun _ => .inl
    have inside := (List.getElem?_eq_some_iff.mp found).1
    exact (List.getElem?_append_left inside).trans found
  have found : v.sessions[n]? = some s := List.getElem?_concat_length ..
  have told : Onward serving v (v.put n { s with connection := s.connection }) :=
    put_onward added.orderly found (.refl _)
  exact added.trans told

/-- What comes of asking for a connection; on a new one, nothing was asked yet. -/
theorem connect_onward (orderly : w.IsOrderly) (asker : Task) (root : Option Url) :
    Onward serving w (w.connect asker root).2 ∧ ∀ n, (w.connect asker root).1 = .session n →
      ∃ s, (w.connect asker root).2.sessions[n]? = some s ∧ s.connection.calls = [] := by
  unfold connect
  dsimp only
  split
  · exact ⟨orderly.aside rfl rfl rfl rfl rfl rfl rfl rfl, fun n => by rintro ⟨⟩⟩
  · split
    · exact ⟨orderly.aside rfl rfl rfl rfl rfl rfl rfl rfl, fun n => by rintro ⟨⟩⟩
    · refine ⟨attach_onward orderly root, ?_⟩
      rintro n ⟨⟩
      simp only [attach, put, wake, wakeTasks]
      refine ⟨_, List.getElem?_set_self (by simp), rfl⟩

/-- Greeting a server whose connection is new is the first call on it. The host may end the client
meanwhile, so that the shared session is the same is said only where the greeting went out. -/
theorem greet_onward (orderly : w.IsOrderly) (n : Nat) (folders : Option (List WorkspaceFolder)) :
    Onward serving w (w.greet n folders).2 ∧
      ∀ {s : Session} {call : Nat}, w.sessions[n]? = some s → s.connection.calls = [] →
        (w.greet n folders).1 = .ok call →
          (w.greet n folders).2.IsGreeting n call ∧ (w.greet n folders).2.shared = w.shared := by
  refine ⟨within_onward orderly n _ fun h _ _ _ => h.greet_onward _ folders, ?_⟩
  intro s call found uncalled greeted
  have inside := (List.getElem?_eq_some_iff.mp found).1
  unfold greet within onSession at greeted ⊢
  rw [found] at greeted ⊢
  unfold Hosted.greet at greeted ⊢
  dsimp only at greeted ⊢
  split at greeted
  · cases greeted
  next params _ =>
    obtain ⟨first, at_first, method⟩ := Connection.request_first
      (c := (Hosted.note ⟨s, n, w.host, w.reachOf n, false⟩ .session .info
        "initializing language server" [("root", s.rootText)]).session.connection)
      uncalled initializeMethod params
    refine ⟨⟨?_, _, List.getElem?_set_self inside, first, at_first, method⟩, rfl⟩
    cases greeted
    exact (request_fst ..).trans (congrArg List.length uncalled)

/-- Going on after a good answer to the greeting leaves a server that was told all. The host may have ended
the client on the way, in which case there is no shared session any more. -/
theorem welcome_onward (orderly : w.IsOrderly) (greeting : w.IsGreeting n call) {outcome : Outcome}
    (answered : w.outcome? n call = some outcome) :
    Onward serving w (w.welcome n outcome).2 ∧
      ((w.welcome n outcome).2.shared = w.shared ∨ (w.welcome n outcome).2.shared = none) ∧
      ((w.welcome n outcome).1 = none → (w.welcome n outcome).2.HasGreeted n) := by
  obtain ⟨rfl, s, found, greets⟩ := greeting
  obtain ⟨_, same, known⟩ := Option.bind_eq_some_iff.mp answered
  cases found.symm.trans same
  let h : Hosted := ⟨s, n, w.host, w.reachOf n, false⟩
  obtain ⟨welcomed, greeted⟩ := h.welcome_onward w.options greets known
  have operated : Onward serving w
      ({ w with host := (h.welcome w.options outcome).2.host }.put n
        (h.welcome w.options outcome).2.session) :=
    orderly.operated (h := h) rfl found (welcomed.weaken fun _ => .inr)
  have inside := (List.getElem?_eq_some_iff.mp found).1
  unfold welcome within onSession
  rw [found]
  dsimp only
  refine ⟨operated.trans (endIf_onward operated.orderly), shared_endIf .., fun good => ?_⟩
  have ended : Onward serving _ (endIf ((h.welcome w.options outcome).2.hasEnded, _)) :=
    endIf_onward operated.orderly
  refine ended.greeted ⟨_, List.getElem?_set_self inside, ?_⟩
  have told := greeted good
  rw [operated.options, operated.documents]
  exact told.onward (.of_connection Connection.withoutNews_onward)

/-! ## Openings -/

/-- An opening that is finished with a session is open for somebody, and its server was told all by then. -/
theorem finishOpening_onward (orderly : w.IsOrderly) (number : Nat) (opening : Opening)
    {session : Option Nat} (opens : ∀ {n : Nat}, session = some n → w.HasGreeted n) :
    Onward serving w (w.finishOpening number opening session) := by
  have staged : Onward serving w (w.setStage number (.finished session)) :=
    setStage_onward orderly number (by rintro _ _ ⟨⟩) fun same => opens (OpeningStage.finished.inj same)
  exact staged.trans (staged.orderly.aside rfl rfl rfl rfl rfl rfl rfl rfl)

/-- An opening that failed is open for nobody. -/
theorem notOpened_onward (orderly : w.IsOrderly) (number : Nat) (opening : Opening)
    (failure : ClientError) : Onward serving w (w.notOpened number opening failure) := by
  unfold notOpened
  dsimp only
  split
  · exact finishOpening_onward orderly number opening (by rintro _ ⟨⟩)
  · have forgotten : Onward serving w ((w.note .error "failed to open root session"
        [("error", failure.message), ("root", opening.root.text)]).forget opening.root number) :=
      orderly.aside rfl rfl rfl rfl rfl rfl rfl rfl
    exact forgotten.trans (finishOpening_onward forgotten.orderly number opening (by rintro _ ⟨⟩))

/-- An opening goes on with the answer to its greeting, which is the first call of its session. -/
theorem awaitGreeting_onward (orderly : w.IsOrderly) (greeting : w.IsGreeting n call) (number : Nat)
    (opening : Opening) : Onward serving w (w.awaitGreeting number opening n call) := by
  unfold awaitGreeting
  split
  · refine setStage_onward orderly number (fun same => ?_) (by rintro _ ⟨⟩)
    cases same
    exact greeting
  next outcome answered =>
    obtain ⟨welcomed, -, greeted⟩ : Onward serving w _ ∧ _ :=
      welcome_onward orderly greeting answered
    split
    next v eq =>
      rw [eq] at welcomed greeted
      have noted : Onward serving v (v.note .info "root session ready"
        [("root", opening.root.text)]) := welcomed.orderly.aside rfl rfl rfl rfl rfl rfl rfl rfl
      refine (welcomed.trans noted).trans (finishOpening_onward noted.orderly number opening ?_)
      intro m same
      cases same
      exact noted.greeted (greeted rfl)
    next eq =>
      rw [eq] at welcomed
      exact welcomed.trans (notOpened_onward welcomed.orderly ..)

/-- A session that was attached for an opening is greeted, by its first call. If the opening was cancelled,
it is disposed and never greeted. -/
theorem attached_onward (orderly : w.IsOrderly) (number : Nat) (opening : Opening) {s : Session}
    (found : w.sessions[n]? = some s) (uncalled : s.connection.calls = []) :
    Onward serving w (w.attached number opening n) := by
  unfold attached
  split
  · have disposed : Onward serving w (w.dispose n) := dispose_onward orderly n
    exact disposed.trans (notOpened_onward disposed.orderly ..)
  · have started : Onward serving w (w.setStartup number (.attached n)) :=
      setStartup_onward orderly ..
    obtain ⟨greeted, first⟩ : Onward serving _ _ ∧ _ := greet_onward started.orderly n none
    have both := started.trans greeted
    split
    next eq =>
      rw [eq] at both
      exact both.trans (notOpened_onward both.orderly ..)
    next call v eq =>
      rw [eq] at both first
      exact both.trans
        (awaitGreeting_onward both.orderly (first found uncalled rfl).1 number opening)

/-- An opening asks for its connection and greets on it as soon as there is one. -/
theorem awaitConnection_onward (orderly : w.IsOrderly) (number : Nat) (opening : Opening) :
    Onward serving w (w.awaitConnection number opening) := by
  unfold awaitConnection
  obtain ⟨asked, fresh⟩ : Onward serving w _ ∧ _ :=
    connect_onward orderly (.opening number) (some opening.root)
  split
  next eq =>
    rw [eq] at asked
    exact asked.trans (setStage_onward asked.orderly number (by rintro _ _ ⟨⟩) (by rintro _ ⟨⟩))
  next eq =>
    rw [eq] at asked
    exact asked.trans (notOpened_onward asked.orderly ..)
  next n v eq =>
    rw [eq] at asked fresh
    obtain ⟨s, found, uncalled⟩ := fresh n rfl
    exact asked.trans (attached_onward asked.orderly number opening found uncalled)

/-- Who waits for an opening is no part of its stage. -/
theorem watchOpening_onward (orderly : w.IsOrderly) (number : Nat) (task : Task) :
    Onward serving w (w.watchOpening number task) :=
  changeOpening_onward orderly number .inl .inl

/-- An opening goes on from any stage, for whoever polls it. An opening that came to its end only learns who
waits. -/
theorem pollOpening_onward (orderly : w.IsOrderly) (task : Task) (number : Nat) :
    Onward serving w (w.pollOpening task number) := by
  unfold pollOpening
  have watched : Onward serving w (w.watchOpening number task) := watchOpening_onward orderly ..
  generalize w.watchOpening number task = v at watched
  have orderly := watched.orderly
  dsimp only
  split
  · exact watched
  next opening found =>
    split
    · have asked : Onward serving v v.askConnection :=
        orderly.aside rfl rfl rfl rfl rfl rfl rfl rfl
      exact watched.trans (asked.trans (awaitConnection_onward asked.orderly number opening))
    · exact watched.trans (awaitConnection_onward orderly number opening)
    next n call at_stage =>
      have greeting := orderly.greeting (.inl ⟨opening, List.mem_of_getElem? found, at_stage⟩)
      exact watched.trans (awaitGreeting_onward orderly greeting number opening)
    · exact watched

/-- A root that is newly tracked has an opening that nobody waits for yet. -/
theorem addRoot_onward (orderly : w.IsOrderly) (root : Url) :
    Onward serving w (w.addRoot root).2 := by
  unfold addRoot
  split
  · exact .refl orderly
  · have old {stage : OpeningStage} {opening : Opening}
        (member : opening ∈ w.openings ++ [⟨root, .connecting, .unstarted, []⟩])
        (at_stage : opening.stage = stage) (begun : stage ≠ .unstarted) : opening ∈ w.openings := by
      rcases List.mem_append.mp member with before | new
      · exact before
      · rw [List.mem_singleton.mp new] at at_stage
        exact absurd at_stage.symm begun
    refine orderly.staged rfl rfl rfl ?_ ?_ orderly.phase
    · rintro n call (⟨opening, member, at_stage⟩ | others)
      · exact .inl (.inl ⟨opening, old member at_stage (by rintro ⟨⟩), at_stage⟩)
      · exact .inl (.inr others)
    · rintro n (⟨opening, member, at_stage⟩ | others)
      · exact .inl (.inl ⟨opening, old member at_stage (by rintro ⟨⟩), at_stage⟩)
      · exact .inl (.inr others)

/-- A root that went loses its entry, and the session of its opening is disposed. -/
theorem removeRoot_onward (orderly : w.IsOrderly) (root : Url) :
    Onward serving w (w.removeRoot root) := by
  unfold removeRoot
  split
  · exact .refl orderly
  next entry _ =>
    have gone : Onward serving w
        { w with entries := w.entries.filter fun e => e.root ≠ root } :=
      orderly.aside rfl rfl rfl rfl rfl rfl rfl rfl
    have cancelled := gone.trans (cancel_onward gone.orderly entry.opening)
    exact cancelled.trans (cancelled.orderly.aside rfl rfl rfl rfl rfl rfl rfl rfl)

/-! ## Following the roots -/

/-- The shared server is told of roots that came and went, behind all that it was told before. -/
theorem reconcileShared_onward (orderly : w.IsOrderly) : Onward serving w w.reconcileShared := by
  have told : Onward serving w w.tellFolders := by
    unfold tellFolders
    split
    · exact .refl orderly
    next n s shares =>
      have found := found_of_shared shares
      have kept : Onward serving w { w with folders :=
        (w.folders.reconcile w.options.rewriter s.connection w.before w.host.roots).1 } :=
        orderly.aside rfl rfl rfl rfl rfl rfl rfl rfl
      exact kept.trans (put_onward kept.orderly found (Folders.reconcile_onward ..))
  rw [reconcileShared_eq]
  exact told.trans (told.orderly.aside rfl rfl rfl rfl rfl rfl rfl rfl)

/-- A look at the roots goes on, for a client of either kind. -/
theorem reconcile_onward (orderly : w.IsOrderly) : Onward serving w w.reconcile := by
  unfold reconcile
  split
  · exact reconcileShared_onward orderly
  · have removed : Onward serving w _ := foldl_onward removeRoot_onward orderly
      (RootDiff.between w.before w.host.roots).removed
    have added := removed.trans (foldl_onward addRoot_onward removed.orderly
      (RootDiff.between w.before w.host.roots).added)
    exact added.trans (added.orderly.aside rfl rfl rfl rfl rfl rfl rfl rfl)

theorem followChanges_onward (orderly : w.IsOrderly) (count : Nat) :
    Onward serving w (followChanges count w) := by
  induction count generalizing w with
  | zero => exact .refl orderly
  | succ count ih =>
    have reconciled : Onward serving w w.reconcile := reconcile_onward orderly
    exact reconciled.trans (ih reconciled.orderly)

/-- The task that follows the roots goes on; its own state is nothing to sessions. -/
theorem pollReconciler_onward (orderly : w.IsOrderly) : Onward serving w w.pollReconciler := by
  have proceed {v : World} (orderly : v.IsOrderly) : Onward serving v
      (let u := followChanges v.changes.waiting { v with changes := { v.changes with waiting := 0 } }
       if u.following = .ongoing ∧ u.changes.hasEnded then { u with following := .over } else u) := by
    have taken : Onward serving v { v with changes := { v.changes with waiting := 0 } } :=
      orderly.aside rfl rfl rfl rfl rfl rfl rfl rfl
    have followed := taken.trans (followChanges_onward taken.orderly v.changes.waiting)
    dsimp only
    split
    · exact followed.trans (followed.orderly.aside rfl rfl rfl rfl rfl rfl rfl rfl)
    · exact followed
  unfold pollReconciler
  dsimp only
  split
  · have reconciled : Onward serving w w.reconcile := reconcile_onward orderly
    have going : Onward serving w.reconcile { w.reconcile with following := .ongoing } :=
      reconciled.orderly.aside rfl rfl rfl rfl rfl rfl rfl rfl
    exact (reconciled.trans going).trans (proceed going.orderly)
  · exact proceed orderly
  · exact .refl orderly

/-! ## Registering -/

/-- A client that is not registered has no shared session, so none is open on its account. -/
theorem notRegistered_onward (orderly : w.IsOrderly) (failure : ClientError) :
    Onward serving w (w.notRegistered failure) := by
  have ended : Onward serving w { w with phase := .over, shared := none } :=
    phased_onward orderly ⟨fun _ => rfl, trivial⟩ (by rintro _ _ ⟨⟩) (by rintro _ ⟨⟩)
  exact ended.trans (ended.orderly.aside rfl rfl rfl rfl rfl rfl rfl rfl)

/-- The client runs; if it has a session for all roots, the server of this was told all. -/
theorem registered_onward (orderly : w.IsOrderly)
    (greeted : ∀ {n : Nat}, w.shared = some n → w.HasGreeted n) :
    Onward serving w w.registered := by
  have running : Onward serving w { w with phase := .running, shared := w.shared } :=
    phased_onward orderly ⟨orderly.phase.1, trivial⟩ (by rintro _ _ ⟨⟩)
      fun _ known => .inr (greeted known)
  exact running.trans (running.orderly.aside rfl rfl rfl rfl rfl rfl rfl rfl)

/-- The client runs after a good answer to the greeting of its shared session, unless the host has ended it
meanwhile. -/
theorem awaitSharedGreeting_onward (orderly : w.IsOrderly) (greeting : w.IsGreeting n call)
    (shared : w.shared = some n) : Onward serving w (w.awaitSharedGreeting n call) := by
  unfold awaitSharedGreeting
  split
  · have staged : Onward serving w { w with phase := .greeting n call, shared := w.shared } := by
      refine phased_onward orderly ⟨orderly.phase.1, shared⟩ (fun same => ?_) (by rintro _ ⟨⟩)
      cases same
      exact greeting
    exact staged
  next outcome answered =>
    obtain ⟨welcomed, left, greeted⟩ : Onward serving w _ ∧ _ :=
      welcome_onward orderly greeting answered
    split
    next v eq =>
      rw [eq] at welcomed left greeted
      have followed : Onward serving v
          ({ v with folders := ⟨v.host.roots, []⟩, before := [] }.follow .fresh) :=
        welcomed.orderly.aside rfl rfl rfl rfl rfl rfl rfl rfl
      refine (welcomed.trans followed).trans (registered_onward followed.orderly ?_)
      intro m known
      have same : m = n := by
        rcases left with kept | none_
        · exact Option.some.inj (known.symm.trans (kept.trans shared))
        · exact absurd (known.symm.trans none_) (by rintro ⟨⟩)
      exact same ▸ followed.greeted (greeted rfl)
    next eq =>
      rw [eq] at welcomed
      exact welcomed.trans (notRegistered_onward welcomed.orderly _)

/-- The shared session is greeted by its first call, and the phase of the client names that call. -/
theorem awaitSharedConnection_onward (orderly : w.IsOrderly) (phase : w.phase = .connecting) :
    Onward serving w w.awaitSharedConnection := by
  unfold awaitSharedConnection
  have connecting := (w.connect_phase .register none).trans phase
  obtain ⟨asked, fresh⟩ : Onward serving w _ ∧ _ := connect_onward orderly .register none
  split
  next eq =>
    rw [eq] at asked
    exact asked
  next eq =>
    rw [eq] at asked
    exact asked.trans (notRegistered_onward asked.orderly _)
  next n v eq =>
    rw [eq] at asked fresh connecting
    dsimp only at asked connecting
    obtain ⟨s, found, uncalled⟩ := fresh n rfl
    split
    · exact asked.trans (notRegistered_onward asked.orderly _)
    next folders _ =>
      -- only a client of several roots connects in this phase, so that the session may be shared
      have multi : v.isMultiRoot = true := by
        have fits := asked.orderly.phase
        unfold PhaseFits at fits
        rw [connecting] at fits
        exact fits.2
      have shared : Onward serving v { v with phase := v.phase, shared := some n } := by
        refine phased_onward asked.orderly ⟨?_, ?_⟩ ?_ ?_
        · intro single
          exact absurd (multi.symm.trans single) (by rintro ⟨⟩)
        · dsimp only
          rw [connecting]
          exact multi
        · intro m call waits
          cases connecting.symm.trans waits
        · intro m running
          cases connecting.symm.trans running
      obtain ⟨greeted, first⟩ : Onward serving _ _ ∧ _ :=
        greet_onward shared.orderly n (some folders)
      have both := (asked.trans shared).trans greeted
      split
      next eq =>
        rw [eq] at both
        exact both.trans (notRegistered_onward both.orderly _)
      next call u eq =>
        rw [eq] at both first
        obtain ⟨greeting, same⟩ := first found uncalled rfl
        exact both.trans (awaitSharedGreeting_onward both.orderly greeting same)

/-- The shared session is opened for a client with many roots, which is what its phases ask for. -/
theorem openShared_onward (orderly : w.IsOrderly) (multi : w.isMultiRoot = true) :
    Onward serving w w.openShared := by
  unfold openShared
  have looked : Onward serving w { w with before := w.host.roots } :=
    orderly.aside rfl rfl rfl rfl rfl rfl rfl rfl
  dsimp only
  split
  · exact looked.trans (notRegistered_onward looked.orderly _)
  · let v : World := askConnection { w with before := w.host.roots }
    have asked : Onward serving w v := orderly.aside rfl rfl rfl rfl rfl rfl rfl rfl
    have connecting : Onward serving v { v with phase := .connecting, shared := v.shared } :=
      phased_onward asked.orderly ⟨asked.orderly.phase.1, multi⟩ (by rintro _ _ ⟨⟩)
        (by rintro _ ⟨⟩)
    exact (asked.trans connecting).trans (awaitSharedConnection_onward connecting.orderly rfl)

/-- A client that joins the openings of its roots has no session for all of them. -/
theorem join_onward (orderly : w.IsOrderly) (single : w.isMultiRoot = false)
    (openings : List Nat) : Onward serving w (w.join openings) := by
  unfold join
  have polled : Onward serving w (openings.foldl (fun w number =>
      if (w.openingResult? number).isSome then w else w.pollOpening .register number) w) := by
    refine foldl_onward (fun {v} orderly number => ?_) orderly openings
    split
    · exact .refl orderly
    · exact pollOpening_onward orderly .register number
  generalize openings.foldl (fun w number =>
    if (w.openingResult? number).isSome then w else w.pollOpening .register number) w = v at polled ⊢
  have still : v.isMultiRoot = false := (isMultiRoot_congr polled.options).trans single
  dsimp only
  split
  · have followed : Onward serving v (v.follow .ongoing) :=
      polled.orderly.aside rfl rfl rfl rfl rfl rfl rfl rfl
    refine (polled.trans followed).trans (registered_onward followed.orderly ?_)
    intro n known
    exact absurd ((polled.orderly.phase.1 still).symm.trans known) (by rintro ⟨⟩)
  · have joining : Onward serving v { v with phase := .joining openings, shared := v.shared } :=
      phased_onward polled.orderly ⟨polled.orderly.phase.1, still⟩ (by rintro _ _ ⟨⟩)
        (by rintro _ ⟨⟩)
    exact polled.trans joining

/-- An opening is begun for each root, and the client waits for them all. -/
theorem openEach_onward (orderly : w.IsOrderly) (single : w.isMultiRoot = false) :
    Onward serving w w.openEach := by
  have looked : Onward serving w { w with before := w.host.roots } :=
    orderly.aside rfl rfl rfl rfl rfl rfl rfl rfl
  have all := looked.trans (foldl_onward addRoot_onward looked.orderly w.host.roots)
  rw [← addEach_snd _ w.host.roots []] at all
  rw [openEach_eq]
  generalize { w with before := w.host.roots }.addEach w.host.roots [] = pair at all ⊢
  obtain ⟨openings, v⟩ := pair
  have still : v.isMultiRoot = false := (isMultiRoot_congr all.options).trans single
  have joining : Onward serving v { v with phase := .joining openings, shared := v.shared } :=
    phased_onward all.orderly ⟨all.orderly.phase.1, still⟩ (by rintro _ _ ⟨⟩) (by rintro _ ⟨⟩)
  exact (all.trans joining).trans (join_onward joining.orderly still openings)

/-- The task that registers the client goes on from any phase, and if the registering was dropped it gives
the client up. -/
theorem pollRegister_onward (orderly : w.IsOrderly) : Onward serving w w.pollRegister := by
  have dropped : Onward serving w { w with phase := .over, shared := none } :=
    phased_onward orderly ⟨fun _ => rfl, trivial⟩ (by rintro _ _ ⟨⟩) (by rintro _ ⟨⟩)
  have fits := orderly.phase
  unfold PhaseFits at fits
  unfold pollRegister
  split
  · split
    · exact .refl orderly
    · exact .refl orderly
    · exact dropped
  · split
    · have told : Onward serving w ({ w with changes := ⟨0, false⟩ }.note .info
          "registering language client" [("multi_root", toString w.isMultiRoot)]) :=
        orderly.aside rfl rfl rfl rfl rfl rfl rfl rfl
      dsimp only
      split
      next multi => exact told.trans (openShared_onward told.orderly multi)
      next single =>
        exact told.trans (openEach_onward told.orderly (Bool.eq_false_iff.mpr single))
    next phase => exact awaitSharedConnection_onward orderly phase
    next n call phase =>
      rw [phase] at fits
      exact awaitSharedGreeting_onward orderly (orderly.greeting (.inr (.inr phase))) fits.2
    next openings phase =>
      rw [phase] at fits
      exact join_onward orderly fits.2 openings
    · exact .refl orderly

/-! ## Visits -/

/-- A visit that is over has no session any more, so nothing is asked of one. -/
theorem endVisit_onward (orderly : w.IsOrderly) (number : Nat) (visit : Visit)
    (outcome : Outcome) : Onward serving w (w.endVisit number visit outcome) := by
  have ended : Onward serving w (w.setVisit number .over) :=
    setVisit_onward orderly number (by rintro _ _ ⟨⟩) (by rintro _ _ _ ⟨⟩)
  exact ended.trans (ended.orderly.aside rfl rfl rfl rfl rfl rfl rfl rfl)

/-- A loan is given back behind all that was said before. -/
theorem giveBack_onward (orderly : w.IsOrderly) (n : Nat) (loan : Loan) :
    Onward serving w (w.giveBack n loan) := by
  unfold giveBack
  split
  · exact .refl orderly
  next s found =>
    have kept : Onward serving w
        { w with folders := (w.folders.giveBack s.connection loan).1 } :=
      orderly.aside rfl rfl rfl rfl rfl rfl rfl rfl
    exact kept.trans (put_onward kept.orderly found (Folders.giveBack_onward ..))

/-- A visitor that is done gives its loan back, or its session is disposed; then the visit is over. -/
theorem leave_onward (orderly : w.IsOrderly) (number : Nat) (visit : Visit) (n : Nat)
    (loan : Option Loan) (outcome : Outcome) :
    Onward serving w (w.leave number visit n loan outcome) := by
  have ended {v : World} (left : Onward serving w v) :
      Onward serving w (v.endVisit number visit outcome) :=
    left.trans (endVisit_onward left.orderly number visit outcome)
  unfold leave
  dsimp only
  split
  · split
    · exact ended (giveBack_onward orderly n _)
    · exact ended (.refl orderly)
  · exact ended (dispose_onward orderly n)

/-- A visitor has a session from now on. For a session of its own it must be known that its server was told
all. -/
theorem enter_onward (orderly : w.IsOrderly) (number : Nat) (visit : Visit) (loan : Option Loan)
    (opens : w.isMultiRoot = false → w.HasOpened n ∨ w.HasGreeted n) :
    Onward serving w (w.enter number visit n loan) := by
  unfold enter
  split
  · refine setVisit_onward orderly number (by rintro _ _ ⟨⟩) fun single same => ?_
    cases same
    exact opens single
  · exact leave_onward orderly ..

/-- A visitor borrows its root on the shared session, which is not the visitor's own. -/
theorem enterShared_onward (orderly : w.IsOrderly) (multi : w.isMultiRoot = true) (number : Nat)
    (visit : Visit) : Onward serving w (w.enterShared number visit) := by
  unfold enterShared
  split
  · exact endVisit_onward orderly ..
  next n s shares =>
    have found := found_of_shared shares
    split
    · exact endVisit_onward orderly ..
    next loan folders connection lent =>
      have kept : Onward serving w { w with folders } :=
        orderly.aside rfl rfl rfl rfl rfl rfl rfl rfl
      have told := kept.trans (put_onward kept.orderly found (Folders.lend_onward lent))
      refine told.trans (enter_onward told.orderly number visit loan ?_)
      intro single
      exact absurd (multi.symm.trans single) (by rintro ⟨⟩)

/-- A visitor enters its own session after a good answer to the greeting. -/
theorem awaitOwnGreeting_onward (orderly : w.IsOrderly) (greeting : w.IsGreeting n call)
    (number : Nat) (visit : Visit) : Onward serving w (w.awaitOwnGreeting number visit n call) := by
  unfold awaitOwnGreeting
  split
  · refine setVisit_onward orderly number (fun same => ?_) (by rintro _ _ _ ⟨⟩)
    cases same
    exact greeting
  next outcome answered =>
    obtain ⟨welcomed, -, greeted⟩ : Onward serving w _ ∧ _ :=
      welcome_onward orderly greeting answered
    split
    next eq =>
      rw [eq] at welcomed greeted
      exact welcomed.trans
        (enter_onward welcomed.orderly number visit none fun _ => .inr (greeted rfl))
    next eq =>
      rw [eq] at welcomed
      exact welcomed.trans (endVisit_onward welcomed.orderly ..)

/-- A visitor's own session is greeted by its first call, and nobody has made a call on it before. -/
theorem awaitOwnConnection_onward (orderly : w.IsOrderly) (number : Nat) (visit : Visit) :
    Onward serving w (w.awaitOwnConnection number visit) := by
  unfold awaitOwnConnection
  obtain ⟨asked, fresh⟩ : Onward serving w _ ∧ _ :=
    connect_onward orderly (.visit number) (some visit.root)
  split
  next eq =>
    rw [eq] at asked
    exact asked.trans
      (setVisit_onward asked.orderly number (by rintro _ _ ⟨⟩) (by rintro _ _ _ ⟨⟩))
  next eq =>
    rw [eq] at asked
    exact asked.trans (endVisit_onward asked.orderly ..)
  next n v eq =>
    rw [eq] at asked fresh
    obtain ⟨s, found, uncalled⟩ := fresh n rfl
    obtain ⟨greeted, first⟩ : Onward serving _ _ ∧ _ := greet_onward asked.orderly n none
    have both := asked.trans greeted
    split
    next eq =>
      rw [eq] at both
      exact both.trans (endVisit_onward both.orderly ..)
    next call u eq =>
      rw [eq] at both first
      exact both.trans
        (awaitOwnGreeting_onward both.orderly (first found uncalled rfl).1 number visit)

theorem openOwn_onward (orderly : w.IsOrderly) (number : Nat) (visit : Visit) :
    Onward serving w (w.openOwn number visit) := by
  have asked : Onward serving w w.askConnection := orderly.aside rfl rfl rfl rfl rfl rfl rfl rfl
  exact asked.trans (awaitOwnConnection_onward asked.orderly number visit)

/-- A visitor takes over the session of a root. It was open for the root, so its server was told all before.
-/
theorem awaitTracked_onward (orderly : w.IsOrderly) (number : Nat) (visit : Visit)
    (opening : Nat) : Onward serving w (w.awaitTracked number visit opening) := by
  have polled : Onward serving w (if (w.openingResult? opening).isSome then w
      else w.pollOpening (.visit number) opening) := by
    split
    · exact .refl orderly
    · exact pollOpening_onward orderly ..
  unfold awaitTracked
  generalize (if (w.openingResult? opening).isSome then w
    else w.pollOpening (.visit number) opening) = v at polled ⊢
  dsimp only
  split
  · exact polled.trans
      (setVisit_onward polled.orderly number (by rintro _ _ ⟨⟩) (by rintro _ _ _ ⟨⟩))
  · exact polled.trans (openOwn_onward polled.orderly number visit)
  next n result =>
    have forgotten : Onward serving v (v.forget visit.root opening) :=
      polled.orderly.aside rfl rfl rfl rfl rfl rfl rfl rfl
    split
    · exact (polled.trans forgotten).trans (openOwn_onward forgotten.orderly number visit)
    · refine (polled.trans forgotten).trans (enter_onward forgotten.orderly number visit none ?_)
      intro _
      refine .inl (.inl ?_)
      obtain ⟨found, at_place, stage⟩ := exists_of_openingResult? result
      exact ⟨found, List.mem_of_getElem? at_place, stage⟩

/-- A visit that is dropped gives its loan back and is over. -/
theorem dropVisit_onward (orderly : w.IsOrderly) (number : Nat) (visit : Visit) :
    Onward serving w (w.dropVisit number visit) := by
  have ended {v : World} (given : Onward serving w v) :
      Onward serving w (v.setVisit number .over) :=
    given.trans (setVisit_onward given.orderly number (by rintro _ _ ⟨⟩) (by rintro _ _ _ ⟨⟩))
  unfold dropVisit
  dsimp only
  split
  · exact ended (giveBack_onward orderly ..)
  · exact ended (.refl orderly)

/-- The task of a visit goes on from any stage. Where a session is taken from an opening, the opening has
seen to the greeting of its server. -/
theorem pollVisit_onward (orderly : w.IsOrderly) (number : Nat) :
    Onward serving w (w.pollVisit number) := by
  unfold pollVisit
  split
  · exact .refl orderly
  next visit found =>
    have member := List.mem_of_getElem? found
    split
    · exact dropVisit_onward orderly number visit
    · split
      · unfold beginVisit
        split
        next multi => exact enterShared_onward orderly multi number visit
        · split
          · exact awaitTracked_onward orderly ..
          · exact openOwn_onward orderly ..
      · exact awaitTracked_onward orderly ..
      · exact awaitOwnConnection_onward orderly ..
      next n call stage =>
        exact awaitOwnGreeting_onward orderly (orderly.greeting (.inr (.inl ⟨visit, member, stage⟩)))
          number visit
      next n loan stage =>
        exact enter_onward orderly number visit loan fun single =>
          .inl (.inr (.inl ⟨single, visit, member, loan, stage⟩))
      · exact .refl orderly

end World

end LanguageClient
