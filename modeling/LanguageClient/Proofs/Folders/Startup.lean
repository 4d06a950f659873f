import LanguageClient.Proofs.Folders.Agreement

/-!
# What becomes of the greeting

The shared session greets its server with the roots that the host has then, and the first look at the
roots afterwards announces what the host has by that time as if the server knew nothing. A root of the
greeting that the host drops in between is never withdrawn, unless it was noticed later. `run_startup`
says exactly what the server knows when nothing is left to look at, whatever the host did in whatever
order.
-/

namespace LanguageClient

namespace World

variable {w v : World} {rewriter : Rewriter} {noticed : Set Url}

/-! ## The greeting -/

/-- A new session for all roots greets its server with their folders. That request is the one message about
folders among all that the session has sent. -/
theorem greet_news {n : Nat} {s : Session} (found : w.sessions[n]? = some s) (new : s.IsNew)
    (rootless : s.root = none) (folders : List WorkspaceFolder) :
    ∃ t, (w.greet n (some folders)).2.sessions[n]? = some t ∧
      t.connection.news = [.request (Request.make (.number s.connection.nextId) initializeMethod
        (some (Greeting.toJson ⟨none, w.options.config.initializationOptions,
          w.options.config.isMultiRoot, some folders⟩)))] := by
  have inside : n < w.sessions.length := (List.getElem?_eq_some_iff.mp found).1
  have worded : Hosted.greeting ⟨s, n, w.host, w.reachOf n, false⟩ w.options (some folders) =
      .ok (Greeting.toJson ⟨none, w.options.config.initializationOptions,
        w.options.config.isMultiRoot, some folders⟩) := by
    simp only [Hosted.greeting, rootless]
    rfl
  unfold greet within onSession
  rw [found]
  dsimp only
  unfold Hosted.greet
  rw [worded]
  refine ⟨_, List.getElem?_set_self inside, ?_⟩
  refine (Connection.request_news ?_ ?_ _).trans ?_
  · exact new.unclosed
  · exact new.opened
  · exact congrArg (· ++ _) new.news

/-- That is all that the server was told of folders: the history of the session begins with a greeting of
the roots whose folders these are. -/
theorem greet_told {n : Nat} {s t : Session} {answer : Except ClientError Nat} {before : List Url}
    {folders : List WorkspaceFolder} (found : w.sessions[n]? = some s) (new : s.IsNew)
    (rootless : s.root = none) (worded : before.mapM rewriter.folder = .ok folders)
    (greeted : w.greet n (some folders) = (answer, v)) (there : v.sessions[n]? = some t) :
    t.connection.HasTold rewriter [.greeting before] := by
  obtain ⟨u, there', news⟩ := greet_news found new rootless folders
  rw [greeted] at there'
  cases there'.symm.trans there
  unfold Connection.HasTold
  rw [news]
  exact .cons ⟨folders, _, _, _, worded, rfl⟩ .nil

/-- The ledger begins with the greeting: all that the server knows is still to be noticed, and nothing else
was told. The session is new, so that no earlier history is lost by it. -/
theorem Sharing.ledger_greets {g : World} {folders : List WorkspaceFolder} {call : Nat}
    (sharing : w.Sharing) (phase : w.phase = .connecting) (naming : w.options.rewriter = rewriter)
    (named : ∀ root ∈ w.host.roots, rewriter.Names root) (attached : Attached none w v)
    (worded : w.before.mapM rewriter.folder = .ok folders)
    (greeted : greet { v with shared := some w.sessions.length } w.sessions.length (some folders) =
      (.ok call, g)) :
    Ledger rewriter {root | root ∈ w.before} ∅ [.greeting w.before]
      { g with phase := .greeting w.sessions.length call } := by
  have growth := attached.growth (R := Session.Later)
  have course := greet_course (w := { v with shared := some w.sessions.length })
    (growth.calm sharing.unarmed) w.sessions.length (some folders)
  rw [greeted] at course
  have unready : w.phase ≠ .running := by rw [phase]; exact Phase.noConfusion
  have absent := sharing.unready unready (by rw [phase]; exact Phase.noConfusion)
  have options : g.options = w.options := course.options.trans growth.options
  have before : g.before = w.before := course.before.trans growth.before
  have folded : g.folders = w.folders := course.folders.trans growth.folders
  have following : g.following = .absent :=
    course.following.trans (growth.following.trans absent)
  refine ⟨?_, ?_, fun alone => ?_, fun followed => absurd following followed, fun _ => ?_,
    fun fresh => ?_, ?_⟩
  · rw [← naming]
    exact congrArg ClientOptions.rewriter options
  · intro root member
    exact named root ((course.roots.trans growth.roots) ▸ member)
  · cases course.shared.symm.trans alone
  · intro root member
    exact ⟨before ▸ member, Set.notMem_empty root⟩
  · cases following.symm.trans fresh
  -- the session is new, so that its greeting is all that its server was told
  · intro n t shares _
    obtain ⟨s, found, rootless, new⟩ := attached.last
    have shared : w.sessions.length = n := Option.some.inj (course.shared.symm.trans shares.1)
    cases shared
    refine ⟨greet_told (by exact found) new rootless worded greeted shares.2, fun root => ?_⟩
    have unlent : g.folders.isLent root = false :=
      folded ▸ sharing.unlent (sharing.idle unready) root
    change root ∈ w.before ↔ root ∈ g.before ∨ g.folders.isLent root = true ∨
      root ∈ w.before ∧ root ∉ (∅ : Set Url)
    rw [before, unlent]
    constructor
    · exact .inl
    · rintro (looked | lent | ghost)
      · exact looked
      · cases lent
      · exact ghost.1

/-! ## Runs from the start -/

/-- What the server of several roots was told since the start: whenever there is a session for it,
the ledger of its greeting is kept. -/
structure Accounted (rewriter : Rewriter) (noticed : Set Url) (w : World) : Prop where
  naming : w.options.rewriter = rewriter
  named : ∀ root ∈ w.host.roots, rewriter.Names root
  unnoticed : w.following = .absent → noticed = ∅
  ledger : w.shared ≠ none → ∃ greeted later,
    Ledger rewriter {root | root ∈ greeted} noticed (.greeting greeted :: later) w

/-- A client that is not followed yet notices nothing: nobody looks at the roots, and nobody visits. -/
theorem Sharing.notices_nothing (sharing : w.Sharing) (absent : w.following = .absent) (move : Move) :
    w.notices move = ∅ := by
  have idle := sharing.idle fun running => (sharing.running running).2 absent
  cases move with
  | poll task =>
    cases task with
    | reconciler =>
      refine Set.eq_empty_of_forall_notMem fun root looked => ?_
      rw [show w.notices (.poll .reconciler) = {root | w.looks = true ∧ root ∈ w.host.roots} from
        rfl, looks, absent] at looked
      cases looked.1
    | visit number =>
      refine Set.eq_empty_of_forall_notMem fun root lent => ?_
      obtain ⟨visit, found, -, unstarted, -⟩ := lent
      rw [idle visit (List.mem_of_getElem? found)] at unstarted
      cases unstarted
    | _ => rfl
  | _ => rfl

namespace Accounted

/-- Registering greets at most one server, and the ledger begins there. If no session is shared afterwards,
there is nothing to keep a ledger of. -/
theorem registering (accounted : w.Accounted rewriter noticed) (sharing : w.Sharing)
    (alone : w.shared = none) (registering : Registering w v) (shared : v.shared ≠ none) :
    ∃ greeted later,
      Ledger rewriter {root | root ∈ greeted} noticed (.greeting greeted :: later) v := by
  cases registering with
  | rests _ _ gone => exact absurd gone shared
  | stays => exact absurd alone shared
  | ends => exact absurd rfl shared
  | @greets u _ g folders call early before phase apart attached worded greeted =>
    have absent : w.following = .absent := sharing.unready
      (by rcases early with early | early <;> rw [early] <;> exact Phase.noConfusion)
      (by rcases early with early | early <;> rw [early] <;> exact Phase.noConfusion)
    have naming : u.options.rewriter = rewriter :=
      (congrArg ClientOptions.rewriter apart.options).trans accounted.naming
    have named : ∀ root ∈ u.host.roots, rewriter.Names root := apart.roots ▸ accounted.named
    rw [naming] at worded
    have ledger := before.ledger_greets phase naming named attached worded greeted
    obtain ⟨later, ledger, -⟩ :=
      Ledger.awaitSharedGreeting ledger (before.awaits phase attached greeted)
    rw [accounted.unnoticed absent]
    rw [Set.union_empty] at ledger
    exact ⟨u.before, later, ledger⟩
  | awaits phase =>
    have shares := sharing.greeting _ _ phase
    cases alone.symm.trans shares

/-- Every tactful move keeps account. If there is a session already its ledger goes on, and if there is none
only registering can bring one, before anything was noticed. -/
theorem after (accounted : w.Accounted rewriter noticed) (sharing : w.Sharing) {move : Move}
    (tactful : move.isTactful = true) (names : move.Names rewriter) :
    Accounted rewriter (noticed ∪ w.notices move) (w.after move) := by
  have steady := steady_after sharing tactful
  refine ⟨?_, ?_, fun absent => ?_, fun shared => ?_⟩
  · rw [steady.options]
    exact accounted.naming
  · rw [steady.roots]
    cases move with
    | roots => exact names
    | _ => exact accounted.named
  · have first : w.following = .absent := by
      have earlier := steady.following
      rw [absent] at earlier
      cases following : w.following with
      | absent => rfl
      | _ => rw [following] at earlier; cases earlier
    rw [accounted.unnoticed first, sharing.notices_nothing first, Set.union_empty]
  · by_cases alone : w.shared = none
    · by_cases register : move = .poll .register
      · subst register
        obtain ⟨greeted, later, ledger⟩ :=
          accounted.registering sharing alone (pollRegister_registering sharing) shared
        rw [show w.notices (.poll .register) = ∅ from rfl, Set.union_empty]
        exact ⟨greeted, later, ledger⟩
      · exact absurd ((uninvited_after sharing tactful register).alone alone) shared
    · obtain ⟨greeted, later, ledger⟩ := accounted.ledger alone
      obtain ⟨more, ledger, -⟩ := ledger.after sharing tactful names
      exact ⟨greeted, later ++ more, ledger⟩

/-- A run of tactful moves keeps account, and what its moves notice adds up. -/
theorem run {moves : List Move} (tactful : ∀ move ∈ moves, move.isTactful = true)
    (names : ∀ move ∈ moves, move.Names rewriter) :
    ∀ {w noticed}, Accounted rewriter noticed w → w.Sharing →
      Accounted rewriter (noticed ∪ w.noticed moves) (w.run moves) := by
  induction moves with
  | nil =>
    intro w noticed accounted _
    rw [show w.noticed [] = ∅ from rfl, Set.union_empty]
    exact accounted
  | cons move moves ih =>
    intro w noticed accounted sharing
    have first := accounted.after sharing (tactful move List.mem_cons_self)
      (names move List.mem_cons_self)
    have rest := ih (fun later member => tactful later (List.mem_cons_of_mem _ member))
      (fun later member => names later (List.mem_cons_of_mem _ member)) first
      (sharing.after (tactful move List.mem_cons_self))
    rw [Set.union_assoc] at rest
    exact rest

end Accounted

/-- If no change waits, what was looked at and what of the greeting was never noticed amount to what the
host has and what of the greeting was never noticed. Before the first look that is so because the host still
has just the roots that it was greeted with. -/
theorem Ledger.current {ghosts : Set Url} {history : List Telling} {n : Nat} {s : Session}
    (ledger : w.Ledger rewriter ghosts noticed history) (sharing : w.Sharing)
    (shares : w.Shares n s) (quiet : w.changes = ⟨0, false⟩) (root : Url) :
    root ∈ w.before ∨ root ∈ ghosts ∧ root ∉ noticed ↔
      root ∈ w.host.roots ∨ root ∈ ghosts ∧ root ∉ noticed := by
  have shared : w.shared ≠ none := by
    rw [shares.1]
    exact Option.some_ne_none n
  cases phase : w.phase with
  | absent => exact absurd (sharing.early (.inl phase)) shared
  | starting => exact absurd (sharing.early (.inr (.inl phase))) shared
  | connecting => exact absurd (sharing.early (.inr (.inr phase))) shared
  | «over» => exact absurd (sharing.ended phase) shared
  | joining openings => exact absurd phase (sharing.unjoined openings)
  | greeting n call => rw [sharing.unchanged (by rw [phase]; trivial) quiet]
  | running =>
    cases following : w.following with
    | absent => exact absurd following (sharing.running phase).2
    | ongoing => rw [sharing.caughtUp following quiet]
    | «over» =>
      have ended := sharing.stopped phase following
      rw [quiet] at ended
      cases ended
    | fresh =>
      have unmoved := ledger.unmoved following quiet root
      rw [sharing.current following quiet] at unmoved
      rw [(sharing.fresh following).1]
      exact ⟨.imp_left nofun, Or.rec (.inr ∘ unmoved) .inr⟩

/-- What the server knows when all changes were looked at and nobody visits: the roots of the host, and
those of the greeting that were never noticed. It knows just the roots of the host if and only if each
root of the greeting that the host has not any more was noticed. -/
theorem run_startup {options : ClientOptions} (multi : options.config.isMultiRoot = true)
    {moves : List Move} (tactful : ∀ move ∈ moves, move.isTactful = true)
    (names : ∀ move ∈ moves, move.Names options.rewriter)
    (reached : (start options).run moves = w) (quiet : w.changes = ⟨0, false⟩)
    (idle : ∀ visit ∈ w.visits, visit.stage = .over) (connected : w.IsConnected) :
    ∃ greeted later, w.HasTold (.greeting greeted :: later) ∧
      Telling.known (.greeting greeted :: later) = {root | root ∈ w.host.roots ∨
        root ∈ greeted ∧ root ∉ (start options).noticed moves} ∧
      (Telling.known (.greeting greeted :: later) = {root | root ∈ w.host.roots} ↔
        ∀ root ∈ greeted, root ∉ w.host.roots → root ∈ (start options).noticed moves) := by
  have sharing : w.Sharing := reached ▸ run_sharing multi tactful
  have begun : Accounted options.rewriter ∅ (start options) :=
    ⟨rfl, nofun, fun _ => rfl, fun shared => absurd rfl shared⟩
  have accounted := Accounted.run tactful names begun (start_sharing multi)
  rw [reached, Set.empty_union] at accounted
  obtain ⟨n, s, shares, opened⟩ := connected
  have shared : w.shared ≠ none := by
    rw [shares.1]
    exact Option.some_ne_none n
  obtain ⟨greeted, later, ledger⟩ := accounted.ledger shared
  obtain ⟨said, known⟩ := ledger.books n s shares opened
  -- nothing is lent, so what is known are the roots of the host and the ghosts that nobody has
  -- noticed
  have all : Telling.known (.greeting greeted :: later) = {root | root ∈ w.host.roots ∨
      root ∈ greeted ∧ root ∉ (start options).noticed moves} := by
    ext root
    rw [known, sharing.unlent idle, or_iff_right Bool.false_ne_true]
    exact ledger.current sharing shares quiet root
  refine ⟨greeted, later, ⟨n, s, shares, accounted.naming ▸ said⟩, all, ?_⟩
  rw [all]
  constructor
  · intro same root member gone
    by_contra unseen
    exact gone ((Set.ext_iff.mp same root).mp (.inr ⟨member, unseen⟩))
  · intro seen
    ext root
    constructor
    · rintro (current | ⟨member, unseen⟩)
      · exact current
      · by_contra gone
        exact unseen (seen root member gone)
    · exact .inl

/-- The host has a root when the server is greeted, and another one when the server answers. -/
def Sample.moved : List Move :=
  [.roots [Sample.here]] ++ Sample.greeted ++ [.roots [Sample.there]] ++ Sample.answered

/-- A host that moves from one root to another during the greeting meets all that is asked for: in the end
its server knows the new root, and of the greeting what was never noticed. -/
theorem run_startup_moved : ((start Sample.options).run Sample.moved).IsConnected ∧
    ∃ greeted later, ((start Sample.options).run Sample.moved).HasTold (.greeting greeted :: later) ∧
      Telling.known (.greeting greeted :: later) = {root | root ∈ [Sample.there] ∨
        root ∈ greeted ∧ root ∉ (start Sample.options).noticed Sample.moved} := by
  have multi : Sample.options.config.isMultiRoot = true := rfl
  have tactful : ∀ move ∈ Sample.moved, move.isTactful = true := by decide
  have names : ∀ move ∈ Sample.moved, move.Names Sample.options.rewriter := by decide
  have reached : (start Sample.options).run Sample.moved = (start Sample.options).run Sample.moved :=
    rfl
  have connected : ((start Sample.options).run Sample.moved).IsConnected := by decide
  obtain ⟨greeted, later, told, known, -⟩ :=
    run_startup multi tactful names reached (by decide) (by decide) connected
  have roots : ((start Sample.options).run Sample.moved).host.roots = [Sample.there] := by decide
  rw [roots] at known
  exact ⟨connected, greeted, later, told, known⟩

/-- The host drops a root while its server is being greeted with it. -/
def Sample.dropped : List Move :=
  [.roots [Sample.here]] ++ Sample.greeted ++ [.roots []] ++ Sample.answered

/-- A root of the greeting that the host drops before the first look is never withdrawn. -/
theorem run_startup_dropped :
    let w := (start Sample.options).run Sample.dropped
    (∀ move ∈ Sample.dropped, move.Names Sample.options.rewriter) ∧ w.following = .ongoing ∧
      w.changes = ⟨0, false⟩ ∧ w.visits.length = 0 ∧ w.IsConnected ∧
      w.HasTold [.greeting [Sample.here]] ∧
      Telling.known [.greeting [Sample.here]] ≠ {root | root ∈ w.host.roots} := by
  refine ⟨by decide, by decide, by decide, by decide, by decide, ?_, fun same => ?_⟩
  · exact ⟨0, _, ⟨by decide, rfl⟩, .cons ⟨_, _, _, _, rfl, rfl⟩ .nil⟩
  · have known : Sample.here ∈ Telling.known [.greeting [Sample.here]] := List.mem_cons_self
    rw [same] at known
    have none : ((start Sample.options).run Sample.dropped).host.roots = [] := by decide
    rw [none] at known
    cases known

end World

end LanguageClient
