import LanguageClient.Proofs.Folders.Sharing
import LanguageClient.Proofs.World.Connect
import LanguageClient.Proofs.World.Sweep

/-!
# Phases of a client of several roots

How such a client comes, follows the roots of the host and goes, and that `World.Sharing` holds all
the time: for each task and each move, what it does is first said in terms of a few changes of the
world, and each of these preserves the invariant.
-/

namespace LanguageClient

namespace World

variable {w v : World}

/-! ## Following the roots -/

/-- Whether the next step of the one who follows the roots looks at them. -/
def looks (w : World) : Bool :=
  match w.following with
  | .fresh => true
  | .ongoing => w.changes.waiting ≠ 0
  | _ => false

/-- The world after a look at the roots, which are followed from then on. -/
def looked (w : World) (changes : Changes) : World :=
  { w.reconcile with following := .ongoing, changes }

/-- Any number of looks at the roots, and perhaps the end of that. -/
inductive Looking : World → World → Prop where
  | done (w : World) : Looking w w
  | look {w v : World} (changes : Changes)
      (following : w.following = .fresh ∨ w.following = .ongoing)
      (rest : Looking (w.looked changes) v) : Looking w v
  | stop {w : World} (following : w.following = .ongoing) (ended : w.changes.hasEnded = true) :
      Looking w { w with following := .over }

namespace Sharing

/-- Who follows the roots has a session to tell of them: the following starts with a shared session and
stops when that goes. -/
theorem following_shares (sharing : w.Sharing)
    (following : w.following = .fresh ∨ w.following = .ongoing) : ∃ n s, w.Shares n s := by
  have running := sharing.followed following
  obtain ⟨n, shared⟩ := Option.isSome_iff_exists.mp (sharing.running running).1
  obtain ⟨s, shares, -⟩ := sharing.shares shared
  exact ⟨n, s, shares⟩

/-- A look at the roots leaves all as it is. The roots of now are announced and were looked at, who borrows
what is not touched, and the shared session has only been told something. -/
theorem looked (sharing : w.Sharing)
    (following : w.following = .fresh ∨ w.following = .ongoing) (changes : Changes) :
    Sharing (w.looked changes) := by
  have running := sharing.followed following
  obtain ⟨n, s, shares⟩ := sharing.following_shares following
  have later := Session.Later.of_connection (w.folders.reconcile_later w.options.rewriter
    s.connection w.before w.host.roots)
  have kept := sharing.of_course (put_course shares.2 later)
  unfold World.looked
  rw [reconcile_of_shares sharing.multi shares]
  exact { kept with
    counted := sharing.counted
    positive := sharing.positive
    running := fun _ => ⟨(sharing.running running).1, Following.noConfusion⟩
    unready := fun idle => absurd running idle
    followed := fun _ => running
    fresh := nofun
    ongoing := fun _ _ => rfl
    stopped := nofun
    caughtUp := fun _ _ => rfl
    unchanged := by rw [running]; nofun
    current := nofun }

end Sharing

/-- Looks that are made one after the other, as many as there are changes waiting; the roots are followed
after each. -/
theorem followChanges_looking (sharing : w.Sharing) (following : w.following = .ongoing)
    (count : Nat) :
    Looking w (followChanges count w) ∧ (followChanges count w).following = .ongoing := by
  -- on the number of looks, for any world: each look needs the session that the last one left
  induction count generalizing w with
  | zero => exact ⟨.done w, following⟩
  | succ count ih =>
    obtain ⟨n, s, shares⟩ := sharing.following_shares (.inr following)
    have same : w.looked w.changes = w.reconcile := by
      unfold looked
      rw [reconcile_of_shares sharing.multi shares, ← following]
      rfl
    have next := sharing.looked (.inr following) w.changes
    rw [same] at next
    obtain ⟨rest, ongoing⟩ := ih next (by rw [← same]; rfl)
    exact ⟨.look w.changes (.inr following) (same ▸ rest), ongoing⟩

/-- After any looks the following may stop, if the host tells of its roots no more. -/
theorem Looking.stopped (looking : Looking w v) (following : v.following = .ongoing)
    (ended : v.changes.hasEnded = true) : Looking w { v with following := .over } := by
  induction looking with
  | done => exact .stop following ended
  | look changes at_first _ ih => exact .look changes at_first (ih following ended)
  | stop => cases following

/-- What the step of the one who follows the roots does: it may look at them, once or more often,
and then stop. -/
theorem pollReconciler_cases (sharing : w.Sharing) :
    w.looks = false ∧ (w.pollReconciler = w ∨ w.following = .ongoing ∧
          w.changes.hasEnded = true ∧ w.pollReconciler = { w with following := .over }) ∨
      w.looks = true ∧ (w.following = .fresh ∨ w.following = .ongoing) ∧
        ∃ changes, Looking (w.looked changes) w.pollReconciler := by
  unfold pollReconciler looks
  cases following : w.following with
  | absent | «over» => exact .inl ⟨rfl, .inl rfl⟩
  | fresh =>
    refine .inr ⟨rfl, .inl rfl, { w.reconcile.changes with waiting := 0 }, ?_⟩
    have next := sharing.looked (.inl following) { w.reconcile.changes with waiting := 0 }
    obtain ⟨looking, ongoing⟩ := followChanges_looking next rfl w.reconcile.changes.waiting
    dsimp only
    split
    next ended => exact looking.stopped ongoing ended.2
    next => exact looking
  | ongoing =>
    dsimp only
    cases waiting : w.changes.waiting with
    | zero =>
      -- nothing waits, so all that can be learned is that no more will come
      have same : { w with changes := { w.changes with waiting := 0 } } = w := by rw [← waiting]
      simp only [followChanges, same]
      refine .inl ⟨rfl, ?_⟩
      split
      next ended => exact .inr ⟨trivial, ended.2, rfl⟩
      next => exact .inl rfl
    | succ count =>
      obtain ⟨n, s, shares⟩ := sharing.following_shares (.inr following)
      have same : reconcile { w with changes := { w.changes with waiting := 0 } } =
          w.looked { w.changes with waiting := 0 } := by
        unfold looked
        rw [reconcile_of_shares sharing.multi shares, ← following,
          reconcile_of_shares (w := { w with changes := { w.changes with waiting := 0 } })
            sharing.multi shares]
        rfl
      refine .inr ⟨rfl, .inr rfl, { w.changes with waiting := 0 }, ?_⟩
      have next := sharing.looked (.inr following) { w.changes with waiting := 0 }
      obtain ⟨looking, ongoing⟩ := followChanges_looking next rfl count
      simp only [followChanges, same]
      split
      next ended => exact looking.stopped ongoing ended.2
      next => exact looking

namespace Sharing

/-- Looking at the roots leaves all as it is, by induction on the looks. -/
theorem looking (sharing : w.Sharing) (looking : Looking w v) : v.Sharing := by
  induction looking with
  | done => exact sharing
  | look changes following _ ih => exact ih (sharing.looked following changes)
  | stop following ended =>
    have running := sharing.followed (.inr following)
    exact { sharing with
      running := fun _ => ⟨(sharing.running running).1, Following.noConfusion⟩
      unready := fun idle => absurd running idle
      followed := nofun
      fresh := nofun
      ongoing := fun running _ =>
        sharing.ongoing running (by rw [following]; exact Following.noConfusion)
      stopped := fun _ _ => ended
      caughtUp := nofun
      current := nofun }

/-- The step of the one who follows the roots leaves all as it is: it is nothing, a stop, or looks that may
end in one. -/
theorem pollReconciler (sharing : w.Sharing) : Sharing w.pollReconciler := by
  obtain ⟨-, same | ⟨following, ended, same⟩⟩ | ⟨-, following, changes, looking⟩ :=
    pollReconciler_cases sharing
  · rw [same]
    exact sharing
  · rw [same]
    exact sharing.looking (.stop following ended)
  · exact (sharing.looked following changes).looking looking

end Sharing

/-! ## Registering -/

namespace Sharing

/-- The client ends while nobody visits. There is no shared session then and nobody to follow the roots, so
that of most parts of the invariant nothing is left to show. -/
theorem closed (sharing : w.Sharing) (idle : ∀ visit ∈ w.visits, visit.stage = .over)
    {following : Following} (stopped : following = .absent ∨ following = .over) :
    Sharing { w with phase := .over, shared := none, following } where
  multi := sharing.multi
  unarmed := sharing.unarmed
  asks := sharing.asks
  untracked := sharing.untracked
  unopened := sharing.unopened
  present := nofun
  visits visit member := by rw [idle visit member]; trivial
  idle _ := idle
  counted := sharing.counted
  positive := sharing.positive
  running := nofun
  greeting := nofun
  unready _ live := absurd rfl live
  unjoined := nofun
  early _ := rfl
  ended _ := rfl
  followed following := by
    obtain rfl | rfl := stopped <;> rcases following with following | following <;> cases following
  fresh following := by obtain rfl | rfl := stopped <;> cases following
  ongoing := nofun
  stopped := nofun
  caughtUp following := by obtain rfl | rfl := stopped <;> cases following
  unchanged := nofun
  current following := by obtain rfl | rfl := stopped <;> cases following

/-- The client could not be registered. It ends before anybody could visit it, and with it goes what came of
its session so far. -/
theorem notRegistered (sharing : w.Sharing) (unready : w.phase ≠ .running) (live : w.phase ≠ .over)
    (growth : Growth Session.Later w v) (failure : ClientError) :
    Sharing (v.notRegistered failure) := by
  have gone := sharing.closed (sharing.idle unready) (.inl (sharing.unready unready live))
  exact (gone.of_growth (growth.staged .over none)).of_course (conclude_course ..)

/-- The client is there, and follows the roots from now on. What was announced is what the host has at this
moment, and nothing was looked at. -/
theorem sharedOpened (sharing : w.Sharing) {n call : Nat} (phase : w.phase = .greeting n call) :
    Sharing w.sharedOpened := by
  have idle := sharing.idle (by rw [phase]; exact Phase.noConfusion)
  exact { sharing with
    visits := fun visit member => by rw [idle visit member]; trivial
    idle := fun absent => absurd rfl absent
    counted := fun root => by
      refine Eq.symm (List.countP_eq_zero.mpr fun visit member => ?_)
      rw [idle visit member]
      exact Bool.false_ne_true
    positive := fun root => by
      simp [World.sharedOpened, follow, registered, conclude, wakeTasks, wake, Folders.isLent,
        Folders.borrowers]
    running := fun _ => ⟨by
      rw [show w.sharedOpened.shared = w.shared from rfl, sharing.greeting n call phase]
      rfl, Following.noConfusion⟩
    greeting := nofun
    unready := fun absent => absurd rfl absent
    unjoined := nofun
    early := by rintro (h | h | h) <;> cases h
    ended := nofun
    followed := fun _ => rfl
    fresh := fun _ => ⟨rfl, nofun⟩
    ongoing := fun _ looked => absurd rfl looked
    stopped := nofun
    caughtUp := nofun
    unchanged := nofun
    current := fun _ _ => rfl }

end Sharing

/-- The answer to the greeting of the shared session is waited for, or the client is there, or it
could not be registered. -/
theorem awaitSharedGreeting_cases (unarmed : w.host.armed = []) (n call : Nat) :
    w.awaitSharedGreeting n call = { w with phase := .greeting n call } ∨
      ∃ u, Course Session.Beside { w with phase := .greeting n call } u ∧
        (w.awaitSharedGreeting n call = u.sharedOpened ∨
          ∃ failure, w.awaitSharedGreeting n call = u.notRegistered failure) := by
  unfold awaitSharedGreeting
  split
  · exact .inl rfl
  next outcome _ =>
    have welcomed : Course Session.Beside w (w.welcome n outcome).2 :=
      within_course _ (fun h => Hosted.welcome_beside h w.options outcome) unarmed n
        (some .connectionClosed)
    refine .inr ⟨_, welcomed.phased _, ?_⟩
    split
    next eq => rw [eq]; exact .inl rfl
    next failure _ eq => rw [eq]; exact .inr ⟨failure, rfl⟩

namespace Sharing

/-- Waiting for the answer to the greeting leaves all as it is, in each of the three ways in which it may
come out. -/
theorem awaitSharedGreeting {n call : Nat} (sharing : Sharing { w with phase := .greeting n call }) :
    Sharing (w.awaitSharedGreeting n call) := by
  obtain same | ⟨u, course, same | ⟨failure, same⟩⟩ :=
    awaitSharedGreeting_cases (w := w) sharing.unarmed n call
  · rw [same]
    exact sharing
  · rw [same]
    exact (sharing.of_course (course.weaken Session.Beside.toLater)).sharedOpened course.phase
  · rw [same]
    exact sharing.notRegistered Phase.noConfusion Phase.noConfusion
      (course.toGrowth.weaken Session.Beside.toLater) failure

/-- The shared session has greeted its server. It is the one that was made last, and is new, so that it is
there and not released. -/
theorem greeted (sharing : w.Sharing) (connecting : w.phase = .connecting)
    (attached : Attached none w v) (call : Nat) :
    Sharing { v with phase := .greeting w.sessions.length call, shared := some w.sessions.length }
    := by
  have kept := sharing.of_growth attached.growth
  have phase : v.phase = .connecting :=
    (attached.growth (R := Session.Later)).phase.trans connecting
  have unready : v.phase ≠ .running := phase ▸ Phase.noConfusion
  have idle := kept.idle unready
  obtain ⟨s, found, -, new⟩ := attached.last
  exact { kept with
    present := by
      rintro _ ⟨⟩
      exact ⟨s, found, new.held⟩
    visits := fun visit member => by rw [idle visit member]; trivial
    idle := fun _ => idle
    running := nofun
    greeting := by rintro _ _ ⟨⟩; rfl
    unready := fun _ _ => kept.unready unready (phase ▸ Phase.noConfusion)
    unjoined := nofun
    early := by rintro (h | h | h) <;> cases h
    ended := nofun
    followed := fun following => absurd (kept.followed following) unready
    ongoing := nofun
    stopped := nofun
    unchanged := fun _ => kept.unchanged (by rw [phase]; trivial) }

end Sharing

/-- What registering leaves alone until the client is there: the roots, their names and who follows
them. -/
structure Apart (w v : World) : Prop where
  options : v.options = w.options
  roots : v.host.roots = w.host.roots
  following : v.following = w.following

/-- What two steps leave alone, both together leave alone. -/
theorem Apart.trans {u : World} (first : Apart w v) (second : Apart v u) : Apart w u :=
  ⟨second.options.trans first.options, second.roots.trans first.roots,
    second.following.trans first.following⟩

/-- Whatever the sessions do meanwhile, the options, the roots and the following are left alone. -/
theorem Growth.apart {R : Session → Session → Prop} (growth : Growth R w v) : Apart w v :=
  ⟨growth.options, growth.roots, growth.following⟩

/-- How registering goes on: there is no session yet and perhaps none any more, or it was given up,
or a new session has greeted its server, or the answer to the greeting may be there. -/
inductive Registering (w : World) : World → Prop where
  | rests {v : World} (early : w.phase = .starting ∨ w.phase = .connecting) (sharing : v.Sharing)
      (alone : v.shared = none) (apart : Apart w v) : Registering w v
  | stays : Registering w w
  | ends (unready : w.phase ≠ .running) (live : w.phase ≠ .over) :
      Registering w { w with phase := .over, shared := none }
  | greets {u v g : World} {folders : List WorkspaceFolder} {call : Nat}
      (early : w.phase = .starting ∨ w.phase = .connecting) (sharing : u.Sharing)
      (phase : u.phase = .connecting) (apart : Apart w u) (attached : Attached none u v)
      (named : u.before.mapM u.options.rewriter.folder = .ok folders)
      (greeted : greet { v with shared := some u.sessions.length } u.sessions.length
        (some folders) = (.ok call, g)) :
      Registering w (g.awaitSharedGreeting u.sessions.length call)
  | awaits {n call : Nat} (phase : w.phase = .greeting n call) :
      Registering w (w.awaitSharedGreeting n call)

/-- A greeting goes along the course of the world. It is one more request on a connection, so that the
session that sends it is at a later time afterwards. -/
theorem greet_course (unarmed : w.host.armed = []) (n : Nat)
    (folders : Option (List WorkspaceFolder)) :
    Course Session.Later w (w.greet n folders).2 :=
  within_course _ (fun h => Hosted.greet_course h w.options folders) unarmed n
    (.error .connectionClosed)

/-- The shared session is opened when there is a connection. Otherwise the client waits or is given up, and
in every case the roots are left alone. -/
theorem awaitSharedConnection_registering (sharing : w.Sharing) (phase : w.phase = .connecting)
    (early : v.phase = .starting ∨ v.phase = .connecting) (apart : Apart v w) :
    Registering v w.awaitSharedConnection := by
  have unready : w.phase ≠ .running := by rw [phase]; exact Phase.noConfusion
  have live : w.phase ≠ .over := by rw [phase]; exact Phase.noConfusion
  have alone := sharing.early (.inr (.inr phase))
  have fails {u : World} (growth : Growth Session.Later w u) (failure : ClientError) :
      Registering v (u.notRegistered failure) :=
    .rests early (sharing.notRegistered unready live growth failure) rfl
      (apart.trans ⟨growth.options, growth.roots, growth.following⟩)
  unfold awaitSharedConnection
  obtain ⟨connector, later⟩ | ⟨failure, connector, refused⟩ | ⟨u, session, attached⟩ :=
    w.connect_cases .register none
  · rw [later]
    exact .rests early { sharing with } alone ⟨apart.options, apart.roots, apart.following⟩
  · rw [refused]
    have course : Course Session.Later w { w with connector } := .of_eq rfl rfl rfl rfl rfl
    exact fails course.toGrowth failure
  · rw [session]
    have growth := attached.growth (R := Session.Later)
    dsimp only
    split
    next failure _ => exact fails growth (.conversion failure)
    next folders named =>
      -- the new session is shared before its server is greeted, and no more if that fails
      have greeted := greet_course (w := { u with shared := some w.sessions.length })
        (growth.calm sharing.unarmed) w.sessions.length (some folders)
      rw [growth.before, growth.options] at named
      split
      next failure g eq =>
        rw [eq] at greeted
        have grown : Growth Session.Later { w with phase := .over, shared := none }
            { g with phase := .over, shared := none } :=
          (growth.staged .over none).trans (greeted.toGrowth.staged .over none)
        have gone := sharing.closed (sharing.idle unready) (.inl (sharing.unready unready live))
        refine .rests early ((gone.of_growth grown).of_course (conclude_course ..)) rfl ?_
        exact (apart.trans growth.apart).trans ⟨greeted.options, greeted.roots, greeted.following⟩
      next call g eq => exact .greets early sharing phase apart attached named eq

/-- The client goes on towards its first connection. It has no session yet, and once it connects the roots
that it will greet with are those of the host. -/
theorem Sharing.prepared (sharing : w.Sharing) (early : w.phase = .absent ∨ w.phase = .starting)
    {phase : Phase} (next : phase = .starting ∨ phase = .connecting) (before : List Url)
    (changes : Changes) (read : phase = .connecting → before = w.host.roots) :
    Sharing { w with phase, before, changes } := by
  have unready : w.phase ≠ .running := by
    obtain phase | phase := early <;> rw [phase] <;> exact Phase.noConfusion
  have live : w.phase ≠ .over := by
    obtain phase | phase := early <;> rw [phase] <;> exact Phase.noConfusion
  have alone := sharing.early (early.imp_right .inl)
  exact { sharing with
    idle := fun _ => sharing.idle unready
    running := by obtain rfl | rfl := next <;> nofun
    greeting := by obtain rfl | rfl := next <;> nofun
    unready := fun _ _ => sharing.unready unready live
    unjoined := by obtain rfl | rfl := next <;> nofun
    early := fun _ => alone
    ended := fun _ => alone
    followed := fun following => absurd (sharing.followed following) unready
    fresh := fun following => absurd (sharing.followed (.inl following)) unready
    ongoing := by obtain rfl | rfl := next <;> nofun
    stopped := by obtain rfl | rfl := next <;> nofun
    caughtUp := fun following => absurd (sharing.followed (.inr following)) unready
    unchanged := by
      obtain rfl | rfl := next
      · nofun
      · exact fun _ _ => read rfl
    current := fun following => absurd (sharing.followed (.inl following)) unready }

/-- How registering goes on, by the phase in which it is; a registration that was dropped meanwhile is given
up in whichever phase. -/
theorem pollRegister_registering (sharing : w.Sharing) : Registering w w.pollRegister := by
  unfold pollRegister
  split
  · split
    · exact .stays
    · exact .stays
    next unready live =>
      exact .ends unready live
  · split
    next phase =>
      have prepared := sharing.prepared (.inr phase) (.inr rfl) w.host.roots ⟨0, false⟩
        fun _ => rfl
      dsimp only
      rw [if_pos (by exact sharing.multi), openShared]
      dsimp only
      split
      next failure _ =>
        have kept : Course Session.Later { w with
            phase := .connecting, before := w.host.roots, changes := ⟨0, false⟩ } _ := .refl _
        have gone := prepared.notRegistered Phase.noConfusion Phase.noConfusion kept.toGrowth
          (.conversion failure)
        exact .rests (.inl phase) { gone with } rfl ⟨rfl, rfl, rfl⟩
      next =>
        exact awaitSharedConnection_registering { prepared with } rfl (.inl phase) ⟨rfl, rfl, rfl⟩
    next phase =>
      exact awaitSharedConnection_registering sharing phase (.inr phase) ⟨rfl, rfl, rfl⟩
    next n call phase => exact .awaits phase
    next openings phase => exact absurd phase (sharing.unjoined openings)
    next => exact .stays

/-- A shared session that has greeted its server waits for the answer, and all that is true of the client is
true of it then. -/
theorem Sharing.awaits {g : World} {folders : List WorkspaceFolder} {call : Nat}
    (sharing : w.Sharing) (phase : w.phase = .connecting) (attached : Attached none w v)
    (greeted : greet { v with shared := some w.sessions.length } w.sessions.length (some folders) =
      (.ok call, g)) : Sharing { g with phase := .greeting w.sessions.length call } := by
  have waiting := sharing.greeted phase attached call
  have course := greet_course (w := { v with shared := some w.sessions.length }) waiting.unarmed
    w.sessions.length (some folders)
  rw [greeted] at course
  exact waiting.of_course (course.phased _)

/-- Registering leaves all as it is, one case for each way in which it goes on. -/
theorem Registering.sharing (registering : Registering w v) (sharing : w.Sharing) : v.Sharing := by
  cases registering with
  | rests _ sharing _ _ => exact sharing
  | stays => exact sharing
  | ends unready live =>
    exact sharing.closed (sharing.idle unready) (.inl (sharing.unready unready live))
  | greets _ before phase _ attached _ greeted =>
    exact (before.awaits phase attached greeted).awaitSharedGreeting
  | awaits phase =>
    refine Sharing.awaitSharedGreeting ?_
    rw [← phase]
    exact sharing

/-! ## Moves -/

/-- Whether a move leaves it to the client to tell its servers of roots, and to its users to end it. -/
def Move.isTactful : Move → Bool
  | .arm _ => false
  | .request _ _ purpose => decide (purpose.method ≠ initializeMethod)
  | .notify _ method _ => decide (method ≠ FolderChange.method)
  | _ => true

/-- A request that its user drops is marked and its task is woken. No session is changed before that task's
next step. -/
theorem dropLastRequest_course {R : Session → Session → Prop} [Session.IsCourse R] (w : World)
    (label : String) : Course R w (w.dropLastRequest label) := by
  unfold dropLastRequest
  split
  next number _ =>
    have purposes : (w.requests.modify number PendingRequest.dropped).map PendingRequest.purpose =
        w.requests.map PendingRequest.purpose := by
      refine List.ext_getElem? fun place => ?_
      simp only [List.getElem?_map, List.getElem?_modify]
      by_cases here : number = place
      · cases w.requests[place]? <;> simp [here, PendingRequest.dropped]
      · simp [here]
    exact ⟨⟨rfl, rfl, id, purposes, fun {_ s} found =>
      ⟨s, found, Session.IsCourse.of_beside (.refl s)⟩⟩, rfl⟩
  next => exact .refl w

/-- When the host has new roots, there is something to look at, unless it tells of it no more. In both cases
the changes are not those of an unchanged host. -/
theorem setRoots_changes (w : World) (roots : List Url) :
    (w.setRoots roots).changes ≠ ⟨0, false⟩ := by
  intro quiet
  by_cases ended : w.changes.hasEnded = true
  · have same : w.changes = ⟨0, false⟩ := by
      simpa only [setRoots, wakeTasks, wake, ended, if_true] using quiet
    rw [same] at ended
    cases ended
  · simp [setRoots, wakeTasks, wake, ended] at quiet

/-- When the host tells of its roots no more, that is a change as well: the one who follows them has to hear
of it. -/
theorem endStreams_changes (w : World) : w.endStreams.changes ≠ ⟨0, false⟩ :=
  fun quiet => absurd (congrArg Changes.hasEnded quiet) Bool.false_ne_true.symm

/-- When the client is ended, its session is disposed. Once it is noted that there is no client any more,
that goes along the course of the world. -/
theorem Sharing.endClient_course (sharing : w.Sharing) :
    Course Session.Beside
      { w with phase := .over, following := .over, entries := [], shared := none } w.endClient := by
  have disposed (h : Hosted) : Hosted.Course Session.Beside h h.dispose :=
    (Hosted.dispose_beside h).course
  simp only [endClient, sharing.untracked, List.foldl_nil]
  split
  next n _ =>
    refine .trans ?_ (note_course ..)
    exact (onSession_course (fun h => ((), h.dispose)) disposed (by exact sharing.unarmed) n ()).1
  next => exact note_course ..

namespace Sharing

/-- A sweep leaves all as it is. What the client shares it holds, so that only other sessions are released.
-/
theorem sweep (sharing : w.Sharing) : Sharing w.sweep := by
  have swept := w.sweep_swept
  have released : Sharing w.releaseEntries := by
    unfold releaseEntries
    split
    · exact sharing
    · exact { sharing with untracked := rfl }
  refine released.of_grown swept.toGrowth fun n shared => ?_
  obtain ⟨s, found, held⟩ := released.present n shared
  refine ⟨s, swept.kept found ⟨fun _ => ?_, fun _ => held⟩, held⟩
  simp [holds, tracks, shared]

/-- The end of the client leaves all as it is. It only ends when nobody visits, so that nothing is lent that
would have to be given back. -/
theorem shutdown (sharing : w.Sharing) : Sharing w.shutdownIfPossible := by
  obtain same | ⟨-, idle, same⟩ := w.shutdownIfPossible_cases
  · rw [same]
    exact sharing
  · have closed := sharing.closed idle (.inr rfl)
    have gone : Sharing { w with
        phase := .over, following := .over, entries := [], shared := none } :=
      { closed with untracked := rfl }
    rw [same]
    exact gone.of_course (sharing.endClient_course.weaken Session.Beside.toLater)

/-- Without openings there is none to go on: where one session serves all roots, no root has one of its own.
-/
theorem pollOpening (sharing : w.Sharing) (task : Task) (number : Nat) :
    w.pollOpening task number = w := by
  refine pollOpening_of_none ?_ task
  rw [sharing.unopened]
  rfl

/-- New roots of the host leave all as it is, since they are looked at later and the change that waits says
so. -/
theorem setRoots (sharing : w.Sharing) (roots : List Url) : Sharing (w.setRoots roots) := by
  have loud := w.setRoots_changes roots
  refine { sharing with
    stopped := fun running stopped => ?_
    caughtUp := fun _ quiet => absurd quiet loud
    unchanged := fun _ quiet => absurd quiet loud
    current := fun _ quiet => absurd quiet loud }
  have ended := sharing.stopped running stopped
  simp only [World.setRoots, wakeTasks, wake, ended, if_true]

/-- The end of the host's news leaves all as it is. It changes in the sessions only what they hear of the
host. -/
theorem endStreams (sharing : w.Sharing) : Sharing w.endStreams := by
  have loud := w.endStreams_changes
  refine { sharing with
    present := fun n shared => ?_
    stopped := fun _ _ => rfl
    caughtUp := fun _ quiet => absurd quiet loud
    unchanged := fun _ quiet => absurd quiet loud
    current := fun _ quiet => absurd quiet loud }
  obtain ⟨s, found, held⟩ := sharing.present n shared
  refine ⟨s.hearNoMore, ?_, held⟩
  exact (List.getElem?_map ..).trans (congrArg (Option.map Session.hearNoMore) found)

/-- A registration leaves all as it is: it lets a client start that was not there yet, and otherwise does
nothing. -/
theorem registerOnce (sharing : w.Sharing) (label : String) : Sharing (w.registerOnce label) := by
  unfold World.registerOnce
  split
  next phase =>
    have prepared := sharing.prepared (.inl phase) (.inl rfl) w.before w.changes nofun
    exact { prepared with }
  next => exact sharing

/-- A visit that begins leaves all as it is. It has borrowed nothing, and it begins only where the client
runs. -/
theorem visit (sharing : w.Sharing) (label : String) (root : Url) :
    Sharing ((w.visit label root).getD w) := by
  unfold World.visit
  split
  · exact sharing
  next running =>
    refine { sharing with visits := ?_, idle := fun idle => absurd idle running, counted := ?_ }
    · intro visit member
      obtain member | member := List.mem_append.mp member
      · exact sharing.visits visit member
      · cases List.mem_singleton.mp member
        trivial
    · intro other
      have before := sharing.counted other
      simpa [borrowings, wakeTasks, wake, List.countP_append, VisitStage.borrows] using before

/-- What the host makes of a visit leaves all as it is, since the stage of the visit is the same before its
next step. -/
theorem judge (sharing : w.Sharing) (number : Nat) (outcome : Outcome) :
    Sharing (w.judge number outcome) := by
  unfold World.judge
  split
  · have judged := sharing.modify_visits number (Visit.decided · outcome) fun _ => rfl
    exact { judged with }
  · exact sharing

/-- A request of a user leaves all as it is, unless it is a greeting: only the client greets its servers. -/
theorem spawnRequest (sharing : w.Sharing) (label : String) (n : Nat) {purpose : Purpose}
    (quiet : purpose.method ≠ initializeMethod) : Sharing (w.spawnRequest label n purpose) := by
  refine { sharing with asks := fun request member => ?_ }
  obtain member | member := List.mem_append.mp member
  · exact sharing.asks request member
  · cases List.mem_singleton.mp member
    exact quiet

/-- A user who drops calls leaves all as it is: visits and requests are marked, and a registration that is
dropped ends at its next step. -/
theorem drop (sharing : w.Sharing) (label : String) : Sharing (w.drop label) := by
  have visited : Sharing (w.dropLastVisit label) := by
    unfold dropLastVisit
    split
    next number _ =>
      have dropped := sharing.modify_visits number Visit.dropped fun _ => rfl
      exact { dropped with }
    next => exact sharing
  have requested := visited.of_course (dropLastRequest_course (w.dropLastVisit label) label)
  rw [drop_eq]
  unfold dropRegistering
  split
  · exact requested
  · exact requested
  · exact requested
  · split
    · exact { requested with }
    · exact requested

/-- Every tactful move leaves all as it is. The moves that concern the roots, the visits or the client
itself have each been considered, and all others go along the course of the world. -/
theorem after (sharing : w.Sharing) {move : Move} (tactful : move.isTactful = true) :
    Sharing (w.after move) := by
  cases minor : move.isMinor with
  | true => exact sharing.of_course (after_course sharing.unarmed w.asks_later minor)
  | false =>
    cases move with
    | poll task =>
      cases task with
      | opening number =>
        have same : w.after (.poll (.opening number)) = w := sharing.pollOpening ..
        rw [same]
        exact sharing
      | reconciler => exact sharing.pollReconciler
      | register => exact w.pollRegister_registering sharing |>.sharing sharing
      | visit number => exact (pollVisit_visiting sharing number).sharing sharing
      | _ => cases minor
    | sweep => exact sharing.sweep
    | roots roots => exact sharing.setRoots roots
    | endStreams => exact sharing.endStreams
    | register label => exact sharing.registerOnce label
    | shutdown => exact sharing.shutdown
    | visit label root => exact sharing.visit label root
    | verdict number outcome => exact sharing.judge number outcome
    | request label n purpose => exact sharing.spawnRequest label n (of_decide_eq_true tactful)
    | notify n method params =>
      exact sharing.of_course (notifyIfPossible_course
        (fun sent => .of_connection (Connection.send_later sent)) w n params)
    | drop label => exact sharing.drop label
    | stopReading n => exact sharing.of_course (stopReading_course w n)
    | arm => cases tactful
    | _ => cases minor

end Sharing

/-- A client of several roots shares its session at all times, by induction on the moves. -/
theorem run_sharing {options : ClientOptions} (multi : options.config.isMultiRoot = true)
    {moves : List Move} (tactful : ∀ move ∈ moves, move.isTactful = true) :
    Sharing ((start options).run moves) :=
  run_induction Sharing (fun _ _ tactful sharing => sharing.after tactful) tactful
    (start_sharing multi)

end World

end LanguageClient
