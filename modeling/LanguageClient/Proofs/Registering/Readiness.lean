import LanguageClient.Proofs.Registering.Catalogue
import LanguageClient.Proofs.World.Greeting
import Mathlib.Data.List.Induction
import Mathlib.Data.List.Infix

/-!
# Providers come after the greeting

Before the host gets a provider for a session, the server of the session has answered the greeting
well, and was told that the client is ready and of every document that the host has open under the
root. This holds of every provider that comes while the session is opened, at the very moment at which
it comes (`Hosted.Yields`), and of every provider that a server asks for after its session was open
(`World.HasOpened`), in every run and whatever the host does from inside its callbacks.

It does not hold of what a server asks for earlier. The session serves requests as soon as it is
attached to its connection, which is before it greets the server, so a server that asks before it
answers gets its provider.
-/

namespace LanguageClient

namespace World

variable {serving : Nat → Prop} {w v : World} {n : Nat}

/-! ## Requests in the background -/

/-- A request in the background goes onward: it is sent, waits, is answered or is dropped, and gives nobody
a provider. -/
theorem pollRequest_onward (orderly : w.IsOrderly) (number : Nat) :
    Onward serving w (w.pollRequest number) := by
  have awaited {v : World} (orderly : v.IsOrderly) (request : PendingRequest) (call : Nat) :
      Onward serving v (v.awaitResponse number request call) := by
    unfold awaitResponse
    split <;> exact orderly.aside rfl rfl rfl rfl rfl rfl rfl rfl
  unfold pollRequest
  split
  · exact .refl orderly
  next request _ =>
    split
    · have ended {v : World} (left : Onward serving w v) :
          Onward serving w (v.setRequest number .over) :=
        left.trans (left.orderly.aside rfl rfl rfl rfl rfl rfl rfl rfl)
      unfold dropRequest
      dsimp only
      split
      · exact ended (onConnection_onward orderly (fun _ => Connection.abandon_onward _) _)
      · exact ended (.refl orderly)
    · split
      · unfold sendRequest
        split
        · exact orderly.aside rfl rfl rfl rfl rfl rfl rfl rfl
        · exact orderly.aside rfl rfl rfl rfl rfl rfl rfl rfl
        next method params session _ found =>
          have asked : Onward serving w _ := put_onward orderly found
            (Connection.request_onward method params)
          exact asked.trans (awaited asked.orderly ..)
      · exact awaited orderly ..
      · exact .refl orderly

/-! ## Sweeping -/

/-- Releasing what nobody holds withdraws providers and brings none. It goes over all sessions twice, first
for the sessions themselves and then for their connections. -/
theorem sweep_onward (orderly : w.IsOrderly) : Onward serving w w.sweep := by
  have kept : Onward serving w w.releaseEntries := by
    unfold releaseEntries
    split
    · exact .refl orderly
    · exact orderly.aside rfl rfl rfl rfl rfl rfl rfl rfl
  have releases {v : World} (orderly : v.IsOrderly) (n : Nat) :
      Onward serving v (v.releaseSession n) := by
    unfold releaseSession
    split
    · exact .refl orderly
    · split
      · exact during_onward orderly n fun h _ => h.release_onward
      · exact .refl orderly
  have closes {v : World} (orderly : v.IsOrderly) (n : Nat) :
      Onward serving v (v.releaseConnection n) := by
    unfold releaseConnection
    split
    · exact .refl orderly
    · split
      · exact onConnection_onward orderly (fun _ => Connection.release_onward) n
      · exact .refl orderly
  have released := kept.trans (foldl_onward releases kept.orderly (List.range w.sessions.length))
  exact released.trans (foldl_onward closes released.orderly _)

/-! ## Moves -/

/-- What a move leaves, also one by which the host opens a document, or by which a server reads no
more. -/
structure Follows (serving : Nat → Prop) (w v : World) : Prop where
  options : v.options = w.options
  documents : w.host.documents <+: v.host.documents
  provided : ∀ p ∈ v.host.provided, p ∈ w.host.provided ∨ serving p.session ∨ Installs w v p
  opened : ∀ {n : Nat}, v.HasOpened n → w.HasOpened n ∨ v.HasGreeted n
  orderly : v.IsOrderly

/-- What goes onward follows, as its documents are the same. -/
theorem Onward.follows (onward : Onward serving w v) : Follows serving w v :=
  ⟨onward.options, onward.documents ▸ List.prefix_refl _, onward.provided, onward.opened,
    onward.orderly⟩

/-- Every task goes onward. Only the task of a job may bring providers that were asked for. -/
theorem poll_onward (orderly : w.IsOrderly) (task : Task) :
    Onward (fun n => ∃ job, Move.poll task = .poll (.job n job)) w (w.poll task) := by
  cases task with
  | reader n => exact onConnection_onward orderly (fun _ => Connection.read_onward) n
  | job n job =>
    refine during_onward orderly n fun h here => ?_
    exact h.runJob_onward (fun _ => ⟨job, by rw [here]⟩) _ job
  | log n => exact whileActive_onward orderly n fun h => h.forwardLog_onward
  | diagnostics n => exact whileActive_onward orderly n fun h => h.followDiagnostics_onward _
  | progress n => exact whileActive_onward orderly n fun h => h.followProgress_onward
  | watcher n =>
    refine whileActive_onward orderly n fun h => ?_
    split
    · exact h.dispose_onward
    · exact .refl h
  | opening n => exact pollOpening_onward orderly (.opening n) n
  | reconciler => exact pollReconciler_onward orderly
  | register => exact pollRegister_onward orderly
  | visit n => exact pollVisit_onward orderly n
  | request n => exact pollRequest_onward orderly n

/-- Dropping a visit, a request or the registering marks it as dropped, and its task deals with it later. -/
theorem drop_onward (orderly : w.IsOrderly) (label : String) :
    Onward serving w (w.drop label) := by
  have first : Onward serving w (w.dropLastVisit label) := by
    unfold dropLastVisit
    split
    next number _ =>
      have dropped : Onward serving w { w with visits := w.visits.modify number Visit.dropped } :=
        changeVisit_onward orderly number .inl fun _ => .inl
      exact dropped.trans (dropped.orderly.aside rfl rfl rfl rfl rfl rfl rfl rfl)
    · exact .refl orderly
  have second : Onward serving (w.dropLastVisit label)
      ((w.dropLastVisit label).dropLastRequest label) := by
    unfold dropLastRequest
    split
    · exact first.orderly.aside rfl rfl rfl rfl rfl rfl rfl rfl
    · exact .refl first.orderly
  rw [drop_eq]
  refine first.trans (second.trans ?_)
  unfold dropRegistering
  split
  · exact .refl second.orderly
  · exact .refl second.orderly
  · exact .refl second.orderly
  · split
    · exact second.orderly.aside rfl rfl rfl rfl rfl rfl rfl rfl
    · exact .refl second.orderly

/-- A visit is asked for, and not begun yet. It has no session, and so no opened one either. -/
theorem visit_onward (orderly : w.IsOrderly) (label : String) (root : Url) :
    Onward serving w ((w.visit label root).getD w) := by
  unfold visit
  split
  · exact .refl orderly
  · have old {visit : Visit} (member : visit ∈ w.visits ++ [⟨label, root, .unstarted, none, false⟩])
        (begun : visit.stage ≠ .unstarted) : visit ∈ w.visits := by
      rcases List.mem_append.mp member with before | new
      · exact before
      · exact absurd (congrArg Visit.stage (List.mem_singleton.mp new)) begun
    refine orderly.staged rfl rfl rfl ?_ ?_ orderly.phase
    · rintro n call (others | ⟨visit, member, stage⟩ | others)
      · exact .inl (.inl others)
      · exact .inl (.inr (.inl ⟨visit, old member (by rw [stage]; rintro ⟨⟩), stage⟩))
      · exact .inl (.inr (.inr others))
    · rintro n (others | ⟨single, visit, member, loan, stage⟩ | others)
      · exact .inl (.inl others)
      · exact .inl (.inr (.inl
          ⟨single, visit, old member (by rw [stage]; rintro ⟨⟩), loan, stage⟩))
      · exact .inl (.inr (.inr others))

/-- A client that is registered has done nothing yet. -/
theorem registerOnce_onward (orderly : w.IsOrderly) (label : String) :
    Onward serving w (w.registerOnce label) := by
  unfold registerOnce
  split
  · have begun : Onward serving w { w with phase := .starting, shared := w.shared } :=
      phased_onward orderly ⟨orderly.phase.1, trivial⟩ (by rintro _ _ ⟨⟩) (by rintro _ ⟨⟩)
    exact begun.trans (begun.orderly.aside rfl rfl rfl rfl rfl rfl rfl rfl)
  · exact .refl orderly

/-- A visitor that comes to an end changes its own visit only. -/
theorem judge_onward (orderly : w.IsOrderly) (number : Nat) (outcome : Outcome) :
    Onward serving w (w.judge number outcome) := by
  unfold judge
  split
  · have decided : Onward serving w
        { w with visits := w.visits.modify number (Visit.decided · outcome) } :=
      changeVisit_onward orderly number .inl fun _ => .inl
    exact decided.trans (decided.orderly.aside rfl rfl rfl rfl rfl rfl rfl rfl)
  · exact .refl orderly

/-- Every session hears of something that the host does. -/
theorem map_onward {change : Session → Session} (each : ∀ s : Session, s.Onward (change s))
    {n : Nat} {s : Session} (found : w.sessions[n]? = some s) :
    ∃ t, (w.sessions.map change)[n]? = some t ∧ s.Onward t :=
  ⟨change s, (List.getElem?_map ..).trans (congrArg (Option.map change) found), each s⟩

/-- Every move follows, which is the step lemma of the module. Most of them go onward; a document that is
opened is one more, and a server that reads no more loses what was said to it, while the calls on its
connection are there still. -/
theorem after_follows (orderly : w.IsOrderly) (move : Move) :
    Follows (fun n => ∃ job, move = .poll (.job n job)) w (w.after move) := by
  cases move with
  | poll task => exact (poll_onward orderly task).follows
  | sweep => exact (sweep_onward orderly).follows
  | addDocument document =>
    exact ⟨rfl, List.prefix_append .., fun _ => .inl, .inl,
      .of_eq (w := w) rfl rfl rfl rfl rfl orderly fun found greets => ⟨_, found, greets⟩⟩
  | openDocument document =>
    refine ⟨rfl, List.prefix_append .., fun _ => .inl, .inl,
      .of_eq (w := w) rfl rfl rfl rfl rfl orderly fun found greets => ?_⟩
    obtain ⟨t, found, later⟩ := map_onward Session.Onward.hearOfDocument found
    exact ⟨t, found, greets.onward later⟩
  | endStreams =>
    refine Onward.follows (.unstaged rfl rfl rfl rfl rfl orderly rfl ?_ fun _ => .inl)
    exact map_onward fun s => (⟨rfl, .refl _⟩ : s.Onward s.hearNoMore)
  | roots | showView | hideView | holdConnections | releaseConnections | refuseConnections
  | holdReporters | releaseReporters | refuseReporters | arm | request | report =>
    refine Onward.follows ?_
    exact orderly.aside rfl rfl rfl rfl rfl rfl rfl rfl
  | register label => exact (registerOnce_onward orderly label).follows
  | shutdown =>
    change Follows _ w w.shutdownIfPossible
    rcases w.shutdownIfPossible_cases with same | ⟨-, -, ended⟩
    · rw [same]
      exact (Onward.refl orderly).follows
    · rw [ended]
      exact (endClient_onward orderly).follows
  | visit label root => exact (visit_onward orderly label root).follows
  | verdict number outcome => exact (judge_onward orderly number outcome).follows
  | notify number method params =>
    change Follows _ w (w.notifyIfPossible number method params)
    rcases w.notifyIfPossible_cases number method params with
      same | ⟨s, connection, found, told, sent⟩
    · rw [same]
      exact (Onward.refl orderly).follows
    · rw [sent]
      exact (put_onward orderly found (Connection.send_onward told)).follows
  | drop label => exact (drop_onward orderly label).follows
  | send number messages =>
    exact (onConnection_onward orderly
      (fun c => Connection.foldl_onward (fun _ => Connection.arrive_onward) messages c) _).follows
  | hangUp number =>
    exact (onConnection_onward orderly (fun _ => Connection.hangUp_onward) _).follows
  | stopReading number =>
    change Follows _ w (w.onConnection number Connection.stopReading)
    unfold onConnection
    split
    · exact (Onward.refl orderly).follows
    next s found =>
      -- What was said is lost with the server that read it, but the calls are there still.
      refine ⟨rfl, List.prefix_refl _, fun _ => .inl, .inl,
        .of_eq (w := w) rfl rfl rfl rfl rfl orderly fun {n t} before greets => ?_⟩
      by_cases here : number = n
      · subst here
        cases found.symm.trans before
        exact ⟨_, List.getElem?_set_self (List.getElem?_eq_some_iff.mp found).1, greets⟩
      · exact ⟨t, (List.getElem?_set_ne here).trans before, greets⟩

/-! ## Runs -/

/-- A world without a client is orderly, as nothing goes on in it. -/
theorem start_isOrderly (options : ClientOptions) : (start options).IsOrderly := by
  refine ⟨?_, fun _ => rfl, trivial⟩
  rintro n call (⟨_, ⟨⟩, -⟩ | ⟨_, ⟨⟩, -⟩ | waits)
  cases waits

section Runs

variable {options : ClientOptions} {moves : List Move}

/-- A run with one more move at its end, for the inductions from the last move. -/
theorem run_concat (w : World) (moves : List Move) (move : Move) :
    w.run (moves ++ [move]) = (w.run moves).after move := run_append ..

/-- Every run from the start is orderly, and has the options that it began with. -/
theorem run_isOrderly (options : ClientOptions) (moves : List Move) :
    ((start options).run moves).IsOrderly ∧ ((start options).run moves).options = options := by
  induction moves using List.reverseRecOn with
  | nil => exact ⟨start_isOrderly options, rfl⟩
  | append_singleton moves move ih =>
    rw [run_concat]
    have follows := after_follows ih.1 move
    exact ⟨follows.orderly, follows.options.trans ih.2⟩

/-- The host closes no document. -/
theorem run_documents (options : ClientOptions) {early : List Move} (first : early <+: moves) :
    ((start options).run early).host.documents <+: ((start options).run moves).host.documents := by
  obtain ⟨later, rfl⟩ := first
  induction later using List.reverseRecOn with
  | nil =>
    rw [List.append_nil]
  | append_singleton later move ih =>
    rw [← List.append_assoc, run_concat]
    exact ih.trans (after_follows (run_isOrderly options _).1 move).documents

/-- A session that is open had its server greeted before: there is a moment of the run at which the server
had been told of all documents that were there then. -/
theorem run_greeted {n : Nat} (opened : ((start options).run moves).HasOpened n) :
    ∃ before, before <+: moves ∧ ((start options).run before).HasGreeted n := by
  induction moves using List.reverseRecOn with
  | nil =>
    obtain (⟨_, ⟨⟩, -⟩ | ⟨-, _, ⟨⟩, -⟩ | ⟨running, -⟩) := opened
    cases running
  | append_singleton moves move ih =>
    rw [run_concat] at opened
    rcases (after_follows (run_isOrderly options moves).1 move).opened opened with known | greeted
    · obtain ⟨before, first, greeted⟩ := ih known
      exact ⟨before, first.trans (List.prefix_append ..), greeted⟩
    · exact ⟨moves ++ [move], List.prefix_refl _, run_concat .. ▸ greeted⟩

end Runs

/-- Whether a session is at a state in which its server has answered the greeting well and was told that
the client is ready, and of every document that the host had at some time of a run. -/
def GreetedBy (options : ClientOptions) (moves : List Move) (s : Session) : Prop :=
  ∀ early, early <+: moves →
    s.IsGreeted options.rewriter ((start options).run early).host.documents

/-- Whether all was said to the server of a session before a move gives the host a provider for it: by
the end of an earlier run, or else, for a feature that the server advertises, by the moment within the
move at which the session registers it. -/
def ProvidesGreeted (options : ClientOptions) (moves : List Move) (move : Move) (p : Provider) :
    Prop :=
  (∃ before s, before <+: moves ∧ ((start options).run before).sessions[p.session]? = some s ∧
    GreetedBy options before s) ∨
  ∃ (h : Hosted) (answer : Json) (t : Session), h.Yields options p answer ∧
    GreetedBy options moves h.session ∧
    (∀ s, ((start options).run moves).sessions[p.session]? = some s → s.Onward h.session) ∧
    (((start options).run moves).after move).sessions[p.session]? = some t ∧
    (h.installStatic options answer).session.Onward t

/-- Unless a server asks for it before its session is open, the host gets a provider only after all was
said to the server. -/
theorem run_provides_greeted {options : ClientOptions} {moves : List Move} {move : Move}
    {p : Provider} (fresh : p ∉ ((start options).run moves).host.provided)
    (provided : p ∈ (((start options).run moves).after move).host.provided)
    (patient : ∀ job, move = .poll (.job p.session job) →
      ∃ before, before <+: moves ∧ ((start options).run before).HasOpened p.session) :
    ProvidesGreeted options moves move p := by
  obtain ⟨orderly, same⟩ := run_isOrderly options moves
  rcases (after_follows orderly move).provided p provided with known | ⟨job, asked⟩ |
    ⟨h, answer, t, yields, documents, since, found, until_⟩
  · exact absurd known fresh
  · obtain ⟨opening, first, opened⟩ := patient job asked
    obtain ⟨before, earlier, s, found, greeted⟩ := run_greeted opened
    refine .inl ⟨before, s, earlier.trans first, found, fun early within => ?_⟩
    rw [(run_isOrderly options before).2] at greeted
    exact greeted.of_start (run_documents options within)
  · rw [same] at yields until_
    refine .inr ⟨h, answer, t, yields, fun early within => ?_, since, found, until_⟩
    exact yields.greeted.of_start (documents ▸ run_documents options within)

/-- The host has a document when a session is opened for its root. The server answers the greeting and
then asks for a feature. -/
def Sample.asking : List Move :=
  [.addDocument ⟨⟨"file:///here/a.ts"⟩, "typescript", "x"⟩, .roots [⟨"file:///here"⟩],
    .register "client", .poll .register,
    .send 0 [.response ⟨"2.0", some (.number 1), some (.obj []), none⟩],
    .poll (.reader 0), .poll .register,
    .send 0 [Sample.request 1 registerMethod "registrations"
      [Sample.registration "a" "textDocument/definition" .null]],
    .poll (.reader 0)]

/-- The session was opened before its server asked. -/
theorem asking_opened : ((start Sample.single).run Sample.asking).HasOpened 0 :=
  .inl ⟨_, List.mem_cons_self, rfl⟩

/-- The one provider that there is, where there was none. -/
theorem exists_provided {n : Nat} (before : w.host.provided = [])
    (after : v.host.provided.map Provider.session = [n]) :
    ∃ p, p ∉ w.host.provided ∧ p ∈ v.host.provided ∧ p.session = n := by
  have there : n ∈ v.host.provided.map Provider.session := by rw [after]; exact List.mem_cons_self
  obtain ⟨p, member, mine⟩ := List.mem_map.mp there
  exact ⟨p, by rw [before]; exact List.not_mem_nil, member, mine⟩

/-- The server was greeted, and heard of the document, before it got the provider that it asked for. -/
theorem run_provides_greeted_asked : ∃ p,
    p ∉ ((start Sample.single).run Sample.asking).host.provided ∧
    p ∈ (((start Sample.single).run Sample.asking).after (.poll (.job 0 0))).host.provided ∧
    (∃ before, before <+: Sample.asking ∧ ((start Sample.single).run before).HasOpened p.session) ∧
    ProvidesGreeted Sample.single Sample.asking (.poll (.job 0 0)) p := by
  obtain ⟨p, fresh, member, mine⟩ := exists_provided
    (w := (start Sample.single).run Sample.asking)
    (v := ((start Sample.single).run Sample.asking).after (.poll (.job 0 0)))
    (n := 0) (by decide) (by decide)
  have opened : ∃ before, before <+: Sample.asking ∧
      ((start Sample.single).run before).HasOpened p.session :=
    ⟨Sample.asking, List.prefix_refl _, mine ▸ asking_opened⟩
  exact ⟨p, fresh, member, opened, run_provides_greeted fresh member fun _ _ => opened⟩

/-- A session is opened for a root, and its server asks for a feature before it answers the greeting. -/
def Sample.hasty : List Move :=
  [.roots [⟨"file:///here"⟩], .register "client", .poll .register,
    .send 0 [Sample.request 1 registerMethod "registrations"
      [Sample.registration "a" "textDocument/definition" .null]],
    .poll (.reader 0)]

/-- The host gets the provider, while nobody has answered the greeting: the request came in before the
answer, and its job is served as soon as it is polled. -/
theorem run_provides_ungreeted : ∃ p,
    p ∉ ((start Sample.single).run Sample.hasty).host.provided ∧
    p ∈ (((start Sample.single).run Sample.hasty).after (.poll (.job 0 0))).host.provided ∧
    ¬ ProvidesGreeted Sample.single Sample.hasty (.poll (.job 0 0)) p := by
  obtain ⟨p, fresh, member, mine⟩ := exists_provided
    (w := (start Sample.single).run Sample.hasty)
    (v := ((start Sample.single).run Sample.hasty).after (.poll (.job 0 0)))
    (n := 0) (by decide) (by decide)
  have unanswered : ∀ before ∈ Sample.hasty.inits ++ [Sample.hasty ++ [.poll (.job 0 0)]],
      ((start Sample.single).run before).outcome? 0 0 = none := by decide
  refine ⟨p, fresh, member, ?_⟩
  rw [ProvidesGreeted, mine]
  rintro (⟨before, s, first, found, greeted⟩ | ⟨h, answer, t, yields, -, -, found, until_⟩)
  · obtain ⟨call, answer, at_first, -, answered⟩ := (greeted before (List.prefix_refl _)).answered
    have pending := unanswered before
      (List.mem_append_left _ (List.mem_inits before Sample.hasty |>.mpr first))
    simp only [outcome?, found, Connection.outcome?, at_first, answered, Option.bind_eq_bind,
      Option.bind_some, reduceCtorEq] at pending
  · have installed := h.installStatic_onward (fun _ => trivial) Sample.single answer
    have answered := (installed.session.trans until_).connection.outcome? yields.answered
    have pending := unanswered _ (List.mem_append_right _ (List.mem_singleton_self _))
    rw [run_concat, outcome?, found, Option.bind_eq_bind, Option.bind_some, answered] at pending
    cases pending

end World

end LanguageClient
