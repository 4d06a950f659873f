import LanguageClient.Proofs.Roots.Charge
import LanguageClient.Proofs.Teardown.Parting

/-!
# Sessions that were disposed

A session that was disposed has nothing from the host any more: each of its providers was withdrawn once,
each of its reporters was completed once, and no visible view shows anything of it (`World.Clears`). From
then on, whatever happens, it gets nothing new, nothing is drawn for it and nothing is sent to its server
(`World.Rests`). This holds after every run in which the host does not end the client from inside a
callback (`World.run_tearsDown`).

A host that does so while a session draws is called back by a task that the disposing ends, and the task
goes on to draw what else has arrived (`World.run_draws_on`).
-/

namespace LanguageClient

variable {options : ClientOptions} {turn : Turn} {past told told' : List HostEvent} {n m : Nat}

namespace Host

variable {host host' host'' : Host}

/-- What happens on the host apart from one session, of which those who watch were told some. -/
structure Bypasses (n : Nat) (told : List HostEvent) (host host' : Host) : Prop where
  provided : ∃ new, host'.provided = host.provided ++ new ∧ ∀ p ∈ new, p.session ≠ n
  reporters : ∃ more, host'.reporterSessions = host.reporterSessions ++ more
  events : ∃ news, told ++ host'.trace = host.trace ++ news ∧
    ∀ event ∈ news, ∃ m, m ≠ n ∧ host'.Concerns m event

/-- What neither installs a provider nor makes a reporter bypasses every session, if those who watch were
told just what has happened. -/
theorem Bypasses.of_eq (provided : host'.provided = host.provided)
    (reporters : host'.reporterSessions = host.reporterSessions)
    (trace : told ++ host'.trace = host.trace) : Bypasses n told host host' :=
  ⟨⟨[], provided.trans (List.append_nil _).symm, by simp⟩,
    ⟨[], reporters.trans (List.append_nil _).symm⟩,
    ⟨[], trace.trans (List.append_nil _).symm, by simp⟩⟩

/-- What two steps do apart from a session, both do apart from it. The events of the first concern other
sessions after the second as well, as reporters and views keep whom they are for. -/
theorem Bypasses.trans (first : Bypasses n told host host')
    (second : Bypasses n told' host' host'') : Bypasses n (told ++ told') host host'' := by
  obtain ⟨new, provided, others⟩ := first.provided
  obtain ⟨newer, provided', others'⟩ := second.provided
  obtain ⟨more, reporters⟩ := first.reporters
  obtain ⟨further, reporters'⟩ := second.reporters
  obtain ⟨news, events, concern⟩ := first.events
  obtain ⟨later, events', concern'⟩ := second.events
  refine ⟨⟨new ++ newer, ?_, ?_⟩, ⟨more ++ further, ?_⟩, ⟨news ++ later, ?_, ?_⟩⟩
  · rw [provided', provided, List.append_assoc]
  · intro p member
    rcases List.mem_append.mp member with member | member
    · exact others p member
    · exact others' p member
  · rw [reporters', reporters, List.append_assoc]
  · rw [List.append_assoc, events', ← List.append_assoc, events, List.append_assoc]
  · intro event member
    rcases List.mem_append.mp member with member | member
    · obtain ⟨m, apart, concerns⟩ := concern event member
      exact ⟨m, apart, concerns.mono reporters'⟩
    · exact concern' event member

/-- What the host does for another session. -/
theorem Serves.bypasses (serves : host.Serves m host') (apart : m ≠ n) :
    Bypasses n [] host host' := by
  obtain ⟨new, provided, mine⟩ := serves.provided
  obtain ⟨count, reporters⟩ := serves.reporters
  obtain ⟨news, trace, concerns⟩ := serves.trace
  refine ⟨⟨new, provided, ?_⟩, ⟨_, reporters⟩, ⟨news, trace, ?_⟩⟩
  · intro p member
    rw [mine p member]
    exact apart
  · exact fun event member => ⟨m, apart, concerns event member⟩

/-- Whether an event shows something of a session, or makes a reporter for it or tells one of its. -/
def IsAbout (host : Host) (n : Nat) : HostEvent → Prop
  | .reporterRefused _ => False
  | event => host.Concerns n event

/-- What concerns another session is not about this one. -/
theorem not_isAbout (apart : m ≠ n) {event : HostEvent} (concerns : host.Concerns m event) :
    ¬ host.IsAbout n event := by
  intro about
  cases event with
  | decorated kind view items =>
    have same : m + 1 = n + 1 := Eq.trans (Eq.symm concerns) about
    omega
  | reporterRefused => exact about
  | reporterCreated | reporter => exact apart (Option.some.inj (Eq.trans (Eq.symm concerns) about))

end Host

/-- A later state of a session that was disposed, of which the server was sent nothing. -/
structure Session.Rests (s t : Session) : Prop where
  disposed : t.isDisposed = true
  silent : t.connection.outgoing.waiting.Sublist s.connection.outgoing.waiting

/-- Who rests through one step and another rests through both. -/
theorem Session.Rests.trans {s t u : Session} (first : s.Rests t) (second : t.Rests u) :
    s.Rests u := ⟨second.disposed, second.silent.trans first.silent⟩

/-! ## The scene -/

namespace Scene

variable {c d : Scene} {s t : Session}

/-- A session that was disposed rests, and the host does nothing for it, whatever happens: every act of the
world that could do something for a session asks first whether it was disposed. -/
theorem Act.rests (balances : c.Balances past) (act : Act options turn c d)
    (found : c.sessions[n]? = some s) (disposed : s.isDisposed = true) :
    c.host.Bypasses n [] d.host ∧ ∃ t, d.sessions[n]? = some t ∧ s.Rests t := by
  have accounts := balances.accounts found
  obtain ⟨empty, -, finished⟩ := accounts.gone disposed
  refine ⟨?_, ?_⟩
  -- an act on the session itself leaves the host alone, and one on another session serves that one
  -- only
  · cases act with
    | @hosted h k before host act =>
      by_cases here : h.number = n
      · subst here
        cases found.symm.trans before
        have same := (act.host_of_disposed disposed empty).trans host
        exact .of_eq (by rw [same]) (by rw [same]) (congrArg Host.trace same)
      · have serves := (act.settles (balances.accounted before host)).serves
        rw [host] at serves
        exact serves.bypasses here
    | attach | hear => exact .of_eq rfl rfl rfl
    | host host same =>
      rw [same]
      exact .of_eq rfl rfl rfl
  · have inside := (List.getElem?_eq_some_iff.mp found).1
    have there := List.getElem?_eq_getElem (Nat.lt_of_lt_of_le inside act.length_le)
    refine ⟨_, there, ?_⟩
    rcases act.session_cases balances.quiet there with ⟨h, k, act, rfl, before, host, same, -⟩ |
      ⟨s', opened, ended, more, before, same, -⟩ | ⟨rfl, -⟩
    · cases found.symm.trans before
      rw [← same]
      have quiet : h.host.armed = [] := host ▸ balances.quiet
      -- the connection is over, and with it the writer: nothing can be sent any more
      have mute : h.session.connection.outgoing.hasWriter = false := by
        rw [accounts.neat.writer, finished]
        rfl
      refine ⟨?_, ((act.allows quiet).goes.silent mute).2⟩
      rcases act.keeps_or_disposes quiet with ⟨kept, -⟩ | ⟨⟨live, -⟩, -⟩
      · exact kept.trans disposed
      · exact absurd (live.symm.trans disposed) Bool.false_ne_true
    · cases found.symm.trans before
      rw [same]
      exact ⟨disposed, List.Sublist.refl _⟩
    · exact absurd inside (Nat.lt_irrefl _)

/-- Several acts leave a disposed session at rest, by induction on the acts, along which the books have to
balance. -/
theorem Acts.rests (balances : c.Balances past) (acts : Acts options turn c d)
    (found : c.sessions[n]? = some s) (disposed : s.isDisposed = true) :
    c.host.Bypasses n [] d.host ∧ ∃ t, d.sessions[n]? = some t ∧ s.Rests t := by
  have all := acts.induction (fun d => d.Balances past ∧ c.host.Bypasses n [] d.host ∧
    ∃ t, d.sessions[n]? = some t ∧ s.Rests t) ?_ balances.quiet
    ⟨balances, .of_eq rfl rfl rfl, s, found, disposed, List.Sublist.refl _⟩
  · exact all.2.2
  · rintro d e - act ⟨balances, bypasses, t, at_t, rests⟩
    obtain ⟨bypasses', u, at_u, rests'⟩ := act.rests balances at_t rests.disposed
    exact ⟨act.balances balances, bypasses.trans bypasses', u, at_u, rests.trans rests'⟩

end Scene

/-! ## Runs -/

namespace World

variable {w v : World} {s t : Session} {move : Move} {moves later : List Move}

/-- The session of a number was disposed and has sent nothing, and the host has done nothing for it, in one
move by which the host does not end the client. -/
theorem after_bypasses (lawful : w.IsLawful) (balances : w.scene.Balances past)
    (unarmed : move.isUnarmed = true) (found : w.sessions[n]? = some s)
    (disposed : s.isDisposed = true) :
    w.host.Bypasses n (w.told move) (w.after move).host ∧
      ∃ t, (w.after move).sessions[n]? = some t ∧ s.Rests t := by
  have acts (isAct : move.isAct = true) (untold : w.told move = []) :
      w.host.Bypasses n (w.told move) (w.after move).host ∧
        ∃ t, (w.after move).sessions[n]? = some t ∧ s.Rests t := by
    rw [untold]
    exact (after_steps lawful isAct).acts.rests balances found disposed
  have stays : s.Rests s := ⟨disposed, List.Sublist.refl _⟩
  cases move with
  | arm => cases unarmed
  | showView | hideView => exact ⟨.of_eq rfl rfl rfl, s, found, stays⟩
  | report => exact ⟨.of_eq rfl rfl (List.append_nil _), s, found, stays⟩
  | _ => exact acts rfl rfl

/-- In any run by which the host does not end the client a disposed session rests, by induction on the
moves. -/
theorem run_bypasses (lawful : w.IsLawful) (balances : w.scene.Balances past)
    (unarmed : ∀ move ∈ moves, move.isUnarmed = true) (found : w.sessions[n]? = some s)
    (disposed : s.isDisposed = true) :
    w.host.Bypasses n (w.toldAll moves) (w.run moves).host ∧
      ∃ t, (w.run moves).sessions[n]? = some t ∧ s.Rests t := by
  induction moves generalizing w s past with
  | nil => exact ⟨.of_eq rfl rfl rfl, s, found, disposed, List.Sublist.refl _⟩
  | cons move moves ih =>
    have first := unarmed move List.mem_cons_self
    obtain ⟨bypasses, t, at_t, rests⟩ := after_bypasses lawful balances first found disposed
    obtain ⟨bypasses', u, at_u, rests'⟩ := ih (after_isLawful lawful first)
      (after_balances lawful first balances)
      (fun later member => unarmed later (List.mem_cons_of_mem _ member)) at_t rests.disposed
    exact ⟨bypasses.trans bypasses', u, at_u, rests.trans rests'⟩

/-- Nothing is left of a session that was disposed: what it had was given back once, no view shows
anything of it, and its connection was let go once and waits for nothing. -/
structure Clears (w : World) (events : List HostEvent) (n : Nat) (s : Session) : Prop where
  providers : ∀ p ∈ w.host.provided, p.session = n → w.host.withdrawn.count p.number = 1
  reporters : ∀ reporter, w.host.reporterSession? reporter = some n →
    (completed events).count reporter = 1
  views : ∀ view ∈ w.host.views, shown events (n + 1) view.id = []
  hook : s.connection.hookRuns = 1
  idle : s.connection.isOver = true ∧ s.connection.pending = []

/-- Nothing comes of a session that was disposed, whatever happens later: it gets no provider, nothing is
drawn, no reporter is made or told anything, and its server is sent nothing. -/
structure Rests (w : World) (later : List Move) (n : Nat) (s : Session) : Prop where
  stays : ∃ t, (w.run later).sessions[n]? = some t ∧ s.Rests t
  provided : (w.run later).host.provided.filter (fun p => p.session = n) =
    w.host.provided.filter fun p => p.session = n
  events : ∃ news, w.toldAll later ++ (w.run later).host.trace = w.host.trace ++ news ∧
    ∀ event ∈ news, ¬ (w.run later).host.IsAbout n event

/-- Nothing is left of a session that was disposed: where the books balance, what it was given was given
back, what it has drawn was emptied, and its connection is over. -/
theorem Clears.of_balances (balances : w.scene.Balances past) (found : w.sessions[n]? = some s)
    (disposed : s.isDisposed = true) : w.Clears (past ++ w.host.trace) n s := by
  have accounts : s.Accounts _ n s.handling w.host := balances.accounts found
  obtain ⟨empty, unreported, finished⟩ := accounts.gone disposed
  have providers := accounts.providers
  have reporters := accounts.reporters
  rw [empty] at providers
  rw [unreported] at reporters
  refine ⟨?_, ?_, ?_, ?_, finished, accounts.neat.idle finished⟩
  · exact fun p member mine => providers.settled ⟨p, member, rfl, mine⟩
  · exact fun reporter mine => reporters.settled mine
  · intro view visible
    refine Decidable.byContradiction fun something => ?_
    have live := (accounts.bare view visible something).1
    exact absurd (live.symm.trans disposed) Bool.false_ne_true
  · rw [accounts.neat.hook, finished]
    rfl

/-- What bypasses a session brings it no provider and no event, so that it rests in the later run. -/
theorem Rests.of_bypasses (bypasses : w.host.Bypasses n (w.toldAll later) (w.run later).host)
    (stays : ∃ t, (w.run later).sessions[n]? = some t ∧ s.Rests t) : w.Rests later n s := by
  obtain ⟨new, provided, others⟩ := bypasses.provided
  obtain ⟨news, events, concern⟩ := bypasses.events
  refine ⟨stays, ?_, news, events, ?_⟩
  · have none : new.filter (fun p => p.session = n) = [] :=
      List.filter_eq_nil_iff.mpr fun p member => by simpa using others p member
    rw [provided, List.filter_append, none, List.append_nil]
  · intro event member
    obtain ⟨m, apart, concerns⟩ := concern event member
    exact Host.not_isAbout apart concerns

/-- However sessions come to be disposed, in every run in which the host does not end the client from
inside a callback: nothing is left of a session that was disposed, nothing comes of it later, and the move
that disposes it empties what it had drawn and fails what it waits for. -/
theorem run_tearsDown {options : ClientOptions} (unarmed : ∀ move ∈ moves, move.isUnarmed = true)
    (found : ((start options).run moves).sessions[n]? = some s) :
    let w := (start options).run moves
    (s.isDisposed = true → w.Clears ((start options).history moves) n s ∧
      ∀ later, (∀ move ∈ later, move.isUnarmed = true) → w.Rests later n s) ∧
    (s.isDisposed = false → ∀ move t, move.isUnarmed = true →
      (w.after move).sessions[n]? = some t → t.isDisposed = true → w.PartsWith move n s t) := by
  intro w
  obtain ⟨lawful, balances⟩ :=
    run_balances (start_isLawful options) (start_balances options) unarmed
  refine ⟨fun disposed => ⟨.of_balances balances found disposed, fun later unarmed => ?_⟩, ?_⟩
  · obtain ⟨bypasses, stays⟩ := run_bypasses lawful balances unarmed found disposed
    exact .of_bypasses bypasses stays
  · intro live move t unarmed found' disposed
    exact after_partsWith lawful balances unarmed found live found' disposed

/-! ## Samples -/

/-- A server publishes one diagnostic of a document. -/
def Sample.published (text : String) : Message :=
  let place (column : Int) : Json :=
    .obj [("character", .num (.int column)), ("line", .num (.int 0))]
  let diagnostic : Json :=
    .obj [("message", .str text), ("range", .obj [("end", place 1), ("start", place 0)])]
  .notification ⟨"2.0", PublishedDiagnostics.method,
    some (.obj [("diagnostics", .arr [diagnostic]), ("uri", .str "file:///here/a.ts")])⟩

/-- A session is open, whose server serves a feature, and a document of its root is visible. -/
def Sample.watched : List Move :=
  [.roots [⟨"file:///here"⟩], .register "client", .poll .register,
    .send 0 [.response ⟨"2.0", some (.number 1),
      some (.obj [("capabilities", .obj [("hoverProvider", .bool true)])]), none⟩],
    .poll (.reader 0), .poll .register, .showView ⟨"file:///here/a.ts"⟩]

/-- The server has published something and told of progress and is asked something when its root
goes. -/
def Sample.engaged : List Move :=
  Sample.watched ++
    [.send 0 [Sample.published "one",
      .notification ⟨"2.0", ProgressParams.method, some (.obj [("id", .str "token")])⟩],
    .poll (.reader 0), .poll (.diagnostics 0), .poll (.progress 0),
    .request "question" 0 (.plain "x/y" .null), .poll (.request 0), .roots []]

/-- The server goes on to publish something after that. -/
def Sample.belated : List Move :=
  [.send 0 [Sample.published "two"], .poll (.reader 0), .poll (.diagnostics 0)]

/-- The client looks at its roots, and the session goes. -/
def Sample.parted : List Move := Sample.engaged ++ [.poll .reconciler]

/-- In this run the host does not end the client from inside a callback. -/
theorem parted_unarmed : ∀ move ∈ Sample.parted, move.isUnarmed = true := by decide

/-- A session that has a provider, a reporter, something drawn and a question that waits is disposed when
its root goes. All of it is given back in that move, and nothing comes of it when its server publishes more.
-/
theorem run_tearsDown_removed :
    (∀ move ∈ Sample.parted, move.isUnarmed = true) ∧
      let w := (start Sample.single).run Sample.engaged
      let v := (start Sample.single).run Sample.parted
      ∃ s t, w.sessions[0]? = some s ∧ s.isDisposed = false ∧ s.connection.pending.length = 1 ∧
        s.diagnostics.length = 1 ∧ w.PartsWith (.poll .reconciler) 0 s t ∧
        v.sessions[0]? = some t ∧ t.isDisposed = true ∧
        v.Clears ((start Sample.single).history Sample.parted) 0 t ∧ v.Rests Sample.belated 0 t ∧
        v.host.provided.map Provider.number = [1] ∧ v.host.withdrawn = [1] ∧
        v.host.reporterSessions = [0] := by
  refine ⟨parted_unarmed, ?_⟩
  have engaged : ((start Sample.single).run Sample.engaged).sessions[0]?.map (fun s =>
      (s.isDisposed, s.connection.pending.length, s.diagnostics.length)) = some (false, 1, 1) := by
    decide
  have gone : ((start Sample.single).run Sample.parted).sessions[0]?.map Session.isDisposed =
      some true := by decide
  obtain ⟨s, found, facts⟩ := Option.map_eq_some_iff.mp engaged
  obtain ⟨t, found', disposed⟩ := Option.map_eq_some_iff.mp gone
  simp only [Prod.mk.injEq] at facts
  obtain ⟨live, pending, diagnostics⟩ := facts
  have last : (start Sample.single).run Sample.parted =
      ((start Sample.single).run Sample.engaged).after (.poll .reconciler) := run_append ..
  have unarmed : ∀ move ∈ Sample.engaged, move.isUnarmed = true :=
    fun move member => parted_unarmed move (List.mem_append_left _ member)
  have parts := (run_tearsDown unarmed found).2 live (.poll .reconciler) t rfl (last ▸ found') disposed
  obtain ⟨clears, rests⟩ := (run_tearsDown parted_unarmed found').1 disposed
  refine ⟨s, t, found, live, pending, diagnostics, parts, found', disposed, clears,
    rests Sample.belated (by decide), by decide, by decide, by decide⟩

/-- The host ends the client from inside the first callback by which the session draws, while more is to
be drawn. -/
def Sample.drawing : List Move :=
  Sample.watched ++ [.arm .setDecorations,
    .send 0 [Sample.published "one", Sample.published "two"], .poll (.reader 0),
    .poll (.diagnostics 0)]

/-- The session is disposed, and then something is drawn for it, which stays. -/
theorem run_draws_on :
    let w := (start Sample.single).run Sample.drawing
    w.isDisposed 0 = true ∧
      ∃ view ∈ w.host.views, shown ((start Sample.single).history Sample.drawing) 1 view.id ≠ [] := by
  decide

end World

end LanguageClient
