import LanguageClient.Proofs.Session.Accounts

/-!
# Every act keeps the accounts

Drawing, progress and disposing, act by act, and then `Hosted.Act.settles` for all acts: the accounts of
the session are kept, and the host did something for this session only. A session that was disposed
does nothing to the host any more.
-/

namespace LanguageClient

namespace Host

variable {host : Host} {session reporter : Nat} {title : Option String}

/-- The host after it has answered one who asked for a reporter. -/
def answered (host : Host) (stance : Stance) (sessions : List Nat) (trace : List HostEvent) : Host :=
  { host with reporters := stance, reporterSessions := sessions, trace }

/-- The host with one more reporter, made for a session. -/
def withReporter (host : Host) (session : Nat) (title : Option String) : Host :=
  { host with reporterSessions := host.reporterSessions ++ [session] }.record
    [.reporterCreated (host.reporterSessions.length + 1) title]

/-- What comes of asking the host for a reporter: it answers later, it refuses, or it makes one under the
next number. Nothing else of the host changes in any of these. -/
theorem createReporter_cases (host : Host) (session : Nat) (title : Option String) :
    host.createReporter session title = (.later, host.await session) ∨
      (∃ stance, host.createReporter session title = (.refused unavailable,
        host.answered stance host.reporterSessions (host.trace ++ [.reporterRefused title]))) ∨
      host.createReporter session title =
        (.created (host.reporterSessions.length + 1), host.withReporter session title) := by
  unfold createReporter
  split
  · exact .inl rfl
  · split
    · exact .inr (.inl ⟨_, rfl⟩)
    · exact .inr (.inr rfl)

/-- The reporters of a session when one more was made for it are those that it had, and the one of the next
number. -/
theorem reporterSession?_withReporter :
    (host.withReporter session title).reporterSession? reporter = some session ↔
      host.reporterSession? reporter = some session ∨
        reporter = host.reporterSessions.length + 1 := by
  cases reporter with
  | zero => simp [reporterSession?]
  | succ place =>
    simp only [reporterSession?, withReporter, record, Nat.add_right_cancel_iff]
    rw [List.getElem?_append]
    split
    next inside =>
      constructor
      · exact .inl
      · rintro (known | rfl)
        · exact known
        · omega
    next beyond =>
      have none : host.reporterSessions[place]? = none := List.getElem?_eq_none (by omega)
      rw [none, List.getElem?_singleton]
      by_cases last : place = host.reporterSessions.length
      · simp [last]
      · rw [if_neg (by omega)]
        simp [last]

end Host

namespace Hosted

variable {options : ClientOptions} {turn : Turn} {h k : Hosted} {past : List HostEvent}
  {busy : Option Nat}

/-! ## Drawing -/

/-- A document with something to draw has diagnostics. So what is drawn is about a document that the session
has on record. -/
theorem mem_of_diagnosticsOf {s : Session} {document : Url}
    (something : ((s.diagnosticsOf document).getD []).map Diagnostic.decoration ≠ []) :
    document ∈ s.diagnostics.map Prod.fst := by
  unfold Session.diagnosticsOf at something
  cases found : s.diagnostics.lookup document with
  | none =>
    rw [found] at something
    exact absurd rfl something
  | some diagnostics => exact List.mem_map_of_mem (f := Prod.fst) (mem_of_lookup found)

/-- A live session draws in a view that there is. If it draws something, it has diagnostics of the view's
document, which is what the accounts ask of what is shown. -/
theorem Accounted.draw (accounted : h.Accounted past busy) {view : View}
    (visible : view ∈ h.host.views) (live : h.session.isDisposed = false) {items : List Decoration}
    (about : items ≠ [] → view.document ∈ h.session.diagnostics.map Prod.fst) :
    Settles past busy h (h.decorate view items) := by
  have accounts := accounted.accounts
  have sound := accounted.sound
  have events : past ++ (h.decorate view items).host.trace =
      past ++ h.host.trace ++ [.decorated h.session.decorationKind view.id items] :=
    (List.append_assoc ..).symm
  have uncompleted : completed [.decorated h.session.decorationKind view.id items] = [] := rfl
  refine accounted.served accounted.quiet (.record ?_) sound.numbered ?_ ?_
  · intro event member
    rw [List.mem_singleton.mp member]
    exact accounts.kind
  · intro kind number items member
    rcases List.mem_append.mp member with member | member
    · exact .inl member
    · cases List.mem_singleton.mp member
      exact .inr (sound.seen view visible)
  · change h.session.Accounts (past ++ (h.decorate view items).host.trace) h.number busy
      (h.decorate view items).host
    rw [events]
    refine ⟨accounts.kind, accounts.known, accounts.keyed, accounts.providers, accounts.board, ?_,
      accounts.neat, ?_, accounts.gone⟩
    · rw [completed_append, uncompleted, List.append_nil]
      exact accounts.reporters
    · intro other visible' something
      -- the last event decides for the view that is drawn in, and is none of the other views
      by_cases same : other.id = view.id
      · have equal : other = view := List.inj_on_of_nodup_map sound.views visible' visible same
        subst equal
        refine ⟨live, about ?_⟩
        have here : latest [.decorated h.session.decorationKind other.id items] (h.number + 1)
            other.id = some items := by
          rw [accounts.kind]
          simp [latest]
        unfold shown at something
        rw [latest_append, here] at something
        exact something
      · rw [shown_append] at something
        · exact accounts.bare other visible' something
        · intro items member
          obtain ⟨-, here, -⟩ := HostEvent.decorated.inj (List.mem_singleton.mp member)
          exact same here

/-! ## Progress -/

/-- The board changes, and the host is told what becomes of the reporters: of those that the session held,
or of those that it holds when the host has answered what it was asked. -/
theorem Accounted.withBoard {busy' : Option Nat} (accounted : h.Accounted past busy)
    (live : h.session.isDisposed = false) {stance : Stance} {sessions held : List Nat}
    {trace news : List HostEvent} {board : ProgressBoard} {events : List ReporterEvent}
    (grown : ∃ count, sessions = h.host.reporterSessions ++ List.replicate count h.number)
    (told : trace = h.host.trace ++ news)
    (concerns : ∀ event ∈ news, (h.host.answered stance sessions trace).Concerns h.number event)
    (undrawn : ∀ kind view items, .decorated kind view items ∉ news)
    (balanced : Balanced (fun reporter =>
      (h.host.answered stance sessions trace).reporterSession? reporter = some h.number) held
      (completed (past ++ trace)))
    (unclosed : board.isClosed = false) (orderly : board.Orderly busy')
    (exchanges : ProgressBoard.Exchanges held events board.reporters) :
    Settles past busy' h
      ({ h with host := h.host.answered stance sessions trace }.withBoard (board, events)) := by
  have accounts := accounted.accounts
  have all : trace ++ events.map .reporter = h.host.trace ++ (news ++ events.map .reporter) := by
    rw [told, List.append_assoc]
  have undrawn (kind view : Nat) (items : List Decoration) :
      .decorated kind view items ∉ news ++ events.map HostEvent.reporter := by
    simp [undrawn kind view items]
  have concerns : ∀ event ∈ news ++ events.map HostEvent.reporter,
      (h.host.answered stance sessions trace).Concerns h.number event := by
    intro event member
    rcases List.mem_append.mp member with member | member
    · exact concerns event member
    · obtain ⟨event, inside, rfl⟩ := List.mem_map.mp member
      exact balanced.own _ (exchanges.about event inside)
  have serves : h.host.Serves h.number
      ((h.host.answered stance sessions trace).record (events.map .reporter)) :=
    { Host.Serves.refl h.number h.host with
      reporters := grown
      trace := ⟨news ++ events.map HostEvent.reporter, all, concerns⟩ }
  refine accounted.served accounted.quiet serves accounted.sound.numbered ?_ ?_
  · intro kind view items member
    have drawn : .decorated kind view items ∈ trace ++ events.map HostEvent.reporter := member
    rw [all] at drawn
    exact .inl ((List.mem_append.mp drawn).resolve_right (undrawn kind view items))
  · refine ⟨accounts.kind, accounts.known, accounts.keyed, accounts.providers,
      fun _ => ⟨unclosed, orderly⟩, ?_, accounts.neat, ?_,
      fun ended => absurd (live.symm.trans ended) Bool.false_ne_true⟩
    · change Balanced _ _ (completed (past ++ (trace ++ events.map .reporter)))
      rw [← List.append_assoc, completed_append, completed_reporters]
      exact balanced.giveBack exchanges.split
    · intro view visible something
      change shown (past ++ (trace ++ events.map .reporter)) _ _ ≠ [] at something
      rw [all, ← List.append_assoc, shown_append (undrawn _ _)] at something
      exact accounts.bare view visible something

/-- The board changes by itself, with the host as it was. This is `Accounted.withBoard` where nobody was
asked for anything. -/
theorem Accounted.moveBoard {busy' : Option Nat} (accounted : h.Accounted past busy)
    (live : h.session.isDisposed = false) {board : ProgressBoard} {events : List ReporterEvent}
    (unclosed : board.isClosed = false) (orderly : board.Orderly busy')
    (exchanges : ProgressBoard.Exchanges h.session.progress.reporters events board.reporters) :
    Settles past busy' h (h.withBoard (board, events)) :=
  accounted.withBoard live ⟨0, (List.append_nil _).symm⟩ (List.append_nil _).symm nofun
    (fun _ _ _ => List.not_mem_nil) accounted.accounts.reporters unclosed orderly exchanges

/-- The host makes a reporter for a notification that waits for one. Its number is new, so the session holds
it once. -/
theorem Accounted.created {call : Nat} (accounted : h.Accounted past (some call))
    (live : h.session.isDisposed = false) {title : Option String}
    (wanted : h.session.progress.wanted? call = some title) :
    Settles past (some call) h
      ({ h with host := h.host.withReporter h.number title }.withBoard
        (h.session.progress.created call (h.host.reporterSessions.length + 1))) := by
  have accounts := accounted.accounts
  obtain ⟨unclosed, orderly⟩ := accounts.board live
  obtain ⟨orderly', exchanges, unclosed'⟩ :=
    orderly.created unclosed wanted (h.host.reporterSessions.length + 1)
  have unmade : ¬ h.host.reporterSession? (h.host.reporterSessions.length + 1) = some h.number := by
    intro made
    have bound := Host.reporterSession?_le made
    omega
  have uncompleted : h.host.reporterSessions.length + 1 ∉ completed (past ++ h.host.trace) := by
    intro member
    have bound := accounted.sound.completed _ member
    omega
  refine accounted.withBoard live ⟨1, rfl⟩ rfl ?_ (by simp) ?_ unclosed' orderly' exchanges
  · intro event member
    rw [List.mem_singleton.mp member]
    exact Host.reporterSession?_withReporter.mpr (.inr rfl)
  · rw [← List.append_assoc, completed_append]
    refine Balanced.congr ?_ fun _ => Host.reporterSession?_withReporter
    exact (List.append_nil _).symm ▸ accounts.reporters.grant unmade uncompleted

/-- A notification that waits for a reporter asks the host for it, and all three answers keep the accounts.
-/
theorem Accounted.makeReporter {call : Nat} (accounted : h.Accounted past (some call))
    (live : h.session.isDisposed = false) :
    Settles past (some call) h (h.makeReporter call) := by
  have accounts := accounted.accounts
  unfold Hosted.makeReporter
  split
  · exact .refl accounted
  next title wanted =>
    rcases h.host.createReporter_cases h.number title with later | ⟨stance, refused⟩ | created
    · rw [later]
      dsimp only
      unfold Host.await
      split
      · exact .refl accounted
      · exact accounted.served accounted.quiet { Host.Serves.refl h.number h.host with }
          accounted.sound.numbered (fun _ _ _ => .inl) { accounts with }
    · rw [refused]
      obtain ⟨unclosed, orderly⟩ := accounts.board live
      obtain ⟨orderly', exchanges, unclosed'⟩ := orderly.refused unclosed wanted Host.unavailable
      refine accounted.withBoard live ⟨0, (List.append_nil _).symm⟩ rfl ?_ (by simp) ?_ unclosed'
        orderly' exchanges
      · intro event member
        rw [List.mem_singleton.mp member]
        trivial
      · rw [← List.append_assoc, completed_append]
        exact (List.append_nil _).symm ▸ accounts.reporters
    · rw [created]
      dsimp only
      rw [callback_eq (h := { h with host := h.host.withReporter h.number title }) accounted.quiet]
      exact accounted.created live wanted

/-- A notification is handled as far as the host lets it. Afterwards it is in hand still, or none is. -/
theorem Accounted.handleProgress {call : Nat} (accounted : h.Accounted past (some call))
    (live : h.session.isDisposed = false) :
    Settles past (h.handleProgress call).session.handling h (h.handleProgress call) := by
  obtain ⟨unclosed, orderly⟩ := accounted.accounts.board live
  obtain ⟨orderly', exchanges, unclosed'⟩ := orderly.advance unclosed
  have advanced : Settles past (some call) h (h.withBoard (h.session.progress.advance call)) :=
    accounted.moveBoard live unclosed' orderly' exchanges
  have made := advanced.trans (advanced.toAccounted.makeReporter live)
  have lives := (makeReporter_spares advanced.quiet call).disposed.trans live
  unfold Hosted.handleProgress
  generalize (h.withBoard (h.session.progress.advance call)).makeReporter call = k at made lives
  dsimp only
  split
  · exact made.trans (made.toAccounted.of_eq rfl rfl rfl rfl (fun _ => id) (.refl _))
  next refusal ended =>
    have settled : Settles past none h { k with session := { k.session with handling := none } } := by
      have accounts := made.accounts
      obtain ⟨unclosed, orderly⟩ := accounts.board lives
      refine ⟨⟨made.quiet, made.sound, ?_⟩, made.number, made.serves⟩
      exact ⟨accounts.kind, accounts.known, accounts.keyed, accounts.providers,
        fun _ => ⟨unclosed, orderly.settled ended⟩, accounts.reporters, accounts.neat, accounts.bare,
        accounts.gone⟩
    split
    · exact settled
    · exact settled.trans (settled.toAccounted.note ..)

/-- The next notification is taken up. None is in hand before, which is what keeps the board orderly. -/
theorem Accounted.takeUp (accounted : h.Accounted past none) (live : h.session.isDisposed = false)
    (params : ProgressParams) :
    Settles past (Hosted.handleProgress { h with session := { h.session with
        progress := (h.session.progress.begin params).2 } }
        (h.session.progress.begin params).1).session.handling h
      (Hosted.handleProgress { h with session := { h.session with
        progress := (h.session.progress.begin params).2 } } (h.session.progress.begin params).1) := by
  have accounts := accounted.accounts
  obtain ⟨unclosed, orderly⟩ := accounts.board live
  obtain ⟨orderly', reporters, unclosed'⟩ := orderly.begin unclosed params
  have begun : Settles past (some (h.session.progress.begin params).1) h { h with
      session := { h.session with progress := (h.session.progress.begin params).2 } } := by
    refine ⟨⟨accounted.quiet, accounted.sound, ?_⟩, rfl, .refl ..⟩
    refine ⟨accounts.kind, accounts.known, accounts.keyed, accounts.providers,
      fun _ => ⟨unclosed', orderly'⟩, ?_, accounts.neat, accounts.bare, ?_⟩
    · dsimp only
      rw [reporters]
      exact accounts.reporters
    · intro ended
      exact absurd (live.symm.trans ended) Bool.false_ne_true
  exact begun.trans (begun.toAccounted.handleProgress live)

/-! ## Disposing -/

/-- What was disposed has nothing, and nothing of it is shown: providers are withdrawn, views emptied and
reporters completed, each once, whatever was in hand. -/
theorem Accounted.dispose {busy' : Option Nat} (accounted : h.Accounted past busy)
    (live : h.session.isDisposed = false) : Settles past busy' h h.dispose := by
  have accounts := accounted.accounts
  have sound := accounted.sound
  obtain ⟨unclosed, orderly⟩ := accounts.board live
  obtain ⟨exchanges, empty, closed⟩ := orderly.completeAll
  -- what the disposing does comes down to withdrawing, emptying and completing, in this order
  obtain ⟨connection, closes, finished, same⟩ := dispose_eq accounted.quiet live
  have own : ∀ number ∈ h.session.registrations.providers, h.host.Provides h.number number :=
    accounts.providers.own
  have made : ∀ event ∈ h.session.progress.completeAll.2,
      h.host.reporterSession? event.about = some h.number :=
    fun event member => accounts.reporters.own _ (exchanges.about event member)
  have drawn {kind view : Nat} {items : List Decoration}
      (member : .decorated kind view items ∈
        h.emptied ++ h.session.progress.completeAll.2.map HostEvent.reporter) :
      kind = h.number + 1 ∧ items = [] ∧ ∃ shown ∈ h.host.views, shown.id = view := by
    rcases List.mem_append.mp member with member | member
    · obtain ⟨shown, inside, equal⟩ := List.mem_map.mp member
      obtain ⟨rfl, rfl, rfl⟩ := HostEvent.decorated.inj equal
      exact ⟨accounts.kind, rfl, shown, (List.mem_filter.mp inside).1, rfl⟩
    · obtain ⟨event, -, equal⟩ := List.mem_map.mp member
      cases equal
  -- emptying a view completes no reporter, so what was completed is what the board has told
  have told : completed (h.emptied ++ h.session.progress.completeAll.2.map .reporter) =
      completions h.session.progress.completeAll.2 := by
    have nothing : completed h.emptied = [] := by
      refine List.flatMap_eq_nil_iff.mpr ?_
      intro event member
      obtain ⟨shown, -, rfl⟩ := List.mem_map.mp member
      rfl
    rw [completed_append, nothing, completed_reporters, List.nil_append]
  have withdraws : h.host.Serves h.number (h.host.withdraw h.session.registrations.providers) :=
    .withdraw own
  have concerns : ∀ event ∈ h.emptied ++ h.session.progress.completeAll.2.map HostEvent.reporter,
      (h.host.withdraw h.session.registrations.providers).Concerns h.number event := by
    intro event member
    rcases List.mem_append.mp member with member | member
    · obtain ⟨shown, -, rfl⟩ := List.mem_map.mp member
      exact accounts.kind
    · obtain ⟨event, inside, rfl⟩ := List.mem_map.mp member
      exact made event inside
  rw [same]
  refine accounted.served accounted.quiet (withdraws.trans (.record concerns)) sound.numbered ?_ ?_
  · intro kind view items member
    rcases List.mem_append.mp member with member | member
    · exact .inl member
    · obtain ⟨-, -, seen, visible, rfl⟩ := drawn member
      exact .inr (sound.seen seen visible)
  · have all : past ++ ((h.host.withdraw h.session.registrations.providers).record
        (h.emptied ++ h.session.progress.completeAll.2.map .reporter)).trace =
        past ++ h.host.trace ++ (h.emptied ++ h.session.progress.completeAll.2.map .reporter) :=
      (List.append_assoc ..).symm
    rw [all]
    refine ⟨accounts.kind, accounts.known, Registrations.isKeyed_empty, ?_, nofun, ?_, ?_, ?_,
      fun _ => ⟨rfl, empty, finished⟩⟩
    · refine accounts.providers.giveBack ?_
      simp [Registrations.providers, Registrations.empty]
    · rw [completed_append, told]
      rw [← empty] at exchanges
      exact accounts.reporters.giveBack exchanges.split
    · exact (Connection.close_unread.trans closes.1).toGoes.neat accounts.neat
    -- a view that shows something now was not emptied; but then it showed something before, and
    -- such views are emptied
    · intro view visible something
      obtain ⟨before, uncleared⟩ := shown_of_cleared (fun items member => (drawn member).2.1) something
      obtain ⟨-, document⟩ := accounts.bare view visible before
      refine absurd (List.mem_append_left _ (List.mem_map.mpr ⟨view, ?_, ?_⟩)) uncleared
      · exact List.mem_filter.mpr ⟨visible, decide_eq_true document⟩
      · rw [accounts.kind]

/-! ## All acts -/

/-- Every act keeps the accounts of its session, and does nothing for another. The cases are the acts, and
each is one of the lemmas above. -/
theorem Act.settles (act : Act options turn h k)
    (accounted : h.Accounted past h.session.handling) :
    Settles past k.session.handling h k := by
  cases act with
  | connection allowed => exact accounted.withConnection allowed.goes
  | heed openedDocuments => exact accounted.of_eq rfl rfl rfl rfl (fun _ => id) (.refl _)
  | register registrations live =>
    rw [(installEach_spares accounted.quiet registrations).2]
    exact accounted.installEach live registrations
  | unregister id =>
    rw [(h.uninstall_spares id).2]
    exact accounted.uninstall id
  | publish document diagnostics live =>
    exact accounted.of_eq rfl rfl rfl rfl (mem_keepDiagnostics _ document diagnostics) (.refl _)
  | draw view visible live => exact accounted.draw visible live mem_of_diagnosticsOf
  | proceed call busy live =>
    rw [busy] at accounted
    exact accounted.handleProgress live
  | takeUp params idle live =>
    rw [idle] at accounted
    exact accounted.takeUp live params
  | release live =>
    have cleared := accounted.clearRegistrations
    exact cleared.trans (cleared.toAccounted.of_eq rfl rfl rfl rfl (fun _ => id) (.refl _))
  | dispose live => exact accounted.dispose live

/-- A session that was disposed does nothing to the host any more. Most acts ask for a live session, and the
others find an empty table. -/
theorem Act.host_of_disposed (act : Act options turn h k) (ended : h.session.isDisposed = true)
    (empty : h.session.registrations = .empty) : k.host = h.host := by
  have dead {P : Prop} (live : h.session.isDisposed = false) : P :=
    absurd (live.symm.trans ended) Bool.false_ne_true
  cases act with
  | connection | heed => rfl
  | unregister id =>
    have free : h.session.registrations.find? id = none := by
      rw [empty]
      rfl
    rw [uninstall_of_none free]
  | register _ live | publish _ _ live | draw _ _ live | proceed _ _ live | takeUp _ _ live
  | release live | dispose live => exact dead live

/-- An act either leaves the session as alive as it was, with all documents that it has diagnostics of, or
disposes it, which is done in a turn of its own. -/
theorem Act.keeps_or_disposes (quiet : h.host.armed = []) (act : Act options turn h k) :
    (k.session.isDisposed = h.session.isDisposed ∧
      ∀ document ∈ h.session.diagnostics.map Prod.fst,
        document ∈ k.session.diagnostics.map Prod.fst) ∨
      (h.session.isDisposed = false ∧ turn ≠ .reader ∧ turn ≠ .sweep) ∧ k = h.dispose := by
  have spares {k : Hosted} (spares : Spares h k) : k.session.isDisposed = h.session.isDisposed ∧
      ∀ document ∈ h.session.diagnostics.map Prod.fst,
        document ∈ k.session.diagnostics.map Prod.fst := by
    rw [spares.diagnostics]
    exact ⟨spares.disposed, fun _ => id⟩
  cases act with
  | connection | heed | draw | release => exact .inl ⟨rfl, fun _ => id⟩
  | register registrations => exact .inl (spares (installEach_spares quiet registrations).1)
  | unregister id => exact .inl (spares (h.uninstall_spares id).1)
  | publish document diagnostics => exact .inl ⟨rfl, mem_keepDiagnostics _ document diagnostics⟩
  | proceed call => exact .inl (spares (handleProgress_spares quiet call))
  | takeUp params =>
    have handled := handleProgress_spares (h := { h with
      session := { h.session with progress := (h.session.progress.begin params).2 } }) quiet
      (h.session.progress.begin params).1
    refine .inl ⟨handled.disposed, ?_⟩
    rw [handled.diagnostics]
    exact fun _ => id
  | dispose live read swept => exact .inr ⟨⟨live, read, swept⟩, rfl⟩

end Hosted

end LanguageClient
