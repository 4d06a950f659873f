import LanguageClient.Proofs.Session.Acts
import LanguageClient.Proofs.Session.Reporters

/-!
# The accounts of a session with the host

What a session has from the host, and what it has given back. The host numbers providers and
reporters; each of those that were made for a session is in its hands or was given back exactly once
(`Session.Accounts`), and in a visible view it shows something only of a document that it has
diagnostics of. A session that was disposed has nothing any more.

Every act of a session keeps its accounts, and touches nothing that the host has for another session
(`Host.Serves`), so it keeps theirs as well. What was done to the host so far is a list of events, of
which the trace of the host is the end.
-/

namespace LanguageClient

/-! ## What was done to the host -/

/-- The reporters that were completed. -/
def completed (events : List HostEvent) : List Nat :=
  events.flatMap fun
    | .reporter (.complete reporter) => [reporter]
    | _ => []

/-- What was completed in two stretches of events is what was completed in the one and in the other. -/
theorem completed_append (first second : List HostEvent) :
    completed (first ++ second) = completed first ++ completed second := List.flatMap_append

/-- Told to the host, the events of a board complete the reporters that they complete on the board. The two
vocabularies meet here. -/
theorem completed_reporters (events : List ReporterEvent) :
    completed (events.map .reporter) = completions events := by
  unfold completed completions
  rw [List.flatMap_map]
  congr 1
  funext event
  cases event <;> rfl

/-- A reporter was completed if and only if the host was told so, in just that event. -/
theorem mem_completed {events : List HostEvent} {reporter : Nat} :
    reporter ∈ completed events ↔ .reporter (.complete reporter) ∈ events := by
  unfold completed
  rw [List.mem_flatMap]
  constructor
  · rintro ⟨event, member, here⟩
    split at here
    · rw [List.mem_singleton.mp here]
      exact member
    · cases here
  · intro member
    exact ⟨_, member, List.mem_singleton_self _⟩

/-- What was drawn last of a kind in a view. -/
def latest (events : List HostEvent) (kind view : Nat) : Option (List Decoration) :=
  events.reverse.findSome? fun
    | .decorated k v items => if k = kind ∧ v = view then some items else none
    | _ => none

/-- What a view shows of a kind. -/
def shown (events : List HostEvent) (kind view : Nat) : List Decoration :=
  (latest events kind view).getD []

variable {events more : List HostEvent} {kind view : Nat} {items : List Decoration}

/-- What was drawn last in two stretches of events is what was drawn last in the second, if anything was
drawn there, and in the first otherwise. -/
theorem latest_append :
    latest (events ++ more) kind view = (latest more kind view).or (latest events kind view) := by
  unfold latest
  rw [List.reverse_append, List.findSome?_append]

/-- What is found as drawn last was drawn, so it is among the events. What a view shows can be traced back
to an event by this. -/
theorem mem_of_latest (drawn : latest events kind view = some items) :
    .decorated kind view items ∈ events := by
  obtain ⟨event, member, found⟩ := List.exists_of_findSome?_eq_some drawn
  split at found
  next k v _ =>
    split at found
    next same =>
      cases found
      obtain ⟨rfl, rfl⟩ := same
      exact List.mem_reverse.mp member
    next => cases found
  next => cases found

/-- Where nothing of a kind was drawn, a view shows what it showed before. So another session, which draws
another kind, changes nothing that this one shows. -/
theorem shown_append (undrawn : ∀ items, .decorated kind view items ∉ more) :
    shown (events ++ more) kind view = shown events kind view := by
  have nothing : latest more kind view = none := by
    cases drawn : latest more kind view with
    | none => rfl
    | some items => exact absurd (mem_of_latest drawn) (undrawn items)
  unfold shown
  rw [latest_append, nothing, Option.none_or]

/-- Where only nothing was drawn, a view that shows something showed it before, and it is not one of those
that were emptied. -/
theorem shown_of_cleared (cleared : ∀ items, .decorated kind view items ∈ more → items = [])
    (something : shown (events ++ more) kind view ≠ []) :
    shown events kind view ≠ [] ∧ .decorated kind view [] ∉ more := by
  unfold shown at something ⊢
  rw [latest_append] at something
  cases drawn : latest more kind view with
  | some items =>
    rw [drawn, cleared items (mem_of_latest drawn)] at something
    exact absurd rfl something
  | none =>
    rw [drawn, Option.none_or] at something
    refine ⟨something, ?_⟩
    intro member
    unfold latest at drawn
    rw [List.findSome?_eq_none_iff] at drawn
    have undrawn := drawn _ (List.mem_reverse.mpr member)
    simp at undrawn

namespace Host

variable {host host' host'' : Host} {n number reporter : Nat}

/-- The session that a reporter was made for. -/
def reporterSession? (host : Host) : Nat → Option Nat
  | 0 => none
  | place + 1 => host.reporterSessions[place]?

/-- Whether a session has got the provider of a number. -/
def Provides (host : Host) (session number : Nat) : Prop :=
  ∃ p ∈ host.provided, p.number = number ∧ p.session = session

/-- Whether an event was brought about by a session. -/
def Concerns (host : Host) (session : Nat) : HostEvent → Prop
  | .decorated kind _ _ => kind = session + 1
  | .reporterCreated reporter _ => host.reporterSession? reporter = some session
  | .reporterRefused _ => True
  | .reporter event => host.reporterSession? event.about = some session

/-- What holds of a host, after these events. -/
structure Sound (events : List HostEvent) (host : Host) : Prop where
  numbered : ∀ {place : Nat} {p : Provider}, host.provided[place]? = some p → p.number = place + 1
  withdrawn : ∀ number ∈ host.withdrawn, number ≤ host.provided.length
  completed : ∀ reporter ∈ completed events, reporter ≤ host.reporterSessions.length
  views : (host.views.map View.id).Nodup
  seen : ∀ view ∈ host.views, view.id ≤ host.lastView
  drawn : ∀ kind view items, .decorated kind view items ∈ events →
    kind ≤ host.lastDecorationKind ∧ view ≤ host.lastView

/-- What a host does for one session. -/
structure Serves (n : Nat) (host host' : Host) : Prop where
  provided : ∃ new, host'.provided = host.provided ++ new ∧ ∀ p ∈ new, p.session = n
  withdrawn : ∃ gone, host'.withdrawn = host.withdrawn ++ gone ∧
    ∀ number ∈ gone, host'.Provides n number
  reporters : ∃ count, host'.reporterSessions = host.reporterSessions ++ List.replicate count n
  trace : ∃ news, host'.trace = host.trace ++ news ∧ ∀ event ∈ news, host'.Concerns n event
  views : host'.views = host.views
  lastView : host'.lastView = host.lastView
  lastDecorationKind : host'.lastDecorationKind = host.lastDecorationKind

/-- A provider has one number, and a number belongs to one provider, since providers are numbered by their
places. -/
theorem Sound.provider_eq (sound : host.Sound events) {p q : Provider} (first : p ∈ host.provided)
    (second : q ∈ host.provided) (same : p.number = q.number) : p = q := by
  obtain ⟨i, inside, rfl⟩ := List.getElem_of_mem first
  obtain ⟨j, inside', rfl⟩ := List.getElem_of_mem second
  have at_i := sound.numbered (List.getElem?_eq_getElem inside)
  have at_j := sound.numbered (List.getElem?_eq_getElem inside')
  have equal : i = j := by omega
  subst equal
  rfl

/-- No provider has a number beyond those that the host has handed out, so the next number is free. -/
theorem Sound.number_le (sound : host.Sound events) {p : Provider} (member : p ∈ host.provided) :
    p.number ≤ host.provided.length := by
  obtain ⟨i, inside, rfl⟩ := List.getElem_of_mem member
  have at_i := sound.numbered (List.getElem?_eq_getElem inside)
  omega

/-- A reporter that was made for somebody has a number that the host has handed out. -/
theorem reporterSession?_le (made : host.reporterSession? reporter = some n) :
    reporter ≤ host.reporterSessions.length := by
  cases reporter with
  | zero => exact Nat.zero_le _
  | succ place => exact (List.getElem?_eq_some_iff.mp made).1

/-- Who made a reporter is known for good. More reporters come behind those that there are. -/
theorem reporterSession?_append {more : List Nat}
    (reporters : host'.reporterSessions = host.reporterSessions ++ more)
    (made : host.reporterSession? reporter = some n) : host'.reporterSession? reporter = some n := by
  cases reporter with
  | zero => cases made
  | succ place =>
    have inside := (List.getElem?_eq_some_iff.mp made).1
    simp only [reporterSession?] at made ⊢
    rw [reporters, List.getElem?_append_left inside]
    exact made

/-- What is made for one session changes nothing for another. Only reporters of that session are added, so
no other one gains or loses any. -/
theorem reporterSession?_aside {m count : Nat} (apart : m ≠ n)
    (reporters : host'.reporterSessions = host.reporterSessions ++ List.replicate count n) :
    host'.reporterSession? reporter = some m ↔ host.reporterSession? reporter = some m := by
  refine ⟨?_, reporterSession?_append reporters⟩
  cases reporter with
  | zero => exact id
  | succ place =>
    simp only [reporterSession?]
    rw [reporters]
    rcases Nat.lt_or_ge place host.reporterSessions.length with inside | beyond
    · rw [List.getElem?_append_left inside]
      exact id
    · rw [List.getElem?_append_right beyond]
      intro made
      have same := List.eq_of_mem_replicate (List.mem_of_getElem? made)
      exact absurd same apart

/-- An event that a session has brought about remains one when more reporters are made. -/
theorem Concerns.mono {more : List Nat}
    (reporters : host'.reporterSessions = host.reporterSessions ++ more) {event : HostEvent}
    (concerns : host.Concerns n event) : host'.Concerns n event := by
  cases event with
  | decorated | reporterRefused => exact concerns
  | reporterCreated | reporter => exact reporterSession?_append reporters concerns

/-- A provider that a session has got is one that it has got ever after; to be withdrawn is another matter.
-/
theorem Provides.mono {more : List Provider} (provided : host'.provided = host.provided ++ more)
    (provides : host.Provides n number) : host'.Provides n number := by
  obtain ⟨p, member, known⟩ := provides
  exact ⟨p, provided ▸ List.mem_append_left _ member, known⟩

namespace Serves

theorem refl (n : Nat) (host : Host) : Serves n host host :=
  ⟨⟨[], by simp, by simp⟩, ⟨[], by simp, by simp⟩, ⟨0, by simp⟩, ⟨[], by simp, by simp⟩, rfl, rfl, rfl⟩

/-- Two steps that the host takes for one session make one. What it withdraws in the first step is a
provider of the session still after the second. -/
theorem trans (first : Serves n host host') (second : Serves n host' host'') :
    Serves n host host'' := by
  obtain ⟨new, provided, mine⟩ := first.provided
  obtain ⟨newer, provided', mine'⟩ := second.provided
  obtain ⟨gone, withdrawn, own⟩ := first.withdrawn
  obtain ⟨more, withdrawn', own'⟩ := second.withdrawn
  obtain ⟨count, reporters⟩ := first.reporters
  obtain ⟨count', reporters'⟩ := second.reporters
  obtain ⟨news, trace, concerns⟩ := first.trace
  obtain ⟨later, trace', concerns'⟩ := second.trace
  refine ⟨⟨new ++ newer, ?_, ?_⟩, ⟨gone ++ more, ?_, ?_⟩, ⟨count + count', ?_⟩,
    ⟨news ++ later, ?_, ?_⟩, second.views.trans first.views, second.lastView.trans first.lastView,
    second.lastDecorationKind.trans first.lastDecorationKind⟩
  · rw [provided', provided, List.append_assoc]
  · intro p member
    rcases List.mem_append.mp member with member | member
    · exact mine p member
    · exact mine' p member
  · rw [withdrawn', withdrawn, List.append_assoc]
  · intro number member
    rcases List.mem_append.mp member with member | member
    · exact (own number member).mono provided'
    · exact own' number member
  · rw [reporters', reporters, List.append_assoc, List.replicate_append_replicate]
  · rw [trace', trace, List.append_assoc]
  · intro event member
    rcases List.mem_append.mp member with member | member
    · exact (concerns event member).mono reporters'
    · exact concerns' event member

/-- What the host drops for a session that it has providers for. The hypothesis keeps a session from
withdrawing what is another's. -/
theorem withdraw {numbers : List Nat} (own : ∀ number ∈ numbers, host.Provides n number) :
    Serves n host (host.withdraw numbers) :=
  ⟨⟨[], by simp [Host.withdraw], by simp⟩, ⟨numbers, rfl, own⟩,
    ⟨0, by simp [Host.withdraw]⟩, ⟨[], by simp [Host.withdraw], by simp⟩, rfl, rfl, rfl⟩

/-- What the host is told by a session is kept in its trace and changes nothing else. -/
theorem record {news : List HostEvent} (concerns : ∀ event ∈ news, host.Concerns n event) :
    Serves n host (host.record news) :=
  ⟨⟨[], by simp [Host.record], by simp⟩, ⟨[], by simp [Host.record], by simp⟩,
    ⟨0, by simp [Host.record]⟩, ⟨news, rfl, concerns⟩, rfl, rfl, rfl⟩

/-- A provider that the host gets for a session is added behind the others. -/
theorem provide (host : Host) (kind : ProviderKind) (selector : DocumentSelector)
    (feature : Feature) (n : Nat) : Serves n host (host.provide kind selector feature n).2 :=
  ⟨⟨_, rfl, by simp⟩, ⟨[], by simp [Host.provide], by simp⟩, ⟨0, by simp [Host.provide]⟩,
    ⟨[], by simp [Host.provide], by simp⟩, rfl, rfl, rfl⟩

end Serves

/-- What a host does for one session leaves it sound, if it numbers what it hands out and draws only in
views that there were. The two hypotheses at the end are the part of soundness that `Serves` does not bring
with it. -/
theorem Sound.served {past : List HostEvent} (sound : host.Sound (past ++ host.trace))
    (serves : Serves n host host') (known : n + 1 ≤ host.lastDecorationKind)
    (numbered : ∀ {place : Nat} {p : Provider}, host'.provided[place]? = some p →
      p.number = place + 1)
    (seen : ∀ kind view items, .decorated kind view items ∈ host'.trace →
      .decorated kind view items ∈ host.trace ∨ view ≤ host.lastView) :
    host'.Sound (past ++ host'.trace) := by
  obtain ⟨new, provided, -⟩ := serves.provided
  obtain ⟨gone, withdrawn, own⟩ := serves.withdrawn
  obtain ⟨count, reporters⟩ := serves.reporters
  obtain ⟨news, trace, concerns⟩ := serves.trace
  have all : past ++ host'.trace = past ++ host.trace ++ news := by rw [trace, List.append_assoc]
  refine ⟨numbered, ?_, ?_, ?_, ?_, ?_⟩
  -- a provider that is withdrawn was provided before, or it is one of the session's own
  · intro number member
    rw [withdrawn] at member
    rcases List.mem_append.mp member with member | member
    · have bound := sound.withdrawn number member
      rw [provided, List.length_append]
      omega
    · obtain ⟨p, inside, rfl, -⟩ := own number member
      obtain ⟨place, found⟩ := List.mem_iff_getElem?.mp inside
      have bound := (List.getElem?_eq_some_iff.mp found).1
      rw [numbered found]
      omega
  · intro reporter member
    rw [all, completed_append] at member
    rcases List.mem_append.mp member with member | member
    · have bound := sound.completed reporter member
      rw [reporters, List.length_append]
      omega
    · exact reporterSession?_le (concerns _ (mem_completed.mp member))
  · rw [serves.views]
    exact sound.views
  · rw [serves.views, serves.lastView]
    exact sound.seen
  · intro kind view items member
    rw [serves.lastDecorationKind, serves.lastView]
    rw [all] at member
    rcases List.mem_append.mp member with member | member
    · exact sound.drawn kind view items member
    · have mine : kind = n + 1 := concerns _ member
      refine ⟨mine ▸ known, ?_⟩
      obtain before | visible := seen kind view items (trace ▸ List.mem_append_right _ member)
      · exact (sound.drawn kind view items (List.mem_append_right _ before)).2
      · exact visible

end Host

/-! ## Accounts -/

/-- What a session has from the host and has given back, after these events; at most the given
notification of progress is being handled. -/
structure Session.Accounts (events : List HostEvent) (n : Nat) (busy : Option Nat) (s : Session)
    (host : Host) : Prop where
  kind : s.decorationKind = n + 1
  known : n + 1 ≤ host.lastDecorationKind
  keyed : s.registrations.IsKeyed
  providers : Balanced (host.Provides n) s.registrations.providers host.withdrawn
  board : s.isDisposed = false → s.progress.isClosed = false ∧ s.progress.Orderly busy
  reporters : Balanced (fun reporter => host.reporterSession? reporter = some n)
    s.progress.reporters (completed events)
  neat : s.connection.Neat
  /-- What is shown of a live session is about documents that it has diagnostics of. -/
  bare : ∀ view ∈ host.views, shown events (n + 1) view.id ≠ [] →
    s.isDisposed = false ∧ view.document ∈ s.diagnostics.map Prod.fst
  /-- A session that was disposed has nothing any more. -/
  gone : s.isDisposed = true → s.registrations = .empty ∧ s.progress.reporters = [] ∧
    s.connection.isOver = true

namespace Session.Accounts

variable {n m : Nat} {busy : Option Nat} {s t : Session} {host host' : Host}
  {past : List HostEvent}

/-- What the host does for one session leaves the accounts of another as they are: numbers handed out, given
back and drawn are the other's own. -/
theorem aside (accounts : s.Accounts (past ++ host.trace) m busy host) (serves : host.Serves n host')
    (sound : host'.Sound (past ++ host'.trace)) (apart : m ≠ n) :
    s.Accounts (past ++ host'.trace) m busy host' := by
  obtain ⟨new, provided, mine⟩ := serves.provided
  obtain ⟨gone, withdrawn, own⟩ := serves.withdrawn
  obtain ⟨count, reporters⟩ := serves.reporters
  obtain ⟨news, trace, concerns⟩ := serves.trace
  -- nothing of what the host did was for this session, so whatever it has, it has still
  have provides (number : Nat) : host'.Provides m number ↔ host.Provides m number := by
    refine ⟨?_, Host.Provides.mono provided⟩
    rintro ⟨p, member, known⟩
    rw [provided] at member
    rcases List.mem_append.mp member with member | member
    · exact ⟨p, member, known⟩
    · exact absurd ((known.2.symm.trans (mine p member))) apart
  have undrawn (view : Nat) (items : List Decoration) : .decorated (m + 1) view items ∉ news := by
    intro member
    have here : m + 1 = n + 1 := concerns _ member
    omega
  have events : past ++ host'.trace = past ++ host.trace ++ news := by
    rw [trace, List.append_assoc]
  refine ⟨accounts.kind, ?_, accounts.keyed, ?_, accounts.board, ?_, accounts.neat, ?_,
    accounts.gone⟩
  · rw [serves.lastDecorationKind]
    exact accounts.known
  · rw [withdrawn]
    refine (accounts.providers.aside ?_).congr provides
    intro number member theirs
    obtain ⟨p, inside, named, ours⟩ := own number member
    obtain ⟨q, inside', named', yours⟩ := theirs.mono provided
    have same := sound.provider_eq inside inside' (named.trans named'.symm)
    subst same
    exact apart (yours.symm.trans ours)
  · rw [events, completed_append]
    refine (accounts.reporters.aside ?_).congr
      fun reporter => Host.reporterSession?_aside apart reporters
    intro reporter member theirs
    have ours := concerns _ (mem_completed.mp member)
    have yours := Host.reporterSession?_append reporters theirs
    exact apart (Option.some.inj (yours.symm.trans ours))
  · intro view visible something
    rw [serves.views] at visible
    rw [events, shown_append (undrawn view.id)] at something
    exact accounts.bare view visible something

/-- A change of the session that the host does not see. Its diagnostics may grow, as what is shown has then
still something to be about. -/
theorem of_eq (accounts : s.Accounts (past ++ host.trace) n busy host)
    (kind : t.decorationKind = s.decorationKind) (registrations : t.registrations = s.registrations)
    (progress : t.progress = s.progress) (disposed : t.isDisposed = s.isDisposed)
    (diagnostics : ∀ document ∈ s.diagnostics.map Prod.fst, document ∈ t.diagnostics.map Prod.fst)
    (connection : s.connection.Goes t.connection) :
    t.Accounts (past ++ host.trace) n busy host where
  kind := kind.trans accounts.kind
  known := accounts.known
  keyed := by rw [registrations]; exact accounts.keyed
  providers := by rw [registrations]; exact accounts.providers
  board := by rw [disposed, progress]; exact accounts.board
  reporters := by rw [progress]; exact accounts.reporters
  neat := connection.neat accounts.neat
  bare view visible something := by
    obtain ⟨live, document⟩ := accounts.bare view visible something
    exact ⟨disposed.trans live, diagnostics _ document⟩
  gone ended := by
    obtain ⟨empty, completed, finished⟩ := accounts.gone (disposed.symm.trans ended)
    rw [registrations, progress]
    exact ⟨empty, completed, connection.finished finished⟩

end Session.Accounts

namespace Hosted

variable {options : ClientOptions} {turn : Turn} {h k : Hosted} {past : List HostEvent}
  {busy : Option Nat}

/-- The accounts of a session with the host, which has seen other events before. -/
structure Accounted (past : List HostEvent) (busy : Option Nat) (h : Hosted) : Prop where
  quiet : h.host.armed = []
  sound : h.host.Sound (past ++ h.host.trace)
  accounts : h.session.Accounts (past ++ h.host.trace) h.number busy h.host

/-- What an act comes to: the accounts are kept, and the host did something for this session only. -/
structure Settles (past : List HostEvent) (busy : Option Nat) (h k : Hosted) : Prop
    extends Accounted past busy k where
  number : k.number = h.number
  serves : h.host.Serves h.number k.host

theorem Settles.refl (accounted : h.Accounted past busy) : Settles past busy h h :=
  ⟨accounted, rfl, .refl ..⟩

/-- Acts settle one after the other. The notification that is handled may change on the way, so it is a
parameter of both. -/
theorem Settles.trans {l : Hosted} {busy' : Option Nat} (first : Settles past busy h k)
    (second : Settles past busy' k l) : Settles past busy' h l :=
  ⟨second.toAccounted, second.number.trans first.number, first.serves.trans
    (first.number ▸ second.serves)⟩

/-- What is done to the session and its host settles, if the host does it for this session and the accounts
are kept. The soundness of the host comes from `Host.Sound.served`. -/
theorem Accounted.served {busy' : Option Nat} {session : Session} {host : Host}
    (accounted : h.Accounted past busy) (quiet : host.armed = [])
    (serves : h.host.Serves h.number host)
    (numbered : ∀ {place : Nat} {p : Provider}, host.provided[place]? = some p →
      p.number = place + 1)
    (seen : ∀ kind view items, .decorated kind view items ∈ host.trace →
      .decorated kind view items ∈ h.host.trace ∨ view ≤ h.host.lastView)
    (accounts : session.Accounts (past ++ host.trace) h.number busy' host) :
    Settles past busy' h { h with session, host } :=
  ⟨⟨quiet, accounted.sound.served serves accounted.accounts.known numbered seen, accounts⟩, rfl,
    serves⟩

/-! ## Acts that the host does not see -/

/-- A change of the session alone settles if its table, its board and its end are the same. -/
theorem Accounted.of_eq {session : Session} (accounted : h.Accounted past busy)
    (kind : session.decorationKind = h.session.decorationKind)
    (registrations : session.registrations = h.session.registrations)
    (progress : session.progress = h.session.progress)
    (disposed : session.isDisposed = h.session.isDisposed)
    (diagnostics : ∀ document ∈ h.session.diagnostics.map Prod.fst,
      document ∈ session.diagnostics.map Prod.fst)
    (connection : h.session.connection.Goes session.connection) :
    Settles past busy h { h with session } :=
  ⟨⟨accounted.quiet, accounted.sound, accounted.accounts.of_eq kind registrations progress disposed
    diagnostics connection⟩, rfl, .refl ..⟩

/-- A connection that goes to a later state keeps the accounts, as they only ask that it is neat. -/
theorem Accounted.withConnection (accounted : h.Accounted past busy)
    {connection : Connection SessionHandler} (goes : h.session.connection.Goes connection) :
    Settles past busy h (h.withConnection connection) :=
  accounted.of_eq rfl rfl rfl rfl (fun _ => id) goes

/-- A word in the log is no matter between session and host. -/
theorem Accounted.note (accounted : h.Accounted past busy) (part : LogPart) (level : LogLevel)
    (message : String) (fields : List (String × String)) :
    Settles past busy h (h.note part level message fields) :=
  accounted.withConnection (Connection.record_unread _).toGoes

/-- A document that had diagnostics has some when those of a document were replaced, be it that document or
another. -/
theorem mem_keepDiagnostics (s : Session) (document : Url) (diagnostics : List Diagnostic)
    (other : Url) (member : other ∈ s.diagnostics.map Prod.fst) :
    other ∈ (s.keepDiagnostics document diagnostics).diagnostics.map Prod.fst := by
  simp only [Session.keepDiagnostics, List.map_append, List.map_cons, List.map_nil, List.mem_append,
    List.mem_singleton]
  by_cases same : other = document
  · exact .inr same
  · obtain ⟨entry, inside, rfl⟩ := List.mem_map.mp member
    exact .inl (List.mem_map_of_mem (List.mem_filter.mpr ⟨inside, by simpa using same⟩))

/-! ## Providers -/

/-- What is taken off the table is given back to the host. The split says that the table loses exactly what
is withdrawn. -/
theorem Accounted.withdraw (accounted : h.Accounted past busy) {table : Registrations}
    {numbers : List Nat} (keyed : table.IsKeyed)
    (split : h.session.registrations.providers.Perm (numbers ++ table.providers))
    (gone : h.session.isDisposed = true → table = .empty) :
    Settles past busy h
      { h with
        session := { h.session with registrations := table }
        host := h.host.withdraw numbers } := by
  have accounts := accounted.accounts
  have own : ∀ number ∈ numbers, h.host.Provides h.number number := fun number member =>
    accounts.providers.own number (split.mem_iff.mpr (List.mem_append_left _ member))
  refine accounted.served accounted.quiet (.withdraw own) accounted.sound.numbered
    (fun _ _ _ => .inl) ?_
  exact ⟨accounts.kind, accounts.known, keyed, accounts.providers.giveBack split, accounts.board,
    accounts.reporters, accounts.neat, accounts.bare,
    fun ended => ⟨gone ended, (accounts.gone ended).2⟩⟩

/-- To take back one id is to take its provider off the table and to give it back; an id that stands for
nothing changes nothing. -/
theorem Accounted.uninstall (accounted : h.Accounted past busy) (id : RegistrationId) :
    Settles past busy h (h.uninstall id) := by
  have keyed := accounted.accounts.keyed
  unfold Hosted.uninstall
  split
  · exact .refl accounted
  next active found =>
    refine accounted.withdraw (keyed.erase id) (Registrations.perm_erase keyed found) ?_
    intro ended
    rw [(accounted.accounts.gone ended).1]
    rfl

/-- To take back everything leaves an empty table, and every provider that was on it has been given back. -/
theorem Accounted.clearRegistrations (accounted : h.Accounted past busy) :
    Settles past busy h h.clearRegistrations := by
  refine accounted.withdraw Registrations.isKeyed_empty ?_ fun _ => rfl
  simp [Registrations.providers, Registrations.empty]

/-- A provider is handed out to a live session. Its number is new to the host, and the id is free, so it is
held once. -/
theorem Accounted.grant (accounted : h.Accounted past busy) (live : h.session.isDisposed = false)
    {id : RegistrationId} (free : h.session.registrations.find? id = none) (feature : Feature)
    (selector : DocumentSelector) : Settles past busy h (h.grant feature id selector) := by
  have accounts := accounted.accounts
  have sound := accounted.sound
  have unheld : ¬ h.host.Provides h.number (h.host.provided.length + 1) := by
    rintro ⟨p, member, named, -⟩
    have bound := sound.number_le member
    omega
  have unreturned : h.host.provided.length + 1 ∉ h.host.withdrawn := by
    intro member
    have bound := sound.withdrawn _ member
    omega
  refine accounted.served accounted.quiet (.provide ..) (fun {place p} found => ?_)
    (fun _ _ _ => .inl) ?_
  · simp only [Host.provide] at found
    obtain before | ⟨rfl, rfl⟩ := getElem?_concat_iff.mp found
    · exact sound.numbered before
    · rfl
  · refine ⟨accounts.kind, accounts.known, accounts.keyed.insert .., ?_, accounts.board,
      accounts.reporters, accounts.neat, accounts.bare,
      fun ended => absurd (live.symm.trans ended) Bool.false_ne_true⟩
    have granted := accounts.providers.grant unheld unreturned
    rw [Registrations.providers_insert free]
    refine (granted.perm (List.perm_append_singleton ..).symm).congr ?_
    intro number
    simp only [Host.Provides, Host.provide, List.mem_append, List.mem_singleton]
    constructor
    · rintro ⟨p, member | rfl, known⟩
      · exact .inl ⟨p, member, known⟩
      · exact .inr known.1.symm
    · rintro (⟨p, member, known⟩ | rfl)
      · exact ⟨p, .inl member, known⟩
      · exact ⟨_, .inr rfl, rfl, rfl⟩

/-- Registering keeps the accounts, by the three operations that registering comes down to. -/
theorem Accounted.installEach (accounted : h.Accounted past busy)
    (live : h.session.isDisposed = false) (registrations : List Registration) :
    Settles past busy h (h.installEach registrations).2 := by
  refine (installEach_induction (fun k => Settles past busy h k ∧ k.session.isDisposed = false)
    (fun keeps => keeps.1.quiet) ?_ ?_ ?_ registrations ⟨.refl accounted, live⟩).1
  · rintro k ⟨settles, live⟩ id
    refine ⟨settles.trans (settles.toAccounted.uninstall id), ?_⟩
    unfold Hosted.uninstall
    split <;> exact live
  · rintro k ⟨settles, live⟩ feature id selector free
    exact ⟨settles.trans (settles.toAccounted.grant live free feature selector), live⟩
  · rintro k ⟨settles, live⟩ part level message fields
    exact ⟨settles.trans (settles.toAccounted.note ..), live⟩

end Hosted

end LanguageClient
