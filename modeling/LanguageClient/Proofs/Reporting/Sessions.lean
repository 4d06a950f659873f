import LanguageClient.Proofs.Reporting.Board
import LanguageClient.Proofs.Session.Deeds

/-!
# The desk of a session

What a session does with notifications of progress goes along with errands to a desk
(`Hosted.Plays`): the host sees what comes of the errands, and what the server has said of progress is
handled by them in its order, apart from what the session has not heard yet (`Session.unheard`). A
session that is torn down in the middle of an operation brings that errand to its desk too, also when the
host does so while it makes a reporter.
-/

namespace LanguageClient

/-! ## What the host sees -/

namespace Host

variable {a b c : Host} {events more : List HostEvent}

/-- What the host has seen that is about reporters. -/
def reports (host : Host) : List HostEvent := host.trace.filter HostEvent.isReporting

/-- The host has seen these events about reporters, and has numbered the reporters that it made. -/
structure Sees (a b : Host) (events : List HostEvent) : Prop where
  reports : b.reports = a.reports ++ events
  made : events.filterMap HostEvent.made? = List.range' (a.reporterSessions.length + 1)
    (events.filterMap HostEvent.made?).length
  count : b.reporterSessions.length =
    a.reporterSessions.length + (events.filterMap HostEvent.made?).length

/-- A host that has seen the same of reporters, and made the same ones, has seen no event about them. What
else it has seen, decorations for one, does not matter. -/
theorem Sees.of_eq (reports : b.reports = a.reports)
    (sessions : b.reporterSessions = a.reporterSessions) : a.Sees b [] :=
  ⟨by rw [reports, List.append_nil], rfl, by rw [sessions]; rfl⟩

/-- A host sees nothing while nothing happens. -/
theorem Sees.refl (a : Host) : a.Sees a [] := .of_eq rfl rfl

/-- What a host sees in two stretches is the one and then the other. The numbers of the second begin where
those of the first end, so together they count on from the start. -/
theorem Sees.trans (first : a.Sees b events) (second : b.Sees c more) :
    a.Sees c (events ++ more) where
  reports := by rw [second.reports, first.reports, List.append_assoc]
  made := by
    rw [List.filterMap_append, second.made, first.made, first.count]
    simp only [List.length_append, List.length_range']
    rw [Nat.add_right_comm, List.range'_append_1]
  count := by
    rw [second.count, first.count, List.filterMap_append, List.length_append, Nat.add_assoc]

/-- The case that the second stretch is about no reporter, without the empty list behind the events. -/
theorem Sees.trans_nil (first : a.Sees b events) (second : b.Sees c []) : a.Sees c events := by
  have both := first.trans second
  rw [List.append_nil] at both
  exact both

/-- The host is told something about reporters. As it makes none by that, its numbers do not go on. -/
theorem sees_report (host : Host) (events : List ReporterEvent) :
    host.Sees (host.record (events.map .reporter)) (events.map .reporter) := by
  have unmade : (events.map HostEvent.reporter).filterMap HostEvent.made? = [] := by
    rw [List.filterMap_map]
    exact List.filterMap_eq_nil_iff.mpr fun _ _ => rfl
  refine ⟨?_, ?_, ?_⟩
  · unfold reports record
    have all : (events.map HostEvent.reporter).filter HostEvent.isReporting =
        events.map HostEvent.reporter := by
      refine List.filter_eq_self.mpr fun event member => ?_
      obtain ⟨_, -, rfl⟩ := List.mem_map.mp member
      rfl
    rw [List.filter_append, all]
  · rw [unmade]
    rfl
  · rw [unmade]
    rfl

/-- Decorations that are replaced are no event about a reporter. -/
theorem sees_decorate (host : Host) (kind : Nat) (view : View) (items : List Decoration) :
    host.Sees (host.decorate kind view items) [] := by
  refine .of_eq ?_ rfl
  unfold reports decorate record
  rw [List.filter_append]
  exact List.append_nil _

end Host

/-! ## Sessions that keep a desk -/

namespace Session

/-- A session listens to notifications of progress, and these wait. -/
abbrev Listens (s : Session) (waiting : List Json) : Prop :=
  s.connection.Tunes progressFeed ProgressParams.method true waiting

/-- The notification that waits for the host. -/
def waitingForHost (s : Session) : List ProgressParams :=
  (s.handling.bind fun call => (s.progress.calls[call]?).map ProgressCall.params).toList

/-- A session that is handling no notification has none that waits for the host. -/
theorem waitingForHost_of_free {s : Session} (free : s.handling = none) : s.waitingForHost = [] := by
  unfold waitingForHost
  rw [free]
  rfl

/-- What the server has said of progress and the session has not heard yet. -/
def unheard (s : Session) : List ProgressParams :=
  s.waitingForHost ++ (s.connection.waiting progressFeed).filterMap ProgressParams.ofJson?

/-- A session whose board stands for a desk. -/
structure Keeps (suffix : String) (s : Session) (desk : Desk) : Prop where
  tunes : ∃ waiting, s.Listens waiting
  torn : s.isDisposed = desk.isClosed
  gone : desk.isClosed = true → s.progress.isClosed = true ∧ desk.live = []
  rests : desk.isClosed = false → s.handling = none → s.progress.Stands suffix desk
  asks : ∀ {call : Nat}, desk.isClosed = false → s.handling = some call →
    ∃ params, s.progress.Asks suffix desk call params

/-- A session that is attached keeps a fresh desk, and its server has said nothing of progress yet. Every
desk of a run begins here. -/
theorem attach_keeps (root : Option Url) (kind : Nat) (suffix : String) :
    (attach root kind suffix).Keeps suffix .fresh ∧ (attach root kind suffix).unheard = [] :=
  ⟨⟨⟨[], rfl⟩, rfl, by rintro ⟨⟩, fun _ _ => ProgressBoard.stands_new suffix, by rintro _ - ⟨⟩⟩, rfl⟩

end Session

namespace Hosted

variable {suffix : String} {options : ClientOptions} {h k l : Hosted} {desk : Desk}
  {errands more : List Errand}

/-- What a session does goes along with errands to its desk. -/
structure Plays (suffix : String) (h k : Hosted) (desk : Desk) (errands : List Errand) : Prop where
  keeps : k.session.Keeps suffix (desk.play suffix errands).1
  heard : h.session.unheard = errands.filterMap Errand.params? ++ k.session.unheard
  host : h.host.Sees k.host (desk.play suffix errands).2

/-- What a session does in two steps goes along with the errands of the first and then those of the second,
which come to the desk as the first have left it. -/
theorem Plays.trans (first : Plays suffix h k desk errands)
    (second : Plays suffix k l (desk.play suffix errands).1 more) :
    Plays suffix h l desk (errands ++ more) where
  keeps := by
    rw [Desk.play_append]
    exact second.keeps
  heard := by rw [first.heard, second.heard, List.filterMap_append, List.append_assoc]
  host := by
    rw [Desk.play_append]
    exact first.host.trans second.host

/-- Whatever desk a session keeps, what it does goes along with errands to it. -/
def Follows (suffix : String) (h k : Hosted) : Prop :=
  ∀ desk, h.session.Keeps suffix desk → ∃ errands, Plays suffix h k desk errands

/-- A session that does nothing brings no errand to its desk. -/
theorem Follows.refl (h : Hosted) : Follows suffix h h :=
  fun _ keeps => ⟨[], keeps, rfl, .refl _⟩

/-- Following a desk composes. It is stated for all desks, so the second step takes up whatever desk the
first has left. -/
theorem Follows.trans (first : Follows suffix h k) (second : Follows suffix k l) :
    Follows suffix h l := by
  intro desk keeps
  obtain ⟨errands, played⟩ := first desk keeps
  obtain ⟨more, played'⟩ := second _ played.keeps
  exact ⟨errands ++ more, played.trans played'⟩

/-- Going through a list in steps that each follow the desk follows the desk. The messages of a log, what
was published and the visible views are such lists. -/
theorem foldl_follows {α : Type} {step : Hosted → α → Hosted}
    (each : ∀ h a, Follows suffix h (step h a)) (items : List α) (h : Hosted) :
    Follows suffix h (items.foldl step h) := by
  induction items generalizing h with
  | nil => exact .refl h
  | cons item items ih => exact (each h item).trans (ih _)

/-- A session does what is nothing to its board, nor to what it has heard of progress. -/
structure Idles (h k : Hosted) : Prop where
  disposed : k.session.isDisposed = h.session.isDisposed
  progress : k.session.progress = h.session.progress
  handling : k.session.handling = h.session.handling
  tunes : ∀ {waiting : List Json}, h.session.Listens waiting → k.session.Listens waiting
  host : h.host.Sees k.host []
  held : k.host.reporters.isHeld = h.host.reporters.isHeld

/-- Doing nothing is idling. -/
theorem Idles.refl (h : Hosted) : Idles h h := ⟨rfl, rfl, rfl, id, .refl _, rfl⟩

/-- Two things that are nothing to the board are nothing to it together. -/
theorem Idles.trans (first : Idles h k) (second : Idles k l) : Idles h l where
  disposed := second.disposed.trans first.disposed
  progress := second.progress.trans first.progress
  handling := second.handling.trans first.handling
  tunes tunes := second.tunes (first.tunes tunes)
  host := first.host.trans second.host
  held := second.held.trans first.held

/-- What is nothing to the board of a session goes along with no errand: the desk is kept as it is, nothing
is heard, and the host sees nothing of reporters. -/
theorem Idles.follows (idles : Idles h k) : Follows suffix h k := by
  intro desk keeps
  obtain ⟨waiting, tunes⟩ := keeps.tunes
  refine ⟨[], ⟨⟨waiting, idles.tunes tunes⟩, ?_, ?_, ?_, ?_⟩, ?_, idles.host⟩
  · exact idles.disposed.trans keeps.torn
  · rw [idles.progress]
    exact keeps.gone
  · rw [idles.progress, idles.handling]
    exact keeps.rests
  · rw [idles.progress, idles.handling]
    exact keeps.asks
  · simp only [Session.unheard, Session.waitingForHost, idles.progress, idles.handling,
      tunes.waiting_eq, (idles.tunes tunes).waiting_eq]
    rfl

/-- A session that has only told its server something has left its board alone. Registrations, notes for the
log and callbacks that end nothing are of this kind. -/
theorem Stays.idles (stays : Stays h k) : Idles h k where
  disposed := by rw [stays.session]
  progress := by rw [stays.session]
  handling := by rw [stays.session]
  tunes tunes := tunes.mute stays.mute
  host := .of_eq (by unfold Host.reports; rw [stays.host]) (by rw [stays.host])
  held := by rw [stays.host]

/-- Decorating a view is nothing to the board. -/
theorem decorate_idles (h : Hosted) (view : View) (items : List Decoration) :
    Idles h (h.decorate view items) :=
  ⟨rfl, rfl, rfl, id, h.host.sees_decorate .., rfl⟩

/-! ## Tearing down -/

/-- Nor is emptying the views of a session that is torn down, though the host is called back for each of
them and may lose an armed callback by it. -/
theorem clearDiagnostics_idles (h : Hosted) : Idles h h.clearDiagnostics := by
  unfold clearDiagnostics
  suffices emptied : ∀ (views : List View) (k : Hosted),
      Idles k (views.foldl (fun h view => (h.decorate view []).ring .setDecorations) k) by
    have forgotten : Idles h { h with session := { h.session with diagnostics := [] } } :=
      ⟨rfl, rfl, rfl, id, .refl _, rfl⟩
    exact forgotten.trans (emptied _ _)
  intro views
  induction views with
  | nil => exact .refl
  | cons view views ih =>
    exact fun k => ((decorate_idles k view []).trans (ring_stays _ _).idles).trans (ih _)

/-- A session that is torn down, but for its board. -/
structure Ends (h k : Hosted) : Prop where
  disposed : k.session.isDisposed = true
  progress : k.session.progress = h.session.progress.completeAll.1
  handling : k.session.handling = h.session.handling
  tunes : ∀ {waiting : List Json}, h.session.Listens waiting → k.session.Listens waiting
  host : h.host.Sees k.host (h.session.progress.completeAll.2.map .reporter)
  held : k.host.reporters.isHeld = h.host.reporters.isHeld

/-- What tearing a session down comes to, apart from what it keeps: the board is completed, and the host
hears of that and of nothing else about reporters. The notification that is being handled is left where it
was. -/
theorem dispose_ends (live : h.session.isDisposed = false) : Ends h h.dispose := by
  have withdrawn : Idles { h with session := { h.session with isDisposed := true } }
      { h with session := { h.session with isDisposed := true } }.clearRegistrations :=
    (clearRegistrations_stays _).idles
  have cleared := withdrawn.trans (clearDiagnostics_idles _)
  unfold dispose
  rw [if_neg (by rw [live]; exact Bool.false_ne_true)]
  dsimp only
  generalize { h with session := { h.session with isDisposed := true }
    }.clearRegistrations.clearDiagnostics = k at cleared ⊢
  have progress : k.session.progress = h.session.progress := cleared.progress
  simp only [completeAll, progress]
  refine ⟨cleared.disposed, rfl, cleared.handling, fun tunes => ?_, ?_, cleared.held⟩
  · exact (Connection.Tunes.close (cleared.tunes tunes)).mute ⟨rfl, rfl⟩
  · exact cleared.host.trans (Host.sees_report k.host _)

/-- Disposing a session brings one errand to its desk, that of tearing down, and none if it is disposed
already. At rest or with a notification that waits for the host, the board completes the same reporters as
the desk, in the same order. -/
theorem dispose_follows (h : Hosted) : Follows suffix h h.dispose := by
  intro desk keeps
  cases live : h.session.isDisposed with
  | true =>
    rw [dispose_of_disposed live]
    exact Follows.refl h desk keeps
  | false =>
    obtain ⟨disposed, progress, handling, tunes, host, -⟩ := dispose_ends live
    obtain ⟨waiting, before⟩ := keeps.tunes
    have unclosed : desk.isClosed = false := keeps.torn.symm.trans live
    have ends : h.session.progress.completeAll.1.isClosed = true ∧
        h.session.progress.completeAll.2.map HostEvent.reporter = desk.tearDown.2 ∧
        h.dispose.session.waitingForHost = h.session.waitingForHost := by
      unfold Session.waitingForHost
      rw [handling, progress]
      cases busy : h.session.handling with
      | none =>
        obtain ⟨closed, told⟩ := (keeps.rests unclosed busy).completeAll
        exact ⟨closed, told, rfl⟩
      | some call =>
        obtain ⟨params, asks⟩ := keeps.asks unclosed busy
        obtain ⟨closed, told, calls, -⟩ := asks.completeAll
        refine ⟨closed, told, ?_⟩
        rw [Option.bind_some, calls]
        rfl
    obtain ⟨closed, told, still⟩ := ends
    have played : desk.play suffix [.tearDown] = desk.tearDown := by
      simp only [Desk.play, Desk.after, List.append_nil]
    refine ⟨[.tearDown], ?_, ?_, ?_⟩
    · rw [played]
      refine ⟨⟨waiting, tunes before⟩, disposed, fun _ => ⟨progress ▸ closed, rfl⟩, ?_, ?_⟩
      · rintro ⟨⟩
      · rintro call ⟨⟩
    · simp only [Session.unheard, still, before.waiting_eq, (tunes before).waiting_eq]
      rfl
    · rw [played, ← told]
      exact host

/-- A callback brings no errand to the desk unless the host ends the client in it, and then it brings that
of tearing down. -/
theorem callback_follows (h : Hosted) (call : HostCall) : Follows suffix h (h.callback call) := by
  obtain ⟨k, stays, called | called⟩ := callback_cases h call
  · rw [called]
    exact stays.idles.follows
  · rw [called]
    exact stays.idles.follows.trans (dispose_follows k)

/-! ## Other tasks -/

/-- Draining another feed leaves the notifications of progress waiting as they are. -/
theorem drainAs_idles {α : Type} (h : Hosted) (method : String) (decode : Json → Option α)
    {feed : Nat} (other : feed ≠ Session.progressFeed) :
    Idles h (h.drainAs method decode feed).2 := by
  obtain ⟨log, drained⟩ := h.drainAs_eq method decode feed
  rw [drained]
  exact ⟨rfl, rfl, rfl, fun tunes => (tunes.apart Feed.emptied other).mute ⟨rfl, rfl⟩, .refl _,
    rfl⟩

/-- Passing log messages on brings no errand, but is followed all the same, so that every task of a session
has a lemma of this form. -/
theorem forwardLog_follows (h : Hosted) : Follows suffix h h.forwardLog :=
  (drainAs_idles h _ _ (by decide)).follows.trans
    (foldl_follows (fun _ _ => (note_stays ..).idles.follows) _ _)

/-- Drawing in a view follows the desk. The host is called back for it and may tear the session down. -/
theorem render_follows (h : Hosted) (view : View) : Follows suffix h (h.render view) :=
  (decorate_idles h view _).follows.trans (callback_follows _ _)

/-- Taking over what was published follows the desk, since the views of the document are drawn one after the
other and any of the callbacks may be the last. -/
theorem publish_follows (h : Hosted) (rewriter : Rewriter) (published : PublishedDiagnostics) :
    Follows suffix h (h.publish rewriter published) := by
  unfold publish
  split
  · exact (note_stays ..).idles.follows
  next document _ =>
    have kept : Idles h { h with
        session := h.session.keepDiagnostics document published.diagnostics } :=
      ⟨rfl, rfl, rfl, id, .refl _, rfl⟩
    exact kept.follows.trans (foldl_follows render_follows _ _)

/-- So does all that the task of the diagnostics does: draining its feed, taking over each publication, and
drawing all views anew for each document that was opened. -/
theorem followDiagnostics_follows (h : Hosted) (rewriter : Rewriter) :
    Follows suffix h (h.followDiagnostics rewriter) := by
  have drained : Follows suffix h (h.drainAs PublishedDiagnostics.method
      PublishedDiagnostics.ofJson? Session.diagnosticsFeed).2 :=
    (drainAs_idles h _ _ (by decide)).follows
  unfold followDiagnostics
  generalize h.drainAs PublishedDiagnostics.method PublishedDiagnostics.ofJson?
    Session.diagnosticsFeed = pair at drained ⊢
  obtain ⟨published, k⟩ := pair
  have shown := drained.trans
    (foldl_follows (fun h params => publish_follows h rewriter params) published k)
  have forgotten (k : Hosted) :
      Idles k { k with session := { k.session with openedDocuments := 0 } } :=
    ⟨rfl, rfl, rfl, id, .refl _, rfl⟩
  exact (shown.trans (forgotten _).follows).trans
    (foldl_follows (fun h _ => foldl_follows render_follows _ h) _ _)

end Hosted

end LanguageClient
