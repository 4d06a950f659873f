import LanguageClient.Proofs.Drawing.Slate
import LanguageClient.Proofs.Session.Deeds

/-!
# The slate of a session

What a session does with diagnostics goes along with cues to a slate (`Hosted.Draws`): the host draws what
comes of the cues, and the notifications among them are what was taken from the feed, in its order. This is
so as long as the host does not end the client from inside the callback by which it draws; it may do so
from inside any other (`Hosted.Deed.renders`).

A host that ends the client while it draws meets the task that draws, which goes on with what it had taken.
No order of cues stands for that.
-/

namespace LanguageClient

/-! ## What the host draws -/

/-- Whether an event replaces the decorations of a view. -/
def HostEvent.isDrawing : HostEvent → Bool
  | .decorated _ _ _ => true
  | _ => false

namespace Host

variable {a b c : Host} {events more : List HostEvent}

/-- What the host has drawn. -/
def drawings (host : Host) : List HostEvent := host.trace.filter HostEvent.isDrawing

/-- The host has drawn this, in views that have not changed. -/
structure Shows (a b : Host) (events : List HostEvent) : Prop where
  drawings : b.drawings = a.drawings ++ events
  views : b.views = a.views
  lastView : b.lastView = a.lastView
  armed : b.armed ⊆ a.armed

/-- A host that has drawn the same in the same views has drawn nothing meanwhile. Callbacks that were armed
may have gone off. -/
theorem Shows.of_eq (drawings : b.drawings = a.drawings) (views : b.views = a.views)
    (lastView : b.lastView = a.lastView) (armed : b.armed ⊆ a.armed) : a.Shows b [] :=
  ⟨by rw [drawings, List.append_nil], views, lastView, armed⟩

/-- A host draws nothing while nothing happens. -/
theorem Shows.refl (a : Host) : a.Shows a [] := .of_eq rfl rfl rfl (List.Subset.refl _)

/-- What a host draws in two stretches is the one and then the other. -/
theorem Shows.trans (first : a.Shows b events) (second : b.Shows c more) :
    a.Shows c (events ++ more) where
  drawings := by rw [second.drawings, first.drawings, List.append_assoc]
  views := second.views.trans first.views
  lastView := second.lastView.trans first.lastView
  armed := List.Subset.trans second.armed first.armed

/-- The host has drawn this, in the kinds that there were. -/
structure Draws (a b : Host) (events : List HostEvent) : Prop extends Shows a b events where
  kinds : b.lastDecorationKind = a.lastDecorationKind

/-- The same with the kinds of decorations, of which there are as many as before. -/
theorem Draws.refl (a : Host) : a.Draws a [] := ⟨.refl a, rfl⟩

/-- What is drawn in two stretches, neither of which brings a new kind. -/
theorem Draws.trans (first : a.Draws b events) (second : b.Draws c more) :
    a.Draws c (events ++ more) :=
  ⟨first.toShows.trans second.toShows, second.kinds.trans first.kinds⟩

/-- Of what the host records, it draws what is a drawing. -/
theorem draws_record (host : Host) (events : List HostEvent) :
    host.Draws (host.record events) (events.filter HostEvent.isDrawing) :=
  ⟨⟨List.filter_append .., rfl, rfl, List.Subset.refl _⟩, rfl⟩

/-- A host that makes or refuses a reporter draws nothing. -/
theorem createReporter_draws (host : Host) (session : Nat) (title : Option String) :
    host.Draws (host.createReporter session title).2 [] := by
  unfold createReporter await
  split
  · split <;> exact ⟨.of_eq rfl rfl rfl (List.Subset.refl _), rfl⟩
  · split <;> exact ⟨⟨List.filter_append .., rfl, rfl, List.Subset.refl _⟩, rfl⟩

/-- All decorations are drawings. -/
theorem filter_decorated (kind : Nat) (items : View → List Decoration) (views : List View) :
    (views.map fun view => HostEvent.decorated kind view.id (items view)).filter
        HostEvent.isDrawing =
      views.map fun view => HostEvent.decorated kind view.id (items view) := by
  refine List.filter_eq_self.mpr fun event member => ?_
  obtain ⟨_, -, rfl⟩ := List.mem_map.mp member
  rfl

/-- What a reporter hears is none. -/
theorem filter_reporter (events : List ReporterEvent) :
    (events.map HostEvent.reporter).filter HostEvent.isDrawing = [] := by
  refine List.filter_eq_nil_iff.mpr fun event member => ?_
  obtain ⟨_, -, rfl⟩ := List.mem_map.mp member
  exact Bool.false_ne_true

end Host

/-! ## Sessions that keep a slate -/

namespace Session

/-- A session listens to what is published, and this waits. -/
abbrev Watches (s : Session) (waiting : List Json) : Prop :=
  s.connection.Tunes diagnosticsFeed PublishedDiagnostics.method true waiting

/-- What the server has published and the session has not seen yet. -/
def unseen (s : Session) : List Json := s.connection.waiting diagnosticsFeed

/-- A session whose diagnostics are those on a slate, and which draws in the kind of its number. -/
structure Mirrors (n : Nat) (s : Session) (slate : Slate) : Prop where
  tunes : ∃ waiting, s.Watches waiting
  kind : s.decorationKind = n + 1
  held : ∀ document, s.diagnosticsOf document = slate.held document
  torn : s.isDisposed = slate.isTorn

/-- A session that is attached mirrors a fresh slate, in the kind that comes next. -/
theorem attach_mirrors (root : Option Url) (n : Nat) (suffix : String) :
    (attach root (n + 1) suffix).Mirrors n .fresh :=
  ⟨⟨[], rfl⟩, rfl, fun _ => rfl, rfl⟩

/-- The diagnostics of a document are in place of those it had, and no others change. -/
theorem diagnosticsOf_keepDiagnostics (s : Session) (document : Url) (diagnostics : List Diagnostic)
    (other : Url) : (s.keepDiagnostics document diagnostics).diagnosticsOf other =
      if other = document then some diagnostics else s.diagnosticsOf other := by
  unfold diagnosticsOf keepDiagnostics
  dsimp only
  induction s.diagnostics with
  | nil =>
    by_cases same : other = document
    · simp [same]
    · simp [List.lookup_cons, same, beq_eq_false_iff_ne.mpr same]
  | cons entry entries ih =>
    rw [List.filter_cons, List.lookup_cons]
    by_cases mine : entry.1 = document
    · rw [if_neg (by simp [mine]), ih]
      by_cases same : other = document
      · simp [same]
      · have apart : (other == entry.1) = false := beq_eq_false_iff_ne.mpr (mine ▸ same)
        simp [same, apart]
    · rw [if_pos (by simp [mine]), List.cons_append, List.lookup_cons, ih]
      by_cases found : other = entry.1
      · simp [found, mine]
      · have apart : (other == entry.1) = false := beq_eq_false_iff_ne.mpr found
        simp [apart]

/-- The documents that a session has diagnostics of. -/
theorem mem_diagnostics_iff (s : Session) (document : Url) :
    document ∈ s.diagnostics.map Prod.fst ↔ (s.diagnosticsOf document).isSome = true := by
  rw [diagnosticsOf, List.lookup_isSome_iff, List.mem_map]
  exact exists_congr fun entry => and_congr_right fun _ => by rw [beq_iff_eq, eq_comm]

end Session

namespace Hosted

variable {rewriter : Rewriter} {options : ClientOptions} {h k l : Hosted} {slate : Slate}
  {sights more : List Sight} {taken : List Json} {opened : Nat}

/-- What a session does goes along with cues to its slate, while it takes some of what waits. -/
structure Draws (rewriter : Rewriter) (h k : Hosted) (slate : Slate) (sights : List Sight)
    (taken : List Json) (opened : Nat) : Prop where
  number : k.number = h.number
  mirrors : k.session.Mirrors h.number (slate.play rewriter (h.number + 1) sights).1
  unseen : h.session.unseen = taken ++ k.session.unseen
  opened : h.session.openedDocuments = opened + k.session.openedDocuments
  views : ∀ sight ∈ sights, sight.views = h.host.views
  host : h.host.Draws k.host (slate.play rewriter (h.number + 1) sights).2

/-- What a session does in two steps goes along with the cues of the first and then those of the second.
What it takes from the feed, and the documents that it heeds, add up. -/
theorem Draws.trans {taken' : List Json} {opened' : Nat}
    (first : Draws rewriter h k slate sights taken opened)
    (second : Draws rewriter k l (slate.play rewriter (h.number + 1) sights).1 more taken' opened') :
    Draws rewriter h l slate (sights ++ more) (taken ++ taken') (opened + opened') where
  number := second.number.trans first.number
  mirrors := by
    have mirrors := second.mirrors
    rw [first.number] at mirrors
    rw [Slate.play_append]
    exact mirrors
  unseen := by rw [first.unseen, second.unseen, List.append_assoc]
  opened := by rw [first.opened, second.opened, Nat.add_assoc]
  views sight member := by
    rcases List.mem_append.mp member with member | member
    · exact first.views sight member
    · exact (second.views sight member).trans first.host.views
  host := by
    rw [Slate.play_append]
    have host := second.host
    rw [first.number] at host
    exact first.host.trans host


/-- Whatever slate a session keeps, what it does goes along with cues to it, and the notifications among
them are what it has taken. -/
def Renders (rewriter : Rewriter) (h k : Hosted) : Prop :=
  .setDecorations ∉ h.host.armed → ∀ slate, h.session.Mirrors h.number slate → ∃ sights,
    Draws rewriter h k slate sights (sights.filterMap fun sight => sight.cue.params?)
      (sights.countP fun sight => sight.cue.isOpened)

/-- Rendering composes. It is stated for all slates, so the second step takes up the slate that the first
has left, and the host is still not armed. -/
theorem Renders.trans (first : Renders rewriter h k) (second : Renders rewriter k l) :
    Renders rewriter h l := by
  intro unarmed slate mirrors
  obtain ⟨sights, drawn⟩ := first unarmed slate mirrors
  have calm : .setDecorations ∉ k.host.armed := fun armed => unarmed (drawn.host.armed armed)
  have mirrors' := drawn.mirrors
  rw [← drawn.number] at mirrors'
  obtain ⟨more, drawn'⟩ := second calm _ mirrors'
  rw [drawn.number] at drawn'
  have both := drawn.trans drawn'
  rw [← List.filterMap_append, ← List.countP_append] at both
  exact ⟨sights ++ more, both⟩

/-- A session does what is nothing to its diagnostics, nor to what it has taken of them. -/
structure Passes (h k : Hosted) : Prop where
  number : k.number = h.number
  kind : k.session.decorationKind = h.session.decorationKind
  diagnostics : k.session.diagnostics = h.session.diagnostics
  disposed : k.session.isDisposed = h.session.isDisposed
  opened : k.session.openedDocuments = h.session.openedDocuments
  tunes : ∀ {waiting : List Json}, h.session.Watches waiting → k.session.Watches waiting
  host : h.host.Draws k.host []

/-- Doing nothing passes. -/
theorem Passes.refl (h : Hosted) : Passes h h := ⟨rfl, rfl, rfl, rfl, rfl, id, .refl _⟩

/-- Two things that are nothing to the diagnostics are nothing to them together. -/
theorem Passes.trans (first : Passes h k) (second : Passes k l) : Passes h l where
  number := second.number.trans first.number
  kind := second.kind.trans first.kind
  diagnostics := second.diagnostics.trans first.diagnostics
  disposed := second.disposed.trans first.disposed
  opened := second.opened.trans first.opened
  tunes tunes := second.tunes (first.tunes tunes)
  host := first.host.trans second.host

/-- A session that does what is nothing to its diagnostics mirrors the slate that it did. -/
theorem Passes.mirrors (passes : Passes h k) {n : Nat} (mirrors : h.session.Mirrors n slate) :
    k.session.Mirrors n slate where
  tunes := have ⟨waiting, tunes⟩ := mirrors.tunes; ⟨waiting, passes.tunes tunes⟩
  kind := passes.kind.trans mirrors.kind
  held document := by
    rw [← mirrors.held, Session.diagnosticsOf, passes.diagnostics]
    rfl
  torn := passes.disposed.trans mirrors.torn

/-- It goes along with no cue, takes nothing and heeds no document. -/
theorem Passes.draws (rewriter : Rewriter) (passes : Passes h k)
    (mirrors : h.session.Mirrors h.number slate) : Draws rewriter h k slate [] [] 0 where
  number := passes.number
  mirrors := passes.mirrors mirrors
  unseen := by
    obtain ⟨waiting, tunes⟩ := mirrors.tunes
    simp only [Session.unseen, tunes.waiting_eq, (passes.tunes tunes).waiting_eq, List.nil_append]
  opened := by rw [passes.opened, Nat.zero_add]
  views := by rintro sight ⟨⟩
  host := passes.host

/-- What is nothing to a slate may still be a cue that changes nothing. -/
theorem Passes.draws_nothing (passes : Passes h k) (mirrors : h.session.Mirrors h.number slate)
    {cue : Cue} (nothing : slate.after rewriter (h.number + 1) ⟨cue, h.host.views⟩ = (slate, [])) :
    Draws rewriter h k slate [⟨cue, h.host.views⟩] [] 0 := by
  obtain ⟨number, mirrors, unseen, opened, -, host⟩ := passes.draws rewriter mirrors
  refine ⟨number, ?_, unseen, opened, ?_, ?_⟩
  · rw [Slate.play_single, nothing]
    exact mirrors
  · intro sight member
    rw [List.mem_singleton.mp member]
  · rw [Slate.play_single, nothing]
    exact host

/-- So it renders, whatever the slate. -/
theorem Passes.renders (passes : Passes h k) : Renders rewriter h k :=
  fun _ _ mirrors => ⟨[], passes.draws rewriter mirrors⟩

/-- Going through a list in steps that are nothing to the diagnostics is nothing to them. -/
theorem foldl_passes {α : Type} {step : Hosted → α → Hosted}
    (each : ∀ h a, Passes h (step h a)) (items : List α) (h : Hosted) :
    Passes h (items.foldl step h) := by
  induction items generalizing h with
  | nil => exact .refl h
  | cons item items ih => exact (each h item).trans (ih _)

/-- A session that has only told its server something has drawn nothing. -/
theorem Stays.passes (stays : Stays h k) : Passes h k where
  number := stays.number
  kind := by rw [stays.session]
  diagnostics := by rw [stays.session]
  disposed := by rw [stays.session]
  opened := by rw [stays.session]
  tunes tunes := tunes.mute stays.mute
  host := ⟨.of_eq (by unfold Host.drawings; rw [stays.host]) (by rw [stays.host])
    (by rw [stays.host]) stays.armed, by rw [stays.host]⟩

/-! ## Tearing down -/

/-- Changing the board of the reporters is nothing to the diagnostics, whatever the reporters hear. -/
theorem withBoard_passes (h : Hosted) (change : ProgressBoard × List ReporterEvent) :
    Passes h (h.withBoard change) := by
  have told := h.host.draws_record (change.2.map .reporter)
  rw [Host.filter_reporter] at told
  exact ⟨rfl, rfl, rfl, rfl, rfl, id, told⟩

/-- What a session draws when it is torn down is what becomes of its slate. -/
theorem emptied_eq (mirrors : h.session.Mirrors h.number slate) (untorn : slate.isTorn = false) :
    h.emptied = (slate.after rewriter (h.number + 1) ⟨.tearDown, h.host.views⟩).2 := by
  rw [Slate.after_tearDown untorn]
  unfold emptied clearings
  rw [mirrors.kind]
  refine congrArg (List.map _) (List.filter_congr fun view _ => ?_)
  rw [← mirrors.held, Bool.eq_iff_iff, decide_eq_true_iff]
  exact h.session.mem_diagnostics_iff view.document

/-- Disposing a session brings one cue to its slate, its end, and none if it is disposed already. The views
that it empties are those that the slate empties. -/
theorem dispose_renders (h : Hosted) : Renders rewriter h h.dispose := by
  intro unarmed slate mirrors
  cases live : h.session.isDisposed with
  | true =>
    rw [dispose_of_disposed live]
    exact (Passes.refl h).renders unarmed slate mirrors
  | false =>
    have untorn : slate.isTorn = false := mirrors.torn.symm.trans live
    obtain ⟨waiting, tunes⟩ := mirrors.tunes
    have closed : Session.Watches { h.session with
        connection := h.session.connection.close.record h.farewell } waiting :=
      (Connection.Tunes.close tunes).mute ⟨rfl, rfl⟩
    have drawn : (h.emptied ++ h.session.progress.completeAll.2.map HostEvent.reporter).filter
        HostEvent.isDrawing =
          (slate.after rewriter (h.number + 1) ⟨.tearDown, h.host.views⟩).2 := by
      rw [← emptied_eq mirrors untorn, List.filter_append, Host.filter_reporter, List.append_nil]
      exact Host.filter_decorated ..
    refine ⟨[⟨.tearDown, h.host.views⟩], ?_⟩
    rw [dispose_unarmed unarmed live]
    refine ⟨rfl, ?_, ?_, (Nat.zero_add _).symm, ?_, ?_⟩
    · rw [Slate.play_single, Slate.after_tearDown untorn]
      exact ⟨⟨waiting, closed⟩, mirrors.kind, fun _ => rfl, rfl⟩
    · exact tunes.waiting_eq.trans closed.waiting_eq.symm
    · intro sight member
      rw [List.mem_singleton.mp member]
    · rw [Slate.play_single, ← drawn]
      have withdrawn : h.host.Draws (h.host.withdraw h.session.registrations.providers) [] :=
        ⟨.of_eq rfl rfl rfl (List.Subset.refl _), rfl⟩
      exact withdrawn.trans (Host.draws_record _ _)

/-- A callback brings no cue unless the host ends the client in it, and then it brings that of the end. The
callback by which the host draws is not armed, so it is another one. -/
theorem callback_renders (h : Hosted) (call : HostCall) : Renders rewriter h (h.callback call) := by
  obtain ⟨k, stays, called | called⟩ := callback_cases h call
  · rw [called]
    exact stays.passes.renders
  · rw [called]
    exact stays.passes.renders.trans (dispose_renders k)

/-! ## Showing -/

/-- Draining another feed leaves what is published waiting as it is. -/
theorem drainAs_passes {α : Type} (h : Hosted) (method : String) (decode : Json → Option α)
    {feed : Nat} (other : feed ≠ Session.diagnosticsFeed) :
    Passes h (h.drainAs method decode feed).2 := by
  obtain ⟨log, drained⟩ := h.drainAs_eq method decode feed
  rw [drained]
  exact ⟨rfl, rfl, rfl, rfl, rfl,
    fun tunes => (tunes.apart Feed.emptied other).mute ⟨rfl, rfl⟩, .refl _⟩

/-- Passing log messages on is nothing to the diagnostics. -/
theorem forwardLog_passes (h : Hosted) : Passes h h.forwardLog :=
  (drainAs_passes h _ _ (by decide)).trans (foldl_passes (fun _ _ => (note_stays ..).passes) _ _)

/-- Views are drawn one after the other, and what is drawn in them is added to what has happened in their
order. That no callback ends the client is what keeps the session as it is meanwhile. -/
theorem foldl_render (unarmed : .setDecorations ∉ h.host.armed)
    (mirrors : h.session.Mirrors h.number slate) (views : List View) :
    views.foldl render h =
      { h with host := h.host.record (slate.draw (h.number + 1) views) } := by
  induction views generalizing h with
  | nil => simp [Slate.draw, Host.record]
  | cons view views ih =>
    let k : Hosted := { h with host := h.host.record (slate.draw (h.number + 1) [view]) }
    have first : h.render view = k := by
      rw [render_eq unarmed, mirrors.held, decorate, mirrors.kind]
      rfl
    rw [List.foldl_cons, first, ih (h := k) unarmed mirrors]
    simp [k, Slate.draw, Host.record]

/-- The views that are drawn on a cue are drawn from the slate that is left by it. -/
theorem draws_views {s : Session} {after : Slate} {views : List View} {cue : Cue}
    (unarmed : .setDecorations ∉ h.host.armed) (mirrors : s.Mirrors h.number after)
    (unseen : s.unseen = h.session.unseen)
    (opened : s.openedDocuments = h.session.openedDocuments)
    (comes : slate.after rewriter (h.number + 1) ⟨cue, h.host.views⟩ =
      (after, after.draw (h.number + 1) views)) :
    Draws rewriter h (views.foldl render { h with session := s }) slate
      [⟨cue, h.host.views⟩] [] 0 := by
  rw [foldl_render (h := { h with session := s }) unarmed mirrors]
  refine ⟨rfl, ?_, unseen.symm, opened.symm.trans (Nat.zero_add _).symm, ?_, ?_⟩
  · rw [Slate.play_single, comes]
    exact mirrors
  · intro sight member
    rw [List.mem_singleton.mp member]
  · rw [Slate.play_single, comes]
    have drawn := h.host.draws_record (after.draw (h.number + 1) views)
    rw [Slate.draw, Host.filter_decorated] at drawn
    exact drawn

/-- Drawing all visible views is what a slate does when a document is opened. -/
theorem renderVisible_draws (unarmed : .setDecorations ∉ h.host.armed)
    (mirrors : h.session.Mirrors h.number slate) (untorn : slate.isTorn = false) :
    Draws rewriter h h.renderVisible slate [⟨.opened, h.host.views⟩] [] 0 :=
  draws_views unarmed mirrors rfl rfl (Slate.after_opened untorn)

/-- A notification whose document the host can have is accepted. -/
theorem accepted_of_decoded (rewriter : Rewriter) {params : Json} {published : PublishedDiagnostics}
    (decoded : PublishedDiagnostics.ofJson? params = some published) :
    PublishedDiagnostics.accepted? rewriter params =
      (rewriter.ofReference published.uri).toOption.map (·, published.diagnostics) := by
  rw [PublishedDiagnostics.accepted?, decoded]
  rfl

/-- Taking over what was published is what a slate does on the notification: it is rejected, or accepted
with the views of the document drawn. -/
theorem publish_draws (unarmed : .setDecorations ∉ h.host.armed)
    (mirrors : h.session.Mirrors h.number slate) (untorn : slate.isTorn = false) {params : Json}
    {published : PublishedDiagnostics}
    (decoded : PublishedDiagnostics.ofJson? params = some published) :
    Draws rewriter h (h.publish rewriter published) slate
      [⟨.published params, h.host.views⟩] [] 0 := by
  have accepted := accepted_of_decoded rewriter decoded
  unfold publish
  split
  next failure unmapped =>
    rw [unmapped] at accepted
    have noted := (note_stays h .diagnostics .warn "dropping diagnostics for unmappable document"
      [("error", failure.message)]).passes
    exact noted.draws_nothing mirrors (Slate.after_rejected accepted)
  next document mapped =>
    rw [mapped] at accepted
    have kept : (h.session.keepDiagnostics document published.diagnostics).Mirrors h.number
        (slate.accept document published.diagnostics) := by
      refine ⟨mirrors.tunes, mirrors.kind, fun other => ?_, mirrors.torn⟩
      rw [Session.diagnosticsOf_keepDiagnostics, mirrors.held]
      exact (Function.update_apply ..).symm
    exact draws_views unarmed kept rfl rfl (Slate.after_accepted untorn accepted)

/-- Cues that come one after the other, none of which is the end of the session. -/
theorem foldl_draws {α : Type} {step : Hosted → α → Hosted} {cue : α → Cue}
    (goes : ∀ a, cue a ≠ .tearDown)
    (each : ∀ {h : Hosted} {slate : Slate} (a : α), .setDecorations ∉ h.host.armed →
      h.session.Mirrors h.number slate → slate.isTorn = false →
        Draws rewriter h (step h a) slate [⟨cue a, h.host.views⟩] [] 0)
    (items : List α) (unarmed : .setDecorations ∉ h.host.armed)
    (mirrors : h.session.Mirrors h.number slate) (untorn : slate.isTorn = false) :
    Draws rewriter h (items.foldl step h) slate
      (items.map fun a => ⟨cue a, h.host.views⟩) [] 0 ∧
        (slate.play rewriter (h.number + 1)
          (items.map fun a => ⟨cue a, h.host.views⟩)).1.isTorn = false := by
  induction items generalizing h slate with
  | nil => exact ⟨(Passes.refl h).draws rewriter mirrors, untorn⟩
  | cons item items ih =>
    have first := each item unarmed mirrors untorn
    have still : (slate.play rewriter (h.number + 1)
        [⟨cue item, h.host.views⟩]).1.isTorn = false := by
      rw [Slate.play_single, Slate.isTorn_after (goes item)]
      exact untorn
    have mirrors' := first.mirrors
    rw [← first.number] at mirrors' still
    obtain ⟨rest, last⟩ := ih (fun armed => unarmed (first.host.armed armed)) mirrors' still
    rw [first.number, first.host.views] at rest last
    refine ⟨first.trans rest, ?_⟩
    rw [List.map_cons, ← List.singleton_append, Slate.play_append]
    exact last

/-- What was taken from the feed comes to the slate in its order; what does not decode is nothing. -/
theorem published_draws (rewriter : Rewriter) (params : List Json)
    (unarmed : .setDecorations ∉ h.host.armed)
    (mirrors : h.session.Mirrors h.number slate) (untorn : slate.isTorn = false) :
    Draws rewriter h ((params.filterMap PublishedDiagnostics.ofJson?).foldl
        (fun h published => h.publish rewriter published) h) slate
        (params.map fun params => ⟨.published params, h.host.views⟩) [] 0 ∧
      (slate.play rewriter (h.number + 1)
        (params.map fun params => ⟨.published params, h.host.views⟩)).1.isTorn = false := by
  rw [List.foldl_filterMap]
  refine foldl_draws (by simp) (fun {h slate} params unarmed mirrors untorn => ?_) params unarmed
    mirrors untorn
  split
  next published decoded => exact publish_draws unarmed mirrors untorn decoded
  next malformed =>
    have rejected : PublishedDiagnostics.accepted? rewriter params = none := by
      rw [PublishedDiagnostics.accepted?, malformed]
      rfl
    exact (Passes.refl h).draws_nothing mirrors (Slate.after_rejected rejected)

/-- A session takes all that waits in the feed. Afterwards it has seen everything that was published to it,
and what of that decodes is handed on. -/
theorem drainDiagnostics_draws (rewriter : Rewriter)
    (mirrors : h.session.Mirrors h.number slate) :
    ∃ k, h.drainAs PublishedDiagnostics.method PublishedDiagnostics.ofJson?
        Session.diagnosticsFeed =
          (h.session.unseen.filterMap PublishedDiagnostics.ofJson?, k) ∧
      k.host = h.host ∧ Draws rewriter h k slate [] h.session.unseen 0 := by
  obtain ⟨log, drained⟩ := h.drainAs_eq PublishedDiagnostics.method PublishedDiagnostics.ofJson?
    Session.diagnosticsFeed
  obtain ⟨waiting, tunes⟩ := mirrors.tunes
  have emptied : Session.Watches { h.session with connection :=
      { (h.session.connection.drain Session.diagnosticsFeed).2 with log } } [] :=
    (Connection.Tunes.self tunes Feed.emptied rfl).mute ⟨rfl, rfl⟩
  refine ⟨h.withConnection { (h.session.connection.drain Session.diagnosticsFeed).2 with log },
    drained, rfl, rfl, ⟨⟨[], emptied⟩, mirrors.kind, mirrors.held, mirrors.torn⟩, ?_,
    (Nat.zero_add _).symm, ?_, .refl _⟩
  · exact (List.append_nil _).symm.trans (congrArg _ emptied.waiting_eq.symm)
  · rintro sight ⟨⟩

/-- What comes to the slate of a session that follows what is published. -/
def awaited (h : Hosted) : List Sight :=
  h.session.unseen.map (fun params => ⟨.published params, h.host.views⟩) ++
    (List.replicate h.session.openedDocuments ()).map fun _ => ⟨.opened, h.host.views⟩

/-- What is published among the awaited cues is what the session has not seen. -/
theorem params_awaited (h : Hosted) :
    h.awaited.filterMap (fun sight => sight.cue.params?) = h.session.unseen := by
  simp [awaited, Cue.params?, List.filterMap_map]

/-- The documents among them are those that it has not heeded. -/
theorem opened_awaited (h : Hosted) :
    h.awaited.countP (fun sight => sight.cue.isOpened) = h.session.openedDocuments := by
  simp [awaited, Cue.isOpened, List.countP_map, List.countP_replicate, Function.comp_def]

/-- A session that follows what is published takes all that waits, and draws what comes of it. -/
theorem followDiagnostics_draws (rewriter : Rewriter) (unarmed : .setDecorations ∉ h.host.armed)
    (mirrors : h.session.Mirrors h.number slate) (untorn : slate.isTorn = false) :
    Draws rewriter h (h.followDiagnostics rewriter) slate h.awaited h.session.unseen
      h.session.openedDocuments := by
  obtain ⟨k, drained, host, took⟩ := drainDiagnostics_draws rewriter mirrors
  have mirrors' := took.mirrors
  rw [← took.number] at mirrors'
  obtain ⟨shown, still⟩ := published_draws rewriter h.session.unseen (host ▸ unarmed) mirrors' untorn
  unfold followDiagnostics
  rw [drained]
  dsimp only
  generalize (h.session.unseen.filterMap PublishedDiagnostics.ofJson?).foldl
    (fun h published => h.publish rewriter published) k = l at shown ⊢
  rw [host, took.number] at shown still
  -- What was published has been drawn; the documents that were opened meanwhile come last.
  have taken := took.trans shown
  have opened : h.session.openedDocuments = l.session.openedDocuments :=
    taken.opened.trans (Nat.zero_add _)
  have mirrored := taken.mirrors
  rw [← taken.number] at mirrored still
  let m : Hosted := { l with session := { l.session with openedDocuments := 0 } }
  have forgot : Draws rewriter l m _ [] [] l.session.openedDocuments :=
    ⟨rfl, ⟨mirrored.tunes, mirrored.kind, mirrored.held, mirrored.torn⟩, rfl, rfl,
      by rintro sight ⟨⟩, .refl _⟩
  have calm : .setDecorations ∉ m.host.armed := fun armed => unarmed (taken.host.armed armed)
  have rest : Draws rewriter m ((List.replicate l.session.openedDocuments ()).foldl
      (fun h _ => h.renderVisible) m) _ ((List.replicate l.session.openedDocuments ()).map
        fun _ => ⟨.opened, m.host.views⟩) [] 0 :=
    (foldl_draws (by simp) (fun _ => renderVisible_draws) _ calm forgot.mirrors still).1
  have views : m.host.views = h.host.views := taken.host.views
  have last := forgot.trans rest
  rw [taken.number, views] at last
  have all := taken.trans last
  unfold awaited
  rw [← opened]
  simp only [List.nil_append, List.append_nil, Nat.zero_add, Nat.add_zero, ← opened] at all
  exact all

/-- The task of the diagnostics renders in a session that follows its server. -/
theorem followDiagnostics_renders (active : h.session.isActive = true) :
    Renders rewriter h (h.followDiagnostics rewriter) := by
  intro unarmed slate mirrors
  have drawn := followDiagnostics_draws rewriter unarmed mirrors
    (mirrors.torn.symm.trans (Session.live_of_active active))
  refine ⟨h.awaited, ?_⟩
  rw [params_awaited, opened_awaited]
  exact drawn

/-! ## Progress -/

/-- Asking the host for a reporter renders: the host may end the client from inside the callback, which is
not the one that draws. -/
theorem makeReporter_renders (rewriter : Rewriter) (h : Hosted) (call : Nat) :
    Renders rewriter h (h.makeReporter call) := by
  unfold makeReporter
  split
  · exact (Passes.refl h).renders
  next title _ =>
    have asked : Passes h { h with host := (h.host.createReporter h.number title).2 } :=
      ⟨rfl, rfl, rfl, rfl, rfl, id, h.host.createReporter_draws ..⟩
    split
    next eq => rw [eq] at asked; exact asked.renders
    next eq => rw [eq] at asked; exact (asked.trans (withBoard_passes ..)).renders
    next eq =>
      rw [eq] at asked
      exact (asked.renders.trans (callback_renders _ _)).trans (withBoard_passes ..).renders

/-- Which notification of progress is being handled is nothing to the diagnostics. -/
theorem handling_passes (h : Hosted) (handling : Option Nat) :
    Passes h { h with session := { h.session with handling } } :=
  ⟨rfl, rfl, rfl, rfl, rfl, id, .refl _⟩

/-- Handling a notification of progress renders, for the sake of the reporter that it may ask for. -/
theorem handleProgress_renders (h : Hosted) (call : Nat) :
    Renders rewriter h (h.handleProgress call) := by
  have made := (withBoard_passes h (h.session.progress.advance call)).renders.trans
    (makeReporter_renders rewriter _ call)
  unfold handleProgress
  dsimp only
  split
  · exact made.trans (handling_passes ..).renders
  · split
    · exact made.trans (handling_passes ..).renders
    · exact (made.trans (handling_passes _ none).renders).trans (note_stays ..).passes.renders

/-- So does taking up the next one, which reads another feed: the diagnostics that wait are the same before
and after. -/
theorem nextProgress_renders (h : Hosted) : Renders rewriter h h.nextProgress := by
  unfold nextProgress
  split
  · exact (Passes.refl h).renders
  next params connection eq =>
    obtain rfl : (h.session.connection.next Session.progressFeed).2 = connection :=
      congrArg Prod.snd eq
    have read : Passes h (h.withConnection ((h.session.connection.next Session.progressFeed).2.decoded
        ProgressParams.method ProgressParams.ofJson? params).2) := by
      refine ⟨rfl, rfl, rfl, rfl, rfl, fun {waiting} tunes => ?_, .refl _⟩
      have apart : (h.session.connection.next Session.progressFeed).2.Tunes Session.diagnosticsFeed
          PublishedDiagnostics.method true waiting := tunes.apart Feed.tail (by decide)
      exact apart.mute (Connection.decoded_mute ..)
    dsimp only
    split
    · exact read.renders
    next params _ =>
      have begun (k : Hosted) (progress : ProgressBoard) :
          Passes k { k with session := { k.session with progress } } :=
        ⟨rfl, rfl, rfl, rfl, rfl, id, .refl _⟩
      exact (read.trans (begun _ _)).renders.trans (handleProgress_renders _ _)

/-- And handling several, by induction on the steps: each of them only renders, and what a slate is after
two is what it is after both cues. -/
theorem progressSteps_renders (steps : Nat) (h : Hosted) :
    Renders rewriter h (progressSteps steps h) := by
  induction steps generalizing h with
  | zero => exact (Passes.refl h).renders
  | succ steps ih =>
    unfold progressSteps
    split
    · dsimp only
      split
      · exact handleProgress_renders _ _
      · exact (handleProgress_renders _ _).trans (ih _)
    · exact (nextProgress_renders h).trans (ih _)

/-! ## All deeds -/

/-- Whatever a session does goes along with cues to its slate. Following its diagnostics and being disposed
bring some, following its progress may, and the rest passes the slate by. -/
theorem Deed.renders (deed : Deed options h k) : Renders options.rewriter h k := by
  cases deed with
  | stay stays => exact stays.passes.renders
  | dispose => exact dispose_renders h
  | forwardLog => exact (forwardLog_passes h).renders
  | followDiagnostics active => exact followDiagnostics_renders active
  | followProgress => exact progressSteps_renders _ h
  | leave =>
    have left : Passes h { h with session := { h.session with isReleased := true } } :=
      ⟨rfl, rfl, rfl, rfl, rfl, id, .refl _⟩
    exact left.renders
  | cut =>
    have left : Passes h (h.withConnection h.session.connection.release) :=
      ⟨rfl, rfl, rfl, rfl, rfl, fun tunes => Connection.Tunes.release tunes, .refl _⟩
    exact left.renders

end Hosted

end LanguageClient
