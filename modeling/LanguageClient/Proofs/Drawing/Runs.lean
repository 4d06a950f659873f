import LanguageClient.Proofs.Drawing.Sessions
import LanguageClient.Proofs.Teardown.Silence
import LanguageClient.Proofs.World.Conduct

/-!
# Decorations in runs

In every run in which the host does not end the client from inside the callback by which it draws, it draws
what the slates of the sessions make of some cues (`World.run_portrays`), and these cues are no invention:
the notifications among them are what the servers have published, in the order in which it was read,
malformed ones included, and the others are the documents of which the sessions were told and the ends of
the sessions. Each cue comes with the views that are visible when it comes, and after it they show what was
last accepted of their documents.

A host that does end the client from inside that callback sees more drawn afterwards
(`World.run_overdraws`). Nothing is said of when a cue comes; that is up to the order of the moves. Between
two cues a view may show what has been overtaken, or nothing if it is new.
-/

namespace LanguageClient

/-- What is published among the cues for one session. -/
def publishedIn (entries : List (Nat × Sight)) (n : Nat) : List Json :=
  (sightsFor entries n).filterMap fun sight => sight.cue.params?

/-- How many of the cues for one session are documents that were opened. -/
def openedIn (entries : List (Nat × Sight)) (n : Nat) : Nat :=
  (sightsFor entries n).countP fun sight => sight.cue.isOpened

/-- What is published among cues that come one after the other. -/
theorem publishedIn_append (first second : List (Nat × Sight)) (n : Nat) :
    publishedIn (first ++ second) n = publishedIn first n ++ publishedIn second n := by
  simp only [publishedIn, sightsFor_append, List.filterMap_append]

/-- How many documents are opened by cues that come one after the other. -/
theorem openedIn_append (first second : List (Nat × Sight)) (n : Nat) :
    openedIn (first ++ second) n = openedIn first n + openedIn second n := by
  simp only [openedIn, sightsFor_append, List.countP_append]

/-! ## The sessions and the host -/

namespace Scene

variable {rewriter : Rewriter} {options : ClientOptions} {c d e : Scene} {slates : Slates}
  {entries more : List (Nat × Sight)} {n : Nat}

/-- Every session keeps its slate, and a session that is still to come will have a fresh one. -/
structure Mirrors (c : Scene) (slates : Slates) : Prop where
  kept : ∀ {n : Nat} {s : Session}, c.sessions[n]? = some s → s.Mirrors n (slates n)
  fresh : ∀ n, c.sessions.length ≤ n → slates n = .fresh
  kinds : c.host.lastDecorationKind = c.sessions.length

/-- What a server has published and its session has not seen yet. -/
def unseen (c : Scene) (n : Nat) : List Json := c.ofSession n Session.unseen []

/-- The documents of which a session was told and which it has not heeded yet. -/
def unheeded (c : Scene) (n : Nat) : Nat := c.ofSession n Session.openedDocuments 0

/-- What happens goes along with cues to the slates. -/
structure Draws (rewriter : Rewriter) (c d : Scene) (slates : Slates)
    (entries : List (Nat × Sight)) : Prop where
  mirrors : d.Mirrors (slates.play rewriter entries).1
  unseen : ∀ n, c.unseen n = publishedIn entries n ++ d.unseen n
  unheeded : ∀ n, c.unheeded n = openedIn entries n + d.unheeded n
  views : ∀ entry ∈ entries, entry.2.views = c.host.views
  host : c.host.Shows d.host (slates.play rewriter entries).2

/-- Nothing happens, and no cue comes to any slate. -/
theorem Draws.refl (mirrors : c.Mirrors slates) : Draws rewriter c c slates [] :=
  ⟨mirrors, fun _ => rfl, fun _ => (Nat.zero_add _).symm, by rintro entry ⟨⟩, .refl _⟩

/-- What happens in two stretches brings the cues of the one and then those of the other. The views are the
same throughout, as no session shows or hides one. -/
theorem Draws.trans (first : Draws rewriter c d slates entries)
    (second : Draws rewriter d e (slates.play rewriter entries).1 more) :
    Draws rewriter c e slates (entries ++ more) where
  mirrors := by
    rw [Slates.play_append]
    exact second.mirrors
  unseen n := by rw [first.unseen, second.unseen, publishedIn_append, List.append_assoc]
  unheeded n := by rw [first.unheeded, second.unheeded, openedIn_append, Nat.add_assoc]
  views entry member := by
    rcases List.mem_append.mp member with member | member
    · exact first.views entry member
    · exact (second.views entry member).trans first.host.views
  host := by
    rw [Slates.play_append]
    exact first.host.trans second.host

/-- What one session does goes along with cues to its own slate. -/
theorem draws_hosted (mirrors : c.Mirrors slates) {h k : Hosted}
    (found : c.sessions[h.number]? = some h.session) (host : h.host = c.host) {sights : List Sight}
    (drawn : Hosted.Draws rewriter h k (slates h.number) sights
      (sights.filterMap fun sight => sight.cue.params?)
      (sights.countP fun sight => sight.cue.isOpened)) :
    Draws rewriter c ⟨c.sessions.set h.number k.session, k.host⟩ slates
      (sights.map (h.number, ·)) := by
  have inside := (List.getElem?_eq_some_iff.mp found).1
  -- only the slate of this session is written on
  have alone := Slates.play_alone rewriter slates h.number sights
  refine ⟨⟨?_, ?_, ?_⟩, fun n => ?_, fun n => ?_, ?_, ?_⟩
  · intro n s at_n
    rw [alone]
    dsimp only
    by_cases same : n = h.number
    · subst same
      cases (List.getElem?_set_self inside).symm.trans at_n
      rw [Function.update_self]
      exact drawn.mirrors
    · rw [List.getElem?_set_ne (Ne.symm same)] at at_n
      rw [Function.update_of_ne same]
      exact mirrors.kept at_n
  · intro n beyond
    rw [List.length_set] at beyond
    have elsewhere : n ≠ h.number := Nat.ne_of_gt (Nat.lt_of_lt_of_le inside beyond)
    rw [alone]
    exact (Function.update_of_ne elsewhere ..).trans (mirrors.fresh n beyond)
  · rw [List.length_set, ← mirrors.kinds, ← host]
    exact drawn.host.kinds
  · unfold unseen publishedIn
    rw [sightsFor_single, ofSession_set inside]
    by_cases same : h.number = n
    · subst same
      rw [if_pos rfl, if_pos rfl, ofSession_of_found found]
      exact drawn.unseen
    · rw [if_neg same, if_neg same]
      rfl
  · unfold unheeded openedIn
    rw [sightsFor_single, ofSession_set inside]
    by_cases same : h.number = n
    · subst same
      rw [if_pos rfl, if_pos rfl, ofSession_of_found found]
      exact drawn.opened
    · rw [if_neg same, if_neg same]
      exact (Nat.zero_add _).symm
  · intro entry member
    obtain ⟨sight, known, rfl⟩ := List.mem_map.mp member
    rw [← host]
    exact drawn.views sight known
  · rw [alone, ← host]
    exact drawn.host.toShows

/-- A new session has seen all that its server has published, which is nothing. -/
theorem draws_attach (mirrors : c.Mirrors slates) (root : Option Url) (suffix : String) :
    Draws rewriter c ⟨c.sessions ++ [Session.attach root (c.host.lastDecorationKind + 1) suffix],
      c.host.newDecorationKind.2⟩ slates [] := by
  have mirrored : (Session.attach root (c.host.lastDecorationKind + 1) suffix).Mirrors
      c.sessions.length .fresh := by
    rw [mirrors.kinds]
    exact Session.attach_mirrors root _ suffix
  have cases := attached_cases c.sessions (.attach root (c.host.lastDecorationKind + 1) suffix)
  refine ⟨⟨?_, ?_, ?_⟩, fun n => ?_, fun n => ?_, by rintro entry ⟨⟩, ?_⟩
  · intro n s at_n
    rcases cases n with old | ⟨rfl, new⟩
    · exact mirrors.kept (old.symm.trans at_n)
    · cases new.symm.trans at_n
      rw [← mirrors.fresh _ (Nat.le_refl _)] at mirrored
      exact mirrored
  · intro n beyond
    rw [List.length_append] at beyond
    exact mirrors.fresh n (Nat.le_of_succ_le beyond)
  · rw [List.length_append, ← mirrors.kinds]
    rfl
  · unfold unseen
    rw [ofSession_attach (show (Session.attach root _ suffix).unseen = [] from rfl)]
    rfl
  · unfold unheeded
    rw [ofSession_attach (show (Session.attach root _ suffix).openedDocuments = 0 from rfl)]
    exact (Nat.zero_add _).symm
  · exact .of_eq rfl rfl rfl (List.Subset.refl _)

/-- Everything that happens goes along with cues to the slates. What is carried out on one session cues the
slate of that session only, and all else cues none. -/
theorem Deed.draws (deed : Deed options c d) (unarmed : .setDecorations ∉ c.host.armed)
    (mirrors : c.Mirrors slates) : ∃ entries, Draws options.rewriter c d slates entries := by
  cases deed with
  | @hosted h k found host deed =>
    obtain ⟨sights, drawn⟩ := deed.renders (host ▸ unarmed) _ (mirrors.kept found)
    exact ⟨_, draws_hosted mirrors found host drawn⟩
  | attach root => exact ⟨[], draws_attach mirrors root _⟩
  | host host same =>
    refine ⟨[], ⟨mirrors.kept, mirrors.fresh, ?_⟩, fun _ => rfl, fun _ => (Nat.zero_add _).symm,
      by rintro entry ⟨⟩, ?_⟩
    · rw [same]
      exact mirrors.kinds
    · rw [same]
      exact .of_eq rfl rfl rfl (List.Subset.refl _)

/-- A sequence of such things goes along with cues too, one after the other. -/
theorem Deeds.draws (deeds : Deeds options c d) (unarmed : .setDecorations ∉ c.host.armed)
    (mirrors : c.Mirrors slates) : ∃ entries, Draws options.rewriter c d slates entries := by
  induction deeds with
  | refl => exact ⟨[], .refl mirrors⟩
  | tail _ deed ih =>
    obtain ⟨entries, drawn⟩ := ih
    obtain ⟨more, drawn'⟩ := deed.draws (fun armed => unarmed (drawn.host.armed armed)) drawn.mirrors
    exact ⟨entries ++ more, drawn.trans drawn'⟩

end Scene

/-! ## Moves -/

/-- The views of a host have ids of their own, and no later view has one of these. -/
structure Host.IsNumbered (host : Host) : Prop where
  ids : (host.views.map View.id).Nodup
  last : ∀ view ∈ host.views, view.id ≤ host.lastView

/-- Views that have not changed are numbered as they were. -/
theorem Host.IsNumbered.of_eq {a b : Host} (numbered : a.IsNumbered) (views : b.views = a.views)
    (lastView : b.lastView = a.lastView) : b.IsNumbered := by
  refine ⟨?_, ?_⟩
  · rw [views]
    exact numbered.ids
  · rw [views, lastView]
    exact numbered.last

/-- A view that is shown gets a number that no view had before. -/
theorem Host.IsNumbered.addView {host : Host} (numbered : host.IsNumbered) (document : Url) :
    (host.addView document).2.IsNumbered := by
  refine ⟨?_, ?_⟩
  · change ((host.views ++ [View.mk (host.lastView + 1) document]).map View.id).Nodup
    rw [List.map_append]
    refine List.Nodup.append numbered.ids (List.nodup_singleton _) ?_
    intro id known last
    obtain ⟨view, member, rfl⟩ := List.mem_map.mp known
    have before := numbered.last view member
    rw [List.mem_singleton.mp last] at before
    exact Nat.lt_irrefl _ before
  · intro view member
    rcases List.mem_append.mp member with old | new
    · exact Nat.le_succ_of_le (numbered.last view old)
    · rw [List.mem_singleton.mp new]
      exact Nat.le_refl _

/-- Hiding a view leaves the others numbered. -/
theorem Host.IsNumbered.removeView {host : Host} (numbered : host.IsNumbered) (view : Nat) :
    (host.removeView view).IsNumbered :=
  ⟨numbered.ids.sublist (List.filter_sublist.map View.id),
    fun found member => numbered.last found (List.mem_filter.mp member).1⟩

namespace World

variable {w v u : World} {slates : Slates} {entries more : List (Nat × Sight)}
  {news : Nat → List Json} {documents : Nat → Nat} {told : List HostEvent} {n : Nat}

/-- What a server publishes by a move. -/
def publishes (w : World) (n : Nat) : Move → List Json
  | .poll (.reader number) =>
    if number = n then
      w.scene.ofSession n (fun s => s.connection.tells PublishedDiagnostics.method .read) []
    else []
  | _ => []

/-- How many documents a session is told of by a move. -/
def opens (w : World) (n : Nat) : Move → Nat
  | .openDocument _ => w.scene.ofSession n (fun s => if s.hearsHost then 1 else 0) 0
  | _ => 0

/-- What a server publishes in a run. -/
def publishesAll (w : World) (n : Nat) : List Move → List Json
  | [] => []
  | move :: moves => w.publishes n move ++ (w.after move).publishesAll n moves

/-- How many documents a session is told of in a run. -/
def opensAll (w : World) (n : Nat) : List Move → Nat
  | [] => 0
  | move :: moves => w.opens n move + (w.after move).opensAll n moves

/-- What happens on the way to another world goes along with cues to the slates, while servers publish
something, sessions are told of documents, and those who watch are told something. -/
structure Draws (w v : World) (news : Nat → List Json) (documents : Nat → Nat)
    (told : List HostEvent) (slates : Slates) (entries : List (Nat × Sight)) : Prop where
  options : v.options = w.options
  mirrors : v.scene.Mirrors (slates.play w.options.rewriter entries).1
  unseen : ∀ n, w.scene.unseen n ++ news n = publishedIn entries n ++ v.scene.unseen n
  unheeded : ∀ n, w.scene.unheeded n + documents n = openedIn entries n + v.scene.unheeded n
  drawings : told.filter HostEvent.isDrawing ++ v.host.drawings =
    w.host.drawings ++ (slates.play w.options.rewriter entries).2
  unarmed : .setDecorations ∉ v.host.armed
  numbered : w.host.IsNumbered → v.host.IsNumbered

/-- What happens to the world in two stretches. What is published in the second comes behind what was
published in the first, although some of that may still be unseen. -/
theorem Draws.trans {news' : Nat → List Json} {documents' : Nat → Nat} {told' : List HostEvent}
    (first : Draws w v news documents told slates entries)
    (second : Draws v u news' documents' told' (slates.play w.options.rewriter entries).1 more) :
    Draws w u (fun n => news n ++ news' n) (fun n => documents n + documents' n) (told ++ told')
      slates (entries ++ more) where
  options := second.options.trans first.options
  mirrors := by
    have mirrors := second.mirrors
    rw [first.options] at mirrors
    rw [Slates.play_append]
    exact mirrors
  unseen n := by
    rw [← List.append_assoc, first.unseen, List.append_assoc, second.unseen, publishedIn_append,
      List.append_assoc]
  unheeded n := by
    have before := first.unheeded n
    have after := second.unheeded n
    rw [openedIn_append]
    omega
  drawings := by
    have drawings := second.drawings
    rw [first.options] at drawings
    rw [Slates.play_append, List.filter_append, List.append_assoc, drawings, ← List.append_assoc,
      first.drawings, List.append_assoc]
  unarmed := second.unarmed
  numbered := second.numbered ∘ first.numbered

/-- Nothing happens. -/
theorem Draws.refl (mirrors : w.scene.Mirrors slates) (unarmed : .setDecorations ∉ w.host.armed) :
    Draws w w (fun _ => []) (fun _ => 0) [] slates [] :=
  ⟨rfl, mirrors, fun _ => List.append_nil _, fun _ => (Nat.zero_add _).symm,
    (List.append_nil _).symm, unarmed, id⟩

/-- What happens to the sessions and the host while nothing new is said and nobody is told of it. -/
theorem Draws.of_scene (options : v.options = w.options) (unarmed : .setDecorations ∉ w.host.armed)
    (drawn : Scene.Draws w.options.rewriter w.scene v.scene slates entries) :
    Draws w v (fun _ => []) (fun _ => 0) [] slates entries where
  options := options
  mirrors := drawn.mirrors
  unseen n := (List.append_nil _).trans (drawn.unseen n)
  unheeded n := drawn.unheeded n
  drawings := drawn.host.drawings
  unarmed armed := unarmed (drawn.host.armed armed)
  numbered numbered := numbered.of_eq drawn.host.views drawn.host.lastView

/-- A sequence of deeds in the world is one in its scene, during which no server publishes anything that is
read, and the views stay as they are. -/
theorem Deeds.draws (deeds : Deeds w v) (unarmed : .setDecorations ∉ w.host.armed)
    (mirrors : w.scene.Mirrors slates) :
    ∃ entries, Draws w v (fun _ => []) (fun _ => 0) [] slates entries ∧
      ∀ entry ∈ entries, entry.2.views = w.host.views := by
  obtain ⟨entries, drawn⟩ := deeds.scene.draws unarmed mirrors
  exact ⟨entries, .of_scene deeds.options unarmed drawn, drawn.views⟩

/-- Reading the connection of another session is no publication of this server. -/
theorem publishes_elsewhere {number : Nat} (elsewhere : number ≠ n) :
    w.publishes n (.poll (.reader number)) = [] := if_neg elsewhere

/-- What a server publishes by the reading of its own connection. -/
theorem publishes_read (w : World) (n : Nat) : w.publishes n (.poll (.reader n)) =
    w.scene.ofSession n (fun s => s.connection.tells PublishedDiagnostics.method .read) [] :=
  if_pos rfl

/-- What a session reads it has not seen yet: it waits in the feed of the diagnostics behind what came
before, and no slate gets a cue for it. -/
theorem read_draws (mirrors : w.scene.Mirrors slates) (unarmed : .setDecorations ∉ w.host.armed)
    (number : Nat) : Draws w (w.onConnection number Connection.read)
      (w.publishes · (.poll (.reader number))) (fun _ => 0) [] slates [] := by
  unfold onConnection
  cases found : w.sessions[number]? with
  | none =>
    have silent (n : Nat) : w.publishes n (.poll (.reader number)) = [] := by
      by_cases here : number = n
      · rw [← here, publishes_read]
        exact Scene.ofSession_of_none found
      · exact publishes_elsewhere here
    obtain ⟨options, mirrors, unseen, unheeded, drawings, unarmed, numbered⟩ :=
      Draws.refl mirrors unarmed
    exact ⟨options, mirrors, fun n => (silent n).symm ▸ unseen n, unheeded, drawings, unarmed,
      numbered⟩
  | some s =>
    have inside := (List.getElem?_eq_some_iff.mp found).1
    have kept := mirrors.kept found
    obtain ⟨waiting, tunes⟩ := kept.tunes
    let t : Session := { s with connection := s.connection.read.withoutNews }
    -- what was dispatched to the diagnostics waits behind what the session has not drawn yet
    have reads : t.Watches (waiting ++ s.connection.tells PublishedDiagnostics.method .read) :=
      (Connection.Tunes.read tunes).mute ⟨rfl, rfl⟩
    refine ⟨rfl, ⟨?_, ?_, ?_⟩, fun n => ?_, fun n => ?_, (List.append_nil _).symm, unarmed, id⟩
    · intro n u at_n
      by_cases same : number = n
      · subst same
        cases (List.getElem?_set_self inside).symm.trans at_n
        exact ⟨⟨_, reads⟩, kept.kind, kept.held, kept.torn⟩
      · exact mirrors.kept ((List.getElem?_set_ne same).symm.trans at_n)
    · intro n beyond
      exact mirrors.fresh n (Nat.le_trans (Nat.le_of_eq List.length_set.symm) beyond)
    · exact mirrors.kinds.trans List.length_set.symm
    · change w.scene.unseen n ++ _ = Scene.unseen ⟨w.scene.sessions.set number t, w.host⟩ n
      unfold Scene.unseen
      rw [Scene.ofSession_set inside]
      by_cases same : number = n
      · subst same
        rw [publishes_read, if_pos rfl, Scene.ofSession_of_found (c := w.scene) found,
          Scene.ofSession_of_found (c := w.scene) found]
        exact (congrArg (· ++ _) tunes.waiting_eq).trans reads.waiting_eq.symm
      · rw [publishes_elsewhere same, if_neg same, List.append_nil]
    · exact (Scene.ofSession_set_same (c := w.scene) (t := t) found rfl).symm.trans
        (Nat.zero_add _).symm

/-- The sessions are told of documents, or that they will be told of no more. No cue comes by that, and each
session that hears has so many more documents to heed. -/
theorem hear_draws (mirrors : w.scene.Mirrors slates) (unarmed : .setDecorations ∉ w.host.armed)
    {change : Session → Session} {added : Session → Nat} (hears : ∀ s, ∃ hasHostEnded,
      change s = { s with openedDocuments := s.openedDocuments + added s, hasHostEnded })
    (options : v.options = w.options) (sessions : v.sessions = w.sessions.map change)
    (host : ∃ documents, v.host = { w.host with documents }) :
    Draws w v (fun _ => []) (fun n => w.scene.ofSession n added 0) [] slates [] := by
  obtain ⟨documents, same⟩ := host
  have scene : v.scene = ⟨w.scene.sessions.map change, v.host⟩ :=
    congrArg (Scene.mk · v.host) sessions
  refine ⟨options, ?_, fun n => ?_, fun n => ?_, ?_, ?_, ?_⟩
  · rw [scene]
    refine ⟨?_, ?_, ?_⟩
    · intro n t at_n
      rw [List.getElem?_map] at at_n
      obtain ⟨s, found, rfl⟩ := Option.map_eq_some_iff.mp at_n
      obtain ⟨ended, heard⟩ := hears s
      have kept := mirrors.kept found
      rw [heard]
      exact ⟨kept.tunes, kept.kind, kept.held, kept.torn⟩
    · intro n beyond
      rw [List.length_map] at beyond
      exact mirrors.fresh n beyond
    · rw [List.length_map, same]
      exact mirrors.kinds
  -- what a session has not drawn yet is not changed by what it hears of the host
  · have untouched : ∀ s, (change s).unseen = s.unseen := by
      intro s
      obtain ⟨ended, heard⟩ := hears s
      rw [heard]
      rfl
    unfold Scene.unseen
    rw [scene, Scene.ofSession_map untouched, List.append_nil]
    rfl
  · have told : ∀ s, (change s).openedDocuments = s.openedDocuments + added s := by
      intro s
      obtain ⟨ended, heard⟩ := hears s
      rw [heard]
    unfold Scene.unheeded
    rw [scene, Scene.ofSession_map told, Scene.ofSession_add]
    exact (Nat.zero_add _).symm
  · rw [same]
    exact (List.append_nil _).symm
  · rw [same]
    exact unarmed
  · intro numbered
    rw [same]
    exact numbered.of_eq rfl rfl

/-- Every move goes along with cues to the slates, unless it arms the callback by which the host
draws. Each cue comes with the views that are visible then. -/
theorem after_draws (mirrors : w.scene.Mirrors slates) (unarmed : .setDecorations ∉ w.host.armed)
    {move : Move} (calm : move ≠ .arm .setDecorations) :
    ∃ entries, Draws w (w.after move) (w.publishes · move) (w.opens · move) (w.told move) slates
        entries ∧ ∀ entry ∈ entries, entry.2.views = w.host.views := by
  have nothing : ∀ entry ∈ ([] : List (Nat × Sight)), entry.2.views = w.host.views := by
    rintro entry ⟨⟩
  have start := Draws.refl mirrors unarmed
  -- a deed of the client tells those who watch nothing and publishes nothing by itself
  by_cases deed : move.isDeed = true
  · have silent : (w.publishes · move) = fun _ => [] := by
      funext n
      unfold publishes
      split
      · cases deed
      · rfl
    have unopened : (w.opens · move) = fun _ => 0 := by
      funext n
      unfold opens
      split
      · cases deed
      · rfl
    have untold : w.told move = [] := by
      unfold World.told
      split
      · cases deed
      · rfl
    rw [silent, unopened, untold]
    exact (after_deeds w deed).draws unarmed mirrors
  · cases move with
    | poll task =>
      cases task with
      | reader number => exact ⟨[], read_draws mirrors unarmed number, nothing⟩
      | _ => exact absurd rfl deed
    | openDocument document =>
      exact ⟨[], hear_draws mirrors unarmed (fun s => ⟨_, s.hearOfDocument_eq⟩) rfl rfl ⟨_, rfl⟩,
        nothing⟩
    | endStreams =>
      have heard : Draws w w.endStreams _ (fun n => w.scene.ofSession n (fun _ => 0) 0) [] slates [] :=
        hear_draws mirrors unarmed (fun s => ⟨true, rfl⟩) rfl rfl ⟨_, rfl⟩
      have none (n : Nat) : w.scene.ofSession n (fun _ => 0) 0 = 0 := by
        unfold Scene.ofSession
        cases w.scene.sessions[n]? <;> rfl
      simp only [none] at heard
      exact ⟨[], heard, nothing⟩
    | showView document =>
      exact ⟨[], ⟨rfl, ⟨mirrors.kept, mirrors.fresh, mirrors.kinds⟩, start.unseen, start.unheeded,
        start.drawings, unarmed, fun numbered => numbered.addView document⟩, nothing⟩
    | hideView view =>
      exact ⟨[], ⟨rfl, ⟨mirrors.kept, mirrors.fresh, mirrors.kinds⟩, start.unseen, start.unheeded,
        start.drawings, unarmed, fun numbered => numbered.removeView view⟩, nothing⟩
    | arm call =>
      -- what is armed here is another call than the one that draws
      have still : .setDecorations ∉ (w.arm call).host.armed := by
        intro armed
        rcases List.mem_append.mp armed with old | new
        · exact unarmed old
        · exact calm (congrArg Move.arm (List.mem_singleton.mp new).symm)
      exact ⟨[], ⟨rfl, ⟨mirrors.kept, mirrors.fresh, mirrors.kinds⟩, start.unseen, start.unheeded,
        start.drawings, still, fun numbered => numbered.of_eq rfl rfl⟩, nothing⟩
    | report =>
      exact ⟨[], ⟨rfl, ⟨mirrors.kept, mirrors.fresh, mirrors.kinds⟩, start.unseen, start.unheeded,
        rfl, unarmed, fun numbered => numbered.of_eq rfl rfl⟩, nothing⟩
    | _ => exact absurd rfl deed

/-! ## Runs -/

/-- Every run in which the host does not end the client while it draws goes along with cues to the
slates, move by move. -/
theorem run_draws (mirrors : w.scene.Mirrors slates) (unarmed : .setDecorations ∉ w.host.armed)
    {moves : List Move} (calm : ∀ move ∈ moves, move ≠ .arm .setDecorations) :
    ∃ plan : List (List (Nat × Sight)), plan.length = moves.length ∧
      (∀ count, Draws w (w.run (moves.take count)) (w.publishesAll · (moves.take count))
        (w.opensAll · (moves.take count)) (w.toldAll (moves.take count)) slates
        (plan.take count).flatten) ∧
      ∀ count entries, plan[count]? = some entries → ∀ entry ∈ entries,
        entry.2.views = (w.run (moves.take count)).host.views := by
  induction moves generalizing w slates with
  | nil =>
    refine ⟨[], rfl, fun count => ?_, fun count entries none => ?_⟩
    · rw [List.take_nil, List.take_nil]
      exact .refl mirrors unarmed
    · cases none
  | cons move moves ih =>
    obtain ⟨entries, drawn, views⟩ := after_draws mirrors unarmed (calm move List.mem_cons_self)
    obtain ⟨plan, length, later, visible⟩ := ih drawn.mirrors drawn.unarmed fun later member =>
      calm later (List.mem_cons_of_mem _ member)
    refine ⟨entries :: plan, congrArg (· + 1) length, fun count => ?_, fun count more known => ?_⟩
    · cases count with
      | zero => exact .refl mirrors unarmed
      | succ count => exact drawn.trans (later count)
    · cases count with
      | zero =>
        cases known
        exact views
      | succ count => exact visible count more known

/-- A session that follows what is published leaves nothing unseen, and no document unheeded. -/
theorem nothing_left (mirrors : w.scene.Mirrors slates) (unarmed : .setDecorations ∉ w.host.armed)
    {s : Session} (found : w.sessions[n]? = some s) (active : s.isActive = true) :
    (w.after (.poll (.diagnostics n))).scene.unseen n = [] ∧
      (w.after (.poll (.diagnostics n))).scene.unheeded n = 0 := by
  let h : Hosted := ⟨s, n, w.host, w.reachOf n, false⟩
  let k : Hosted := h.followDiagnostics w.options.rewriter
  let v : World := { w with host := k.host }.put n k.session
  have polled : w.after (.poll (.diagnostics n)) = endIf (k.hasEnded, v) :=
    whileActive_found (fun h => h.followDiagnostics w.options.rewriter) found active
  have inside := (List.getElem?_eq_some_iff.mp found).1
  have kept := mirrors.kept found
  have untorn : (slates n).isTorn = false := kept.torn.symm.trans (Session.live_of_active active)
  have drawn : Hosted.Draws w.options.rewriter h k _ h.awaited h.session.unseen
      h.session.openedDocuments :=
    Hosted.followDiagnostics_draws w.options.rewriter unarmed kept untorn
  have unseen : k.session.unseen = [] :=
    List.append_cancel_left (drawn.unseen.symm.trans (List.append_nil _).symm)
  have unheeded : k.session.openedDocuments = 0 := Nat.add_left_cancel drawn.opened.symm
  have after : v.scene.sessions[n]? = some { k.session with
      connection := k.session.connection.withoutNews } := List.getElem?_set_self inside
  -- The client may have ended meanwhile; nobody sees anything by that.
  have followed : Deeds w v :=
    operated_deeds (h := h) rfl found (Hosted.Deed.followDiagnostics active).deeds
  obtain ⟨_, before, -⟩ := followed.draws unarmed mirrors
  obtain ⟨_, ended, -⟩ := (endIf_deeds k.hasEnded v).draws before.unarmed before.mirrors
  have none : v.scene.unseen n = [] := (Scene.ofSession_of_found after).trans unseen
  have zero : v.scene.unheeded n = 0 := (Scene.ofSession_of_found after).trans unheeded
  rw [polled]
  refine ⟨?_, ?_⟩
  · have balance := ended.unseen n
    rw [none, List.append_nil] at balance
    exact (List.append_eq_nil_iff.mp balance.symm).2
  · have balance := ended.unheeded n
    omega

/-- What is drawn in a run. -/
def drawings (w : World) (moves : List Move) : List HostEvent :=
  (w.history moves).filter HostEvent.isDrawing

/-- How a run from the start goes along with the slates of the sessions. -/
structure Portrays (options : ClientOptions) (moves : List Move) (entries : List (Nat × Sight)) :
    Prop where
  /-- What the host draws is what the slates make of the cues. -/
  draws : (start options).drawings moves = (Slates.fresh.play options.rewriter entries).2
  /-- The notifications among them are what the servers publish, up to what is not seen yet. -/
  published : ∀ n, (start options).publishesAll n moves =
    publishedIn entries n ++ ((start options).run moves).scene.unseen n
  /-- The documents among them are those of which the sessions are told, up to what is not heeded yet. -/
  opened : ∀ n, (start options).opensAll n moves =
    openedIn entries n + ((start options).run moves).scene.unheeded n
  /-- A session that follows what is published leaves none of it. -/
  prompt : ∀ {n : Nat} {s : Session}, ((start options).run moves).sessions[n]? = some s →
    s.isActive = true →
      (((start options).run moves).after (.poll (.diagnostics n))).scene.unseen n = [] ∧
        (((start options).run moves).after (.poll (.diagnostics n))).scene.unheeded n = 0
  /-- A session holds what its slate holds, draws in the kind of its own, and is disposed exactly if its
  slate is torn. -/
  mirrors : ∀ {n : Nat} {s : Session}, ((start options).run moves).sessions[n]? = some s →
    s.Mirrors n ((Slates.fresh.play options.rewriter entries).1 n)
  /-- After each cue for a session that was not disposed before, the views show what they should. -/
  shows : ∀ before n sight rest, entries = before ++ (n, sight) :: rest →
    ((Slates.fresh.play options.rewriter before).1 n).isTorn = false →
      Slates.Shows options.rewriter before n sight

/-- How a run from the start is portrayed by cues, move by move. -/
structure IsPortrayed (options : ClientOptions) (moves : List Move)
    (plan : List (List (Nat × Sight))) : Prop where
  length : plan.length = moves.length
  portrays : ∀ count, Portrays options (moves.take count) (plan.take count).flatten
  /-- The views of a cue are those that are visible when it comes. -/
  visible : ∀ count entries, plan[count]? = some entries → ∀ entry ∈ entries,
    entry.2.views = ((start options).run (moves.take count)).host.views
  /-- Nothing is drawn for a session once it is disposed. -/
  silent : ∀ {count n : Nat} {s : Session},
    ((start options).run (moves.take count)).sessions[n]? = some s → s.isDisposed = true →
      ∀ later, ∃ news, (start options).drawings (moves.take (count + later)) =
          (start options).drawings (moves.take count) ++ news ∧
        ∀ view items, .decorated (n + 1) view items ∉ news

/-- In every run in which the host does not end the client from inside the callback by which it draws, the
host draws what the slates of the sessions make of what the servers publish, of the documents that are
opened and of the ends of the sessions, move by move, in the views that are visible then. -/
theorem run_portrays (options : ClientOptions) {moves : List Move}
    (calm : ∀ move ∈ moves, move ≠ .arm .setDecorations) :
    ∃ plan, IsPortrayed options moves plan := by
  have fresh : (start options).scene.Mirrors .fresh := ⟨by rintro n s ⟨⟩, fun _ _ => rfl, rfl⟩
  have numbered : (start options).host.IsNumbered := ⟨List.nodup_nil, by rintro view ⟨⟩⟩
  obtain ⟨plan, length, drawn, visible⟩ := run_draws fresh List.not_mem_nil calm
  have ids : ∀ entry ∈ plan.flatten, (entry.2.views.map View.id).Nodup := by
    intro entry member
    obtain ⟨entries, planned, here⟩ := List.mem_flatten.mp member
    obtain ⟨place, known⟩ := List.mem_iff_getElem?.mp planned
    rw [visible place entries known entry here]
    exact ((drawn place).numbered numbered).ids
  have draws (count : Nat) : (start options).drawings (moves.take count) =
      (Slates.fresh.play options.rewriter (plan.take count).flatten).2 := by
    unfold World.drawings history
    rw [List.filter_append]
    exact (drawn count).drawings
  refine ⟨plan, length, fun count => ?_, visible, fun {count n s} found disposed later => ?_⟩
  · have played := drawn count
    refine ⟨draws count, played.unseen, fun n => ?_,
      fun found active => nothing_left played.mirrors played.unarmed found active,
      played.mirrors.kept, fun before n sight rest split untorn => ?_⟩
    · exact (Nat.zero_add _).symm.trans (played.unheeded n)
    · refine Slates.shows untorn (ids (n, sight) ?_)
      have member : (n, sight) ∈ (plan.take count).flatten := by
        rw [split]
        exact List.mem_append_right _ List.mem_cons_self
      obtain ⟨entries, taken, here⟩ := List.mem_flatten.mp member
      exact List.mem_flatten.mpr ⟨entries, List.mem_of_mem_take taken, here⟩
  · have torn := ((drawn count).mirrors.kept found).torn.symm.trans disposed
    rw [draws, draws, List.take_add, List.flatten_append, Slates.play_append]
    exact ⟨_, rfl, fun view items => Slates.silent torn view items⟩

/-! ## Samples -/

/-- A server publishes something, something that makes no sense and something else; then the document is
opened and the root goes, and the server goes on to publish. -/
def Sample.sketched : List Move :=
  Sample.watched ++
    [.send 0 [Sample.published "one",
      .notification ⟨protocolVersion, PublishedDiagnostics.method, some (.bool true)⟩,
      Sample.published "two"],
    .poll (.reader 0), .poll (.diagnostics 0), .showView ⟨"file:///here/b.ts"⟩,
    .openDocument ⟨⟨"file:///here/b.ts"⟩, "typescript", ""⟩, .poll (.diagnostics 0), .roots [],
    .poll .reconciler, .send 0 [Sample.published "three"], .poll (.reader 0),
    .poll (.diagnostics 0)]

/-- What a view shows of a diagnostic that is published in the samples. -/
def Sample.decorated (message : String) : Decoration := ⟨⟨⟨0, 0⟩, ⟨0, 1⟩⟩, none, message⟩

/-- What the host draws when a server publishes twice, a document is opened, and the root goes: nothing of
what is published afterwards. -/
theorem run_portrays_removed :
    (∀ move ∈ Sample.sketched, move ≠ .arm .setDecorations) ∧
      (∃ plan, IsPortrayed Sample.single Sample.sketched plan) ∧
      (start Sample.single).drawings Sample.sketched =
        [.decorated 1 1 [Sample.decorated "one"], .decorated 1 1 [Sample.decorated "two"],
          .decorated 1 1 [Sample.decorated "two"], .decorated 1 2 [], .decorated 1 1 []] := by
  have calm : ∀ move ∈ Sample.sketched, move ≠ .arm .setDecorations := by
    simp [Sample.sketched, Sample.watched]
  exact ⟨calm, run_portrays Sample.single calm, by decide⟩

/-- The host ends the client from inside the first callback by which the session draws. The views are
emptied, and then the session draws what else has been published. -/
theorem run_overdraws :
    let w := (start Sample.single).run Sample.drawing
    w.isDisposed 0 = true ∧ w.host.views.map View.id = [1] ∧
      (start Sample.single).drawings Sample.drawing =
        [.decorated 1 1 [Sample.decorated "one"], .decorated 1 1 [],
          .decorated 1 1 [Sample.decorated "two"]] := by
  decide

end World

end LanguageClient
