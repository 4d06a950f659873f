import LanguageClient.Proofs.Session.Accounts
import LanguageClient.Rewriter
import Mathlib.Data.List.Induction
import Mathlib.Data.List.Nodup
import Mathlib.Logic.Function.Basic

/-!
# Slates

What a server may expect of the diagnostics that it publishes, as a machine that knows of no connection
and no host. A slate holds the last diagnostics of each document of the host, under whatever address the
server has named it. A notification that is accepted takes the place of what was held of its document, and
the views of the document are drawn anew; one that does not decode, or names a document that the host
cannot have, is nothing. When the host opens a document all views are drawn anew. A slate is torn once,
when its session is torn down: the views of the documents that it held are emptied, and nothing is drawn
any more.

Each session has a slate of its own, and draws in a kind of its own. `Slates.shows` says what the views
show after a cue, whatever came before: what was last accepted of their documents.
-/

namespace LanguageClient

/-! ## Cues -/

/-- The document and the diagnostics of a notification, if it is accepted. -/
def PublishedDiagnostics.accepted? (rewriter : Rewriter) (params : Json) :
    Option (Url × List Diagnostic) :=
  (PublishedDiagnostics.ofJson? params).bind fun published =>
    (rewriter.ofReference published.uri).toOption.map fun document =>
      (document, published.diagnostics)

/-- What comes to the slate of a session. -/
inductive Cue where
  /-- A notification of diagnostics with these params. -/
  | published (params : Json)
  /-- The host has opened a document. -/
  | opened
  | tearDown

namespace Cue

/-- The params of a notification. -/
def params? : Cue → Option Json
  | published params => some params
  | _ => none

def isOpened : Cue → Bool
  | opened => true
  | _ => false

/-- The document and the diagnostics that are accepted by a cue. -/
def accepted? (rewriter : Rewriter) : Cue → Option (Url × List Diagnostic)
  | published params => PublishedDiagnostics.accepted? rewriter params
  | _ => none

/-- Whether the views of a document are drawn anew on a cue: those of the document whose diagnostics are
accepted, and all when a document is opened. -/
def Concerns (rewriter : Rewriter) (document : Url) : Cue → Prop
  | published params =>
    (PublishedDiagnostics.accepted? rewriter params).map Prod.fst = some document
  | opened => True
  | tearDown => False

end Cue

/-- A cue, and the views that are visible when it comes. -/
structure Sight where
  cue : Cue
  views : List View

/-- The last diagnostics of a document among those that were accepted. -/
def lastAccepted (rewriter : Rewriter) (sights : List Sight) (document : Url) :
    Option (List Diagnostic) :=
  ((sights.filterMap fun sight => sight.cue.accepted? rewriter).filter
    fun accepted => accepted.1 = document).getLast?.map Prod.snd

/-- What was last accepted of a document, with one more cue: what that accepts of the document, or else what
was accepted before. -/
theorem lastAccepted_snoc (rewriter : Rewriter) (sights : List Sight) (sight : Sight)
    (document : Url) : lastAccepted rewriter (sights ++ [sight]) document =
      match sight.cue.accepted? rewriter with
      | some (found, diagnostics) =>
        if document = found then some diagnostics else lastAccepted rewriter sights document
      | none => lastAccepted rewriter sights document := by
  unfold lastAccepted
  rw [List.filterMap_append]
  cases accepted : sight.cue.accepted? rewriter with
  | none => simp [accepted]
  | some entry =>
    obtain ⟨found, diagnostics⟩ := entry
    by_cases same : document = found
    · simp [accepted, same]
    · simp [accepted, same, Ne.symm same]

/-! ## One slate -/

structure Slate where
  /-- The diagnostics of each document that has any. -/
  held : Url → Option (List Diagnostic)
  isTorn : Bool

namespace Slate

variable {rewriter : Rewriter} {slate : Slate} {kind : Nat} {views : List View}

def fresh : Slate := ⟨fun _ => none, false⟩

def torn : Slate := ⟨fun _ => none, true⟩

/-- The slate with new diagnostics of a document. -/
def accept (slate : Slate) (document : Url) (diagnostics : List Diagnostic) : Slate :=
  { slate with held := Function.update slate.held document (some diagnostics) }

/-- What the views of a document are to show. -/
def wanted (slate : Slate) (document : Url) : List Decoration :=
  ((slate.held document).getD []).map Diagnostic.decoration

/-- Draws views anew. -/
def draw (slate : Slate) (kind : Nat) (views : List View) : List HostEvent :=
  views.map fun view => .decorated kind view.id (slate.wanted view.document)

/-- The slate after a cue, and what is drawn. A torn slate takes no notice of anything. -/
def after (rewriter : Rewriter) (kind : Nat) (slate : Slate) (sight : Sight) :
    Slate × List HostEvent :=
  if slate.isTorn then (slate, [])
  else
    match sight.cue with
    | .published params =>
      match PublishedDiagnostics.accepted? rewriter params with
      | none => (slate, [])
      | some (document, diagnostics) =>
        let slate := slate.accept document diagnostics
        (slate, slate.draw kind (sight.views.filter fun view => view.document = document))
    | .opened => (slate, slate.draw kind sight.views)
    | .tearDown =>
      (torn, torn.draw kind (sight.views.filter fun view => (slate.held view.document).isSome))

/-- The slate after several cues. -/
def play (rewriter : Rewriter) (kind : Nat) (slate : Slate) :
    List Sight → Slate × List HostEvent
  | [] => (slate, [])
  | sight :: sights =>
    let (slate, events) := slate.after rewriter kind sight
    let (slate, later) := slate.play rewriter kind sights
    (slate, events ++ later)

/-- Cues that come one after the other: the later ones find the slate as the earlier ones have left it. -/
theorem play_append (rewriter : Rewriter) (kind : Nat) (slate : Slate) (first second : List Sight) :
    slate.play rewriter kind (first ++ second) =
      (((slate.play rewriter kind first).1.play rewriter kind second).1,
        (slate.play rewriter kind first).2 ++
          ((slate.play rewriter kind first).1.play rewriter kind second).2) := by
  induction first generalizing slate with
  | nil => rfl
  | cons sight sights ih => simp only [List.cons_append, play, ih, List.append_assoc]

/-- A single cue does to a slate what it does. -/
theorem play_single (rewriter : Rewriter) (kind : Nat) (slate : Slate) (sight : Sight) :
    slate.play rewriter kind [sight] = slate.after rewriter kind sight := by
  simp only [play, List.append_nil]

/-- A torn slate takes no notice of any cue. -/
theorem after_torn (gone : slate.isTorn = true) (sight : Sight) :
    slate.after rewriter kind sight = (slate, []) := if_pos gone

/-- Diagnostics that are accepted are held, and the views of their document are drawn with them. -/
theorem after_accepted (untorn : slate.isTorn = false) {params : Json} {document : Url}
    {diagnostics : List Diagnostic}
    (accepted : PublishedDiagnostics.accepted? rewriter params = some (document, diagnostics)) :
    slate.after rewriter kind ⟨.published params, views⟩ = (slate.accept document diagnostics,
      (slate.accept document diagnostics).draw kind
        (views.filter fun view => view.document = document)) := by
  simp only [after, untorn, accepted, Bool.false_eq_true, if_false]

/-- A notification that is not accepted changes nothing. -/
theorem after_rejected {params : Json}
    (rejected : PublishedDiagnostics.accepted? rewriter params = none) :
    slate.after rewriter kind ⟨.published params, views⟩ = (slate, []) := by
  simp only [after, rejected, ite_self]

/-- All views are drawn from the slate as it is when a document is opened. -/
theorem after_opened (untorn : slate.isTorn = false) :
    slate.after rewriter kind ⟨.opened, views⟩ = (slate, slate.draw kind views) := by
  simp only [after, untorn, Bool.false_eq_true, if_false]

/-- The end of a session draws nothing into the views of the documents that were held, and the slate is
torn. -/
theorem after_tearDown (untorn : slate.isTorn = false) :
    slate.after rewriter kind ⟨.tearDown, views⟩ =
      (torn, torn.draw kind (views.filter fun view => (slate.held view.document).isSome)) := by
  simp only [after, untorn, Bool.false_eq_true, if_false]

/-- Nothing but its end tears a slate: what is published, noticed or changed otherwise leaves it whole, or
torn if it was. -/
theorem isTorn_after {cue : Cue} (goes : cue ≠ .tearDown) :
    (slate.after rewriter kind ⟨cue, views⟩).1.isTorn = slate.isTorn := by
  cases gone : slate.isTorn with
  | true => rw [after_torn gone]; exact gone
  | false =>
    cases cue with
    | published params =>
      cases accepted : PublishedDiagnostics.accepted? rewriter params with
      | none => rw [after_rejected accepted]; exact gone
      | some entry => rw [after_accepted gone accepted]; exact gone
    | opened => rw [after_opened gone]; exact gone
    | tearDown => exact absurd rfl goes

/-- A session draws in its own kind, whatever the cue. So what one session draws can be told from what
another one draws in the same view. -/
theorem kind_of_mem_after {sight : Sight} {other view : Nat} {items : List Decoration}
    (drawn : .decorated other view items ∈ (slate.after rewriter kind sight).2) : other = kind := by
  have each {slate : Slate} {views : List View}
      (drawn : .decorated other view items ∈ slate.draw kind views) : other = kind := by
    obtain ⟨_, -, same⟩ := List.mem_map.mp drawn
    exact (HostEvent.decorated.inj same).1.symm
  unfold after at drawn
  split at drawn
  · cases drawn
  · split at drawn
    · split at drawn
      · cases drawn
      · exact each drawn
    · exact each drawn
    · exact each drawn

/-- What a slate holds of a document is what was last accepted. -/
theorem held_play (sights : List Sight)
    (untorn : (fresh.play rewriter kind sights).1.isTorn = false) (document : Url) :
    (fresh.play rewriter kind sights).1.held document =
      lastAccepted rewriter sights document := by
  induction sights using List.reverseRecOn with
  | nil => rfl
  | append_singleton sights sight ih =>
    rw [play_append, play_single] at untorn ⊢
    rw [lastAccepted_snoc]
    generalize (fresh.play rewriter kind sights).1 = slate at untorn ih ⊢
    have before : slate.isTorn = false := by
      cases gone : slate.isTorn with
      | false => rfl
      | true =>
        rw [after_torn gone] at untorn
        exact gone.symm.trans untorn
    obtain ⟨cue, views⟩ := sight
    cases cue with
    | published params =>
      simp only [Cue.accepted?]
      cases accepted : PublishedDiagnostics.accepted? rewriter params with
      | none =>
        rw [after_rejected accepted]
        exact ih before
      | some entry =>
        rw [after_accepted before accepted]
        dsimp only [accept]
        rw [Function.update_apply, ih before]
    | opened =>
      rw [after_opened before]
      exact ih before
    | tearDown =>
      rw [after_tearDown before] at untorn
      cases untorn

/-- After views were drawn anew, each of them shows what it is to show. -/
theorem shown_draw (events : List HostEvent) (ids : (views.map View.id).Nodup) {view : View}
    (member : view ∈ views) :
    shown (events ++ slate.draw kind views) kind view.id = slate.wanted view.document := by
  have drawn : HostEvent.decorated kind view.id (slate.wanted view.document) ∈
      slate.draw kind views := List.mem_map_of_mem member
  unfold shown
  rw [latest_append]
  cases found : latest (slate.draw kind views) kind view.id with
  | none =>
    unfold latest at found
    rw [List.findSome?_eq_none_iff] at found
    have undrawn := found _ (List.mem_reverse.mpr drawn)
    simp at undrawn
  | some items =>
    obtain ⟨other, known, same⟩ := List.mem_map.mp (mem_of_latest found)
    obtain ⟨-, id, wanted⟩ := HostEvent.decorated.inj same
    have equal : other = view := List.inj_on_of_nodup_map ids known member id
    rw [← wanted, equal]
    rfl

/-- After a cue, every view that it concerns shows what was last accepted of its document. -/
theorem shows (sights : List Sight)
    (untorn : (fresh.play rewriter kind sights).1.isTorn = false) (events : List HostEvent)
    {sight : Sight} (ids : (sight.views.map View.id).Nodup) {view : View}
    (member : view ∈ sight.views) (concerned : sight.cue.Concerns rewriter view.document) :
    shown (events ++ ((fresh.play rewriter kind sights).1.after rewriter kind sight).2) kind
        view.id =
      ((lastAccepted rewriter (sights ++ [sight]) view.document).getD []).map
        Diagnostic.decoration := by
  have held := held_play sights untorn
  rw [lastAccepted_snoc, ← held]
  generalize (fresh.play rewriter kind sights).1 = slate at untorn ⊢
  obtain ⟨cue, views⟩ := sight
  cases cue with
  | published params =>
    obtain ⟨⟨document, diagnostics⟩, accepted, rfl⟩ := Option.map_eq_some_iff.mp concerned
    have here : view ∈ views.filter fun other => other.document = view.document :=
      List.mem_filter.mpr ⟨member, decide_eq_true rfl⟩
    have ids : ((views.filter fun other => other.document = view.document).map View.id).Nodup :=
      ids.sublist (List.filter_sublist.map View.id)
    rw [after_accepted untorn accepted, shown_draw events ids here]
    simp only [wanted, accept, Function.update_self, Cue.accepted?, accepted, if_true]
  | opened =>
    rw [after_opened untorn, shown_draw events ids member]
    rfl
  | tearDown => exact concerned.elim

/-- When a slate is torn, every view of a document that it held shows nothing. -/
theorem empties (sights : List Sight)
    (untorn : (fresh.play rewriter kind sights).1.isTorn = false) (events : List HostEvent)
    (ids : (views.map View.id).Nodup) {view : View} (member : view ∈ views)
    (known : (lastAccepted rewriter sights view.document).isSome = true) :
    shown (events ++ ((fresh.play rewriter kind sights).1.after rewriter kind
      ⟨.tearDown, views⟩).2) kind view.id = [] := by
  rw [← held_play sights untorn] at known
  generalize (fresh.play rewriter kind sights).1 = slate at untorn known ⊢
  have here : view ∈ views.filter fun view => (slate.held view.document).isSome :=
    List.mem_filter.mpr ⟨member, known⟩
  rw [after_tearDown untorn,
    shown_draw events (ids.sublist (List.filter_sublist.map View.id)) here]
  rfl

end Slate

/-! ## The slates of all sessions -/

/-- The slate of each session. -/
abbrev Slates := Nat → Slate

/-- What comes to the slate of one session. -/
def sightsFor (entries : List (Nat × Sight)) (n : Nat) : List Sight :=
  entries.filterMap fun entry => if entry.1 = n then some entry.2 else none

/-- The cues for one session among cues that come one after the other. -/
theorem sightsFor_append (first second : List (Nat × Sight)) (n : Nat) :
    sightsFor (first ++ second) n = sightsFor first n ++ sightsFor second n := List.filterMap_append

/-- Cues for one session are none for another. -/
theorem sightsFor_single (sights : List Sight) (number n : Nat) :
    sightsFor (sights.map (number, ·)) n = if number = n then sights else [] := by
  unfold sightsFor
  rw [List.filterMap_map]
  by_cases here : number = n
  · simp only [Function.comp_def, here, if_true, List.filterMap_some]
  · simp only [Function.comp_def, here, if_false]
    exact List.filterMap_eq_nil_iff.mpr fun _ _ => rfl

namespace Slates

variable {rewriter : Rewriter} {slates : Slates} {entries before : List (Nat × Sight)} {n : Nat}

def fresh : Slates := fun _ => .fresh

/-- The slates after a cue for one session, which draws in the kind of its own. -/
def after (rewriter : Rewriter) (slates : Slates) (entry : Nat × Sight) :
    Slates × List HostEvent :=
  let (slate, events) := (slates entry.1).after rewriter (entry.1 + 1) entry.2
  (Function.update slates entry.1 slate, events)

/-- The slates after several cues, each for one session. -/
def play (rewriter : Rewriter) (slates : Slates) : List (Nat × Sight) → Slates × List HostEvent
  | [] => (slates, [])
  | entry :: entries =>
    let (slates, events) := slates.after rewriter entry
    let (slates, later) := slates.play rewriter entries
    (slates, events ++ later)

/-- Cues for several sessions that come one after the other. -/
theorem play_append (rewriter : Rewriter) (slates : Slates) (first second : List (Nat × Sight)) :
    slates.play rewriter (first ++ second) =
      (((slates.play rewriter first).1.play rewriter second).1,
        (slates.play rewriter first).2 ++
          ((slates.play rewriter first).1.play rewriter second).2) := by
  induction first generalizing slates with
  | nil => rfl
  | cons entry entries ih => simp only [List.cons_append, play, ih, List.append_assoc]

/-- A single cue does to the slates what it does to the slate of its session. -/
theorem play_single (rewriter : Rewriter) (slates : Slates) (entry : Nat × Sight) :
    slates.play rewriter [entry] = slates.after rewriter entry := by
  simp only [play, List.append_nil]

/-- Cues for one session leave the slates of the others as they are. -/
theorem play_alone (rewriter : Rewriter) (slates : Slates) (n : Nat) (sights : List Sight) :
    slates.play rewriter (sights.map (n, ·)) =
      (Function.update slates n ((slates n).play rewriter (n + 1) sights).1,
        ((slates n).play rewriter (n + 1) sights).2) := by
  induction sights generalizing slates with
  | nil => simp [play, Slate.play]
  | cons sight sights ih =>
    simp only [List.map_cons, play, Slate.play, after, ih, Function.update_self,
      Function.update_idem]

/-- The slate of a session comes of the cues for this session. -/
theorem play_at (rewriter : Rewriter) (slates : Slates) (entries : List (Nat × Sight)) (n : Nat) :
    (slates.play rewriter entries).1 n =
      ((slates n).play rewriter (n + 1) (sightsFor entries n)).1 := by
  induction entries generalizing slates with
  | nil => rfl
  | cons entry entries ih =>
    obtain ⟨m, sight⟩ := entry
    simp only [play, ih, sightsFor, List.filterMap_cons, after]
    by_cases here : m = n
    · subst here
      simp only [Function.update_self, if_true, Slate.play]
    · simp only [Function.update_of_ne (Ne.symm here), here, if_false]

/-- Nothing is drawn for a session whose slate is torn, whatever comes. -/
theorem silent (gone : (slates n).isTorn = true) (view : Nat) (items : List Decoration) :
    .decorated (n + 1) view items ∉ (slates.play rewriter entries).2 := by
  induction entries generalizing slates with
  | nil => exact List.not_mem_nil
  | cons entry entries ih =>
    obtain ⟨m, sight⟩ := entry
    simp only [play, after, List.mem_append, not_or]
    by_cases here : m = n
    · subst here
      rw [Slate.after_torn gone, Function.update_eq_self]
      exact ⟨List.not_mem_nil, ih gone⟩
    · refine ⟨fun drawn => ?_, ih (by rw [Function.update_of_ne (Ne.symm here)]; exact gone)⟩
      have kinds := Slate.kind_of_mem_after drawn
      omega

/-- What the views show after a cue for a session. -/
structure Shows (rewriter : Rewriter) (before : List (Nat × Sight)) (n : Nat) (sight : Sight) :
    Prop where
  /-- Every visible view that the cue concerns shows what was last accepted of its document, under
  whatever address, and nothing if nothing was. -/
  drawn : ∀ view ∈ sight.views, sight.cue.Concerns rewriter view.document →
    shown (fresh.play rewriter (before ++ [(n, sight)])).2 (n + 1) view.id =
      ((lastAccepted rewriter (sightsFor before n ++ [sight]) view.document).getD []).map
        Diagnostic.decoration
  /-- A notification that is not accepted changes nothing. -/
  rejected : ∀ params, sight.cue = .published params →
    PublishedDiagnostics.accepted? rewriter params = none →
      fresh.play rewriter (before ++ [(n, sight)]) = fresh.play rewriter before
  /-- The end of the session empties every visible view of a document with diagnostics. -/
  emptied : sight.cue = .tearDown → ∀ view ∈ sight.views,
    (lastAccepted rewriter (sightsFor before n) view.document).isSome = true →
      shown (fresh.play rewriter (before ++ [(n, sight)])).2 (n + 1) view.id = []

/-- Whatever came before, as long as the session was not torn down, the views show what they should after a
cue for it. The ids of the views have to be told apart, as a drawing names its view by the id. -/
theorem shows (untorn : ((fresh.play rewriter before).1 n).isTorn = false) {sight : Sight}
    (ids : (sight.views.map View.id).Nodup) : Shows rewriter before n sight := by
  have alone : (fresh.play rewriter before).1 n =
      (Slate.fresh.play rewriter (n + 1) (sightsFor before n)).1 := play_at ..
  have events : (fresh.play rewriter (before ++ [(n, sight)])).2 =
      (fresh.play rewriter before).2 ++ ((Slate.fresh.play rewriter (n + 1)
        (sightsFor before n)).1.after rewriter (n + 1) sight).2 := by
    rw [play_append, play_single, after, alone]
  rw [alone] at untorn
  refine ⟨?_, ?_, ?_⟩
  · intro view member concerned
    rw [events]
    exact Slate.shows _ untorn _ ids member concerned
  · intro params published rejected
    obtain ⟨cue, views⟩ := sight
    subst published
    have nothing : (fresh.play rewriter before).1.after rewriter (n, ⟨.published params, views⟩) =
        ((fresh.play rewriter before).1, []) := by
      unfold after
      rw [Slate.after_rejected rejected]
      dsimp only
      rw [Function.update_eq_self]
    rw [play_append, play_single, nothing, List.append_nil]
  · intro torn view member known
    obtain ⟨cue, views⟩ := sight
    subst torn
    rw [events]
    exact Slate.empties _ untorn _ ids member known

end Slates

end LanguageClient
