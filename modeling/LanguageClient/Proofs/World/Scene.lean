import LanguageClient.Proofs.Session.Offers
import LanguageClient.Proofs.World.Connect

/-!
# The scene of the sessions

A `Scene` is what sessions act on: the sessions themselves and the host. Whatever happens in the world,
as long as the host does not end the client from inside a callback and shows and hides no view, changes
the scene by acts of sessions and by a few things more (`Scene.Act`): there is a new session, the
sessions hear of documents, or the host changes in a way that is nothing to the sessions.

An operation on one session of a world is lifted to its scene by `World.within_acts` and its kin.
-/

namespace LanguageClient

/-- The sessions and the host. -/
structure Scene where
  sessions : List Session
  host : Host

def World.scene (w : World) : Scene := ⟨w.sessions, w.host⟩

namespace Scene

/-- One thing that happens to the sessions and the host. -/
inductive Act (options : ClientOptions) (turn : Turn) (c : Scene) : Scene → Prop where
  | hosted {h k : Hosted} (found : c.sessions[h.number]? = some h.session) (host : h.host = c.host)
      (act : Hosted.Act options turn h k) :
      Act options turn c ⟨c.sessions.set h.number k.session, k.host⟩
  /-- There is a new session. -/
  | attach (root : Option Url) (suffix : String) :
      Act options turn c
        ⟨c.sessions ++ [Session.attach root (c.host.lastDecorationKind + 1) suffix],
          c.host.newDecorationKind.2⟩
  /-- The sessions hear of a document, or that they hear of no more. -/
  | hear (change : Session → Session) (hears : ∀ s, ∃ openedDocuments hasHostEnded,
      change s = { s with openedDocuments, hasHostEnded }) :
      Act options turn c ⟨c.sessions.map change, c.host⟩
  /-- The host changes in what sessions do not account for. -/
  | host (host : Host) (same : host = { c.host with
      roots := host.roots, documents := host.documents, reporters := host.reporters,
      waiting := host.waiting }) : Act options turn c ⟨c.sessions, host⟩

/-- Several such things, one after the other. -/
abbrev Acts (options : ClientOptions) (turn : Turn) : Scene → Scene → Prop :=
  Relation.ReflTransGen (Act options turn)

variable {options : ClientOptions} {turn : Turn} {c d : Scene}

/-- One thing that happens, as a sequence of length one. -/
theorem Act.acts (act : Act options turn c d) : Acts options turn c d := .single act

/-- The host does not come to end the client from inside a callback: nothing that happens to a scene arms
it. The hypothesis `quiet` of the lemmas about acts is therefore kept by them. -/
theorem Act.calm (quiet : c.host.armed = []) (act : Act options turn c d) : d.host.armed = [] := by
  cases act with
  | hosted found host act => exact (act.calm (host ▸ quiet)).2
  | attach root suffix => exact quiet
  | hear change hears => exact quiet
  | host host same => rw [same]; exact quiet

/-- What everything that happens preserves, all of it preserves. The property may rely on the host not being
armed, as this is carried along with it. -/
theorem Acts.induction (property : Scene → Prop)
    (each : ∀ {c d}, c.host.armed = [] → Act options turn c d → property c → property d)
    (quiet : c.host.armed = []) (acts : Acts options turn c d) (start : property c) :
    d.host.armed = [] ∧ property d := by
  induction acts with
  | refl => exact ⟨quiet, start⟩
  | tail _ act ih => exact ⟨act.calm ih.1, each ih.1 act ih.2⟩

/-- What one session does, the scene does. A sequence of acts of a session becomes one of the scene by
writing the session back after each of them. -/
theorem Acts.of_hosted {h k : Hosted} (quiet : c.host.armed = []) (host : h.host = c.host)
    (found : c.sessions[h.number]? = some h.session) (acts : Hosted.Acts options turn h k) :
    Acts options turn c ⟨c.sessions.set h.number k.session, k.host⟩ := by
  have calm : h.host.armed = [] := host ▸ quiet
  have inside := (List.getElem?_eq_some_iff.mp found).1
  induction acts with
  | refl =>
    have same : c = ⟨c.sessions.set h.number h.session, h.host⟩ := by
      obtain ⟨_, here⟩ := List.getElem?_eq_some_iff.mp found
      rw [host, ← here, List.set_getElem_self]
    rw [← same]
  | @tail k l acts act ih =>
    obtain ⟨number, -, -⟩ := Hosted.Acts.induction (fun _ => True) (fun _ _ => id) calm acts trivial
    have here : (c.sessions.set h.number k.session)[k.number]? = some k.session := by
      rw [number]
      exact List.getElem?_set_self inside
    refine ih.tail ?_
    have step := Act.hosted (c := ⟨c.sessions.set h.number k.session, k.host⟩) here rfl act
    rw [number, List.set_set] at step
    exact step

/-- Where a session comes from that is there after something has happened: it did something, it only heard
of documents while others may have got providers, or it is new. Each invariant about single sessions is a
case analysis on this. -/
theorem Act.session_cases (quiet : c.host.armed = []) (act : Act options turn c d) {n : Nat}
    {t : Session} (found : d.sessions[n]? = some t) :
    (∃ h k, Hosted.Act options turn h k ∧ h.number = n ∧ c.sessions[n]? = some h.session ∧
        h.host = c.host ∧ k.session = t ∧ k.host = d.host) ∨
      (∃ s openedDocuments hasHostEnded more, c.sessions[n]? = some s ∧
        t = { s with openedDocuments, hasHostEnded } ∧
        d.host.provided = c.host.provided ++ more) ∨
      n = c.sessions.length ∧
        ∃ root suffix, t = Session.attach root (c.host.lastDecorationKind + 1) suffix := by
  cases act with
  | @hosted h k before host act =>
    by_cases here : h.number = n
    · subst here
      have inside := (List.getElem?_eq_some_iff.mp before).1
      have same := (List.getElem?_set_self inside).symm.trans found
      exact .inl ⟨h, k, act, rfl, before, host, Option.some.inj same, rfl⟩
    · obtain ⟨more, provided⟩ := act.provided (host ▸ quiet)
      rw [host] at provided
      have same := (List.getElem?_set_ne here).symm.trans found
      exact .inr (.inl ⟨t, _, _, more, same, rfl, provided⟩)
  | attach root suffix =>
    obtain before | ⟨last, attached⟩ := getElem?_concat_iff.mp found
    · exact .inr (.inl ⟨t, _, _, [], before, rfl, (List.append_nil _).symm⟩)
    · exact .inr (.inr ⟨last, root, suffix, attached.symm⟩)
  | hear change hears =>
    rw [List.getElem?_map] at found
    obtain ⟨s, before, rfl⟩ := Option.map_eq_some_iff.mp found
    obtain ⟨opened, ended, same⟩ := hears s
    exact .inr (.inl ⟨s, opened, ended, [], before, same, (List.append_nil _).symm⟩)
  | host host same =>
    refine .inr (.inl ⟨t, _, _, [], found, rfl, ?_⟩)
    rw [List.append_nil, same]

/-- A session that was there is there still, in its place, since sessions are only added at the end. -/
theorem Act.length_le (act : Act options turn c d) : c.sessions.length ≤ d.sessions.length := by
  cases act with
  | hosted => exact Nat.le_of_eq List.length_set.symm
  | attach => exact Nat.le_of_lt (by simp)
  | hear => exact Nat.le_of_eq (List.length_map _).symm
  | host => exact Nat.le_refl _

/-! ## What the ids stand for -/

/-- The client's own ids stand for what the servers have advertised, if for anything. -/
def IsTidy (options : ClientOptions) (c : Scene) : Prop :=
  ∀ {n : Nat} {s : Session}, c.sessions[n]? = some s → s.IsTidy options c.host

/-- What the server of a session has advertised is registered, as long as the session follows it. -/
def Advertises (options : ClientOptions) (c : Scene) (n : Nat) : Prop :=
  ∃ s, c.sessions[n]? = some s ∧ (s.isActive = true → s.Advertises options c.host)

/-- The client's own ids still stand for what the servers have advertised, if for anything. A new session
has no registrations, and what the host provides for others is only added to. -/
theorem Act.isTidy (quiet : c.host.armed = []) (act : Act options turn c d)
    (tidy : c.IsTidy options) : d.IsTidy options := by
  intro n t found
  rcases act.session_cases quiet found with ⟨h, k, act, rfl, before, host, rfl, host'⟩ |
    ⟨s, opened, ended, more, before, rfl, provided⟩ | ⟨rfl, root, suffix, rfl⟩
  · rw [← host']
    exact act.isTidy (host ▸ quiet) (host ▸ tidy before)
  · intro active
    rcases tidy before active with nothing | ⟨answer, answered, offers⟩
    · exact .inl fun number => (nothing number).of_eq rfl provided
    · exact .inr ⟨answer, answered, fun number => (offers number).of_eq rfl provided⟩
  · exact fun _ => .inl fun _ => rfl

/-- A session that has registered what its server advertised has it registered still, as long as it follows
the server. -/
theorem Act.advertises (quiet : c.host.armed = []) (act : Act options turn c d) {n : Nat}
    (advertises : c.Advertises options n) : d.Advertises options n := by
  obtain ⟨s, before, known⟩ := advertises
  have inside := (List.getElem?_eq_some_iff.mp before).1
  have found := List.getElem?_eq_getElem (Nat.lt_of_lt_of_le inside act.length_le)
  refine ⟨_, found, ?_⟩
  rcases act.session_cases quiet found with ⟨h, k, act, rfl, at_h, host, same, host'⟩ |
    ⟨s', opened, ended, more, at_s, same, provided⟩ | ⟨rfl, -⟩
  · cases before.symm.trans at_h
    rw [← same, ← host']
    intro active
    have calm : h.host.armed = [] := host ▸ quiet
    exact act.advertises calm active (host ▸ known (act.offers_or calm active).1)
  · cases before.symm.trans at_s
    rw [same]
    intro active
    obtain ⟨answer, answered, offers⟩ := known active
    exact ⟨answer, answered, fun number => (offers number).of_eq rfl provided⟩
  · exact absurd inside (Nat.lt_irrefl _)

end Scene

namespace World

variable {w v : World} {turn : Turn} {number : Nat}

/-! ## Operations on one session -/

/-- Something happens to the connection of a session, and to nothing else. The new connection has to be one
that the move allows. -/
theorem put_acts {s : Session} (quiet : w.host.armed = []) (found : w.sessions[number]? = some s)
    {connection : Connection SessionHandler} (allowed : turn.Allows number s.connection connection) :
    Scene.Acts w.options turn w.scene (w.put number { s with connection }).scene := by
  let h : Hosted := ⟨s, number, w.host, .nobody, false⟩
  have acts : Hosted.Acts w.options turn h (h.withConnection connection.withoutNews) :=
    (Hosted.Act.connection (allowed.trans (.of_unread Connection.withoutNews_unread rfl))).acts
  exact .of_hosted (c := w.scene) (h := h) quiet rfl found acts

/-- A change of a connection that the move always allows is an act of the scene, or nothing at all where
there is no such session. -/
theorem onConnection_acts (quiet : w.host.armed = [])
    {change : Connection SessionHandler → Connection SessionHandler}
    (allowed : ∀ c, turn.Allows number c (change c)) :
    Scene.Acts w.options turn w.scene (w.onConnection number change).scene := by
  unfold onConnection
  split
  · exact .refl
  next s found => exact put_acts quiet found (allowed s.connection)

/-- What an operation comes to, and the scene that it leaves, where there is such a session. Its result is
that of the operation on the session as it sees the host, because a host that is not armed never ends the
client meanwhile. -/
theorem within_found {α : Type} (run : Hosted → α × Hosted)
    (each : ∀ h, Hosted.Course Session.Later h (run h).2) (quiet : w.host.armed = []) (default : α)
    {s : Session} (found : w.sessions[number]? = some s) :
    ∃ h : Hosted, h.number = number ∧ h.host = w.host ∧ h.session = s ∧
      (w.within number default run).1 = (run h).1 ∧
      (w.within number default run).2.scene = ⟨w.sessions.set number
        { (run h).2.session with connection := (run h).2.session.connection.withoutNews },
        (run h).2.host⟩ := by
  rw [within_eq run each quiet]
  unfold onSession
  rw [found]
  exact ⟨⟨s, number, w.host, w.reachOf number, false⟩, rfl, rfl, rfl, rfl, rfl⟩

/-- An operation that does acts of the session, however it sees the host, is a sequence of acts of the
scene. If there is no such session, the sequence is empty. -/
theorem within_acts {α : Type} (run : Hosted → α × Hosted)
    (each : ∀ h, Hosted.Course Session.Later h (run h).2) (quiet : w.host.armed = []) (default : α)
    (acts : ∀ h, h.number = number → h.host = w.host → w.sessions[number]? = some h.session →
      Hosted.Acts w.options turn h (run h).2) :
    Scene.Acts w.options turn w.scene (w.within number default run).2.scene := by
  cases found : w.sessions[number]? with
  | none =>
    rw [within_eq run each quiet]
    unfold onSession
    rw [found]
  | some s =>
    obtain ⟨h, rfl, host, rfl, -, scene⟩ := within_found run each quiet default found
    rw [scene]
    have ran := acts h rfl host found
    have told : Hosted.Acts w.options turn (run h).2
        ((run h).2.withConnection (run h).2.session.connection.withoutNews) :=
      (Hosted.Act.connection (.of_unread Connection.withoutNews_unread rfl)).acts
    exact .of_hosted (c := w.scene) quiet host found (ran.trans told)

/-- The same for an operation that has no result. -/
theorem during_acts {run : Hosted → Hosted}
    (each : ∀ h, Hosted.Course Session.Later h (run h)) (quiet : w.host.armed = [])
    (acts : ∀ h, h.number = number → h.host = w.host → w.sessions[number]? = some h.session →
      Hosted.Acts w.options turn h (run h)) :
    Scene.Acts w.options turn w.scene (w.during number run).scene :=
  within_acts (fun h => ((), run h)) each quiet () acts

/-- An operation that is only carried out for a session that follows its server may rely on the session not
being disposed. -/
theorem whileActive_acts {run : Hosted → Hosted}
    (each : ∀ h, Hosted.Course Session.Later h (run h)) (quiet : w.host.armed = [])
    (acts : ∀ h, h.number = number → h.host.armed = [] → h.session.isDisposed = false →
      Hosted.Acts w.options turn h (run h)) :
    Scene.Acts w.options turn w.scene (w.whileActive number run).scene := by
  unfold whileActive
  split
  next active =>
    refine during_acts each quiet ?_
    intro h same host found
    rw [found] at active
    simp only [Option.map_some, Option.getD_some, Session.isActive, Bool.and_eq_true,
      Bool.not_eq_true'] at active
    exact acts h same (host ▸ quiet) active.1
  · exact .refl

/-- A new session is two acts of the scene: it is attached, and its connection is then put back without its
news. -/
theorem attach_acts (quiet : w.host.armed = []) (root : Option Url) :
    Scene.Acts w.options turn w.scene (w.attach root).2.scene := by
  let s := Session.attach root (w.host.lastDecorationKind + 1) w.options.config.progressSuffix
  let v : World := { w with
    sessions := w.sessions ++ [s], host := w.host.newDecorationKind.2,
    woken := (w.attach root).2.woken }
  have attached : Scene.Act w.options turn w.scene v.scene := .attach root _
  have found : v.sessions[w.sessions.length]? = some s := by
    rw [List.getElem?_append_right (Nat.le_refl _), Nat.sub_self]
    rfl
  have told : Scene.Acts w.options turn v.scene
      (v.put w.sessions.length { s with connection := s.connection }).scene :=
    put_acts (w := v) quiet found (.refl _)
  exact attached.acts.trans told

end World

end LanguageClient
