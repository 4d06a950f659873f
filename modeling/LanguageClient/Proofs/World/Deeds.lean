import LanguageClient.Proofs.Session.Deeds
import LanguageClient.Proofs.World.Leads
import LanguageClient.Proofs.World.Scene

/-!
# The deeds of a world

What happens to the sessions and the host, whatever the host does from inside its callbacks: a session
does one of its deeds, there is a new session, or the host changes in what is nothing to the sessions
(`Scene.Deed`). A sequence of these is `World.Deeds`, and whatever the client does is one, as what it lets a
session do is a sequence of the deeds of that session (`World.deeds_conduct`, `World.Leads.deeds`).
-/

namespace LanguageClient

namespace Scene

/-- One thing that happens to the sessions and the host. -/
inductive Deed (options : ClientOptions) (c : Scene) : Scene → Prop where
  | hosted {h k : Hosted} (found : c.sessions[h.number]? = some h.session) (host : h.host = c.host)
      (deed : Hosted.Deed options h k) :
      Deed options c ⟨c.sessions.set h.number k.session, k.host⟩
  /-- There is a new session. -/
  | attach (root : Option Url) :
      Deed options c
        ⟨c.sessions ++ [Session.attach root (c.host.lastDecorationKind + 1)
          options.config.progressSuffix], c.host.newDecorationKind.2⟩
  /-- The host changes in what is nothing to the sessions. -/
  | host (host : Host) (same : host = { c.host with
      roots := host.roots, documents := host.documents, reporters := host.reporters,
      waiting := host.waiting }) : Deed options c ⟨c.sessions, host⟩

/-- Several such things, one after the other. -/
abbrev Deeds (options : ClientOptions) : Scene → Scene → Prop :=
  Relation.ReflTransGen (Deed options)

variable {options : ClientOptions} {c : Scene}

/-- What one session does, the scene does. The number is the same at both ends, so it is that session which
changes and no other. -/
theorem Deeds.of_hosted {h k : Hosted} (host : h.host = c.host)
    (found : c.sessions[h.number]? = some h.session) (deeds : Hosted.Deeds options h k) :
    Deeds options c ⟨c.sessions.set h.number k.session, k.host⟩ := by
  have inside := (List.getElem?_eq_some_iff.mp found).1
  suffices led : k.number = h.number ∧
      Deeds options c ⟨c.sessions.set h.number k.session, k.host⟩ from led.2
  induction deeds with
  | refl =>
    obtain ⟨_, here⟩ := List.getElem?_eq_some_iff.mp found
    rw [host, ← here, List.set_getElem_self]
    exact ⟨rfl, .refl⟩
  | @tail k l _ deed ih =>
    obtain ⟨number, led⟩ := ih
    have there : (c.sessions.set h.number k.session)[k.number]? = some k.session := by
      rw [number]
      exact List.getElem?_set_self inside
    have step := Deed.hosted (c := ⟨c.sessions.set h.number k.session, k.host⟩) there rfl deed
    rw [number, List.set_set] at step
    exact ⟨deed.number.trans number, led.tail step⟩

/-- The sessions when there is a new one: each of the old is where it was, and the new one stands behind
them. -/
theorem attached_cases (sessions : List Session) (s : Session) (n : Nat) :
    (sessions ++ [s])[n]? = sessions[n]? ∨
      n = sessions.length ∧ (sessions ++ [s])[n]? = some s := by
  rcases Nat.lt_trichotomy n sessions.length with before | rfl | behind
  · exact .inl (List.getElem?_append_left before)
  · exact .inr ⟨rfl, List.getElem?_concat_length ..⟩
  · refine .inl ?_
    rw [List.getElem?_eq_none (Nat.le_of_lt behind), List.getElem?_eq_none]
    rw [List.length_append]
    exact behind

/-! ## What there is of a session -/

/-- What a session comes to, if there is one of that number. -/
def ofSession {α : Type} (c : Scene) (n : Nat) (value : Session → α) (otherwise : α) : α :=
  ((c.sessions[n]?).map value).getD otherwise

section OfSession

variable {α : Type} {n m : Nat} {s : Session} {host : Host} {value value' : Session → α}
  {otherwise : α}

/-- What a session comes to, where there is one. -/
theorem ofSession_of_found (found : c.sessions[n]? = some s) :
    c.ofSession n value otherwise = value s := by
  unfold ofSession
  rw [found]
  rfl

/-- What is said where there is no session of the number. -/
theorem ofSession_of_none (none : c.sessions[n]? = none) :
    c.ofSession n value otherwise = otherwise := by
  unfold ofSession
  rw [none]
  rfl

/-- One session has changed, and the values of the others are the same. -/
theorem ofSession_set (inside : n < c.sessions.length) :
    ofSession ⟨c.sessions.set n s, host⟩ m value otherwise =
      if n = m then value s else c.ofSession m value otherwise := by
  by_cases here : n = m
  · subst here
    rw [if_pos rfl]
    exact ofSession_of_found (List.getElem?_set_self inside)
  · unfold ofSession
    rw [if_neg here, List.getElem?_set_ne here]

/-- One session has changed in something else than what is asked for, so every value is the same. -/
theorem ofSession_set_same {t : Session} (found : c.sessions[n]? = some s)
    (same : value t = value s) :
    ofSession ⟨c.sessions.set n t, host⟩ m value otherwise = c.ofSession m value otherwise := by
  rw [ofSession_set (List.getElem?_eq_some_iff.mp found).1]
  by_cases here : n = m
  · subst here
    rw [if_pos rfl, same, ofSession_of_found found]
  · rw [if_neg here]

/-- A new session comes to what none comes to. So before it has done anything nobody can tell that it is
there. -/
theorem ofSession_attach (nothing : value s = otherwise) :
    ofSession ⟨c.sessions ++ [s], host⟩ m value otherwise = c.ofSession m value otherwise := by
  rcases attached_cases c.sessions s m with old | ⟨rfl, new⟩
  · exact congrArg (fun found => (Option.map value found).getD otherwise) old
  · rw [ofSession_of_found (c := ⟨c.sessions ++ [s], host⟩) new,
      ofSession_of_none (List.getElem?_eq_none (Nat.le_refl _))]
    exact nothing

/-- All sessions have changed, each in the same way, as when all of them hear of a document. -/
theorem ofSession_map {change : Session → Session} (each : ∀ s, value (change s) = value' s) :
    ofSession ⟨c.sessions.map change, host⟩ n value otherwise = c.ofSession n value' otherwise := by
  unfold ofSession
  rw [List.getElem?_map, Option.map_map]
  exact congrArg (fun value => (Option.map value c.sessions[n]?).getD otherwise) (funext each)

/-- Two counts of a session can be added before or after it is looked up. -/
theorem ofSession_add {first second : Session → Nat} :
    c.ofSession n first 0 + c.ofSession n second 0 =
      c.ofSession n (fun s => first s + second s) 0 := by
  unfold ofSession
  cases c.sessions[n]? <;> rfl

end OfSession

end Scene

namespace World

variable {w v u : World} {n : Nat}

/-- What happens to a world on the way to another, apart from what is read. -/
structure Deeds (w v : World) : Prop where
  options : v.options = w.options
  scene : Scene.Deeds w.options w.scene v.scene

namespace Deeds

/-- A change of what is no part of the scene is no deed at all. -/
theorem aside (options : v.options = w.options) (scene : v.scene = w.scene) : Deeds w v :=
  ⟨options, scene ▸ .refl⟩

theorem refl (w : World) : Deeds w w := .aside rfl rfl

/-- Deeds compose. The options are the same throughout, which the second sequence needs. -/
theorem trans (first : Deeds w v) (second : Deeds v u) : Deeds w u := by
  have rest := second.scene
  rw [first.options] at rest
  exact ⟨second.options.trans first.options, first.scene.trans rest⟩

end Deeds

/-! ## Operations on one session -/

/-- A session does something, with the host, and is put back among the others. -/
theorem operated_deeds {h k : Hosted} (host : h.host = w.host)
    (found : w.sessions[h.number]? = some h.session) (deeds : Hosted.Deeds w.options h k) :
    Deeds w ({ w with host := k.host }.put h.number k.session) := by
  have silent : k.session.connection.Mute k.session.connection.withoutNews := ⟨rfl, rfl⟩
  have told := deeds.tail (.stay (Hosted.withConnection_stays silent))
  exact ⟨rfl, .of_hosted host found told⟩

/-- Something happens to the connection of a session, by which no feed hears anything and nothing ends. -/
theorem put_deeds {s : Session} {connection : Connection SessionHandler}
    (found : w.sessions[n]? = some s) (mute : s.connection.Mute connection) :
    Deeds w (w.put n { s with connection }) :=
  operated_deeds (h := ⟨s, n, w.host, .nobody, false⟩) rfl found
    (Hosted.withConnection_stays mute).deeds

theorem onConnection_deeds {change : Connection SessionHandler → Connection SessionHandler}
    (mute : ∀ c : Connection SessionHandler, c.Mute (change c)) (w : World) (n : Nat) :
    Deeds w (w.onConnection n change) := by
  unfold onConnection
  split
  · exact .refl w
  next s found => exact put_deeds found (mute s.connection)

/-- An operation of a session that still follows its server, and what it does to the client. It opens
`whileActive` once for those who read a task's whole effect. -/
theorem whileActive_found {s : Session} (run : Hosted → Hosted) (found : w.sessions[n]? = some s)
    (active : s.isActive = true) :
    let k := run ⟨s, n, w.host, w.reachOf n, false⟩
    w.whileActive n run = endIf (k.hasEnded, { w with host := k.host }.put n k.session) := by
  unfold whileActive during within onSession
  simp only [found, Option.map_some, Option.getD_some, active, if_true]

/-! ## What the client does -/

/-- What the client lets one session do are deeds. With `Leads.deeds` this turns all that the client does
into deeds. -/
theorem deeds_conduct (options : ClientOptions) : Hosted.Conduct options (Hosted.Deeds options) where
  refl _ := .refl
  tell told := (Hosted.withConnection_stays (Connection.send_mute told)).deeds
  record h event := by
    have mute : h.session.connection.Mute (h.session.connection.record event) := ⟨rfl, rfl⟩
    exact (Hosted.withConnection_stays mute).deeds
  request _ _ _ := (Hosted.withConnection_stays (Connection.request_mute ..)).deeds
  abandon h call := by
    have mute : h.session.connection.Mute (h.session.connection.abandon call) := ⟨rfl, rfl⟩
    exact (Hosted.withConnection_stays mute).deeds
  cut _ := Hosted.Deed.cut.deeds
  dispose _ := Hosted.Deed.dispose.deeds
  release h := h.release_deeds
  greet h folders := h.greet_deeds folders
  welcome h outcome := h.welcome_deeds outcome
  runJob h isHeld number := h.runJob_deeds isHeld number
  forwardLog _ := Hosted.Deed.forwardLog.deeds
  followDiagnostics active := (Hosted.Deed.followDiagnostics active).deeds
  followProgress active := (Hosted.Deed.followProgress active).deeds

/-- What the client does is a sequence of deeds, by induction on how it is made up. -/
theorem Leads.deeds (leads : Leads Hosted.Deeds w v) : Deeds w v := by
  induction leads with
  | aside options sessions host =>
    refine .aside options ?_
    unfold scene
    rw [sessions, host]
  | operated host found deeds => exact operated_deeds host found deeds
  | @attach w v root options sessions host =>
    refine ⟨options, .single ?_⟩
    unfold scene
    rw [sessions, host]
    exact .attach root
  | trans _ _ first second => exact first.trans second

/-- The end of the client, if the host has asked for it, is a sequence of deeds as well. -/
theorem endIf_deeds (ended : Bool) (w : World) : Deeds w (endIf (ended, w)) :=
  (endIf_leads deeds_conduct ended w).deeds

end World

end LanguageClient
