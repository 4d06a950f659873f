import LanguageClient.Proofs.Session.Greeting
import LanguageClient.Proofs.World.Steps

/-!
# How a world goes on

`World.Onward` relates two worlds of which the second comes of the first by what a task does, whatever
the host does from inside its callbacks. Every session goes on, the host opens no document, and there
are only two ways in which a provider can come: its session serves a request of the server, or it
registers what the server advertises at a moment at which the server was greeted and told of the
documents. A session becomes open for somebody only if its server was.

A greeting that somebody waits for is the first call on its connection (`World.IsOrderly`), which is
what the steps that open sessions depend on.
-/

namespace LanguageClient

namespace World

variable {serving : Nat → Prop} {w v u : World} {n call : Nat}

/-- Whether the server of a session was greeted, and told of the documents that the host has open. -/
def HasGreeted (w : World) (n : Nat) : Prop :=
  ∃ s, w.sessions[n]? = some s ∧ s.IsGreeted w.options.rewriter w.host.documents

/-- Whether a provider came from the first world to the second at a moment at which the server was told
all of that. -/
def Installs (w v : World) (p : Provider) : Prop :=
  ∃ (h : Hosted) (answer : Json) (t : Session), h.Yields w.options p answer ∧
    h.host.documents = w.host.documents ∧
    (∀ s, w.sessions[p.session]? = some s → s.Onward h.session) ∧
    v.sessions[p.session]? = some t ∧ (h.installStatic w.options answer).session.Onward t

/-- Whether somebody who opens a session waits for the outcome of a call. -/
def Awaits (w : World) (n call : Nat) : Prop :=
  (∃ opening ∈ w.openings, opening.stage = .greeting n call) ∨
    (∃ visit ∈ w.visits, visit.stage = .greeting n call) ∨ w.phase = .greeting n call

/-- Whether a call is the first of a session, and greets the server. -/
def IsGreeting (w : World) (n call : Nat) : Prop :=
  call = 0 ∧ ∃ s, w.sessions[n]? = some s ∧ s.Greets

/-- Whether the client is at a phase that it can be at with the session that serves all roots. -/
def PhaseFits (w : World) : Prop :=
  (w.isMultiRoot = false → w.shared = none) ∧
    match w.phase with
    | .connecting => w.isMultiRoot = true
    | .greeting n _ => w.shared = some n
    | .joining _ => w.isMultiRoot = false
    | _ => True

/-- What holds of every world, whatever the host does from inside its callbacks. -/
structure IsOrderly (w : World) : Prop where
  greeting : ∀ {n call : Nat}, w.Awaits n call → w.IsGreeting n call
  phase : w.PhaseFits

/-- How a world goes on, where those sessions serve requests of their servers. -/
structure Onward (serving : Nat → Prop) (w v : World) : Prop where
  options : v.options = w.options
  documents : v.host.documents = w.host.documents
  session : ∀ {n : Nat} {s : Session}, w.sessions[n]? = some s →
    ∃ t, v.sessions[n]? = some t ∧ s.Onward t
  provided : ∀ p ∈ v.host.provided, p ∈ w.host.provided ∨ serving p.session ∨ Installs w v p
  opened : ∀ {n : Nat}, v.HasOpened n → w.HasOpened n ∨ v.HasGreeted n
  orderly : v.IsOrderly

namespace Onward

/-- A session whose server was told all stays one whose server was told all, as the host has opened no
document in between. -/
theorem greeted (onward : Onward serving w v) (greeted : w.HasGreeted n) : v.HasGreeted n := by
  obtain ⟨s, found, greeted⟩ := greeted
  obtain ⟨t, found, later⟩ := onward.session found
  refine ⟨t, found, ?_⟩
  rw [onward.options, onward.documents]
  exact greeted.onward later

theorem refl (orderly : w.IsOrderly) : Onward serving w w where
  options := rfl
  documents := rfl
  session {_ s} found := ⟨s, found, .refl s⟩
  provided _ member := .inl member
  opened := .inl
  orderly := orderly

/-- How a world goes on composes. A provider that came in either step came in one of the two ways, and one
that was installed in the first is carried to the end by how its session goes on. -/
theorem trans (first : Onward serving w v) (second : Onward serving v u) : Onward serving w u where
  options := second.options.trans first.options
  documents := second.documents.trans first.documents
  session found := by
    obtain ⟨s, found, later⟩ := first.session found
    obtain ⟨t, found, latest⟩ := second.session found
    exact ⟨t, found, later.trans latest⟩
  provided p member := by
    rcases second.provided p member with before | serves | ⟨h, answer, t, yields, documents, since,
      found, until_⟩
    · rcases first.provided p before with known | serves | ⟨h, answer, s, yields, documents, since,
        found, until_⟩
      · exact .inl known
      · exact .inr (.inl serves)
      · obtain ⟨t, found, later⟩ := second.session found
        exact .inr (.inr ⟨h, answer, t, yields, documents, since, found, until_.trans later⟩)
    · exact .inr (.inl serves)
    · rw [first.options] at yields until_
      refine .inr (.inr ⟨h, answer, t, yields, documents.trans first.documents, ?_, found, until_⟩)
      intro s before
      obtain ⟨r, between, later⟩ := first.session before
      exact later.trans (since r between)
  opened opened := by
    rcases second.opened opened with before | greeted
    · rcases first.opened before with known | greeted
      · exact .inl known
      · exact .inr (second.greeted greeted)
    · exact .inr greeted
  orderly := second.orderly

end Onward

/-! ## Changes of a kind -/

section Unstaged

variable (options : v.options = w.options) (openings : v.openings = w.openings)
  (visits : v.visits = w.visits) (phase : v.phase = w.phase) (shared : v.shared = w.shared)

include options openings visits phase shared

/-- Where nobody's stage has changed, the same sessions are open. -/
theorem HasOpened.of_eq (opened : v.HasOpened n) : w.HasOpened n := by
  unfold HasOpened isMultiRoot at opened ⊢
  rw [options, openings, visits, phase, shared] at opened
  exact opened

/-- A world stays orderly where nobody's stage has changed and sessions keep their first call. -/
theorem IsOrderly.of_eq (orderly : w.IsOrderly) (greets : ∀ {n : Nat} {s : Session},
    w.sessions[n]? = some s → s.Greets → ∃ t, v.sessions[n]? = some t ∧ t.Greets) :
    v.IsOrderly := by
  refine ⟨fun {n call} awaits => ?_, ?_⟩
  · unfold Awaits at awaits
    rw [openings, visits, phase] at awaits
    obtain ⟨first, s, found, greeting⟩ := orderly.greeting awaits
    exact ⟨first, greets found greeting⟩
  · have fits := orderly.phase
    unfold PhaseFits isMultiRoot at fits ⊢
    rw [options, phase, shared]
    exact fits

/-- Sessions and the host change, and nobody's stage does. So only sessions and providers are left to look
at. -/
theorem Onward.unstaged (orderly : w.IsOrderly)
    (documents : v.host.documents = w.host.documents)
    (session : ∀ {n : Nat} {s : Session}, w.sessions[n]? = some s →
      ∃ t, v.sessions[n]? = some t ∧ s.Onward t)
    (provided : ∀ p ∈ v.host.provided, p ∈ w.host.provided ∨ serving p.session ∨ Installs w v p) :
    Onward serving w v where
  options := options
  documents := documents
  session := session
  provided := provided
  opened opened := .inl (opened.of_eq options openings visits phase shared)
  orderly := orderly.of_eq options openings visits phase shared fun found greets => by
    obtain ⟨t, found, later⟩ := session found
    exact ⟨t, found, greets.onward later⟩

end Unstaged

/-- Somebody comes to another stage, while sessions and the host stay as they are. -/
theorem IsOrderly.staged (orderly : w.IsOrderly) (options : v.options = w.options)
    (sessions : v.sessions = w.sessions) (host : v.host = w.host)
    (awaits : ∀ {n call : Nat}, v.Awaits n call → w.Awaits n call ∨ w.IsGreeting n call)
    (opened : ∀ {n : Nat}, v.HasOpened n → w.HasOpened n ∨ w.HasGreeted n) (phase : v.PhaseFits) :
    Onward serving w v where
  options := options
  documents := by rw [host]
  session {_ s} found := ⟨s, sessions ▸ found, .refl s⟩
  provided _ member := .inl (host ▸ member)
  opened opens := by
    unfold HasGreeted
    rw [options, sessions, host]
    exact opened opens
  orderly := by
    refine ⟨fun {n call} waits => ?_, phase⟩
    unfold IsGreeting
    rw [sessions]
    exact (awaits waits).elim orderly.greeting id

/-- A change of what neither sessions nor stages depend on. -/
theorem IsOrderly.aside (orderly : w.IsOrderly) (options : v.options = w.options)
    (sessions : v.sessions = w.sessions) (openings : v.openings = w.openings)
    (visits : v.visits = w.visits) (phase : v.phase = w.phase) (shared : v.shared = w.shared)
    (documents : v.host.documents = w.host.documents) (provided : v.host.provided = w.host.provided) :
    Onward serving w v :=
  .unstaged options openings visits phase shared orderly documents
    (fun {_ s} found => ⟨s, sessions ▸ found, .refl s⟩) (fun _ member => .inl (provided ▸ member))

/-- An opening changes. It stays at a stage that matters here, or is right to come to it. -/
theorem changeOpening_onward (orderly : w.IsOrderly) (number : Nat) {change : Opening → Opening}
    (greets : ∀ {opening : Opening} {n call : Nat}, (change opening).stage = .greeting n call →
      opening.stage = .greeting n call ∨ w.IsGreeting n call)
    (opens : ∀ {opening : Opening} {n : Nat}, (change opening).stage = .finished (some n) →
      opening.stage = .finished (some n) ∨ w.HasGreeted n) :
    Onward serving w { w with openings := w.openings.modify number change } := by
  refine orderly.staged rfl rfl rfl ?_ ?_ orderly.phase
  · rintro n call (⟨opening, member, stage⟩ | others)
    · rcases mem_modify member with old | ⟨old, found, rfl⟩
      · exact .inl (.inl ⟨opening, old, stage⟩)
      · exact (greets stage).imp_left fun before =>
          .inl ⟨old, List.mem_of_getElem? found, before⟩
    · exact .inl (.inr others)
  · rintro n (⟨opening, member, stage⟩ | others)
    · rcases mem_modify member with old | ⟨old, found, rfl⟩
      · exact .inl (.inl ⟨opening, old, stage⟩)
      · exact (opens stage).imp_left fun before =>
          .inl ⟨old, List.mem_of_getElem? found, before⟩
    · exact .inl (.inr others)

/-- An opening comes to another stage. To wait for a greeting, or to be finished with a session, has to be
right in the world as it is. -/
theorem setStage_onward (orderly : w.IsOrderly) (number : Nat) {stage : OpeningStage}
    (greets : ∀ {n call : Nat}, stage = .greeting n call → w.IsGreeting n call)
    (opens : ∀ {n : Nat}, stage = .finished (some n) → w.HasGreeted n) :
    Onward serving w (w.setStage number stage) :=
  changeOpening_onward orderly number (fun now => .inr (greets now)) fun now => .inr (opens now)

theorem setStartup_onward (orderly : w.IsOrderly) (number : Nat) (startup : Startup) :
    Onward serving w (w.setStartup number startup) :=
  changeOpening_onward orderly number .inl .inl

/-- A visit changes. It stays at a stage that matters here, or is right to come to it. -/
theorem changeVisit_onward (orderly : w.IsOrderly) (number : Nat) {change : Visit → Visit}
    (greets : ∀ {visit : Visit} {n call : Nat}, (change visit).stage = .greeting n call →
      visit.stage = .greeting n call ∨ w.IsGreeting n call)
    (opens : ∀ {visit : Visit} {n : Nat} {loan : Option Loan}, w.isMultiRoot = false →
      (change visit).stage = .running n loan →
        visit.stage = .running n loan ∨ w.HasOpened n ∨ w.HasGreeted n) :
    Onward serving w { w with visits := w.visits.modify number change } := by
  refine orderly.staged rfl rfl rfl ?_ ?_ orderly.phase
  · rintro n call (others | ⟨visit, member, stage⟩ | others)
    · exact .inl (.inl others)
    · rcases mem_modify member with old | ⟨old, found, rfl⟩
      · exact .inl (.inr (.inl ⟨visit, old, stage⟩))
      · exact (greets stage).imp_left fun before =>
          .inr (.inl ⟨old, List.mem_of_getElem? found, before⟩)
    · exact .inl (.inr (.inr others))
  · rintro n (others | ⟨single, visit, member, loan, stage⟩ | others)
    · exact .inl (.inl others)
    · rcases mem_modify member with old | ⟨old, found, rfl⟩
      · exact .inl (.inr (.inl ⟨single, visit, old, loan, stage⟩))
      · rcases opens single stage with before | now
        · exact .inl (.inr (.inl ⟨single, old, List.mem_of_getElem? found, loan, before⟩))
        · exact now
    · exact .inl (.inr (.inr others))

/-- A visit comes to another stage, with the same two conditions. A session that is not the visitor's own is
left out of the second. -/
theorem setVisit_onward (orderly : w.IsOrderly) (number : Nat) {stage : VisitStage}
    (greets : ∀ {n call : Nat}, stage = .greeting n call → w.IsGreeting n call)
    (opens : ∀ {n : Nat} {loan : Option Loan}, w.isMultiRoot = false → stage = .running n loan →
      w.HasOpened n ∨ w.HasGreeted n) : Onward serving w (w.setVisit number stage) :=
  changeVisit_onward orderly number (fun now => .inr (greets now))
    fun single now => .inr (opens single now)

/-- The client comes to another phase, or to another session for all roots. -/
theorem phased_onward (orderly : w.IsOrderly) {phase : Phase} {shared : Option Nat}
    (fits : { w with phase, shared }.PhaseFits)
    (greets : ∀ {n call : Nat}, phase = .greeting n call → w.IsGreeting n call)
    (opens : ∀ {n : Nat}, phase = .running → shared = some n → w.HasOpened n ∨ w.HasGreeted n) :
    Onward serving w { w with phase, shared } := by
  refine orderly.staged rfl rfl rfl ?_ ?_ fits
  · rintro n call (others | others | waits)
    · exact .inl (.inl others)
    · exact .inl (.inr (.inl others))
    · exact .inr (greets waits)
  · rintro n (others | others | ⟨running, known⟩)
    · exact .inl (.inl others)
    · exact .inl (.inr (.inl others))
    · exact opens running known

/-! ## Operations on one session -/

/-- A session does something, with the host. Providers that it gives come for a request that it serves or
for what was advertised. -/
theorem IsOrderly.operated {h k : Hosted} (orderly : w.IsOrderly) (host : h.host = w.host)
    (found : w.sessions[h.number]? = some h.session)
    (onward : Hosted.Onward (fun p => serving h.number ∨ h.Gives w.options k p) h k) :
    Onward serving w ({ w with host := k.host }.put h.number k.session) := by
  have inside := (List.getElem?_eq_some_iff.mp found).1
  have told : k.session.Onward { k.session with connection := k.session.connection.withoutNews } :=
    .of_connection Connection.withoutNews_onward
  have here : ({ w with host := k.host }.put h.number k.session).sessions[h.number]? =
      some { k.session with connection := k.session.connection.withoutNews } :=
    List.getElem?_set_self inside
  refine .unstaged rfl rfl rfl rfl rfl orderly (onward.documents.trans (by rw [host])) ?_ ?_
  · intro n s before
    by_cases same : h.number = n
    · subst same
      cases found.symm.trans before
      exact ⟨_, here, onward.session.trans told⟩
    · exact ⟨s, (List.getElem?_set_ne same).trans before, .refl s⟩
  · intro p member
    rcases onward.provided p member with before | ⟨mine, serves | gives⟩
    · exact .inl (host ▸ before)
    · exact .inr (.inl (mine ▸ serves))
    · obtain ⟨l, answer, yields, documents, since, until_⟩ := gives
      refine .inr (.inr ⟨l, answer, _, yields, documents.trans (by rw [host]), ?_, mine ▸ here,
        until_.trans told⟩)
      intro s before
      rw [mine, found] at before
      cases before
      exact since

/-- Something happens to the connection of a session. Its log and its signals are taken, which is no part of
its history. -/
theorem put_onward {s : Session} (orderly : w.IsOrderly) (found : w.sessions[n]? = some s)
    {connection : Connection SessionHandler} (onward : s.connection.Onward connection) :
    Onward serving w (w.put n { s with connection }) :=
  orderly.operated (h := ⟨s, n, w.host, .nobody, false⟩)
    (k := ⟨{ s with connection }, n, w.host, .nobody, false⟩) rfl found
    (.of_host rfl rfl rfl (.of_connection onward))

/-- A change of a connection goes on if it does so for every connection. -/
theorem onConnection_onward (orderly : w.IsOrderly)
    {change : Connection SessionHandler → Connection SessionHandler}
    (each : ∀ c : Connection SessionHandler, c.Onward (change c)) (n : Nat) :
    Onward serving w (w.onConnection n change) := by
  unfold onConnection
  split
  · exact .refl orderly
  next s found => exact put_onward orderly found (each s.connection)

/-- An operation of a session goes on, and what it is known by is the session of that number and the host of
the world. -/
theorem onSession_onward {α : Type} (orderly : w.IsOrderly) (n : Nat) (default : α)
    {run : Hosted → α × Hosted} (each : ∀ h, h.host = w.host →
      w.sessions[h.number]? = some h.session → h.number = n →
        Hosted.Onward (fun p => serving h.number ∨ h.Gives w.options (run h).2 p) h (run h).2) :
    Onward serving w (w.onSession n default run).2.2 := by
  unfold onSession
  split
  · exact .refl orderly
  next s found =>
    have operated := each ⟨s, n, w.host, w.reachOf n, false⟩ rfl found rfl
    exact orderly.operated rfl found operated

/-! ## Ending the client -/

/-- Tearing a session down gives the host nothing and leaves said what was said. -/
theorem tearDown_onward (orderly : w.IsOrderly) (n : Nat) : Onward serving w (w.tearDown n).2 :=
  onSession_onward orderly n () fun h _ _ _ => h.dispose_onward

/-- An opening that is revoked is cancelled, which is no stage of it, and its session is disposed. -/
theorem revoke_onward (orderly : w.IsOrderly) (number : Nat) :
    Onward serving w (w.revoke number).2 := by
  have cancelled : Onward serving w (w.setStartup number .cancelled) :=
    setStartup_onward orderly number .cancelled
  unfold revoke
  dsimp only
  split
  · exact cancelled.trans (tearDown_onward cancelled.orderly _)
  · exact cancelled

/-- Steps that each go on, one after the other. Each of them starts from an orderly world. -/
theorem foldl_onward {α : Type} {step : World → α → World}
    (each : ∀ {w : World}, w.IsOrderly → ∀ a, Onward serving w (step w a)) (orderly : w.IsOrderly)
    (items : List α) : Onward serving w (items.foldl step w) := by
  induction items generalizing w with
  | nil => exact .refl orderly
  | cons item items ih => exact (each orderly item).trans (ih (each orderly item).orderly)

/-- The end of the client goes on: it closes what was open and opens nothing. -/
theorem endClient_onward (orderly : w.IsOrderly) : Onward serving w w.endClient := by
  let v : World := { w with phase := .over, shared := none }
  have ended : Onward serving w v :=
    phased_onward orderly ⟨fun _ => rfl, trivial⟩ (by rintro _ _ ⟨⟩) (by rintro _ ⟨⟩)
  let u : World := { v with following := .over, entries := [] }
  have left : Onward serving w u :=
    ended.trans (ended.orderly.aside rfl rfl rfl rfl rfl rfl rfl rfl)
  have torn : Onward serving w (u.tearDownAny w.shared) := by
    unfold tearDownAny
    split
    · exact left.trans (tearDown_onward left.orderly _)
    · exact left
  have revoked : Onward serving _ _ := foldl_onward (fun orderly (entry : RootEntry) =>
    revoke_onward orderly entry.opening) torn.orderly w.entries
  rw [endClient_eq]
  exact (torn.trans revoked).trans (revoked.orderly.aside rfl rfl rfl rfl rfl rfl rfl rfl)

theorem endIf_onward {ended : Bool} (orderly : w.IsOrderly) :
    Onward serving w (endIf (ended, w)) := by
  cases ended with
  | true => exact endClient_onward orderly
  | false => exact .refl orderly

/-- Cancelling an opening goes on, also where the host ends the client in a callback of it. -/
theorem cancel_onward (orderly : w.IsOrderly) (number : Nat) :
    Onward serving w (w.cancel number) := by
  have revoked : Onward serving w (w.revoke number).2 := revoke_onward orderly number
  exact revoked.trans (endIf_onward revoked.orderly)

theorem shared_tearDown (w : World) (n : Nat) : (w.tearDown n).2.shared = w.shared := by
  unfold tearDown onSession
  split <;> rfl

/-- Revoking an opening leaves the session for all roots in place. -/
theorem shared_revoke (w : World) (number : Nat) : (w.revoke number).2.shared = w.shared := by
  unfold revoke
  dsimp only
  split
  · exact shared_tearDown ..
  · rfl

/-- A client that has ended has no session for all roots, since it lets go of it before it disposes it. -/
theorem shared_endClient (w : World) : w.endClient.shared = none := by
  have revoked (entries : List RootEntry) (v : World) :
      (entries.foldl (fun w entry => (w.revoke entry.opening).2) v).shared = v.shared := by
    induction entries generalizing v with
    | nil => rfl
    | cons entry entries ih => exact (ih _).trans (shared_revoke ..)
  refine (revoked w.entries _).trans ?_
  split
  · exact shared_tearDown ..
  · rfl

/-- Whatever the host does to the client in a callback, the session for all roots is the one that it was, or
there is none. -/
theorem shared_endIf (ended : Bool) (w : World) :
    (endIf (ended, w)).shared = w.shared ∨ (endIf (ended, w)).shared = none := by
  cases ended with
  | true => exact .inr (shared_endClient w)
  | false => exact .inl rfl

/-- An operation of a session, and what it does to the client, goes on if the operation does. -/
theorem within_onward {α : Type} (orderly : w.IsOrderly) (n : Nat) (default : α)
    {run : Hosted → α × Hosted} (each : ∀ h, h.host = w.host →
      w.sessions[h.number]? = some h.session → h.number = n →
        Hosted.Onward (fun p => serving h.number ∨ h.Gives w.options (run h).2 p) h (run h).2) :
    Onward serving w (w.within n default run).2 := by
  have operated := onSession_onward orderly n default each
  unfold within
  generalize w.onSession n default run = outcome at operated ⊢
  exact operated.trans (endIf_onward operated.orderly)

theorem during_onward (orderly : w.IsOrderly) (n : Nat) {run : Hosted → Hosted}
    (each : ∀ h, h.number = n → Hosted.Onward (fun _ => serving h.number) h (run h)) :
    Onward serving w (w.during n run) :=
  within_onward orderly n () fun h _ _ here => (each h here).weaken fun _ => .inl

/-- An operation that is done only while the session follows its server goes on, also where it is not done.
-/
theorem whileActive_onward (orderly : w.IsOrderly) (n : Nat) {run : Hosted → Hosted}
    (each : ∀ h, Hosted.Onward (fun _ => serving h.number) h (run h)) :
    Onward serving w (w.whileActive n run) := by
  unfold whileActive
  split
  · exact during_onward orderly n fun h _ => each h
  · exact .refl orderly

theorem dispose_onward (orderly : w.IsOrderly) (n : Nat) : Onward serving w (w.dispose n) :=
  during_onward orderly n fun h _ => h.dispose_onward

end World

end LanguageClient
