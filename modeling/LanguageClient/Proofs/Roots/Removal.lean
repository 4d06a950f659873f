import LanguageClient.Client.Registering
import LanguageClient.Proofs.Roots.Custody
import Mathlib.Data.List.Nodup

/-!
# Roots that come and go

What a look at the host's roots does to the sessions of single roots, and the end of the client: an entry
that is struck out has its opening cancelled and its session disposed in the same step, a root that is
added gets an opening of its own, and everybody else keeps what they have.
-/

namespace LanguageClient

namespace World

variable {w v u : World} {n number : Nat} {e : RootEntry} {revoked : List Nat}

/-! ## Cancelling openings -/

/-- Some openings are cancelled, and the sessions that they had are disposed. -/
structure Revokes (revoked : List Nat) (w v : World) : Prop extends Grown (fun _ => True) w v where
  length : v.sessions.length = w.sessions.length
  entries : v.entries = w.entries
  visits : v.visits = w.visits
  openings : ∀ m, v.openings[m]? = (w.openings[m]?).map fun o =>
    if m ∈ revoked then { o with startup := .cancelled } else o
  gone : ∀ m ∈ revoked, ∀ n, w.sessionOf? m = some n → v.isDisposed n = true

namespace Revokes

/-- An opening that is not among the cancelled ones has the session that it had. -/
theorem sessionOf? (revokes : Revokes revoked w v) (other : number ∉ revoked) :
    v.sessionOf? number = w.sessionOf? number := by
  refine sessionOf?_congr ?_
  rw [revokes.openings]
  simp [other]

/-- Where no opening is cancelled, all stay as they were. -/
theorem nil (w : World) : Revokes [] w w :=
  ⟨.refl w, rfl, rfl, rfl, fun _ => by simp, nofun⟩

/-- Some openings are cancelled, then more. A session that the first has disposed is disposed after the
second, as no session is new in between. -/
theorem append {more : List Nat} (first : Revokes revoked w v) (second : Revokes more v u) :
    Revokes (revoked ++ more) w u where
  toGrown := first.toGrown.trans second.toGrown
  length := second.length.trans first.length
  entries := second.entries.trans first.entries
  visits := second.visits.trans first.visits
  openings m := by
    rw [second.openings, first.openings, Option.map_map]
    congr 1
    funext o
    by_cases early : m ∈ revoked <;> by_cases late : m ∈ more <;> simp [early, late]
  gone m member n owned := by
    by_cases early : m ∈ revoked
    · exact second.toGrown.isDisposed_of_length second.length (first.gone m early n owned)
    · have late := (List.mem_append.mp member).resolve_left early
      exact second.gone m late n ((first.sessionOf? early).trans owned)

end Revokes

/-- Where the host does not end the client from inside a callback, a session is torn down by disposing it,
and nobody has to be told of an end. -/
theorem tearDown_eq (quiet : w.host.armed = []) (n : Nat) :
    w.tearDown n = (false, w.dispose n) := by
  have ended := (onSession_course (fun h => ((), h.dispose)) dispose_later quiet n ()).2
  unfold dispose
  unfold tearDown at ended ⊢
  generalize w.onSession n () (fun h => ((), h.dispose)) = outcome at ended ⊢
  obtain ⟨nothing, ended', after⟩ := outcome
  cases ended
  rfl

/-- One opening is cancelled, and its session disposed if there is one already. If there is none yet, what
comes later is disposed in the step in which it comes. -/
theorem revoke_revokes (quiet : w.host.armed = []) (number : Nat) :
    Revokes [number] w (w.revoke number).2 ∧ (w.revoke number).1 = false := by
  have openings (m : Nat) : (w.setStartup number .cancelled).openings[m]? =
      (w.openings[m]?).map fun o =>
        if m ∈ [number] then { o with startup := .cancelled } else o := by
    simp only [setStartup, List.getElem?_modify, List.mem_singleton, eq_comm]
    rfl
  have started : Grown (fun _ => True) w (w.setStartup number .cancelled) := .of_eq rfl rfl rfl rfl
  unfold revoke
  cases owned : w.sessionOf? number with
  | none =>
    refine ⟨⟨started, rfl, rfl, rfl, openings, fun m member n owned' => ?_⟩, rfl⟩
    cases List.mem_singleton.mp member
    cases owned.symm.trans owned'
  | some session =>
    have course : Course Session.Later (w.setStartup number .cancelled)
        ((w.setStartup number .cancelled).dispose session) :=
      dispose_course (by exact quiet) _
    have disposed : Grown (fun _ => True) (w.setStartup number .cancelled)
        ((w.setStartup number .cancelled).dispose session) :=
      within_grown (fun h => ((), h.dispose)) dispose_later (by exact quiet) trivial ()
    dsimp only
    rw [tearDown_eq (by exact quiet)]
    refine ⟨⟨started.trans disposed, course.length, course.entries, course.visits, ?_, ?_⟩, rfl⟩
    · exact fun m => (congrArg (·[m]?) course.openings).trans (openings m)
    · intro m member n owned'
      cases List.mem_singleton.mp member
      cases owned.symm.trans owned'
      exact isDisposed_dispose (by exact quiet) _

/-- Where the host does not end the client from inside a callback, an opening is cancelled in one go. -/
theorem cancel_eq (quiet : w.host.armed = []) (number : Nat) :
    w.cancel number = (w.revoke number).2 := by
  have calm := (revoke_revokes quiet number).2
  unfold cancel
  generalize w.revoke number = outcome at calm ⊢
  obtain ⟨ended, after⟩ := outcome
  cases calm
  rfl

/-! ## Entries that are struck out -/

/-- Entries that are struck out, and the openings of just these cancelled. -/
structure Removes (revoked : List Nat) (w v : World) : Prop where
  revokes : Revokes revoked { w with entries := v.entries } v
  fewer : v.entries.Sublist w.entries
  covers : ∀ e ∈ w.entries, e ∈ v.entries ↔ e.opening ∉ revoked

namespace Removes

variable {o p : Opening}

/-- An opening that was cancelled or not, and what it was before. -/
theorem found (removes : Removes revoked w v) (found : v.openings[number]? = some p) :
    ∃ o, w.openings[number]? = some o ∧ p.root = o.root ∧ p.stage = o.stage ∧
      (number ∉ revoked ∧ p.startup = o.startup ∨ number ∈ revoked ∧ p.startup = .cancelled) := by
  have openings := removes.revokes.openings number
  rw [found] at openings
  obtain ⟨o, before, same⟩ := Option.map_eq_some_iff.mp openings.symm
  refine ⟨o, before, ?_⟩
  rw [← same]
  by_cases member : number ∈ revoked
  · rw [if_pos member]
    exact ⟨rfl, rfl, .inr ⟨member, rfl⟩⟩
  · rw [if_neg member]
    exact ⟨rfl, rfl, .inl ⟨member, rfl⟩⟩

/-- What an opening has after some were cancelled, it had before. -/
theorem had (removes : Removes revoked w v) (found : v.openings[number]? = some p) (had : p.Had n) :
    ∃ o, w.openings[number]? = some o ∧ o.Had n := by
  obtain ⟨o, before, -, stage, ⟨-, startup⟩ | ⟨-, startup⟩⟩ := removes.found found
  · refine ⟨o, before, ?_⟩
    unfold Opening.Had at had ⊢
    rw [← startup, ← stage]
    exact had
  · refine ⟨o, before, .inr (stage ▸ had.resolve_left fun attached => ?_)⟩
    cases startup.symm.trans attached

/-- An entry that stays has an opening that was not cancelled. -/
theorem free (removes : Removes revoked w v) (member : e ∈ v.entries) : e.opening ∉ revoked :=
  (removes.covers e (removes.fewer.subset member)).mp member

/-- An entry that stays has the session that it had. -/
theorem sessionOf? (removes : Removes revoked w v) (member : e ∈ v.entries) :
    v.sessionOf? e.opening = w.sessionOf? e.opening :=
  removes.revokes.sessionOf? (removes.free member)

/-- Striking entries out leaves cancelled openings cancelled, and cancels only more. -/
theorem abides (removes : Removes revoked w v) : Abides w v := by
  intro m o found
  refine ⟨_, (removes.revokes.openings m).trans (congrArg _ found), ?_, fun cancelled => ?_⟩
  · split <;> rfl
  · split
    · rfl
    · exact cancelled

end Removes

/-- Who stays and who goes: an entry is still there with its session, or its opening is cancelled and its
session disposed. -/
structure Resigns (w v : World) : Prop where
  phase : v.phase = w.phase
  isDropped : v.isDropped = w.isDropped
  length : v.sessions.length = w.sessions.length
  disposed : ∀ n, w.isDisposed n = true → v.isDisposed n = true
  abides : Abides w v
  each : ∀ e ∈ w.entries, e ∈ v.entries ∧ v.sessionOf? e.opening = w.sessionOf? e.opening ∨
    (∃ o, v.openings[e.opening]? = some o ∧ o.startup = .cancelled) ∧
      ∀ n, w.sessionOf? e.opening = some n → v.isDisposed n = true

namespace Resigns

/-- Where neither sessions nor openings nor entries change, nobody goes. -/
theorem of_eq (phase : v.phase = w.phase) (isDropped : v.isDropped = w.isDropped)
    (sessions : v.sessions = w.sessions) (openings : v.openings = w.openings)
    (entries : v.entries = w.entries) : Resigns w v where
  phase := phase
  isDropped := isDropped
  length := by rw [sessions]
  disposed n gone := (isDisposed_congr sessions n).trans gone
  abides := .of_eq openings
  each e member := .inl ⟨entries ▸ member, sessionOf?_congr (by rw [openings])⟩

/-- Where nothing happens, nobody goes. -/
theorem refl (w : World) : Resigns w w := of_eq rfl rfl rfl rfl rfl

/-- Who stays through one step and goes in the other has gone in the end: what was cancelled stays so, and
so does what was disposed. -/
theorem trans (first : Resigns w v) (second : Resigns v u) : Resigns w u where
  phase := second.phase.trans first.phase
  isDropped := second.isDropped.trans first.isDropped
  disposed n gone := second.disposed n (first.disposed n gone)
  length := second.length.trans first.length
  abides := first.abides.trans second.abides
  each e member := by
    obtain ⟨stays, same⟩ | ⟨⟨o, found, cancelled⟩, gone⟩ := first.each e member
    · obtain ⟨stays', same'⟩ | ⟨cancelled, gone⟩ := second.each e stays
      · exact .inl ⟨stays', same'.trans same⟩
      · exact .inr ⟨cancelled, fun n owned => gone n (same.trans owned)⟩
    · obtain ⟨p, found', -, stays⟩ := second.abides _ o found
      exact .inr ⟨⟨p, found', stays cancelled⟩, fun n owned =>
        second.disposed n (gone n owned)⟩

end Resigns

/-! ## Roots that are added -/

/-- A root gets an entry and an opening. -/
structure Adds (root : Url) (w v : World) : Prop extends Grown (fun _ => True) w v where
  sessions : v.sessions = w.sessions
  visits : v.visits = w.visits
  openings : v.openings = w.openings ++ [⟨root, .connecting, .unstarted, []⟩]
  entries : v.entries = w.entries ++ [⟨root, w.openings.length⟩]

namespace Adds

variable {root : Url} {o : Opening}

/-- The new opening is the last one, and has made no step. -/
theorem last (adds : Adds root w v) :
    v.openings[w.openings.length]? = some ⟨root, .connecting, .unstarted, []⟩ := by
  rw [adds.openings, List.getElem?_append_right (Nat.le_refl _), Nat.sub_self]
  rfl

/-- The openings that were there are where they were. -/
theorem found (adds : Adds root w v) (found : w.openings[number]? = some o) :
    v.openings[number]? = some o := by
  rw [adds.openings, List.getElem?_append_left (List.getElem?_eq_some_iff.mp found).1]
  exact found

/-- An opening was there before, or it is the new one. -/
theorem whose (adds : Adds root w v) (found : v.openings[number]? = some o) :
    w.openings[number]? = some o ∨
      number = w.openings.length ∧ o = ⟨root, .connecting, .unstarted, []⟩ := by
  by_cases inside : number < w.openings.length
  · rw [adds.openings, List.getElem?_append_left inside] at found
    exact .inl found
  · have beyond := (List.getElem?_eq_some_iff.mp found).1
    rw [adds.openings, List.length_append, List.length_singleton] at beyond
    obtain rfl : number = w.openings.length := by omega
    exact .inr ⟨rfl, Option.some.inj (found.symm.trans adds.last)⟩

/-- The new opening has nothing yet, so that an opening which has something was there before. -/
theorem had (adds : Adds root w v) (found : v.openings[number]? = some o) (had : o.Had n) :
    w.openings[number]? = some o := by
  obtain before | ⟨-, rfl⟩ := adds.whose found
  · exact before
  · rcases had with attached | has
    · cases attached
    · exact absurd has (OpeningStage.IsEarly.not_has (.inl rfl) n)

/-- What is tracked was tracked before, or it is the new entry. -/
theorem member (adds : Adds root w v) (tracked : e ∈ v.entries) :
    e ∈ w.entries ∨ e = ⟨root, w.openings.length⟩ := by
  rw [adds.entries] at tracked
  exact (List.mem_append.mp tracked).imp_right List.mem_singleton.mp

/-- What was tracked is still tracked. -/
theorem stays (adds : Adds root w v) (tracked : e ∈ w.entries) : e ∈ v.entries := by
  rw [adds.entries]
  exact List.mem_append_left _ tracked

end Adds

/-- A root that is added changes the session of no other: its opening is none of those that were tracked. -/
theorem Booked.sessionOf?_adds (booked : w.Booked) {root : Url} (adds : Adds root w v)
    (tracked : e ∈ w.entries) : v.sessionOf? e.opening = w.sessionOf? e.opening := by
  obtain ⟨o, found, -⟩ := booked.tracked e tracked
  exact sessionOf?_congr ((adds.found found).trans found.symm)

/-- Striking entries out keeps the books. An opening that is not tracked any more was cancelled with its
entry. -/
theorem Booked.removes (booked : w.Booked) (removes : Removes revoked w v) : v.Booked where
  single := (congrArg (·.config.isMultiRoot) removes.revokes.growth.options).trans booked.single
  unarmed := removes.revokes.calm booked.unarmed
  unshared := removes.revokes.growth.shared.trans booked.unshared
  roots := booked.roots.sublist (removes.fewer.map _)
  tracked e member := by
    obtain ⟨o, found, root, wanted⟩ := booked.tracked e (removes.fewer.subset member)
    refine ⟨o, ?_, root, wanted⟩
    rw [removes.revokes.openings]
    simp [removes.free member, found]
  wanted found wanted := by
    obtain ⟨o, before, -, stage, ⟨free, startup⟩ | ⟨-, startup⟩⟩ := removes.found found
    · obtain finished | ⟨e, member, same⟩ := booked.wanted before (startup ▸ wanted)
      · exact .inl (stage ▸ finished)
      · exact .inr ⟨e, (removes.covers e member).mpr (same ▸ free), same⟩
    · exact absurd startup wanted
  early found early n attached := by
    obtain ⟨o, before, -, stage, ⟨-, startup⟩ | ⟨-, startup⟩⟩ := removes.found found
    · exact booked.early before (stage ▸ early) n (startup.symm.trans attached)
    · cases startup.symm.trans attached
  own found n has := by
    obtain ⟨o, before, -, stage, ⟨-, startup⟩ | ⟨-, startup⟩⟩ := removes.found found
    · rw [startup]
      exact booked.own before n (stage ▸ has)
    · exact .inr startup
  inside found n had := by
    obtain ⟨o, before, had⟩ := removes.had found had
    exact removes.revokes.length ▸ booked.inside before n had
/-- A root that goes has its entry struck out, if it was tracked. As no root is tracked twice, only one
opening has to be cancelled. -/
theorem Booked.removeRoot_cases (booked : w.Booked) (root : Url) :
    (∀ e ∈ w.entries, e.root ≠ root) ∧ w.removeRoot root = w ∨
      ∃ (entry : RootEntry) (v : World), Removes [entry.opening] w v ∧
        v.entries = w.entries.filter (fun e => e.root ≠ root) ∧
        w.removeRoot root = v.note .info "root session disposed" [("root", root.text)] := by
  unfold World.removeRoot
  cases found : w.entry? root with
  | none => exact .inl ⟨untracked_of_none found, rfl⟩
  | some entry =>
    obtain ⟨member, at_root⟩ := tracked_of_some found
    have revokes := (revoke_revokes
      (w := { w with entries := w.entries.filter fun e => e.root ≠ root }) booked.unarmed
      entry.opening).1
    have fewer : (w.entries.filter fun e => e.root ≠ root).Sublist w.entries := List.filter_sublist
    have covers (e : RootEntry) (other : e ∈ w.entries) :
        (e ∈ w.entries.filter fun e => e.root ≠ root) ↔ e.opening ∉ [entry.opening] := by
      rw [List.mem_filter, decide_eq_true_eq, List.mem_singleton]
      constructor
      · rintro ⟨-, elsewhere⟩ same
        exact elsewhere (booked.entry_eq other member same ▸ at_root)
      · refine fun elsewhere => ⟨other, fun here => elsewhere ?_⟩
        rw [List.inj_on_of_nodup_map booked.roots other member (here.trans at_root.symm)]
    dsimp only
    rw [cancel_eq (by exact booked.unarmed)]
    generalize ({ w with entries := w.entries.filter fun e => e.root ≠ root }.revoke
      entry.opening).2 = v at revokes
    have entries : v.entries = w.entries.filter fun e => e.root ≠ root := revokes.entries
    exact .inr ⟨entry, v, ⟨entries ▸ revokes, entries ▸ fewer, entries ▸ covers⟩, entries, rfl⟩

/-- A root that was not tracked and is added keeps the books: the new entry has the new opening, which is
wanted. -/
theorem Booked.adds (booked : w.Booked) {root : Url} (unknown : ∀ e ∈ w.entries, e.root ≠ root)
    (adds : Adds root w v) : v.Booked where
  single := (congrArg (·.config.isMultiRoot) adds.growth.options).trans booked.single
  unarmed := adds.calm booked.unarmed
  unshared := adds.growth.shared.trans booked.unshared
  roots := by
    rw [adds.entries, List.map_append]
    refine List.nodup_append.mpr ⟨booked.roots, List.nodup_singleton _, ?_⟩
    intro other mapped new same
    obtain ⟨e, tracked, at_root⟩ := List.mem_map.mp mapped
    rw [List.map_singleton, List.mem_singleton] at same
    rintro rfl
    exact unknown e tracked (at_root.trans same)
  tracked e tracked := by
    obtain before | rfl := adds.member tracked
    · obtain ⟨o, found, root, wanted⟩ := booked.tracked e before
      exact ⟨o, adds.found found, root, wanted⟩
    · exact ⟨_, adds.last, rfl, Startup.noConfusion⟩
  wanted found wanted := by
    obtain before | ⟨rfl, -⟩ := adds.whose found
    · obtain finished | ⟨e, tracked, same⟩ := booked.wanted before wanted
      · exact .inl finished
      · exact .inr ⟨e, adds.stays tracked, same⟩
    · exact .inr ⟨_, adds.entries ▸ List.mem_append_right _ List.mem_cons_self, rfl⟩
  early found early n attached := by
    obtain before | ⟨-, rfl⟩ := adds.whose found
    · exact booked.early before early n attached
    · cases attached
  own found n has := booked.own (adds.had found (.inr has)) n has
  inside found n had := adds.sessions ▸ booked.inside (adds.had found had) n had

/-- A root that comes is tracked already, or it is added. -/
theorem addRoot_cases (w : World) (root : Url) :
    (w.addRoot root).2 = w ∨
      (∀ e ∈ w.entries, e.root ≠ root) ∧ Adds root w (w.addRoot root).2 := by
  unfold World.addRoot
  cases absent : w.entry? root with
  | some entry => exact .inl rfl
  | none =>
    exact .inr ⟨untracked_of_none absent, .of_eq rfl rfl rfl rfl, rfl, rfl, rfl, rfl⟩

/-- When the client ends, every entry is struck out: the openings are cancelled one after the other, and at
last there are no entries. -/
theorem Booked.endClient_cases (booked : w.Booked) :
    ∃ v, Removes (w.entries.map RootEntry.opening) { w with phase := .over, following := .over } v ∧
      v.entries = [] ∧ w.endClient = v.note .info "language client shut down" [] := by
  have revokes : ∀ (entries : List RootEntry) {v : World}, v.host.armed = [] →
      Revokes (entries.map RootEntry.opening) v
        (entries.foldl (fun v entry => (v.revoke entry.opening).2) v) := by
    intro entries
    induction entries with
    | nil => exact fun _ => .nil _
    | cons entry entries ih =>
      intro v quiet
      have first := (revoke_revokes quiet entry.opening).1
      exact first.append (ih (first.calm quiet))
  have ended : w.endClient = World.note (w.entries.foldl (fun v entry => (v.revoke entry.opening).2)
      { w with phase := .over, following := .over, entries := [], shared := none }) .info
        "language client shut down" [] := by
    simp only [World.endClient, booked.unshared]
  have all := revokes w.entries
    (v := { w with phase := .over, following := .over, entries := [], shared := none })
    booked.unarmed
  rw [ended]
  generalize w.entries.foldl (fun v entry => (v.revoke entry.opening).2)
    { w with phase := .over, following := .over, entries := [], shared := none } = v at all
  have empty : v.entries = [] := all.entries
  have same : { w with phase := .over, following := .over, entries := [], shared := none } =
      { w with phase := .over, following := .over, entries := v.entries } := by
    rw [empty, ← booked.unshared]
  rw [same] at all
  refine ⟨v, ⟨all, empty ▸ List.nil_sublist _, fun e member => ?_⟩, empty, rfl⟩
  rw [empty]
  exact ⟨nofun, fun free => absurd (List.mem_map_of_mem member) free⟩

namespace Custody

/-- Striking entries out cancels their openings and disposes their sessions, and who is not struck out keeps
both. -/
theorem resigns (custody : w.Custody) (removes : Removes revoked w v) : Resigns w v where
  phase := removes.revokes.growth.phase
  isDropped := removes.revokes.growth.isDropped
  length := removes.revokes.length
  disposed _ := removes.revokes.isDisposed_of_length removes.revokes.length
  abides := removes.abides
  each e member := by
    by_cases gone : e.opening ∈ revoked
    · obtain ⟨o, found, -⟩ := custody.tracked e member
      refine .inr ⟨⟨{ o with startup := .cancelled }, ?_, rfl⟩, removes.revokes.gone _ gone⟩
      rw [removes.revokes.openings]
      simp [gone, found]
    · have stays := (removes.covers e member).mpr gone
      exact .inl ⟨stays, removes.sessionOf? stays⟩

/-- Striking entries out keeps custody. The sessions of these entries are disposed, so that nobody has to
answer for them. -/
theorem removes (custody : w.Custody) (removes : Removes revoked w v) : v.Custody where
  toBooked := custody.toBooked.removes removes
  apart at_i at_j n first second := by
    obtain ⟨o, at_i, first⟩ := removes.had at_i first
    obtain ⟨o', at_j, second⟩ := removes.had at_j second
    exact custody.apart at_i at_j n first second
  undropped := removes.revokes.visits ▸ custody.undropped
  awaited visit member i awaiting := by
    rw [removes.revokes.visits] at member
    obtain ⟨o, found, root⟩ := custody.awaited visit member i awaiting
    obtain ⟨p, found, root', -⟩ := removes.abides i o found
    exact ⟨p, found, root'.trans root⟩
  held visit member n holds := by
    rw [removes.revokes.visits] at member
    obtain ⟨inside, unowned⟩ := custody.held visit member n holds
    exact ⟨removes.revokes.length ▸ inside, fun e tracked owned =>
      unowned e (removes.fewer.subset tracked) ((removes.sessionOf? tracked).symm.trans owned)⟩
  kept n live := by
    have inside : n < w.sessions.length := removes.revokes.length ▸ lt_of_live live
    obtain ⟨e, member, owned⟩ | visiting := custody.kept n (removes.revokes.live inside live)
    · by_cases gone : e.opening ∈ revoked
      · exact Bool.noConfusion (live.symm.trans (removes.revokes.gone _ gone n owned))
      · have stays := (removes.covers e member).mpr gone
        exact .inl ⟨e, stays, (removes.sessionOf? stays).trans owned⟩
    · exact .inr ((isVisited_congr removes.revokes.visits n).mpr visiting)
  proper := removes.revokes.allProper custody.proper

/-- A root that goes has its session disposed. -/
theorem removeRoot (custody : w.Custody) (root : Url) :
    (w.removeRoot root).Custody ∧ Resigns w (w.removeRoot root) := by
  obtain ⟨-, same⟩ | ⟨entry, v, removes, -, same⟩ := custody.removeRoot_cases root <;> rw [same]
  · exact ⟨custody, .refl w⟩
  · exact ⟨{ custody.removes removes with },
      (custody.resigns removes).trans (.of_eq rfl rfl rfl rfl rfl)⟩

/-- A root that was not tracked and is added keeps custody, as there is no session that would be new by it.
-/
theorem adds (custody : w.Custody) {root : Url} (unknown : ∀ e ∈ w.entries, e.root ≠ root)
    (adds : Adds root w v) : v.Custody where
  toBooked := custody.toBooked.adds unknown adds
  apart at_i at_j n first second :=
    custody.apart (adds.had at_i first) (adds.had at_j second) n first second
  undropped := adds.visits ▸ custody.undropped
  awaited visit member i awaiting := by
    rw [adds.visits] at member
    obtain ⟨o, found, root⟩ := custody.awaited visit member i awaiting
    exact ⟨o, adds.found found, root⟩
  held visit member n holds := by
    rw [adds.visits] at member
    rw [adds.sessions]
    obtain ⟨inside, unowned⟩ := custody.held visit member n holds
    refine ⟨inside, fun e tracked owned => ?_⟩
    obtain before | rfl := adds.member tracked
    · exact unowned e before ((custody.sessionOf?_adds adds before).symm.trans owned)
    · obtain ⟨o, found, attached⟩ := sessionOf?_eq_some_iff.mp owned
      cases adds.last.symm.trans found
      cases attached
  kept n live := by
    have inside : n < w.sessions.length := adds.sessions ▸ lt_of_live live
    obtain ⟨e, tracked, owned⟩ | visiting := custody.kept n (adds.live inside live)
    · exact .inl ⟨e, adds.stays tracked, (custody.sessionOf?_adds adds tracked).trans owned⟩
    · exact .inr ((isVisited_congr adds.visits n).mpr visiting)
  proper := adds.allProper custody.proper

/-- A root that comes gets an opening, unless it is tracked already. -/
theorem addRoot (custody : w.Custody) (root : Url) :
    (w.addRoot root).2.Custody ∧ Resigns w (w.addRoot root).2 := by
  obtain same | ⟨unknown, adds⟩ := w.addRoot_cases root
  · rw [same]
    exact ⟨custody, .refl w⟩
  · exact ⟨custody.adds unknown adds, {
      phase := adds.growth.phase
      isDropped := adds.growth.isDropped
      length := congrArg List.length adds.sessions
      disposed := fun _ => adds.isDisposed_of_length (congrArg List.length adds.sessions)
      abides := fun _ o found => ⟨o, adds.found found, rfl, id⟩
      each := fun e member => .inl ⟨adds.stays member, custody.sessionOf?_adds adds member⟩ }⟩

/-- A look at the roots disposes the sessions of those that have gone. -/
theorem reconcile (custody : w.Custody) : w.reconcile.Custody ∧ Resigns w w.reconcile := by
  unfold World.reconcile
  rw [if_neg (by rw [custody.single]; exact Bool.false_ne_true)]
  unfold reconcileEach
  obtain ⟨kept, resigns⟩ := custody.foldl .refl .trans World.removeRoot
    (fun root custody => custody.removeRoot root) (RootDiff.between w.before w.host.roots).removed
  obtain ⟨kept, resigns'⟩ := kept.foldl .refl .trans (fun w root => (w.addRoot root).2)
    (fun root custody => custody.addRoot root) (RootDiff.between w.before w.host.roots).added
  exact ⟨{ kept with }, (resigns.trans resigns').trans (.of_eq rfl rfl rfl rfl rfl)⟩

/-- Any number of looks keeps custody, and who was struck out by one of them has resigned. -/
theorem followChanges (custody : w.Custody) (count : Nat) :
    (followChanges count w).Custody ∧ Resigns w (World.followChanges count w) := by
  induction count generalizing w with
  | zero => exact ⟨custody, .refl w⟩
  | succ count ih =>
    obtain ⟨kept, resigns⟩ := custody.reconcile
    obtain ⟨kept, resigns'⟩ := ih kept
    exact ⟨kept, resigns.trans resigns'⟩

/-- Who follows the roots keeps custody, whether it looks at them once, more often or not at all. -/
theorem pollReconciler (custody : w.Custody) :
    w.pollReconciler.Custody ∧ Resigns w w.pollReconciler := by
  have proceed {u v : World} (custody : u.Custody) (next : World.followChanges u.changes.waiting
      { u with changes := { u.changes with waiting := 0 } } = v) : v.Custody ∧ Resigns u v := by
    have quiet : Custody { u with changes := { u.changes with waiting := 0 } } := { custody with }
    obtain ⟨kept, resigns⟩ := quiet.followChanges u.changes.waiting
    rw [next] at kept resigns
    exact ⟨kept, { resigns with }⟩
  unfold World.pollReconciler
  dsimp only
  split
  · obtain ⟨kept, resigns⟩ := custody.reconcile
    have looked : Custody { w.reconcile with following := .ongoing } := { kept with }
    obtain ⟨kept, resigns'⟩ := proceed looked rfl
    have both := resigns.trans { resigns' with }
    split
    · exact ⟨{ kept with }, both.trans (.of_eq rfl rfl rfl rfl rfl)⟩
    · exact ⟨kept, both⟩
  · obtain ⟨kept, resigns⟩ := proceed custody rfl
    split
    · exact ⟨{ kept with }, resigns.trans (.of_eq rfl rfl rfl rfl rfl)⟩
    · exact ⟨kept, resigns⟩
  · exact ⟨custody, .refl w⟩

/-- When the client ends, nobody is in charge of any root, and what was tracked has resigned. -/
theorem endClient (custody : w.Custody) :
    w.endClient.Custody ∧ Resigns { w with phase := .over, following := .over } w.endClient ∧
      w.endClient.entries = [] ∧ w.endClient.following = .over := by
  have begun : Custody { w with phase := .over, following := .over } := { custody with }
  obtain ⟨v, removes, empty, ended⟩ := custody.endClient_cases
  have following : v.following = .over := removes.revokes.growth.following
  rw [ended]
  exact ⟨{ begun.removes removes with }, { begun.resigns removes with }, empty, following⟩

end Custody

end World

end LanguageClient
