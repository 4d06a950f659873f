import LanguageClient.Proofs.Connection.Jobs
import LanguageClient.Proofs.Session.Offers

/-!
# Requests served in their order

The requests of a server are served by jobs, which may run in any order. As long as they run in the
order in which they came, those that were served are the first ones (`Connection.IsInOrder`), and the
ids that the server chose stand for what these requests, one after the other, have made of them
(`Session.Obeys`). Running the next one keeps this up and answers it (`Hosted.runJob_obeys`,
`Connection.finish_sends`), and whatever else a session does keeps it up as well.
-/

namespace LanguageClient

/-- What a server is told of its request in a session of a root. -/
def Job.response (job : Job SessionHandler) (root : Option Url) : Response :=
  job.answer (job.verdict root)

namespace Connection

variable {η : Type} {c d : Connection η} {number : Nat} {job : Job η}

/-- The jobs that were finished. -/
def served (c : Connection η) : List (Job η) := c.jobs.filter Job.isFinished

/-- No job was finished before one that came earlier. -/
def IsInOrder (c : Connection η) : Prop :=
  ∃ later, c.jobs = c.served ++ later ∧ ∀ job ∈ later, job.isFinished = false

/-- Whether all jobs before the one of a number were finished. -/
def comesNext (c : Connection η) (number : Nat) : Bool :=
  (List.range number).all fun earlier => (c.job? earlier).isNone

/-- Jobs that come are finished later. -/
theorem Spawns.served (spawns : c.Spawns d) : d.served = c.served := by
  obtain ⟨more, jobs, fresh⟩ := spawns
  have none : more.filter Job.isFinished = [] := by
    refine List.filter_eq_nil_iff.mpr ?_
    intro job member
    rw [fresh job member]
    exact Bool.false_ne_true
  unfold Connection.served
  rw [jobs, List.filter_append, none, List.append_nil]

/-- Jobs that come are behind those that were there, so the order is kept. -/
theorem Spawns.isInOrder (spawns : c.Spawns d) (order : c.IsInOrder) : d.IsInOrder := by
  have served := spawns.served
  obtain ⟨more, jobs, fresh⟩ := spawns
  obtain ⟨later, split, waiting⟩ := order
  refine ⟨later ++ more, ?_, ?_⟩
  · rw [served, jobs, ← List.append_assoc, ← split]
  · intro job member
    rcases List.mem_append.mp member with member | member
    · exact waiting job member
    · exact fresh job member

/-- Who finishes a job changes that job only, whatever is answered. -/
theorem finish_jobs (number : Nat) (outcome : Outcome) :
    (c.finish number outcome).jobs = c.jobs.modify number Job.finished := by
  rw [(finish_does number outcome).jobs, List.append_nil]

/-- The job that comes next is the first of those that are not finished. -/
theorem IsInOrder.next (order : c.IsInOrder) (pending : c.job? number = some job)
    (next : c.comesNext number = true) :
    c.served.length = number ∧ ∃ later, c.jobs = c.served ++ job :: later ∧
      ∀ job ∈ later, job.isFinished = false := by
  obtain ⟨found, unfinished⟩ := job?_eq_some_iff.mp pending
  obtain ⟨later, split, waiting⟩ := order
  have inside := (List.getElem?_eq_some_iff.mp found).1
  rw [split, List.length_append] at inside
  have reached : c.served.length ≤ number := by
    refine Nat.not_lt.mp fun before => ?_
    rw [split, List.getElem?_append_left before] at found
    have finished := (List.mem_filter.mp (List.mem_of_getElem? found)).2
    rw [unfinished] at finished
    cases finished
  have last : number ≤ c.served.length := by
    refine Nat.not_lt.mp fun beyond => ?_
    have first : 0 < later.length := by omega
    have at_first : c.jobs[c.served.length]? = some later[0] := by
      rw [split, List.getElem?_append_right (Nat.le_refl _), Nat.sub_self]
      exact List.getElem?_eq_getElem first
    have waits := job?_eq_some_iff.mpr ⟨at_first, waiting _ (List.getElem_mem first)⟩
    have gone := List.all_eq_true.mp next c.served.length (List.mem_range.mpr beyond)
    rw [waits] at gone
    cases gone
  obtain rfl : c.served.length = number := Nat.le_antisymm reached last
  refine ⟨rfl, ?_⟩
  rw [split, List.getElem?_append_right (Nat.le_refl _), Nat.sub_self] at found
  cases later with
  | nil => cases found
  | cons first later =>
    cases found
    exact ⟨later, split, fun job member => waiting job (List.mem_cons_of_mem _ member)⟩

/-- When the next job is finished, the jobs are in order still. -/
theorem IsInOrder.finish (order : c.IsInOrder) (pending : c.job? number = some job)
    (next : c.comesNext number = true) (outcome : Outcome) :
    (c.finish number outcome).IsInOrder ∧
      (c.finish number outcome).served = c.served ++ [job.finished] := by
  obtain ⟨length, later, split, waiting⟩ := order.next pending next
  have jobs : (c.finish number outcome).jobs = c.served ++ job.finished :: later := by
    rw [finish_jobs, split, ← length, List.modify_eq_take_drop, List.take_left,
      List.drop_left]
    rfl
  have kept : (c.finish number outcome).served = c.served ++ [job.finished] := by
    have all : c.served.filter Job.isFinished = c.served :=
      List.filter_eq_self.mpr fun job member => (List.mem_filter.mp member).2
    have none : later.filter Job.isFinished = [] :=
      List.filter_eq_nil_iff.mpr fun job member => by simp [waiting job member]
    rw [Connection.served, jobs, List.filter_append, all, List.filter_cons_of_pos rfl, none]
  refine ⟨⟨later, ?_, waiting⟩, kept⟩
  rw [kept, jobs, List.append_assoc]
  rfl

end Connection

/-! ## What the requests have made of the ids -/

namespace Session

/-- What the requests that were served have assigned to ids, one after the other. -/
def requested (s : Session) : List (RegistrationId × Option Offer) :=
  s.connection.served.flatMap (·.entries s.root)

/-- As long as a session follows its server, it serves the requests in their order, and the ids that the
server chose stand for what those that were served have made of them. -/
def Obeys (s : Session) (host : Host) : Prop :=
  s.isActive = true → s.connection.IsInOrder ∧
    ∀ name, s.Offers host (.named name) (Catalogue.empty.assign s.requested (.named name))

/-- A session that was just attached has no requests, and its ids stand for nothing. -/
theorem obeys_attach (root : Option Url) (kind : Nat) (suffix : String) (host : Host) :
    (attach root kind suffix).Obeys host :=
  fun _ => ⟨⟨[], rfl, by simp⟩, fun _ => rfl⟩

/-- It makes no difference what a session hears of documents, and what others get. -/
theorem Obeys.aside {s : Session} {host host' : Host} (obeys : s.Obeys host)
    (openedDocuments : Nat) (hasHostEnded : Bool) {more : List Provider}
    (provided : host'.provided = host.provided ++ more) :
    { s with openedDocuments, hasHostEnded }.Obeys host' := by
  intro active
  obtain ⟨order, offers⟩ := obeys active
  exact ⟨order, fun name => (offers name).of_eq rfl provided⟩

end Session

namespace Hosted

variable {options : ClientOptions} {turn : Turn} {h k : Hosted} {number : Nat}

/-- Whatever a session does apart from serving requests, they stay in order. -/
theorem Act.obeys (quiet : h.host.armed = []) (act : Act options turn h k)
    (other : turn ≠ .job h.number) (obeys : h.session.Obeys h.host) : k.session.Obeys k.host := by
  intro active
  obtain ⟨before, root, -⟩ := act.offers_or quiet active
  obtain ⟨order, offers⟩ := obeys before
  have spawns := (act.allows quiet).spawns other
  refine ⟨spawns.isInOrder order, ?_⟩
  intro name
  unfold Session.requested
  rw [spawns.served, root]
  exact act.offers_named quiet other active (offers name)

end Hosted

end LanguageClient
