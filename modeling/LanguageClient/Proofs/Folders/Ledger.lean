import LanguageClient.Proofs.Folders.Phases

/-!
# What a server knows of the roots

At any time the server of several roots knows of the roots that were last looked at, of those that are
lent, and of those that it was greeted with and that were never noticed since: a look notices the
roots that the host has then, and a loan its root. `Folders.Books` says so of the folders and a
connection, and `World.Ledger` of the world, as long as the connection is open.

Every tactful move keeps the ledger. If all that the server was greeted with was noticed, whatever it
is told in a move adds only what it does not know, and withdraws only what it knows.
-/

namespace LanguageClient

/-! ## Folders -/

namespace Folders

variable {η : Type} {rewriter : Rewriter} {ghosts noticed : Set Url} {history : List Telling}
  {before roots : List Url} {folders after : Folders} {c d : Connection η} {root : Url}

/-- What a server was told amounts to what was last looked at, what is lent, and the ghosts: those
roots of the greeting that were never noticed. -/
structure Books (rewriter : Rewriter) (ghosts noticed : Set Url) (history : List Telling)
    (before : List Url) (folders : Folders) (c : Connection η) : Prop where
  told : c.HasTold rewriter history
  known : ∀ root, root ∈ Telling.known history ↔
    root ∈ before ∨ folders.isLent root = true ∨ root ∈ ghosts ∧ root ∉ noticed

namespace Books

/-- A look at the roots tells of all that has changed, since it can be told: what came has a name by
hypothesis, and what went has one because the server knew it. A root that is lent is left out of the change,
but the server knows it already. -/
theorem looked (books : folders.Books rewriter ghosts noticed history before c)
    (opened : c.isOpen = true) (named : ∀ root ∈ roots, rewriter.Names root)
    (seen : ∀ root ∈ before, root ∈ noticed) :
    Books rewriter ghosts (noticed ∪ {root | root ∈ roots})
        (history ++ folders.tellings rewriter before roots) roots
        { folders with announced := roots } (folders.reconcile rewriter c before roots).2 ∧
      (ghosts ⊆ noticed →
        Telling.AreOrderly (Telling.known history) (folders.tellings rewriter before roots)) := by
  have touched (root : Url) (touched : (folders.change before roots).Touches root) :
      rewriter.Names root := by
    obtain added | removed := touched
    · exact named root (mem_added_change.mp added).1
    · exact books.told.names ((books.known root).mpr (.inl (mem_removed_change.mp removed).1))
  refine ⟨⟨reconcile_told opened books.told folders before roots, fun root => ?_⟩, fun noted => ?_⟩
  · rw [mem_known_tellings touched, books.known, mem_removed_change, mem_added_change]
    have seen := seen root
    change _ ↔ root ∈ roots ∨ folders.isLent root = true ∨
      root ∈ ghosts ∧ ¬ (root ∈ noticed ∨ root ∈ roots)
    -- what is lent is not part of the change, and is known before and after
    cases held : folders.isLent root <;> grind
  · unfold tellings
    dsimp only
    split
    · split
      · trivial
      · refine ⟨⟨(nodup_change ..).1, (nodup_change ..).2, ?_, ?_⟩, trivial⟩
        · intro root added known
          obtain ⟨-, new, free⟩ := mem_added_change.mp added
          obtain looked | held | ⟨ghost, unseen⟩ := (books.known root).mp known
          · exact new looked
          · exact Bool.noConfusion (held.symm.trans free)
          · exact unseen (noted ghost)
        · intro root removed
          exact (books.known root).mpr (.inl (mem_removed_change.mp removed).1)
    · trivial

/-- A loan tells of its root unless somebody borrows it already or the host had it when it was looked at
last. What it tells is orderly if no ghost is left, since the server could know the root from the greeting
alone. -/
theorem lent (books : folders.Books rewriter ghosts noticed history before c)
    {loan : Option Loan} (lent : folders.lend rewriter c root = .ok (loan, after, d))
    (behind : ∀ root ∈ before, root ∈ folders.announced) :
    ∃ later, Books rewriter ghosts
        (noticed ∪ {other | other = root ∧ other ∉ folders.announced ∧ rewriter.Names other})
        (history ++ later) before after d ∧
      (ghosts ⊆ noticed → Telling.AreOrderly (Telling.known history) later) := by
  have news (other : Url) : other ∈ noticed ∪
        {other | other = root ∧ other ∉ folders.announced ∧ rewriter.Names other} ↔
      other ∈ noticed ∨ other = root ∧ other ∉ folders.announced ∧ rewriter.Names other := Iff.rfl
  obtain ⟨known, -, rfl, rfl⟩ | ⟨unknown, folder, named, -, rfl, told⟩ := lend_cases lent
  · refine ⟨[], ⟨by rw [List.append_nil]; exact books.told, fun other => ?_⟩, fun _ => trivial⟩
    rw [List.append_nil, books.known, news]
    grind
  · have names : rewriter.Names root := ⟨folder, named⟩
    have held (other : Url) := folders.isLent_setBorrowers root other (folders.borrowers root + 1)
    obtain ⟨already, rfl⟩ | ⟨free, sent⟩ := told
    · refine ⟨[], ⟨by rw [List.append_nil]; exact books.told, fun other => ?_⟩, fun _ => trivial⟩
      rw [List.append_nil, books.known, news, held]
      grind
    · have worded : rewriter.folderChange ⟨[root], []⟩ = .ok ⟨[folder], []⟩ := by
        simp [Rewriter.folderChange, named, pure, Except.pure, bind, Except.bind]
      refine ⟨[.change ⟨[root], []⟩], ⟨tell_told worded sent books.told, fun other => ?_⟩, ?_⟩
      · rw [Telling.known_append]
        change other ∈ Telling.known history ∧ other ∉ [] ∨ other ∈ [root] ↔ _
        rw [books.known, news, held]
        grind
      · intro noted
        refine ⟨⟨List.pairwise_singleton _ _, List.nodup_nil, ?_, nofun⟩, trivial⟩
        intro other added known
        cases List.mem_singleton.mp added
        obtain looked | held | ⟨ghost, unseen⟩ := (books.known root).mp known
        · exact unknown (behind root looked)
        · exact Bool.noConfusion (held.symm.trans free)
        · exact unseen (noted ghost)

/-- A loan that is given back takes its root from the server, unless somebody else needs it: another
borrower, or the host, which has it just if it was looked at last. -/
theorem givenBack (books : folders.Books rewriter ghosts noticed history before c)
    (opened : c.isOpen = true) {loan : Loan} (named : rewriter.folder loan.root = .ok loan.folder)
    (held : folders.isLent loan.root = true) (noted : loan.root ∈ noticed)
    (level : loan.root ∈ before ↔ loan.root ∈ folders.announced) :
    ∃ later, Books rewriter ghosts noticed (history ++ later) before (folders.giveBack c loan).1
        (folders.giveBack c loan).2 ∧
      (ghosts ⊆ noticed → Telling.AreOrderly (Telling.known history) later) := by
  have left (other : Url) :=
    folders.isLent_setBorrowers loan.root other (folders.borrowers loan.root - 1)
  obtain ⟨given, ⟨kept, same⟩ | ⟨-, last, unknown, sent | ⟨failure, -, failed, -⟩⟩⟩ :=
    folders.giveBack_cases c loan
  · rw [given, same]
    refine ⟨[], ⟨by rw [List.append_nil]; exact books.told, fun other => ?_⟩, fun _ => trivial⟩
    rw [List.append_nil, books.known, left]
    grind
  · rw [given]
    have worded : rewriter.folderChange ⟨[], [loan.root]⟩ = .ok ⟨[], [loan.folder]⟩ := by
      simp [Rewriter.folderChange, named, pure, Except.pure, bind, Except.bind]
    refine ⟨[.change ⟨[], [loan.root]⟩], ⟨tell_told worded sent books.told, fun other => ?_⟩, ?_⟩
    · rw [Telling.known_append]
      change other ∈ Telling.known history ∧ other ∉ [loan.root] ∨ other ∈ [] ↔ _
      rw [books.known, left]
      grind
    · intro _
      refine ⟨⟨List.nodup_nil, List.pairwise_singleton _ _, nofun, ?_⟩, trivial⟩
      intro other removed
      cases List.mem_singleton.mp removed
      exact (books.known loan.root).mpr (.inr (.inl held))
  · obtain ⟨d, sent⟩ := tell_of_isOpen opened ⟨[], [loan.folder]⟩
    rw [failed] at sent
    cases sent

end Books

end Folders

/-! ## The world -/

namespace World

variable {w v : World} {rewriter : Rewriter} {ghosts noticed fresh : Set Url}
  {history : List Telling} {n : Nat}

/-- The session that is shared later was shared before, since along the course of the world nothing is
shared anew and no session is lost. -/
theorem Course.shares {R : Session → Session → Prop} (course : Course R w v) {t : Session}
    (shares : v.Shares n t) : ∃ s, w.Shares n s ∧ R s t := by
  obtain ⟨shared, found⟩ := shares
  have inside : n < w.sessions.length :=
    course.length ▸ (List.getElem?_eq_some_iff.mp found).1
  have before : w.sessions[n]? = some w.sessions[n] := List.getElem?_eq_getElem inside
  obtain ⟨u, after, related⟩ := course.session before
  cases found.symm.trans after
  exact ⟨_, ⟨course.shared ▸ shared, before⟩, related⟩

/-- What the server of several roots was told of them, as long as the client has it. -/
structure Ledger (rewriter : Rewriter) (ghosts noticed : Set Url) (history : List Telling)
    (w : World) : Prop where
  naming : w.options.rewriter = rewriter
  named : ∀ root ∈ w.host.roots, rewriter.Names root
  greeted : w.shared = none → w.phase = .over
  /-- What was looked at or lent was noticed. -/
  seen : w.following ≠ .absent → ∀ root, root ∈ w.before ∨ w.folders.isLent root = true →
    root ∈ noticed
  /-- Before the client is there, nothing was. -/
  unseen : w.following = .absent → ∀ root ∈ w.before, root ∈ ghosts ∧ root ∉ noticed
  /-- As long as nothing changes, neither was anything of what was announced then. -/
  unmoved : w.following = .fresh → w.changes = ⟨0, false⟩ →
    ∀ root ∈ w.folders.announced, root ∈ ghosts ∧ root ∉ noticed
  books : ∀ n s, w.Shares n s → s.connection.isOpen = true →
    w.folders.Books rewriter ghosts noticed history w.before s.connection

/-- The ledger after something that noticed these roots, and what the server was told meanwhile. -/
def Ledger.Next (rewriter : Rewriter) (ghosts noticed fresh : Set Url) (history : List Telling)
    (v : World) : Prop :=
  ∃ later, v.Ledger rewriter ghosts (noticed ∪ fresh) (history ++ later) ∧
    (ghosts ⊆ noticed → Telling.AreOrderly (Telling.known history) later)

/-- The root that is lent, if the next step of the visit lends one. -/
def borrowed (w : World) (number : Nat) : Set Url :=
  {root | ∃ visit, w.visits[number]? = some visit ∧ visit.isDropped = false ∧
    visit.stage = .unstarted ∧ visit.root = root ∧ root ∉ w.folders.announced ∧
    w.options.rewriter.Names root}

namespace Ledger

/-- Nothing was told. What was noticed may still have grown. -/
theorem next (ledger : v.Ledger rewriter ghosts (noticed ∪ fresh) history) :
    Next rewriter ghosts noticed fresh history v :=
  ⟨[], by rw [List.append_nil]; exact ledger, fun _ => trivial⟩

/-- Nothing was noticed or told. -/
theorem same (ledger : v.Ledger rewriter ghosts noticed history) :
    Next rewriter ghosts noticed ∅ history v :=
  next (by rw [Set.union_empty]; exact ledger)

/-- One thing after the other: what both notice adds up, and what both tell is orderly, since all that was
noticed before the first is noticed before the second. -/
theorem Next.trans {u : World} {fresher : Set Url}
    (first : Next rewriter ghosts noticed fresh history v)
    (second : ∀ {history}, v.Ledger rewriter ghosts (noticed ∪ fresh) history →
      Next rewriter ghosts (noticed ∪ fresh) fresher history u) :
    Next rewriter ghosts noticed (fresh ∪ fresher) history u := by
  obtain ⟨earlier, ledger, orderly⟩ := first
  obtain ⟨later, ledger, orderly'⟩ := second ledger
  rw [Set.union_assoc, List.append_assoc] at ledger
  refine ⟨earlier ++ later, ledger, fun noted => Telling.areOrderly_append (orderly noted) ?_⟩
  rw [← Telling.known_append]
  exact orderly' fun root ghost => .inl (noted ghost)

/-- One thing after the other, and the second notices nothing, as when a session goes on once its root was
lent. -/
theorem Next.after {u : World} (first : Next rewriter ghosts noticed fresh history v)
    (second : ∀ {history}, v.Ledger rewriter ghosts (noticed ∪ fresh) history →
      Next rewriter ghosts (noticed ∪ fresh) ∅ history u) :
    Next rewriter ghosts noticed fresh history u := by
  have next := first.trans second
  rw [Set.union_empty] at next
  exact next

/-- What tells the server nothing of folders keeps the ledger: neither the roots nor the folders are
touched, and the shared session has the same news as before. -/
theorem of_course (ledger : w.Ledger rewriter ghosts noticed history)
    (course : Course Session.Beside w v) : v.Ledger rewriter ghosts noticed history where
  naming := by rw [course.options]; exact ledger.naming
  named := by rw [course.roots]; exact ledger.named
  greeted := by rw [course.shared, course.phase]; exact ledger.greeted
  seen := by rw [course.following, course.before, course.folders]; exact ledger.seen
  unseen := by rw [course.following, course.before]; exact ledger.unseen
  unmoved := by rw [course.following, course.changes, course.folders]; exact ledger.unmoved
  books m t shares opened := by
    obtain ⟨s, shares, beside⟩ := course.shares shares
    obtain ⟨told, known⟩ := ledger.books m s shares (beside.connection.isOpen opened)
    rw [course.folders, course.before]
    exact ⟨told.of_news beside.news, known⟩

/-- What comes after it and tells the server nothing of folders keeps the ledger as well. -/
theorem Next.of_course (next : Next rewriter ghosts noticed fresh history w)
    (course : Course Session.Beside w v) : Next rewriter ghosts noticed fresh history v := by
  obtain ⟨later, ledger, orderly⟩ := next
  exact ⟨later, ledger.of_course course, orderly⟩

/-- Without a shared session there is nothing to say of what was told. It remains to see that the roots have
names and that what was looked at was noticed, which no end of a session changes. -/
theorem of_alone (ledger : w.Ledger rewriter ghosts noticed history) (alone : v.shared = none)
    (ended : v.phase = .over) (options : v.options = w.options)
    (roots : v.host.roots = w.host.roots) (before : v.before = w.before)
    (folders : v.folders = w.folders) (changes : v.changes = w.changes)
    (following : v.following = w.following ∨ v.following = .over ∧ w.following ≠ .absent) :
    v.Ledger rewriter ghosts noticed history where
  naming := by rw [options]; exact ledger.naming
  named := by rw [roots]; exact ledger.named
  greeted _ := ended
  seen := by
    rw [before, folders]
    obtain same | ⟨-, followed⟩ := following
    · rw [same]
      exact ledger.seen
    · exact fun _ => ledger.seen followed
  unseen := by
    rw [before]
    obtain same | ⟨stopped, -⟩ := following
    · rw [same]
      exact ledger.unseen
    · rw [stopped]
      exact nofun
  unmoved := by
    rw [changes, folders]
    obtain same | ⟨stopped, -⟩ := following
    · rw [same]
      exact ledger.unmoved
    · rw [stopped]
      exact nofun
  books _ _ shares := by
    rw [Shares, alone] at shares
    cases shares.1

/-- The shared session goes on while the folders change, and the books are kept if it is open. -/
theorem put (ledger : w.Ledger rewriter ghosts noticed history) {s : Session} (t : Session)
    (folders : Folders) (before : List Url) {following : Following} (changes : Changes)
    (shares : w.Shares n s) (followed : following ≠ .absent)
    (after : s.connection.Later t.connection)
    (seen : ∀ root, root ∈ before ∨ folders.isLent root = true → root ∈ noticed ∪ fresh)
    (unmoved : following = .fresh → changes = ⟨0, false⟩ →
      ∀ root ∈ folders.announced, root ∈ ghosts ∧ root ∉ noticed ∪ fresh)
    (books : s.connection.isOpen = true → ∃ later,
      folders.Books rewriter ghosts (noticed ∪ fresh) (history ++ later) before t.connection ∧
        (ghosts ⊆ noticed → Telling.AreOrderly (Telling.known history) later)) :
    Next rewriter ghosts noticed fresh history
      { { w with folders }.put n t with before, following, changes } := by
  have shared : Shares { { w with folders }.put n t with before, following, changes } n
      { t with connection := t.connection.withoutNews } :=
    Shares.put (w := { w with folders }) shares t
  have rest {later : List Telling} (books : s.connection.isOpen = true →
      folders.Books rewriter ghosts (noticed ∪ fresh) (history ++ later) before t.connection) :
      Ledger rewriter ghosts (noticed ∪ fresh) (history ++ later)
        { { w with folders }.put n t with before, following, changes } := by
    refine ⟨ledger.naming, ledger.named, ledger.greeted, fun _ => seen,
      fun absent => absurd absent followed, unmoved, fun m u shares' opened => ?_⟩
    obtain ⟨rfl, rfl⟩ := shared.eq shares'
    obtain ⟨told, known⟩ := books (after.isOpen opened)
    exact ⟨told, known⟩
  -- on a connection that is not open nothing arrives, and the books say nothing of it
  by_cases opened : s.connection.isOpen = true
  · obtain ⟨later, kept, orderly⟩ := books opened
    exact ⟨later, rest fun _ => kept, orderly⟩
  · exact ⟨[], rest fun opened' => absurd opened' opened, fun _ => trivial⟩

/-- A look at the roots notices them: the shared session is told of the change that was found, and the roots
of the host are those that were last looked at. -/
theorem looked (ledger : w.Ledger rewriter ghosts noticed history) (sharing : w.Sharing)
    (following : w.following = .fresh ∨ w.following = .ongoing) (changes : Changes) :
    Next rewriter ghosts noticed {root | root ∈ w.host.roots} history (w.looked changes) := by
  obtain ⟨n, s, shares⟩ := sharing.following_shares following
  have followed : w.following ≠ .absent := by
    obtain same | same := following <;> rw [same] <;> exact Following.noConfusion
  have seen := ledger.seen followed
  unfold World.looked
  rw [reconcile_of_shares sharing.multi shares]
  exact ledger.put
    { s with connection := (w.folders.reconcile w.options.rewriter s.connection w.before
      w.host.roots).2 }
    { w.folders with announced := w.host.roots } w.host.roots changes shares Following.noConfusion
    (w.folders.reconcile_later ..)
    (fun root known => known.elim .inr fun lent => .inl (seen root (.inr lent))) nofun
    (fun opened => ⟨_, by
      rw [ledger.naming]
      exact (ledger.books n s shares opened).looked opened ledger.named
        fun root known => seen root (.inl known)⟩)

/-- How far a visit is plays no part in the ledger. -/
theorem Next.setVisit (next : Next rewriter ghosts noticed fresh history w) (number : Nat)
    (stage : VisitStage) : Next rewriter ghosts noticed fresh history (w.setVisit number stage) := by
  obtain ⟨later, ledger, orderly⟩ := next
  exact ⟨later, { ledger with }, orderly⟩

/-- A loan notices its root. If the root was announced by the host nothing is borrowed, and then nothing is
told or noticed. -/
theorem lend (ledger : w.Ledger rewriter ghosts noticed history) (sharing : w.Sharing)
    {number : Nat} {visit : Visit} {s : Session} {loan : Option Loan} {folders : Folders}
    {connection : Connection SessionHandler} (found : w.visits[number]? = some visit)
    (stage : visit.stage = .unstarted) (wanted : visit.isDropped = false) (shares : w.Shares n s)
    (lent : w.folders.lend w.options.rewriter s.connection visit.root =
      .ok (loan, folders, connection)) :
    Next rewriter ghosts noticed (w.borrowed number) history
      (({ w with folders }.put n { s with connection }).setVisit number (.running n loan)) := by
  have awake := sharing.awake found (by rw [stage]; exact VisitStage.noConfusion)
  have followed := (sharing.running awake).2
  -- what the step borrows, in the terms in which the books speak of it
  have borrowed : w.borrowed number = {other | other = visit.root ∧
      other ∉ w.folders.announced ∧ rewriter.Names other} := by
    ext root
    rw [← ledger.naming]
    constructor
    · rintro ⟨other, found', -, -, rfl, unknown, named⟩
      cases found.symm.trans found'
      exact ⟨rfl, unknown, named⟩
    · rintro ⟨rfl, unknown, named⟩
      exact ⟨visit, found, wanted, stage, rfl, unknown, named⟩
  refine Next.setVisit ?_ number _
  rw [ledger.naming] at lent
  refine ledger.put { s with connection } folders w.before w.changes shares followed
    (Folders.lend_later lent) ?_ (fun following quiet root announced => ?_) ?_
  · intro root known
    obtain ⟨-, -, rfl, -⟩ | ⟨unknown, folder, named, -, rfl, -⟩ := Folders.lend_cases lent
    · exact .inl (ledger.seen followed root known)
    · rw [Folders.isLent_setBorrowers, borrowed] at *
      by_cases same : root = visit.root
      · exact .inr ⟨same, same ▸ unknown, same ▸ ⟨folder, named⟩⟩
      · rw [if_neg same] at known
        exact .inl (ledger.seen followed root known)
  · have same : folders.announced = w.folders.announced := by
      obtain ⟨-, -, rfl, -⟩ | ⟨-, -, -, -, rfl, -⟩ := Folders.lend_cases lent <;> rfl
    obtain ⟨ghost, unseen⟩ := ledger.unmoved following quiet root (same ▸ announced)
    rw [borrowed]
    exact ⟨ghost, fun seen => seen.elim unseen fun borrowed => borrowed.2.1 (same ▸ announced)⟩
  · intro opened
    rw [borrowed]
    exact (ledger.books n s shares opened).lent lent fun root => sharing.behind awake

/-- A visit that ends gives back what it has borrowed, if anything. Its root was noticed when it was
borrowed, so that the return notices nothing. -/
theorem dropVisit (ledger : w.Ledger rewriter ghosts noticed history) (sharing : w.Sharing)
    {number : Nat} {visit : Visit} (found : w.visits[number]? = some visit) :
    Next rewriter ghosts noticed ∅ history (w.dropVisit number visit) := by
  unfold World.dropVisit
  cases stage : visit.stage with
  | running n loan =>
    refine Next.setVisit ?_ number _
    cases loan with
    | none => exact ledger.same
    | some loan =>
      have welcome := sharing.visits visit (List.mem_of_getElem? found)
      have awake := sharing.awake found (by rw [stage]; exact VisitStage.noConfusion)
      have followed := (sharing.running awake).2
      rw [stage] at welcome
      obtain ⟨s, shares, -⟩ := sharing.shares welcome.1
      have named := welcome.2 loan rfl
      rw [ledger.naming] at named
      have lent := sharing.isLent found stage
      simp only [World.giveBack, shares.2]
      refine ledger.put { s with connection := (w.folders.giveBack s.connection loan).2 }
        (w.folders.giveBack s.connection loan).1 w.before w.changes shares followed
        (w.folders.giveBack_later s.connection loan) ?_ ?_ ?_
      · intro root known
        refine .inl (ledger.seen followed root (known.imp_right fun still => ?_))
        rw [(w.folders.giveBack_cases s.connection loan).1, Folders.isLent_setBorrowers] at still
        by_cases same : root = loan.root
        · rw [same]
          exact lent
        · rw [if_neg same] at still
          exact still
      · rw [Set.union_empty, (w.folders.giveBack_cases s.connection loan).1]
        exact ledger.unmoved
      · intro opened
        rw [Set.union_empty]
        exact (ledger.books n s shares opened).givenBack opened named lent
          (ledger.seen followed loan.root (.inr lent)) (sharing.level awake lent)
  | _ => exact Next.setVisit ledger.same number _

/-- A root that cannot be lent is not noticed, unless nothing can be told: either it has no name, and is not
counted as borrowed, or the connection is closed, and the ledger says nothing. -/
theorem refused (ledger : w.Ledger rewriter ghosts noticed history) (sharing : w.Sharing)
    {number : Nat} {visit : Visit} (found : w.visits[number]? = some visit)
    (refused : visit.isDropped = false → visit.stage = .unstarted → ∀ n s, w.Shares n s →
      ∃ failure, w.folders.lend w.options.rewriter s.connection visit.root = .error failure) :
    w.Ledger rewriter ghosts (noticed ∪ w.borrowed number) history := by
  by_cases none : w.borrowed number = ∅
  · rw [none, Set.union_empty]
    exact ledger
  · obtain ⟨_, other, found', wanted, stage, rfl, -, named⟩ := Set.nonempty_iff_ne_empty.mpr none
    cases found.symm.trans found'
    have awake := sharing.awake found (by rw [stage]; exact VisitStage.noConfusion)
    have followed := (sharing.running awake).2
    refine { ledger with
      seen := fun _ root known => .inl (ledger.seen followed root known)
      unseen := fun absent => absurd absent followed
      unmoved := fun following quiet root announced => ?_
      books := fun n s shares opened => ?_ }
    · obtain ⟨ghost, unseen⟩ := ledger.unmoved following quiet root announced
      refine ⟨ghost, fun seen => seen.elim unseen fun borrowed => ?_⟩
      obtain ⟨-, -, -, -, -, unknown, -⟩ := borrowed
      exact unknown announced
    obtain ⟨failure, error⟩ := refused wanted stage n s shares
    obtain unnamed | closed := Folders.lend_error error
    · exact absurd named unnamed
    · exact Bool.noConfusion (opened.symm.trans closed)

/-- A step of a visit notices the root that it lends, if it lends one. The cases are those of the step, and
a visit that begins goes on with a further step of its own. -/
theorem visiting {number : Nat} (visiting : Visiting number w v) :
    ∀ {noticed history}, w.Ledger rewriter ghosts noticed history → w.Sharing →
      Next rewriter ghosts noticed (w.borrowed number) history v := by
  induction visiting with
  | @waits w v begun course =>
    intro noticed history ledger _
    have none : w.borrowed number = ∅ := by
      refine Set.eq_empty_iff_forall_notMem.mpr fun root => ?_
      rintro ⟨visit, found, wanted, stage, -⟩
      exact begun visit found wanted stage
    rw [none]
    exact ledger.same.of_course course
  | @begins w v visit n s loan folders connection found stage wanted shares lent rest ih =>
    intro noticed history ledger sharing
    have next := (ledger.lend sharing found stage wanted shares lent).trans fun ledger =>
      ih ledger (sharing.lend found stage shares lent)
    have none : borrowed (({ w with folders }.put n { s with connection }).setVisit number
        (.running n loan)) number = ∅ := by
      refine Set.eq_empty_iff_forall_notMem.mpr fun root => ?_
      rintro ⟨other, found', -, begun, -⟩
      have here := setVisit_found (w := { w with folders }.put n { s with connection }) found
        (.running n loan)
      cases here.symm.trans found'
      cases begun
    rw [none, Set.union_empty] at next
    exact next
  | @ends w v visit found refused course =>
    intro noticed history ledger sharing
    have next := (ledger.refused sharing found refused).next.after fun ledger =>
      ledger.dropVisit sharing found
    exact next.of_course course

/-- Looks at roots that were noticed notice nothing more. So of several looks in one step only the first
counts. -/
theorem looking (looking : Looking w v) : ∀ {history}, w.Ledger rewriter ghosts noticed history →
    w.Sharing → (∀ root ∈ w.host.roots, root ∈ noticed) →
      Next rewriter ghosts noticed ∅ history v := by
  induction looking with
  | done => exact fun ledger _ _ => ledger.same
  | @look w v changes following rest ih =>
    intro history ledger sharing seen
    have next := ledger.looked sharing following changes
    have nothing : noticed ∪ {root | root ∈ w.host.roots} = noticed :=
      Set.union_eq_self_of_subset_right seen
    have quiet : Next rewriter ghosts noticed ∅ history (w.looked changes) := by
      unfold Next at next ⊢
      rw [Set.union_empty]
      rw [nothing] at next
      exact next
    refine quiet.after fun ledger => ?_
    rw [Set.union_empty] at ledger ⊢
    refine ih ledger (sharing.looked following changes) ?_
    obtain ⟨n, s, shares⟩ := sharing.following_shares following
    unfold World.looked
    rw [reconcile_of_shares sharing.multi shares]
    exact seen
  | stop following _ =>
    intro history ledger _ _
    exact (Ledger.same { ledger with
      seen := fun _ => ledger.seen (by rw [following]; exact Following.noConfusion)
      unseen := nofun
      unmoved := nofun })

/-- Who follows the roots notices those that it looks at, and nothing if it does not look at them in this
step. -/
theorem pollReconciler (ledger : w.Ledger rewriter ghosts noticed history) (sharing : w.Sharing) :
    Next rewriter ghosts noticed {root | w.looks = true ∧ root ∈ w.host.roots} history
      w.pollReconciler := by
  obtain ⟨idle, rest⟩ | ⟨looks, following, changes, looking⟩ := pollReconciler_cases sharing
  · have none : {root | w.looks = true ∧ root ∈ w.host.roots} = (∅ : Set Url) := by
      rw [idle]
      exact Set.eq_empty_iff_forall_notMem.mpr fun root ⟨looks, _⟩ => Bool.noConfusion looks
    rw [none]
    obtain same | ⟨following, -, same⟩ := rest
    · rw [same]
      exact ledger.same
    · rw [same]
      exact (Ledger.same { ledger with
        seen := fun _ => ledger.seen (by rw [following]; exact Following.noConfusion)
        unseen := nofun
        unmoved := nofun })
  · have all : {root | w.looks = true ∧ root ∈ w.host.roots} = {root | root ∈ w.host.roots} := by
      simp only [looks, true_and]
    rw [all]
    refine (ledger.looked sharing following changes).after fun ledger => ?_
    refine Ledger.looking looking ledger (sharing.looked following changes) ?_
    obtain ⟨n, s, shares⟩ := sharing.following_shares following
    unfold World.looked
    rw [reconcile_of_shares sharing.multi shares]
    exact fun root member => .inr member

/-- When the client is there, all that the server was greeted with is still to be noticed: it is announced,
but the roots that were looked at are forgotten, and the first look will take all for new. -/
theorem sharedOpened (ledger : w.Ledger rewriter ghosts noticed history) (sharing : w.Sharing)
    {call : Nat} (phase : w.phase = .greeting n call) :
    Ledger rewriter ghosts noticed history w.sharedOpened where
  naming := ledger.naming
  named := ledger.named
  greeted alone := by
    have shared := sharing.greeting n call phase
    rw [show w.shared = none from alone] at shared
    cases shared
  seen _ root known := by obtain looked | lent := known <;> contradiction
  unseen := nofun
  unmoved _ quiet root announced := by
    refine ledger.unseen (sharing.unready ?_ ?_) root ?_
    · rw [phase]
      exact Phase.noConfusion
    · rw [phase]
      exact Phase.noConfusion
    · rw [sharing.unchanged (by rw [phase]; trivial) quiet]
      exact announced
  books m s shares opened := by
    have unready : w.phase ≠ .running := by rw [phase]; exact Phase.noConfusion
    have live : w.phase ≠ .over := by rw [phase]; exact Phase.noConfusion
    obtain ⟨told, known⟩ := ledger.books m s shares opened
    refine ⟨told, fun root => ?_⟩
    rw [known, sharing.unlent (sharing.idle unready)]
    have unseen := ledger.unseen (sharing.unready unready live) root
    constructor
    · rintro (looked | lent | ghost)
      · exact .inr (.inr (unseen looked))
      · cases lent
      · exact .inr (.inr ghost)
    · rintro (looked | lent | ghost)
      · cases looked
      · cases lent
      · exact .inr (.inr ghost)

/-- Waiting for the answer to the greeting notices nothing, whether it is there and the client runs, or is
not there, or the client could not be registered. -/
theorem awaitSharedGreeting {call : Nat}
    (ledger : Ledger rewriter ghosts noticed history { w with phase := .greeting n call })
    (sharing : Sharing { w with phase := .greeting n call }) :
    Next rewriter ghosts noticed ∅ history (w.awaitSharedGreeting n call) := by
  obtain same | ⟨u, course, same | ⟨failure, same⟩⟩ :=
    awaitSharedGreeting_cases (w := w) sharing.unarmed n call
  · rw [same]
    exact ledger.same
  · have kept := sharing.of_course (course.weaken Session.Beside.toLater)
    rw [same]
    exact ((ledger.of_course course).sharedOpened kept course.phase).same
  · rw [same]
    exact ((ledger.of_course course).of_alone (v := u.notRegistered failure) rfl rfl rfl rfl rfl rfl rfl
      (.inl rfl)).same

/-- Registering notices nothing. Either the shared session goes on to wait for its greeting, or there is
none afterwards. -/
theorem registering (ledger : w.Ledger rewriter ghosts noticed history) (sharing : w.Sharing)
    (registering : Registering w v) : Next rewriter ghosts noticed ∅ history v := by
  have late : ¬ (w.phase = .starting ∨ w.phase = .connecting) := by
    intro early
    have ended := ledger.greeted (sharing.early (.inr early))
    rw [ended] at early
    obtain early | early := early <;> cases early
  cases registering with
  | rests early => exact absurd early late
  | stays => exact ledger.same
  | ends =>
    exact (ledger.of_alone (v := { w with phase := .over, shared := none }) rfl rfl rfl rfl rfl rfl rfl
      (.inl rfl)).same
  | greets early => exact absurd early late
  | awaits phase =>
    refine awaitSharedGreeting ?_ ?_
    · rw [← phase]
      exact ledger
    · rw [← phase]
      exact sharing

end Ledger

/-- The roots that a move notices: those that are looked at, or the one that is lent. -/
def notices (w : World) : Move → Set Url
  | .poll .reconciler => {root | w.looks = true ∧ root ∈ w.host.roots}
  | .poll (.visit number) => w.borrowed number
  | _ => ∅

/-- The roots that the host comes to have by a move. -/
def Move.newRoots : Move → List Url
  | .roots urls => urls
  | _ => []

/-- Whether each root that the host comes to have has a name. -/
def Move.Names (rewriter : Rewriter) (move : Move) : Prop :=
  ∀ root ∈ move.newRoots, rewriter.Names root

instance (rewriter : Rewriter) (move : Move) : Decidable (move.Names rewriter) :=
  inferInstanceAs (Decidable (∀ root ∈ move.newRoots, rewriter.Names root))

namespace Ledger

/-- A sweep keeps the ledger. The client holds its shared session, so that the sweep leaves that one as it
is, and the others are not spoken of. -/
theorem sweep (ledger : w.Ledger rewriter ghosts noticed history) (sharing : w.Sharing) :
    Ledger rewriter ghosts noticed history w.sweep := by
  have swept := w.sweep_swept
  have same : w.releaseEntries = w := by
    unfold releaseEntries
    split
    · rfl
    · rw [← sharing.untracked]
  rw [same] at swept
  refine ⟨?_, ?_, ?_, ?_, ?_, ?_, fun n s shares opened => ?_⟩
  · rw [swept.options]
    exact ledger.naming
  · rw [swept.roots]
    exact ledger.named
  · rw [swept.shared, swept.phase]
    exact ledger.greeted
  · rw [swept.following, swept.before, swept.folders]
    exact ledger.seen
  · rw [swept.following, swept.before]
    exact ledger.unseen
  · rw [swept.following, swept.changes, swept.folders]
    exact ledger.unmoved
  · obtain ⟨t, before, -⟩ := swept.toCourse.shares shares
    obtain ⟨u, shares', held⟩ := sharing.shares before.1
    obtain ⟨-, rfl⟩ := before.eq shares'
    have kept := swept.kept before.2 ⟨fun _ => by simp [holds, tracks, before.1], fun _ => held⟩
    cases shares.2.symm.trans kept
    rw [swept.before, swept.folders]
    exact ledger.books n s before opened

/-- The end of the host's news keeps the ledger. It leaves a change to look at, so that nothing has to hold
of an unchanged host. -/
theorem endStreams (ledger : w.Ledger rewriter ghosts noticed history) :
    Ledger rewriter ghosts noticed history w.endStreams := by
  refine { ledger with
    unmoved := fun _ quiet => absurd quiet w.endStreams_changes
    books := fun n t shares opened => ?_ }
  obtain ⟨shared, found⟩ := shares
  obtain ⟨s, before, rfl⟩ := List.getElem?_map .. ▸ found |> Option.map_eq_some_iff.mp
  exact ledger.books n s ⟨shared, before⟩ opened

/-- The end of the client keeps the ledger: there is no shared session any more, and who follows the roots
stops or has stopped. -/
theorem shutdown (ledger : w.Ledger rewriter ghosts noticed history) (sharing : w.Sharing) :
    Ledger rewriter ghosts noticed history w.shutdownIfPossible := by
  obtain same | ⟨running, -, same⟩ := w.shutdownIfPossible_cases
  · rw [same]
    exact ledger
  · rw [same]
    have course := sharing.endClient_course
    exact ledger.of_alone course.shared course.phase course.options course.roots course.before
      course.folders course.changes (.inr ⟨course.following, (sharing.running running).2⟩)

/-- A client that is registered keeps the ledger, whoever registers it again: only one that was never
registered starts, and of that one there is no ledger, since it neither has a session nor is over. -/
theorem registerOnce (ledger : w.Ledger rewriter ghosts noticed history) (sharing : w.Sharing)
    (label : String) : Ledger rewriter ghosts noticed history (w.registerOnce label) := by
  unfold World.registerOnce
  split
  next absent =>
    have ended := ledger.greeted (sharing.early (.inl absent))
    rw [absent] at ended
    cases ended
  next => exact ledger

/-- A visit that begins keeps the ledger: it has borrowed nothing so far. -/
theorem visit (ledger : w.Ledger rewriter ghosts noticed history) (label : String) (root : Url) :
    Ledger rewriter ghosts noticed history ((w.visit label root).getD w) := by
  unfold World.visit
  split
  · exact ledger
  · exact { ledger with }

/-- What the host makes of a visit keeps the ledger. It is heard of at the visitor's next step, and until
then no loan is given back. -/
theorem judge (ledger : w.Ledger rewriter ghosts noticed history) (number : Nat)
    (outcome : Outcome) : Ledger rewriter ghosts noticed history (w.judge number outcome) := by
  unfold World.judge
  split
  · exact { ledger with }
  · exact ledger

/-- A user who drops calls keeps the ledger: a visit that is dropped gives its loan back at its next step
only, and a request that is dropped says nothing of folders. -/
theorem drop (ledger : w.Ledger rewriter ghosts noticed history) (label : String) :
    Ledger rewriter ghosts noticed history (w.drop label) := by
  have visited : Ledger rewriter ghosts noticed history (w.dropLastVisit label) := by
    unfold dropLastVisit
    split
    · exact { ledger with }
    · exact ledger
  have requested := visited.of_course (dropLastRequest_course _ label)
  rw [drop_eq]
  unfold dropRegistering
  split
  · exact requested
  · exact requested
  · exact requested
  · split
    · exact { requested with }
    · exact requested

/-- A server that reads no more is told nothing more: its connection is not open then, and the ledger speaks
of an open one only. -/
theorem stopReading (ledger : w.Ledger rewriter ghosts noticed history) (number : Nat) :
    Ledger rewriter ghosts noticed history (w.serverStopsReading number) := by
  unfold serverStopsReading onConnection
  split
  · exact ledger
  next s found =>
    refine { ledger with books := fun n t shares opened => ?_ }
    obtain ⟨shared, at_n⟩ := shares
    by_cases same : number = n
    · subst same
      have here : _ = some t := at_n
      rw [World.put, wake, List.getElem?_set_self (List.getElem?_eq_some_iff.mp found).1] at here
      cases here
      rw [Connection.isOpen, Bool.and_eq_true] at opened
      exact absurd opened.2 Bool.false_ne_true
    · rw [World.put, wake, List.getElem?_set_ne same] at at_n
      exact ledger.books n t ⟨shared, at_n⟩ opened

/-- Every tactful move keeps the ledger. The roots are noticed by the one who follows them and by the visits
that borrow them, and in all other moves nothing is noticed. -/
theorem after (ledger : w.Ledger rewriter ghosts noticed history) (sharing : w.Sharing) {move : Move}
    (tactful : move.isTactful = true) (names : move.Names rewriter) :
    Next rewriter ghosts noticed (w.notices move) history (w.after move) := by
  -- the minor moves tell the server nothing of folders and notice no root
  cases minor : move.isMinor with
  | true =>
    have none : w.notices move = ∅ := by
      cases move with
      | poll task => cases task <;> first | rfl | cases minor
      | _ => rfl
    rw [none]
    exact ledger.same.of_course (after_course sharing.unarmed sharing.asks.asks minor)
  | false =>
    cases move with
    | poll task =>
      cases task with
      | opening number =>
        have same : w.after (.poll (.opening number)) = w := sharing.pollOpening ..
        rw [same]
        exact ledger.same
      | reconciler => exact ledger.pollReconciler sharing
      | register => exact ledger.registering sharing (pollRegister_registering sharing)
      | visit number => exact Ledger.visiting (pollVisit_visiting sharing number) ledger sharing
      | _ => cases minor
    | sweep => exact (ledger.sweep sharing).same
    | roots roots =>
      exact Ledger.same { ledger with
        named := names
        unmoved := fun _ quiet => absurd quiet (w.setRoots_changes roots) }
    | endStreams => exact ledger.endStreams.same
    | register label => exact (ledger.registerOnce sharing label).same
    | shutdown => exact (ledger.shutdown sharing).same
    | visit label root => exact (ledger.visit label root).same
    | verdict number outcome => exact (ledger.judge number outcome).same
    | request label n purpose => exact (Ledger.same { ledger with })
    | notify n method params =>
      exact ledger.same.of_course (notifyIfPossible_course
        (fun sent => .of_connection (Connection.notify_beside sent (of_decide_eq_true tactful))) w n
        params)
    | drop label => exact (ledger.drop label).same
    | stopReading n => exact (ledger.stopReading n).same
    | arm => cases tactful
    | _ => cases minor

end Ledger

end World

end LanguageClient
