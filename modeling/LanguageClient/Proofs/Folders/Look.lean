import LanguageClient.Proofs.Folders.Telling
import LanguageClient.Proofs.Run

/-!
# A look at the roots

What one look of the client at the host's roots does to what its server knows. The change that it
finds is told as a whole: one root without a name keeps all the others from being told, and the
client counts them as told nevertheless. `reconcile_agrees_iff` says exactly when the server knows
afterwards what it is to know of the roots that have a name.
-/

namespace LanguageClient

/-! ## Folders -/

namespace Folders

variable {rewriter : Rewriter} {folders : Folders} {before roots : List Url}
  {history : List Telling} {root : Url}

/-- A change that can be told is told, unless it is empty, in which case the server need not hear of it to
know what it says. -/
theorem mem_known_tellings (named : ∀ touched, (folders.change before roots).Touches touched →
      rewriter.Names touched) :
    root ∈ Telling.known (history ++ folders.tellings rewriter before roots) ↔
      root ∈ Telling.known history ∧ root ∉ (folders.change before roots).removed ∨
        root ∈ (folders.change before roots).added := by
  obtain ⟨change, worded⟩ := Rewriter.folderChange_ok_iff.mpr named
  unfold tellings
  dsimp only
  rw [worded]
  generalize folders.change before roots = found
  by_cases none : found.isEmpty = true
  · have empty := none
    simp only [RootDiff.isEmpty, Bool.and_eq_true, List.isEmpty_iff] at empty
    simp only [none, if_true, List.append_nil, empty.1, empty.2, List.not_mem_nil,
      not_false_eq_true, and_true, or_false]
  · rw [if_neg none, Telling.known_append]
    rfl

/-- A change with a root that cannot be told is not told: the names of all its roots are asked for at once,
and the first that fails ends it. -/
theorem tellings_of_unnamed (unnamed : ¬ ∀ touched, (folders.change before roots).Touches touched →
      rewriter.Names touched) : folders.tellings rewriter before roots = [] := by
  have refused := mt Rewriter.folderChange_ok_iff.mp unnamed
  unfold tellings
  dsimp only
  split
  next change worded => exact absurd ⟨change, worded⟩ refused
  next => rfl

/-- Whether a server that was told so much knows what it is to know of the roots with a name. -/
def Agrees (rewriter : Rewriter) (history : List Telling) (folders : Folders) : Prop :=
  ∀ root, rewriter.Names root → (root ∈ Telling.known history ↔ root ∈ folders.told)

/-- After a look the server knows what it is to know of the roots with a name if each of them that is
not lent was told of before just as the host has it now, or is part of a change that can be told. -/
theorem agrees_tellings_iff (agrees : Agrees rewriter history folders) :
    Agrees rewriter (history ++ folders.tellings rewriter before roots)
        { folders with announced := roots } ↔
      ∀ root, rewriter.Names root → folders.isLent root = false →
        (root ∈ folders.announced ↔ root ∈ roots) ∨
          (folders.change before roots).Touches root ∧
            ∀ touched, (folders.change before roots).Touches touched → rewriter.Names touched := by
  refine forall_congr' fun root => imp_congr_right fun nameable => ?_
  have known := agrees root nameable
  have added : root ∈ (folders.change before roots).added ↔ _ := mem_added_change
  have removed : root ∈ (folders.change before roots).removed ↔ _ := mem_removed_change
  have told : root ∈ ({ folders with announced := roots } : Folders).told ↔
      root ∈ roots ∨ folders.isLent root = true := Iff.rfl
  have toldBefore : root ∈ folders.told ↔
      root ∈ folders.announced ∨ folders.isLent root = true := Iff.rfl
  rw [told]
  by_cases named : ∀ touched, (folders.change before roots).Touches touched →
      rewriter.Names touched
  · rw [mem_known_tellings named, RootDiff.Touches, added, removed, known, toldBefore]
    cases held : folders.isLent root <;> grind
  · rw [tellings_of_unnamed named, List.append_nil, known, toldBefore]
    cases held : folders.isLent root <;> simp [named]

/-- If the last look told all, the next one does if each root that has come or gone has a name, or none has.
In between, the named ones among them are lost: they are neither told of now nor part of a later change. -/
theorem agrees_next_iff (agrees : Agrees rewriter history folders) :
    Agrees rewriter (history ++ folders.tellings rewriter folders.announced roots)
        { folders with announced := roots } ↔
      (∀ touched, (folders.change folders.announced roots).Touches touched →
          rewriter.Names touched) ∨
        ∀ touched, (folders.change folders.announced roots).Touches touched →
          ¬ rewriter.Names touched := by
  have touches (root : Url) : (folders.change folders.announced roots).Touches root ↔
      ¬ (root ∈ folders.announced ↔ root ∈ roots) ∧ folders.isLent root = false := by
    rw [RootDiff.Touches, mem_added_change, mem_removed_change]
    tauto
  rw [agrees_tellings_iff agrees]
  constructor
  · intro each
    by_cases none : ∀ touched, (folders.change folders.announced roots).Touches touched →
        ¬ rewriter.Names touched
    · exact .inr none
    · simp only [not_forall, not_not] at none
      obtain ⟨root, touched, named⟩ := none
      obtain ⟨changed, free⟩ := (touches root).mp touched
      obtain same | ⟨-, all⟩ := each root named free
      · exact absurd same changed
      · exact .inl all
  · intro all root named free
    by_cases same : root ∈ folders.announced ↔ root ∈ roots
    · exact .inl same
    · have touched := (touches root).mpr ⟨same, free⟩
      obtain all | none := all
      · exact .inr ⟨touched, all⟩
      · exact absurd named (none root touched)

end Folders

/-! ## An example -/

namespace Sample

/-- The options of a client of several roots, for a server that writes roots as the host does. -/
def options : ClientOptions := ⟨{ Config.default with workspaceFolders := .supported }, .identity⟩

def here : Url := ⟨"file:///here"⟩

def there : Url := ⟨"file:///there"⟩

/-- A root that has no name for a server. -/
def odd : Url := ⟨"file:///o|d"⟩

/-- The client is registered and its server greeted. -/
def greeted : List World.Move := [.register "client", .poll .register]

/-- The server answers the greeting, and the roots are looked at. -/
def answered : List World.Move :=
  [.send 0 [.response ⟨"2.0", some (.number 1), some (.obj []), none⟩], .poll (.reader 0),
    .poll .register, .poll .reconciler]

/-- A client whose server knows of no root. -/
def followed : World := (World.start options).run (greeted ++ answered)

/-- The same when its host has two roots, one without a name. -/
def grown : World := followed.run [.roots [here, odd]]

end Sample

/-! ## The shared session -/

namespace World

variable {w : World} {s : Session} {n : Nat} {history : List Telling}

/-- Whether this is the session that serves all roots. -/
def Shares (w : World) (n : Nat) (s : Session) : Prop :=
  w.shared = some n ∧ w.sessions[n]? = some s

/-- Whether the server of all roots can be told something. -/
def IsConnected (w : World) : Prop := ∃ n s, w.Shares n s ∧ s.connection.isOpen = true

/-- Whether the server of all roots was told just this of them. -/
def HasTold (w : World) (history : List Telling) : Prop :=
  ∃ n s, w.Shares n s ∧ s.connection.HasTold w.options.rewriter history

/-- There is one session that serves all roots, so whatever is found as such is the same. -/
theorem Shares.eq {m : Nat} {t : Session} (first : w.Shares n s) (second : w.Shares m t) :
    n = m ∧ s = t := by
  obtain ⟨shared, found⟩ := first
  obtain ⟨shared', found'⟩ := second
  cases shared.symm.trans shared'
  exact ⟨rfl, Option.some.inj (found.symm.trans found')⟩

/-- Whether the server of all roots can be told something can be evaluated, in one look at the shared
session. -/
theorem isConnected_iff : w.IsConnected ↔
    ∃ s ∈ w.shared >>= fun session => w.sessions[session]?, s.connection.isOpen = true := by
  constructor
  · rintro ⟨n, s, ⟨shared, found⟩, opened⟩
    exact ⟨s, by rw [shared]; exact found, opened⟩
  · rintro ⟨s, member, opened⟩
    obtain ⟨n, shared, found⟩ := Option.bind_eq_some_iff.mp member
    exact ⟨n, s, ⟨shared, found⟩, opened⟩

instance : Decidable w.IsConnected := decidable_of_iff _ isConnected_iff.symm

/-- How the client finds the shared session, in the words of its own definitions. -/
theorem Shares.found (shares : w.Shares n s) :
    (w.shared >>= fun session => (w.sessions[session]?).map (session, ·)) = some (n, s) := by
  rw [shares.1]
  exact congrArg (Option.map (n, ·)) shares.2

/-- A shared session that is put back is still the shared one, with its news taken from it. -/
theorem Shares.put (shares : w.Shares n s) (t : Session) :
    (w.put n t).Shares n { t with connection := t.connection.withoutNews } := by
  have inside : n < w.sessions.length := (List.getElem?_eq_some_iff.mp shares.2).1
  exact ⟨shares.1, List.getElem?_set_self inside⟩

/-- The world after a look of the client at the roots that its one server is to know of. The folders take
the roots over whether or not the server could be told, and the session goes on with the connection as it is
after the telling. -/
theorem reconcile_of_shares (multi : w.isMultiRoot = true) (shares : w.Shares n s) :
    w.reconcile =
      { { w with folders := { w.folders with announced := w.host.roots } }.put n
          { s with connection := (w.folders.reconcile w.options.rewriter s.connection w.before
            w.host.roots).2 } with
        before := w.host.roots } := by
  rw [reconcile, if_pos multi, reconcileShared, shares.found]
  simp only [Folders.reconcile_folders]

/-- The change that a look of the client at the host's roots finds. -/
def change (w : World) : RootDiff := w.folders.change w.before w.host.roots

/-- What a look of the client at the host's roots tells the server. -/
def tellings (w : World) : List Telling :=
  w.folders.tellings w.options.rewriter w.before w.host.roots

/-- Exactly when a look of the client at the host's roots leaves its server with what it is to know of
the roots that have a name. -/
theorem reconcile_agrees_iff (multi : w.isMultiRoot = true) (connected : w.IsConnected)
    (told : w.HasTold history) (agrees : w.folders.Agrees w.options.rewriter history) :
    w.reconcile.HasTold (history ++ w.tellings) ∧
      (w.reconcile.folders.Agrees w.options.rewriter (history ++ w.tellings) ↔
        ∀ root, w.options.rewriter.Names root → w.folders.isLent root = false →
          (root ∈ w.folders.announced ↔ root ∈ w.host.roots) ∨
            w.change.Touches root ∧
              ∀ touched, w.change.Touches touched → w.options.rewriter.Names touched) ∧
      (w.before = w.folders.announced →
        (w.reconcile.folders.Agrees w.options.rewriter (history ++ w.tellings) ↔
          (∀ touched, w.change.Touches touched → w.options.rewriter.Names touched) ∨
            ∀ touched, w.change.Touches touched → ¬ w.options.rewriter.Names touched)) := by
  obtain ⟨n, s, shares, opened⟩ := connected
  obtain ⟨m, t, shares', said⟩ := told
  obtain ⟨rfl, rfl⟩ := shares.eq shares'
  have looked := Folders.reconcile_told opened said w.folders w.before w.host.roots
  rw [reconcile_of_shares multi shares]
  refine ⟨?_, Folders.agrees_tellings_iff agrees, ?_⟩
  · have kept : w.Shares n s := shares
    exact ⟨n, _, Shares.put (w := { w with
      folders := { w.folders with announced := w.host.roots } }) kept _, looked⟩
  · intro same
    unfold change tellings
    rw [same]
    exact Folders.agrees_next_iff agrees

/-- The server that is followed in the example was greeted without a root, and was told nothing since. -/
theorem hasTold_followed : Sample.followed.HasTold [.greeting []] :=
  ⟨0, _, ⟨by decide, rfl⟩, .cons ⟨_, _, _, _, rfl, rfl⟩ .nil⟩

/-- In the example the server knows what was announced and lent to it, which is nothing so far. -/
theorem known_followed : Telling.known [.greeting []] = Sample.followed.folders.told := by
  have none : Sample.followed.folders = .empty := by decide
  rw [none]
  ext root
  exact ⟨nofun, by rintro (announced | lent) <;> contradiction⟩

/-- New roots of the host tell the server nothing before somebody looks at them. -/
theorem hasTold_grown : Sample.grown.HasTold [.greeting []] := hasTold_followed

/-- Before the look at the grown roots the server of the example agrees with what was announced to it. -/
theorem agrees_grown :
    Sample.grown.folders.Agrees Sample.grown.options.rewriter [.greeting []] :=
  fun root _ => Set.ext_iff.mp known_followed root

/-- A look at two roots of which one has no name: all that is asked for holds there, and the last look told
all, so that the shorter condition decides. -/
theorem reconcile_agrees_iff_grown : Sample.grown.isMultiRoot = true ∧
    Sample.grown.IsConnected ∧ Sample.grown.HasTold [.greeting []] ∧
    Sample.grown.folders.Agrees Sample.grown.options.rewriter [.greeting []] ∧
    Sample.grown.reconcile.HasTold ([.greeting []] ++ Sample.grown.tellings) ∧
    (Sample.grown.reconcile.folders.Agrees Sample.grown.options.rewriter
        ([.greeting []] ++ Sample.grown.tellings) ↔
      (∀ touched, Sample.grown.change.Touches touched →
          Sample.grown.options.rewriter.Names touched) ∨
        ∀ touched, Sample.grown.change.Touches touched →
          ¬ Sample.grown.options.rewriter.Names touched) := by
  obtain ⟨said, -, next⟩ := reconcile_agrees_iff rfl (by decide) hasTold_grown agrees_grown
  exact ⟨rfl, by decide, hasTold_grown, agrees_grown, said, next (by decide)⟩

/-- A root without a name keeps the server from hearing of another that came with it. -/
theorem reconcile_loses_root : Sample.grown.isMultiRoot = true ∧ Sample.grown.IsConnected ∧
    Sample.grown.HasTold [.greeting []] ∧
    Sample.grown.folders.Agrees Sample.grown.options.rewriter [.greeting []] ∧
    Sample.grown.reconcile.HasTold [.greeting []] ∧
    ¬ Sample.grown.reconcile.folders.Agrees Sample.grown.reconcile.options.rewriter
      [.greeting []] := by
  refine ⟨rfl, by decide, hasTold_grown, agrees_grown, ?_, fun agrees => ?_⟩
  · exact ⟨0, _, ⟨by decide, rfl⟩, .cons ⟨_, _, _, _, rfl, rfl⟩ .nil⟩
  · have announced : Sample.here ∈ Sample.grown.reconcile.folders.told := .inl (by decide)
    cases (agrees Sample.here ⟨_, rfl⟩).mpr announced

end World

end LanguageClient
