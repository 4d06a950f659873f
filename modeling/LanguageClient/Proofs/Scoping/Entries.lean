import LanguageClient.Proofs.Traversal
import LanguageClient.Selector

/-!
# Selectors, entry by entry

Scoping goes through a selector once. Without a root nothing is changed, except that a selector that is not
there or is empty becomes that of everything. With a root every entry becomes a filter that says the same of
languages and schemes, and has for its pattern the address that its own pattern is in the directory of the
root (`DocumentSelector.Narrows`); the first entry whose pattern is no address there is what fails.

So scoping again changes nothing, as long as an address that came out is read as itself in the directory.
That is a property of how addresses are read and no part of scoping, so it is a premise, and only of the
addresses in question (`DocumentSelector.scope_narrows`).
-/

namespace LanguageClient

namespace DocumentSelector

variable {directory : Url} {entry narrowed : SelectorEntry} {failure : ConversionError}

/-! ## Entries -/

/-- The pattern with which an entry is read. -/
def patternOf (entry : SelectorEntry) : String := entry.toFilter.pattern.getD everything

/-- What becomes of an entry whose pattern is an address in the directory. -/
inductive Narrows (directory : Url) : SelectorEntry → SelectorEntry → Prop where
  | language {name : String} {url : Url} (read : directory.join everything = .ok url) :
      Narrows directory (.language name) (.filter ⟨some name, none, some url.text⟩)
  | filter {language? scheme? pattern? : Option String} {url : Url}
      (read : directory.join (pattern?.getD everything) = .ok url) :
      Narrows directory (.filter ⟨language?, scheme?, pattern?⟩)
        (.filter ⟨language?, scheme?, some url.text⟩)

/-- An entry becomes something just if its pattern is an address in the directory; a language is read with
the pattern of everything. -/
theorem narrows_iff : (∃ narrowed, Narrows directory entry narrowed) ↔
    ∃ url, directory.join (patternOf entry) = .ok url := by
  cases entry with
  | language name => exact ⟨fun ⟨_, .language read⟩ => ⟨_, read⟩, fun ⟨_, read⟩ => ⟨_, .language read⟩⟩
  | filter given => exact ⟨fun ⟨_, .filter read⟩ => ⟨_, read⟩, fun ⟨_, read⟩ => ⟨_, .filter read⟩⟩

/-- What scoping makes of an entry, as a relation: there is one case for a language and one for a filter. -/
theorem scopeEntry_eq_ok_iff :
    scopeEntry directory entry = .ok narrowed ↔ Narrows directory entry narrowed := by
  constructor
  · intro done
    unfold scopeEntry at done
    dsimp only at done
    split at done
    next url read =>
      cases done
      cases entry with
      | language name => exact .language read
      | filter given => exact .filter read
    next => cases done
  · rintro (⟨read⟩ | ⟨read⟩)
    · simp only [scopeEntry, SelectorEntry.toFilter, Option.getD_none, read]
    · simp only [scopeEntry, SelectorEntry.toFilter, read]

/-- Scoping an entry fails just if its pattern is no address, and the failure names the pattern and the
fault. -/
theorem scopeEntry_eq_error_iff : scopeEntry directory entry = .error failure ↔
    ∃ fault, directory.join (patternOf entry) = .error fault ∧
      failure = .invalidUri (patternOf entry) fault := by
  unfold scopeEntry
  dsimp only [patternOf]
  cases directory.join (entry.toFilter.pattern.getD everything) with
  | ok url => simp
  | error fault => simp [eq_comm]

/-- An entry that was scoped is scoped to itself, if its address is read as itself. -/
theorem Narrows.again (narrows : Narrows directory entry narrowed)
    (keeps : ∀ url, directory.join (patternOf entry) = .ok url → directory.join url.text = .ok url) :
    Narrows directory narrowed narrowed := by
  cases narrows with
  | language read => exact .filter (keeps _ read)
  | filter read => exact .filter (keeps _ read)

/-! ## Lists of entries -/

variable {selector : Option DocumentSelector} {root : Url} {entries : DocumentSelector}

/-- A selector with that of everything in its place where it has no entry always has one. -/
theorem orAll_ne_nil (selector : Option DocumentSelector) : orAll selector ≠ [] := by
  match selector with
  | none | some [] => exact List.cons_ne_nil _ _
  | some (_ :: _) => exact List.cons_ne_nil _ _

/-- A selector with an entry stays as it is. -/
theorem orAll_some (filled : entries ≠ []) : orAll (some entries) = entries := by
  cases entries with
  | nil => exact absurd rfl filled
  | cons entry entries => rfl

/-- With a root, a selector becomes another entry by entry and in order, if each entry becomes something. -/
theorem scope_eq_ok_iff : scope selector (some root) = .ok entries ↔
    List.Forall₂ (Narrows root.asDirectory) (orAll selector) entries := by
  unfold scope
  simp only [mapM_eq_ok_iff, scopeEntry_eq_ok_iff]

/-- Otherwise scoping fails for the first entry whose pattern is no address, those in front of it being
fine. -/
theorem scope_eq_error_iff : scope selector (some root) = .error failure ↔ ∃ before entry after,
    orAll selector = before ++ entry :: after ∧
      (∀ other ∈ before, ∃ url, root.asDirectory.join (patternOf other) = .ok url) ∧
      ∃ fault, root.asDirectory.join (patternOf entry) = .error fault ∧
        failure = .invalidUri (patternOf entry) fault := by
  unfold scope
  simp only [mapM_eq_error_iff, scopeEntry_eq_ok_iff, narrows_iff, scopeEntry_eq_error_iff]

/-- That it fails at all only takes one such entry, wherever it is. -/
theorem scope_fails_iff : (∃ failure, scope selector (some root) = .error failure) ↔
    ∃ entry ∈ orAll selector, ∃ fault, root.asDirectory.join (patternOf entry) = .error fault := by
  constructor
  · rintro ⟨failure, fails⟩
    obtain ⟨before, entry, after, parts, -, fault, read, -⟩ := scope_eq_error_iff.mp fails
    exact ⟨entry, parts ▸ List.mem_append_right _ List.mem_cons_self, fault, read⟩
  · rintro ⟨entry, inside, fault, read⟩
    cases done : scope selector (some root) with
    | error failure => exact ⟨failure, rfl⟩
    | ok entries =>
      obtain ⟨url, other⟩ := narrows_iff.mp (exists_of_forall₂ (scope_eq_ok_iff.mp done) inside)
      cases other.symm.trans read

/-- A selector that was scoped is scoped to itself, if its addresses are read as themselves. -/
theorem scope_again (keeps : ∀ entry ∈ orAll selector, ∀ url,
      root.asDirectory.join (patternOf entry) = .ok url → root.asDirectory.join url.text = .ok url)
    (done : scope selector (some root) = .ok entries) : scope (some entries) (some root) = .ok entries := by
  rw [scope_eq_ok_iff] at done
  have filled : entries ≠ [] := by
    rintro rfl
    exact orAll_ne_nil selector (List.forall₂_nil_right_iff.mp done)
  rw [scope_eq_ok_iff, orAll_some filled]
  clear filled
  generalize orAll selector = given at keeps done
  induction done with
  | nil => exact .nil
  | cons narrows _ ih =>
    exact .cons (narrows.again (keeps _ List.mem_cons_self))
      (ih fun entry inside => keeps entry (List.mem_cons_of_mem _ inside))

/-- What scoping gives. Without a root a selector stays, and none is that of everything. With a root it fails
just if some entry has a pattern that is no address in the root's directory, and then with what is said of the
first such entry; otherwise there is one filter for each entry, in order. And a selector that was scoped is
scoped to itself, if its addresses are read as themselves. -/
theorem scope_narrows (selector : Option DocumentSelector) :
    (scope none none = .ok [.filter ⟨none, none, some "**"⟩] ∧
      scope (some []) none = .ok [.filter ⟨none, none, some "**"⟩] ∧
      ∀ entry entries, scope (some (entry :: entries)) none = .ok (entry :: entries)) ∧
    (∀ root : Url,
      ((∃ failure, scope selector (some root) = .error failure) ↔
        ∃ entry ∈ orAll selector, ∃ fault, root.asDirectory.join (patternOf entry) = .error fault) ∧
      (∀ failure, scope selector (some root) = .error failure ↔ ∃ before entry after,
        orAll selector = before ++ entry :: after ∧
          (∀ other ∈ before, ∃ url, root.asDirectory.join (patternOf other) = .ok url) ∧
          ∃ fault, root.asDirectory.join (patternOf entry) = .error fault ∧
            failure = .invalidUri (patternOf entry) fault) ∧
      ∀ entries, scope selector (some root) = .ok entries ↔
        List.Forall₂ (Narrows root.asDirectory) (orAll selector) entries) ∧
    (∀ entries, scope selector none = .ok entries → scope (some entries) none = .ok entries) ∧
    ∀ root : Url, (∀ entry ∈ orAll selector, ∀ url, root.asDirectory.join (patternOf entry) = .ok url →
        root.asDirectory.join url.text = .ok url) →
      ∀ entries, scope selector (some root) = .ok entries →
        scope (some entries) (some root) = .ok entries := by
  refine ⟨⟨rfl, rfl, fun entry entries => rfl⟩, fun root => ?_, ?_, fun root keeps entries => scope_again keeps⟩
  · exact ⟨scope_fails_iff, fun failure => scope_eq_error_iff, fun entries => scope_eq_ok_iff⟩
  · rintro entries ⟨⟩
    exact congrArg Except.ok (orAll_some (orAll_ne_nil selector))

/-- A language and a pattern are scoped once and stay: the language gets the pattern of the whole root, the
pattern is joined to it, and the second scoping changes neither. -/
theorem scope_narrows_mixed :
    scope (some [.language "a", .filter ⟨none, some "file", some "src/*.b"⟩]) (some ⟨"file:///ws"⟩) =
      .ok [.filter ⟨some "a", none, some "file:///ws/**"⟩,
        .filter ⟨none, some "file", some "file:///ws/src/*.b"⟩] ∧
    scope (some [.filter ⟨some "a", none, some "file:///ws/**"⟩,
        .filter ⟨none, some "file", some "file:///ws/src/*.b"⟩]) (some ⟨"file:///ws"⟩) =
      .ok [.filter ⟨some "a", none, some "file:///ws/**"⟩,
        .filter ⟨none, some "file", some "file:///ws/src/*.b"⟩] := by
  have languages : (Url.asDirectory ⟨"file:///ws"⟩).join "**" = .ok ⟨"file:///ws/**"⟩ := by rfl
  have sources : (Url.asDirectory ⟨"file:///ws"⟩).join "src/*.b" = .ok ⟨"file:///ws/src/*.b"⟩ := by rfl
  have once : scope (some [.language "a", .filter ⟨none, some "file", some "src/*.b"⟩])
      (some ⟨"file:///ws"⟩) = .ok [.filter ⟨some "a", none, some "file:///ws/**"⟩,
        .filter ⟨none, some "file", some "file:///ws/src/*.b"⟩] := by rfl
  obtain ⟨-, -, -, again⟩ := scope_narrows (some [.language "a", .filter ⟨none, some "file", some "src/*.b"⟩])
  refine ⟨once, again ⟨"file:///ws"⟩ (fun entry inside url read => ?_) _ once⟩
  rcases List.mem_cons.mp inside with rfl | inside
  · obtain rfl := Except.ok.inj (languages.symm.trans read)
    rfl
  · obtain rfl := List.mem_singleton.mp inside
    obtain rfl := Except.ok.inj (sources.symm.trans read)
    rfl

end DocumentSelector

end LanguageClient
