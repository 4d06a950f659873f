import LanguageClient.Proofs.Scoping.Hosts
import LanguageClient.Selector

/-!
# Selectors within a root

A selector is scoped to a root by reading its patterns relative to the root's directory, which takes
care of nothing else. A pattern that has a scheme, or starts with a slash or with a drive, or goes
back further than it went before, may leave the root. Every pattern that does none of this, which is
that it descends (`Url.Descends`), stays below the root (`Url.join_within`), and so does every
selector of such patterns (`DocumentSelector.scope_within`).
-/

namespace LanguageClient

namespace Url

variable {parts found : Parts} {url : Url} {text : List Char}

/-! ## Texts that go on -/

/-- The hierarchy of what has the same authority and goes on from the path goes on from the hierarchy. The
dot that keeps a path from reading as a host comes after its first slash: both have it, or the first is that
slash alone. -/
theorem hierarchy_start (authority : found.authority = parts.authority)
    (starts : parts.path.head? = some '/') (path : parts.path <+: found.path) :
    parts.hierarchy <+: found.hierarchy := by
  obtain ⟨more, same⟩ := path
  obtain ⟨rest, slash⟩ := List.head?_eq_some_iff.mp starts
  rw [slash] at same
  cases has : parts.authority with
  | some name =>
    refine ⟨more, ?_⟩
    simp only [Parts.hierarchy, authority, has, slash, ← same, List.append_assoc, List.cons_append]
  | none =>
    have none : found.authority = none := authority.trans has
    cases rest with
    | nil =>
      cases more with
      | nil => exact ⟨[], by simp only [Parts.hierarchy, has, none, slash, ← same]; rfl⟩
      | cons d more =>
        have first : parts.hierarchy = ['/'] := by simp only [Parts.hierarchy, has, slash]
        rw [first, hierarchy_of_none none same.symm]
        split
        · exact ⟨_, rfl⟩
        · exact ⟨_, rfl⟩
    | cons c rest =>
      rw [hierarchy_of_none has slash, hierarchy_of_none none same.symm]
      split
      · exact ⟨more, rfl⟩
      · exact ⟨more, rfl⟩

/-- What has the same host and goes on from the path shows the text and more. -/
theorem text_start (scheme : found.scheme = parts.scheme)
    (authority : found.authority = parts.authority) (starts : parts.path.head? = some '/')
    (path : parts.path <+: found.path) (query : parts.query = none)
    (fragment : parts.fragment = none) : parts.text <+: found.text := by
  obtain ⟨more, same⟩ := hierarchy_start authority starts path
  rw [Parts.text_eq, Parts.text_eq, scheme, query, fragment, ← same]
  exact ⟨more ++ tailText found.query found.fragment, by simp [tailText]⟩

/-- A query or a fragment that is read relative to a directory comes after the text of the directory, which
has none. -/
theorem withTail_start (path : Path.IsDirectory (kindOf parts.scheme) parts.path)
    (query : parts.query = none) (fragment : parts.fragment = none)
    (tail : parts.withTail? text = some found) : parts.text <+: found.text := by
  have more (query? fragment? : Option (List Char)) :
      parts.text <+: Parts.text { parts with query := query?, fragment := fragment? } :=
    text_start rfl rfl path.starts (List.prefix_refl _) query fragment
  unfold Parts.withTail? at tail
  dsimp only at tail
  split at tail
  · cases tail
    exact more _ _
  · cases tail
    exact more _ _
  · cases tail
    exact more _ _
  · cases tail

/-! ## Patterns that descend -/

/-- The segments of what a text has of a path. -/
def segmentsOf (kind : SchemeKind) (text : List Char) : List (List Char) :=
  (Path.visible .url text).splitOnP (Path.endsSegment kind)

/-- Whether a pattern stays where it is read: it has no scheme, does not start anew, and no `..` in
it goes back further than it went before. -/
structure Descends (root : Url) (pattern : String) : Prop where
  unschemed : readScheme? (clean pattern.toList) = none
  relative : (clean pattern.toList).head? ≠ some '/' ∧ (clean pattern.toList).head? ≠ some '\\'
  /-- A drive starts anew where files are named. -/
  undriven : kindOf root.parts.scheme = .file →
    startsWithDriveSegment (clean pattern.toList) = false
  within : ((segmentsOf (kindOf root.parts.scheme) (clean pattern.toList)).foldlM
    Path.depth? 0).isSome

/-- A path that is read onto that of a directory goes on from it, if its segments do not go back further
than they went before. -/
theorem read_start (path : Path.IsDirectory (kindOf parts.scheme) parts.path)
    (within : ((segmentsOf (kindOf parts.scheme) text).foldlM Path.depth? 0).isSome) :
    parts.path <+: (Path.read (kindOf parts.scheme) .url parts.path text).path := by
  obtain ⟨deep, counted⟩ := Option.isSome_iff_exists.mp within
  have clean (segment : List Char) (member : segment ∈ segmentsOf (kindOf parts.scheme) text) :
      '/' ∉ segment := Path.slash_notMem_of_split List.not_mem_nil member
  have below := Path.addSegments_below (kindOf parts.scheme) (.refl parts.path) path.ends clean counted
  have read : (Path.readSegments (kindOf parts.scheme) .url parts.path [] false text).path =
      Path.addSegments (kindOf parts.scheme) parts.path (segmentsOf (kindOf parts.scheme) text) :=
    Path.readSegments_path ..
  rw [← read] at below
  unfold Path.read
  split
  next file =>
    obtain ⟨more, same⟩ := below
    obtain ⟨rest, slash⟩ := List.head?_eq_some_iff.mp path.starts
    have single := path.single file
    dsimp only
    rw [← same, slash]
    rw [slash, List.drop_one, List.tail_cons] at single
    cases rest with
    | nil => exact ⟨_, rfl⟩
    | cons c rest =>
      have other : ¬ c = '/' := fun here => single (congrArg some here)
      refine ⟨more, ?_⟩
      simp only [List.cons_append, List.dropWhile_cons, decide_true, if_true, other, decide_false,
        Bool.false_eq_true, if_false]
  next => exact below

/-- So the URL with the path that was read goes on from the text of the directory. -/
theorem withPath_start (path : Path.IsDirectory (kindOf parts.scheme) parts.path)
    (query : parts.query = none) (fragment : parts.fragment = none)
    (within : ((segmentsOf (kindOf parts.scheme) text).foldlM Path.depth? 0).isSome) :
    parts.text <+: (parts.withPath parts.path text).text :=
  text_start rfl rfl path.starts (read_start path within) query fragment

/-- A text that starts with no slash is read after the path of a file. -/
theorem readFile_relative {base : Parts} (relative : text.head? ≠ some '/' ∧ text.head? ≠ some '\\') :
    readFile (some base) text = readFile.noSlash (some base) text := by
  match text, relative with
  | [], _ => rfl
  | [c], relative | c :: d :: rest, relative =>
    have slash : ¬ c = '/' := fun here => relative.1 (congrArg some here)
    have backslash : ¬ c = '\\' := fun here => relative.2 (congrArg some here)
    simp only [readFile, slash, backslash, decide_false, Bool.or_self, Bool.false_eq_true, false_and,
      if_false]

/-- A text that starts with no slash is read after the path. -/
theorem readRelative_relative {base : Parts}
    (relative : text.head? ≠ some '/' ∧ text.head? ≠ some '\\') (tail : base.withTail? text = none)
    (path : Path.IsDirectory (kindOf base.scheme) base.path) :
    readRelative base text = .ok (base.withPath base.path text) := by
  have some : base.path.isEmpty = false := by
    obtain ⟨rest, slash⟩ := List.head?_eq_some_iff.mp path.starts
    rw [slash]
    rfl
  unfold readRelative
  rw [tail]
  dsimp only
  split
  next => exact absurd rfl relative.1
  next => exact absurd rfl relative.1
  next => exact absurd rfl relative.2
  next => rw [Path.pop_of_ends .plain path.ends, some, if_neg Bool.false_ne_true]

/-- What descends is read below the directory. The premises say that the pattern is no URL, starts at no
root and names no drive, and that its segments never go above the directory. -/
theorem read_within {base : Parts} {pattern : List Char}
    (path : Path.IsDirectory (kindOf base.scheme) base.path) (query : base.query = none)
    (fragment : base.fragment = none) (unschemed : readScheme? (clean pattern) = none)
    (relative : (clean pattern).head? ≠ some '/' ∧ (clean pattern).head? ≠ some '\\')
    (undriven : kindOf base.scheme = .file → startsWithDriveSegment (clean pattern) = false)
    (within : ((segmentsOf (kindOf base.scheme) (clean pattern)).foldlM Path.depth? 0).isSome) :
    ∃ parts, Parts.read (some base) pattern = .ok parts ∧ base.text <+: parts.text := by
  unfold Parts.read
  generalize clean pattern = text at unschemed relative undriven within ⊢
  dsimp only
  rw [unschemed]
  dsimp only
  have based : base.isOpaque = false := by
    unfold Parts.isOpaque
    rw [path.starts]
    simp
  have onPath : base.text <+: (base.withPath base.path text).text :=
    withPath_start path query fragment within
  -- a pattern that begins with a mark leaves the path alone; any other is read along it
  split
  next mark =>
    exact ⟨_, rfl, text_start rfl rfl path.starts (List.prefix_refl _) query fragment⟩
  next =>
    rw [based, if_neg Bool.false_ne_true]
    by_cases file : kindOf base.scheme = .file
    · rw [if_pos file, readFile_relative relative]
      cases tail : base.withTail? text with
      | some parts =>
        refine ⟨parts, ?_, withTail_start path query fragment tail⟩
        simp only [readFile.noSlash, tail]
      | none =>
        refine ⟨base.withPath base.path text, ?_, onPath⟩
        simp only [readFile.noSlash, tail, undriven file, Bool.false_eq_true, if_false,
          Path.pop_of_ends .file path.ends]
    · rw [if_neg file]
      cases tail : base.withTail? text with
      | some parts =>
        refine ⟨parts, ?_, withTail_start path query fragment tail⟩
        unfold readRelative
        rw [tail]
      | none => exact ⟨_, readRelative_relative relative tail path, onPath⟩

/-- A pattern that descends is read below the directory, whatever it says. -/
theorem join_within {directory root : Url} {pattern : String} (isDirectory : directory.IsDirectory)
    (scheme : directory.parts.scheme = root.parts.scheme) (descends : root.Descends pattern) :
    ∃ joined, directory.join pattern = .ok joined ∧
      directory.text.toList <+: joined.text.toList := by
  obtain ⟨path, query, fragment, shown⟩ := isDirectory
  obtain ⟨unschemed, relative, undriven, within⟩ := descends
  rw [← scheme] at undriven within
  obtain ⟨parts, read, start⟩ := read_within path query fragment unschemed relative undriven within
  refine ⟨ofParts parts, by rw [join, read]; rfl, ?_⟩
  rw [← shown, ofParts, String.toList_ofList]
  exact start

end Url

namespace DocumentSelector

/-- The pattern of everything descends everywhere. -/
theorem descends_everything (root : Url) : root.Descends everything where
  unschemed := by decide
  relative := by decide
  undriven := fun _ => by decide
  within := by cases Url.kindOf root.parts.scheme <;> decide

/-- The patterns of a selector, of which one that is not there is the pattern of everything. -/
theorem descends_orAll {root : Url} {selector : Option DocumentSelector}
    (descends : ∀ entries, selector = some entries → ∀ entry ∈ entries, ∀ pattern,
      entry.toFilter.pattern = some pattern → root.Descends pattern) :
    ∀ entry ∈ orAll selector, root.Descends (entry.toFilter.pattern.getD everything) := by
  intro entry member
  cases has : entry.toFilter.pattern with
  | none => exact descends_everything root
  | some pattern =>
    match selector, descends, member with
    | none, _, member | some [], _, member =>
      obtain rfl := List.mem_singleton.mp member
      cases has
      exact descends_everything root
    | some (first :: rest), descends, member => exact descends _ rfl entry member pattern has

/-- If each item of a list comes to something with a property, the list does. -/
theorem mapM_ok {α β ε : Type} {f : α → Except ε β} {holds : β → Prop} {items : List α}
    (each : ∀ item ∈ items, ∃ result, f item = .ok result ∧ holds result) :
    ∃ results, items.mapM f = .ok results ∧ ∀ result ∈ results, holds result := by
  induction items with
  | nil => exact ⟨[], rfl, nofun⟩
  | cons item items ih =>
    obtain ⟨result, first, fine⟩ := each item List.mem_cons_self
    obtain ⟨results, rest, all⟩ := ih fun other member => each other (List.mem_cons_of_mem _ member)
    refine ⟨result :: results, by rw [List.mapM_cons, first, rest]; rfl, ?_⟩
    exact List.forall_mem_cons.mpr ⟨fine, all⟩

/-- A selector of patterns that descend is scoped to the root: every entry has a pattern that goes on
from the URL of the root's directory. -/
theorem scope_within {text : String} {root : Url} {selector : Option DocumentSelector}
    (named : Url.parse text = .ok root) (base : root.cannotBeABase = false)
    (query : root.parts.query = none) (fragment : root.parts.fragment = none)
    (descends : ∀ entries, selector = some entries → ∀ entry ∈ entries, ∀ pattern,
      entry.toFilter.pattern = some pattern → root.Descends pattern) :
    ∃ narrowed, scope selector (some root) = .ok narrowed ∧ ∀ entry ∈ narrowed, ∃ pattern,
      entry.toFilter.pattern = some pattern ∧
        root.asDirectory.text.toList <+: pattern.toList := by
  have directory := Url.isDirectory_asDirectory base query fragment
    (Url.hasSinglePath_of_parse named)
  refine mapM_ok fun entry member => ?_
  obtain ⟨joined, read, start⟩ := Url.join_within directory (Url.scheme_asDirectory root)
    (descends_orAll descends entry member)
  refine ⟨.filter { entry.toFilter with pattern := some joined.text }, ?_, joined.text, rfl, start⟩
  simp only [scopeEntry, read]

/-- Patterns that go back only as far as they went before stay below a root. -/
theorem scope_within_back : ∃ narrowed,
    scope (some [.language "a", .filter ⟨none, none, some "src/../lib/*.a?x#y"⟩])
      (some ⟨"file:///ws"⟩) = .ok narrowed ∧ ∀ entry ∈ narrowed, ∃ pattern,
        entry.toFilter.pattern = some pattern ∧
          (Url.asDirectory ⟨"file:///ws"⟩).text.toList <+: pattern.toList := by
  have named : Url.parse "file:///ws" = .ok ⟨"file:///ws"⟩ := by rfl
  refine scope_within named (by decide) (by rfl) (by rfl) ?_
  rintro entries ⟨⟩ entry member pattern has
  rcases List.mem_cons.mp member with rfl | member
  · cases has
  · obtain rfl := List.mem_singleton.mp member
    cases has
    exact ⟨by decide, by decide, fun _ => by decide, by decide⟩

/-- A pattern that starts anew leaves the root. -/
theorem scope_anew :
    scope (some [.filter ⟨none, none, some "/src/**"⟩]) (some ⟨"file:///ws/"⟩) =
      .ok [.filter ⟨none, none, some "file:///src/**"⟩] ∧
    ¬ (Url.asDirectory ⟨"file:///ws/"⟩).text.toList <+: "file:///src/**".toList := by
  constructor
  · rfl
  · decide

end DocumentSelector

end LanguageClient
