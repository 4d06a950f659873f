import LanguageClient.Proofs.Scoping.Segments
import Mathlib.Data.List.TakeWhile

/-!
# URLs of directories

The parts of a text that has a colon show that text again (`Url.text_ofText`). A directory is a URL
whose path has a slash at its end and nothing after it (`Url.Parts.IsDirectory`); what
`Url.asDirectory` gives is one (`Url.isDirectory_asDirectory`), if nothing comes after the path of
the URL. Otherwise the query and the fragment stay where they are (`Url.isDirectoryWith_asDirectory`). Of a
file one slash is in front of the path, which every URL that was read has.
-/

namespace LanguageClient

namespace Path

variable {kind : SchemeKind} {path segment : List Char}

/-! ## What a path consists of -/

/-- The text up to its last slash is the start of the text. -/
theorem uptoLastSlash_start (path : List Char) : uptoLastSlash path <+: path := by
  have suffix := List.dropWhile_suffix (· ≠ '/') (l := path.reverse)
  simpa only [uptoLastSlash, List.reverse_reverse] using List.reverse_prefix.mpr suffix

/-- A text with a slash has something up to the last one. -/
theorem uptoLastSlash_ne_nil (slash : '/' ∈ path) : uptoLastSlash path ≠ [] := by
  intro none
  have all := List.dropWhile_eq_nil_iff.mp (List.reverse_eq_nil_iff.mp none)
  exact absurd (all '/' (List.mem_reverse.mpr slash)) (by decide)

/-- Dropping the last slash leaves a start of the path. If it does not end in one, nothing is dropped. -/
theorem dropLastSlash_start (path : List Char) : dropLastSlash path <+: path := by
  unfold dropLastSlash
  split
  · exact List.prefix_refl path
  · dsimp only
    split
    · exact List.prefix_refl path
    · split
      · exact List.prefix_refl path
      · exact List.dropLast_prefix path

/-- So does taking the last segment away. -/
theorem pop_start (kind : SchemeKind) (path : List Char) : pop kind path <+: path := by
  unfold pop
  split
  · exact List.prefix_refl path
  · exact uptoLastSlash_start path

/-- A start of a path that is not empty starts as the path does. -/
theorem head_of_start {front : List Char} (start : front <+: path) (some : front ≠ []) :
    front.head? = path.head? := by
  obtain ⟨rest, rfl⟩ := start
  cases front with
  | nil => exact absurd rfl some
  | cons => rfl

/-- A path that starts with a slash still does when the last one is dropped, as that is another one. -/
theorem dropLastSlash_head (starts : path.head? = some '/') :
    (dropLastSlash path).head? = some '/' := by
  refine (head_of_start (dropLastSlash_start path) ?_).trans starts
  unfold dropLastSlash
  have some : path ≠ [] := by
    rintro rfl
    cases starts
  split
  · exact some
  · dsimp only
    split
    · exact some
    next before =>
      split
      · exact some
      · intro none
        rw [none] at before
        exact before rfl

/-- The slash in front is never taken away with a segment. -/
theorem pop_head (kind : SchemeKind) (starts : path.head? = some '/') :
    (pop kind path).head? = some '/' := by
  refine (head_of_start (pop_start kind path) ?_).trans starts
  unfold pop
  split
  · rintro rfl
    cases starts
  · exact uptoLastSlash_ne_nil (List.mem_of_head? starts)

/-- What is added at the end of a path does not change how it starts. -/
theorem head_append (starts : path.head? = some '/') (more : List Char) :
    (path ++ more).head? = some '/' := by
  cases path with
  | nil => cases starts
  | cons => exact starts

/-- Nor does a slash at its end. -/
theorem endSlash_head (starts : path.head? = some '/') : (endSlash path).head? = some '/' := by
  unfold endSlash
  split
  · exact starts
  · exact head_append starts _

/-- A slash is at the end once it was put there. -/
theorem endSlash_ends (path : List Char) : (endSlash path).getLast? = some '/' := by
  unfold endSlash
  split
  next ends => exact ends
  next => exact List.getLast?_concat

/-- An empty segment adds the slash that follows it, and nothing else. It is what two slashes in a row have
between them. -/
theorem addSegment_nil (kind : SchemeKind) (path : List Char) (slash : Bool) :
    addSegment kind path [] slash = path ++ if slash then ['/'] else [] := by
  have front : ¬ (kind = .file ∧ ([] : List Char) ≠ [] ∧ isNormalDrive (path.drop 1) = true) :=
    fun both => both.2.1 rfl
  have drive (first : Prop) [Decidable first] : ¬ (kind = .file ∧ first ∧ isDrive [] = true) :=
    fun all => Bool.false_ne_true all.2.2
  unfold addSegment
  simp only [if_neg front, Percent.encode, List.flatMap_nil, if_neg (drive _), List.append_nil]
  rfl

/-- A path keeps its slash in front whatever segment comes, also if the segment goes back. -/
theorem addSegment_head (kind : SchemeKind) (segment : List Char) (slash : Bool)
    (starts : path.head? = some '/') : (addSegment kind path segment slash).head? = some '/' := by
  obtain ⟨front, shown, fronts, -, added⟩ := addSegment_eq kind path segment slash
  have starts : front.head? = some '/' := by
    rcases fronts with rfl | ⟨rfl, -⟩
    · exact starts
    · exact head_append starts _
  have back := pop_head kind (dropLastSlash_head starts)
  rw [added]
  split
  · split
    · exact endSlash_head back
    · exact back
  · split
    · exact endSlash_head starts
    · exact head_append starts _

/-- A segment that a slash follows leaves a slash at the end of the path. -/
theorem addSegment_ends (kind : SchemeKind) (path segment : List Char) :
    (addSegment kind path segment true).getLast? = some '/' := by
  obtain ⟨front, shown, -, -, added⟩ := addSegment_eq kind path segment true
  rw [added]
  split
  · exact endSlash_ends _
  · split
    · exact endSlash_ends _
    · rw [if_pos rfl, ← List.append_assoc]
      exact List.getLast?_concat

/-! ## Reading a path alone -/

/-- Whether a character stands for the end of a path nowhere in a text. -/
def Unmarked (text : List Char) : Prop := ∀ c ∈ text, Url.endsPath c = false

/-- Two texts without a mark are one without a mark. -/
theorem Unmarked.append {more : List Char} (unmarked : Unmarked path) (also : Unmarked more) :
    Unmarked (path ++ more) := fun c inside =>
  (List.mem_append.mp inside).elim (unmarked c) (also c)

/-- What is encoded for a path has no mark, since marks are among the characters that are encoded. -/
theorem unmarked_encode (text : List Char) : Unmarked (Percent.encode Percent.path text) := by
  intro c inside
  rcases mem_encode inside with ⟨-, itself⟩ | rfl | ⟨n, rfl⟩
  · simp only [Percent.path, Bool.or_eq_false_iff, decide_eq_false_iff_not] at itself
    simp only [Url.endsPath, itself, decide_false, Bool.or_self]
  · rfl
  · have digit := digit_ne_mark n
    simp only [Url.endsPath, digit, decide_false, Bool.or_self]

/-- What holds of everything that is written into a path. -/
structure InPaths (holds : Char → Prop) : Prop where
  slash : holds '/'
  colon : holds ':'
  encoded : ∀ text, ∀ c ∈ Percent.encode Percent.path text, holds c

/-- No character that is written into a path is a mark. -/
theorem inPaths_unmarked : InPaths fun c => Url.endsPath c = false := ⟨rfl, rfl, unmarked_encode⟩

section

variable {holds : Char → Prop}

/-- What holds of all characters of a path holds of them with a slash at the end. -/
theorem InPaths.endSlash (inPaths : InPaths holds) (all : ∀ c ∈ path, holds c) :
    ∀ c ∈ endSlash path, holds c := by
  unfold Path.endSlash
  split
  · exact all
  · exact List.forall_mem_append.mpr ⟨all, List.forall_mem_singleton.mpr inPaths.slash⟩

/-- What holds of everything that is written into a path holds after one more segment, of which only the
colon of a drive is not encoded. -/
theorem InPaths.addSegment (inPaths : InPaths holds) (kind : SchemeKind) (segment : List Char)
    (slash : Bool) (all : ∀ c ∈ path, holds c) : ∀ c ∈ addSegment kind path segment slash, holds c := by
  obtain ⟨front, shown, fronts, shows, added⟩ := addSegment_eq kind path segment slash
  have ended {path : List Char} (all : ∀ c ∈ path, holds c) : ∀ c ∈ path ++ ['/'], holds c :=
    List.forall_mem_append.mpr ⟨all, List.forall_mem_singleton.mpr inPaths.slash⟩
  have all : ∀ c ∈ front, holds c := by
    rcases fronts with rfl | ⟨rfl, -⟩
    · exact all
    · exact ended all
  have back : ∀ c ∈ pop kind (dropLastSlash front), holds c := fun c inside =>
    all c ((dropLastSlash_start front).subset ((pop_start kind _).subset inside))
  have written : ∀ c ∈ shown, holds c := by
    intro c inside
    rcases shows c inside with rfl | inside
    · exact inPaths.colon
    · exact inPaths.encoded segment c inside
  rw [added]
  split
  · split
    · exact inPaths.endSlash back
    · exact back
  · split
    · exact inPaths.endSlash all
    · refine List.forall_mem_append.mpr ⟨all, ?_⟩
      split
      · exact ended written
      · rw [List.append_nil]
        exact written

/-- The same for all segments of a text, by induction on the text as it is read. -/
theorem InPaths.readSegments (inPaths : InPaths holds) (kind : SchemeKind) (context : Context)
    (segment : List Char) (noHost : Bool) (text : List Char) (all : ∀ c ∈ path, holds c) :
    ∀ c ∈ (readSegments kind context path segment noHost text).path, holds c := by
  induction text generalizing path segment noHost with
  | nil => exact inPaths.addSegment kind _ _ all
  | cons c rest ih =>
    unfold Path.readSegments
    split
    · exact ih _ _ (inPaths.addSegment kind _ _ all)
    · split
      · exact inPaths.addSegment kind _ _ all
      · exact ih _ _ all

end

/-- A path that is read onto one with a slash in front has it in front. -/
theorem readSegments_head (kind : SchemeKind) (context : Context) (segment : List Char)
    (noHost : Bool) (text : List Char) (starts : path.head? = some '/') :
    (readSegments kind context path segment noHost text).path.head? = some '/' := by
  induction text generalizing path segment noHost with
  | nil => exact addSegment_head kind _ _ starts
  | cons c rest ih =>
    unfold readSegments
    split
    · exact ih _ _ (addSegment_head kind _ _ starts)
    · split
      · exact addSegment_head kind _ _ starts
      · exact ih _ _ starts

/-- What has a slash at its end is read as a path that has one. -/
theorem readSegments_ends (kind : SchemeKind) (path segment : List Char) (noHost : Bool)
    (text : List Char) : (readSegments kind .alone path segment noHost (text ++ ['/'])).path.getLast? =
      some '/' := by
  induction text generalizing path segment noHost with
  | nil =>
    rw [List.nil_append, readSegments, if_pos (.inl rfl)]
    show (addSegment kind (addSegment kind path segment.reverse true) [] false).getLast? = _
    rw [addSegment_nil, if_neg Bool.false_ne_true, List.append_nil]
    exact addSegment_ends kind path _
  | cons c rest ih =>
    rw [List.cons_append, readSegments]
    split
    · exact ih _ _ _
    · split
      next mark => cases mark.2
      next => exact ih _ _ _

/-- The path of a directory. -/
structure IsDirectory (kind : SchemeKind) (path : List Char) : Prop where
  starts : path.head? = some '/'
  ends : path.getLast? = some '/'
  /-- The path of a file has one slash in front. -/
  single : kind = .file → (path.drop 1).head? ≠ some '/'

/-- The slashes in front of the path of a file are one slash. -/
theorem isDirectory_collapse (kind : SchemeKind) (ends : path.getLast? = some '/') :
    IsDirectory kind ('/' :: path.dropWhile (· = '/')) where
  starts := rfl
  ends := by
    obtain ⟨before, same⟩ := List.dropWhile_suffix (· = '/') (l := path)
    cases left : path.dropWhile (· = '/') with
    | nil => rfl
    | cons c rest =>
      have last : path.getLast? = (c :: rest).getLast? := by
        rw [← same, left, List.getLast?_append]
        exact Option.or_of_isSome (List.getLast?_isSome.mpr (List.cons_ne_nil c rest))
      rw [List.getLast?_cons_cons, ← last]
      exact ends
  single := fun _ slash => by
    have stopped := List.head?_dropWhile_not (· = '/') path
    rw [List.drop_one, List.tail_cons] at slash
    rw [slash] at stopped
    exact absurd stopped (by decide)

/-- A path with slashes at both ends is read as the path of a directory, without a mark in it. The cases are
those of a file, whose slashes in front are collapsed, and of other schemes. -/
theorem isDirectory_readStart (kind : SchemeKind) (afterHost : Bool) (rest : List Char)
    (ends : ('/' :: rest).getLast? = some '/') :
    IsDirectory kind (readStart kind .alone afterHost ('/' :: rest)).path ∧
      Unmarked (readStart kind .alone afterHost ('/' :: rest)).path := by
  have inside (noHost : Bool) :
      (readSegments kind .alone ['/'] [] noHost rest).path.head? = some '/' ∧
      (readSegments kind .alone ['/'] [] noHost rest).path.getLast? = some '/' ∧
      Unmarked (readSegments kind .alone ['/'] [] noHost rest).path := by
    refine ⟨readSegments_head kind _ _ _ _ rfl, ?_,
      inPaths_unmarked.readSegments kind _ _ _ _ (List.forall_mem_singleton.mpr rfl)⟩
    -- either nothing follows the first slash, or the rest ends in a slash of its own
    rcases List.eq_nil_or_concat rest with rfl | ⟨before, c, rfl⟩
    · show (addSegment kind ['/'] [] false).getLast? = some '/'
      rw [addSegment_nil]
      rfl
    · rw [List.concat_eq_append] at ends ⊢
      rw [← List.cons_append, List.getLast?_concat, Option.some.injEq] at ends
      subst ends
      exact readSegments_ends kind _ _ _ _
  have front (noHost : Bool) : readSegments kind .alone [] [] noHost ('/' :: rest) =
      readSegments kind .alone ['/'] [] (noHost || leavesNoHost kind [] []) rest := by
    rw [readSegments, if_pos (.inl rfl)]
    show readSegments kind .alone (addSegment kind [] [] true) [] _ rest = _
    rw [addSegment_nil]
    rfl
  have reads (start text : List Char) (noHost : Bool)
      (same : readSegments kind .alone start [] false text =
        readSegments kind .alone ['/'] [] noHost rest) :
      IsDirectory kind (read kind .alone start text).path ∧
        Unmarked (read kind .alone start text).path := by
    obtain ⟨starts, ends, unmarked⟩ := inside noHost
    unfold read
    rw [same]
    split
    next file =>
      refine ⟨isDirectory_collapse kind ends, fun c member => ?_⟩
      rcases List.mem_cons.mp member with rfl | member
      · rfl
      · exact unmarked c (List.dropWhile_sublist _ |>.subset member)
    next plain => exact ⟨⟨starts, ends, fun file => absurd file plain⟩, unmarked⟩
  -- whether the first slash was read with the host or not, the segments begin behind it
  unfold readStart
  split
  · split
    · exact reads ['/'] rest false rfl
    · exact reads [] ('/' :: rest) _ (front false)
  · exact reads [] ('/' :: rest) _ (front false)

end Path

namespace Url

/-! ## The text of the parts -/

/-- A text of one kind of characters ends where a character of another kind comes. -/
theorem span_append {kind : Char → Bool} {front : List Char} (rest : List Char)
    (inside : ∀ c ∈ front, kind c = true) (stops : ∀ c, rest.head? = some c → kind c = false) :
    (front ++ rest).takeWhile kind = front ∧ (front ++ rest).dropWhile kind = rest := by
  rw [List.takeWhile_append_of_pos inside, List.dropWhile_append_of_pos inside]
  cases rest with
  | nil => exact ⟨List.append_nil front, rfl⟩
  | cons c rest =>
    have stop : ¬ kind c = true := by
      rw [stops c rfl]
      exact Bool.false_ne_true
    exact ⟨by rw [List.takeWhile_cons_of_neg stop, List.append_nil], List.dropWhile_cons_of_neg stop⟩

/-- The text of a query and a fragment. -/
def tailText (query fragment : Option (List Char)) : List Char :=
  (match query with
    | some query => '?' :: query
    | none => []) ++
    (match fragment with
    | some fragment => '#' :: fragment
    | none => [])

/-- The text of the parts, with the query and the fragment taken together. -/
theorem Parts.text_eq (parts : Parts) : parts.text =
    parts.scheme ++ ':' :: (parts.hierarchy ++ tailText parts.query parts.fragment) := by
  simp only [Parts.text, List.append_assoc, List.cons_append]
  rfl

/-- The rest of a text from the first character that a path does not have. -/
theorem tailText_tailOf (text : List Char) :
    tailText (tailOf (text.dropWhile fun c => !endsPath c)).1
      (tailOf (text.dropWhile fun c => !endsPath c)).2 = text.dropWhile fun c => !endsPath c := by
  have stopped := List.head?_dropWhile_not (fun c => !endsPath c) text
  generalize text.dropWhile (fun c => !endsPath c) = rest at stopped ⊢
  cases rest with
  | nil => rfl
  | cons c rest =>
    rw [List.head?_cons] at stopped
    simp only [endsPath, Bool.not_eq_false', Bool.or_eq_true, decide_eq_true_eq] at stopped
    rcases stopped with rfl | rfl
    · have marked := List.head?_dropWhile_not (fun c => decide (c ≠ '#')) rest
      have whole := List.takeWhile_append_dropWhile (p := fun c => decide (c ≠ '#')) (l := rest)
      simp only [tailOf]
      cases left : rest.dropWhile (fun c => decide (c ≠ '#')) with
      | nil =>
        rw [left, List.append_nil] at whole
        simp only [tailText, whole, List.append_nil]
      | cons d fragment =>
        rw [left, List.head?_cons] at marked
        simp only [ne_eq, decide_not, Bool.not_eq_false', decide_eq_true_eq] at marked
        subst marked
        rw [left] at whole
        simp only [tailText, List.cons_append, whole]
    · rfl

/-- A query and a fragment come after the end of a path. -/
theorem head_tailText {query fragment : Option (List Char)} {c : Char}
    (head : (tailText query fragment).head? = some c) : endsPath c = true := by
  cases query with
  | some query =>
    cases head
    rfl
  | none =>
    cases fragment with
    | some fragment =>
      cases head
      rfl
    | none => cases head

/-- The query and the fragment are found again in what they show. -/
theorem tailOf_tailText {query fragment : Option (List Char)}
    (plain : ∀ text, query = some text → '#' ∉ text) :
    tailOf (tailText query fragment) = (query, fragment) := by
  cases query with
  | none => cases fragment <;> rfl
  | some query =>
    have inside : ∀ c ∈ query, decide (c ≠ '#') = true :=
      fun c member => decide_eq_true fun mark => plain query rfl (mark ▸ member)
    cases fragment with
    | none =>
      obtain ⟨front, back⟩ := span_append [] inside nofun
      simp only [tailText, List.cons_append, tailOf, front, back]
    | some fragment =>
      obtain ⟨front, back⟩ := span_append ('#' :: fragment) inside (by rintro c ⟨⟩; rfl)
      simp only [tailText, List.cons_append, tailOf, front, back]

/-- The authority after a scheme, if there is one, and what follows it. -/
def splitAuthority : List Char → Option (List Char) × List Char
  | '/' :: '/' :: rest =>
    (some (rest.takeWhile fun c => c ≠ '/' && !endsPath c),
      rest.dropWhile fun c => c ≠ '/' && !endsPath c)
  | '/' :: '.' :: '/' :: '/' :: rest => (none, '/' :: '/' :: rest)
  | rest => (none, rest)

/-- What a text with a scheme in front is taken apart into, in three steps: the authority, the path, and
what comes after it. -/
theorem ofText_eq {scheme : List Char} (plain : ':' ∉ scheme) (rest : List Char) :
    Parts.ofText (scheme ++ ':' :: rest) =
      ⟨scheme, (splitAuthority rest).1, (splitAuthority rest).2.takeWhile fun c => !endsPath c,
        (tailOf ((splitAuthority rest).2.dropWhile fun c => !endsPath c)).1,
        (tailOf ((splitAuthority rest).2.dropWhile fun c => !endsPath c)).2⟩ := by
  have passes : ∀ c ∈ scheme, decide (c ≠ ':') = true :=
    fun c member => decide_eq_true fun colon => plain (colon ▸ member)
  have front : (scheme ++ ':' :: rest).takeWhile (fun c => decide (c ≠ ':')) = scheme := by
    rw [List.takeWhile_append_of_pos passes, List.takeWhile_cons_of_neg (by decide), List.append_nil]
  have back : (scheme ++ ':' :: rest).dropWhile (fun c => decide (c ≠ ':')) = ':' :: rest := by
    rw [List.dropWhile_append_of_pos passes, List.dropWhile_cons_of_neg (by decide)]
  simp only [Parts.ofText, front, back, List.drop_one, List.tail_cons]
  split
  · rfl
  · rfl
  next other hidden => rw [splitAuthority.eq_3 _ other hidden]

/-- A text with a colon has a scheme in front: what comes before the first colon, which has none itself. -/
theorem exists_scheme {text : List Char} (colon : ':' ∈ text) :
    ∃ scheme rest, ':' ∉ scheme ∧ text = scheme ++ ':' :: rest := by
  induction text with
  | nil => cases colon
  | cons c text ih =>
    by_cases found : c = ':'
    · exact ⟨[], text, List.not_mem_nil, by rw [found, List.nil_append]⟩
    · obtain ⟨scheme, rest, plain, same⟩ :=
        ih ((List.mem_cons.mp colon).resolve_left fun here => found here.symm)
      refine ⟨c :: scheme, rest, fun inside => ?_, by rw [same, List.cons_append]⟩
      exact (List.mem_cons.mp inside).elim (fun here => found here.symm) plain

/-- What a text with a colon is taken apart into shows the text again. -/
theorem text_ofText {text : List Char} (colon : ':' ∈ text) : (Parts.ofText text).text = text := by
  obtain ⟨scheme, rest, plain, rfl⟩ := exists_scheme colon
  rw [ofText_eq plain, Parts.text_eq]
  simp only [tailText_tailOf]
  refine congrArg (fun rest => scheme ++ ':' :: rest) ?_
  unfold splitAuthority
  split
  next rest =>
    simp only [Parts.hierarchy, List.append_assoc, List.cons_append,
      List.takeWhile_append_dropWhile]
  next rest =>
    have passes : endsPath '/' = false := rfl
    simp only [Parts.hierarchy, List.takeWhile_cons, List.dropWhile_cons, passes, Bool.not_false,
      if_true, List.cons_append, List.takeWhile_append_dropWhile]
  next other hidden =>
    have whole := List.takeWhile_append_dropWhile (p := fun c => !endsPath c) (l := rest)
    dsimp only [Parts.hierarchy]
    split
    next tail start =>
      rw [start] at whole
      exact (other _ whole.symm).elim
    next => exact whole

/-! ## Directories -/

/-- A URL that names a directory and nothing in it. -/
structure IsDirectory (url : Url) : Prop where
  path : Path.IsDirectory (kindOf url.parts.scheme) url.parts.path
  query : url.parts.query = none
  fragment : url.parts.fragment = none
  shown : url.parts.text = url.text.toList

/-- A URL that names a directory, with a query and a fragment after it. -/
structure IsDirectoryWith (url : Url) (query fragment : Option (List Char)) : Prop where
  path : Path.IsDirectory (kindOf url.parts.scheme) url.parts.path
  query : url.parts.query = query
  fragment : url.parts.fragment = fragment
  shown : url.parts.text = url.text.toList

/-- A file is on a host, which may be this machine, and its path has one slash in front. -/
def HasSinglePath (url : Url) : Prop :=
  kindOf url.parts.scheme = .file →
    url.parts.authority.isSome ∧ (url.parts.path.drop 1).head? ≠ some '/'

/-- A URL that can be a base has a colon. Without one it would have no scheme, and then it could not be a
base. -/
theorem colon_of_base {url : Url} (base : url.cannotBeABase = false) : ':' ∈ url.text.toList := by
  by_contra plain
  have passes : ∀ c ∈ url.text.toList, decide (c ≠ ':') = true :=
    fun c member => decide_eq_true fun colon => plain (colon ▸ member)
  have rest : url.text.toList.dropWhile (fun c => decide (c ≠ ':')) = [] :=
    List.dropWhile_eq_nil_iff.mpr passes
  have hollow : url.parts.isOpaque = true := by
    unfold parts Parts.ofText
    rw [rest]
    rfl
  exact absurd (hollow.symm.trans base) (by decide)

/-- A scheme ends in front of the first colon, so it has none. -/
theorem colon_notMem_scheme (url : Url) : ':' ∉ url.parts.scheme := by
  intro inside
  have passed := List.mem_takeWhile_imp inside
  simp at passed

/-- An authority ends in front of a slash, and so does what no path has. -/
theorem authority_of_base {url : Url} (base : url.cannotBeABase = false) {authority : List Char}
    (has : url.parts.authority = some authority) :
    (∀ c ∈ authority, (c ≠ '/' && !endsPath c) = true) ∧
      (url.parts.path ≠ [] → url.parts.path.head? = some '/') := by
  obtain ⟨scheme, rest, plain, same⟩ := exists_scheme (colon_of_base base)
  unfold parts at has ⊢
  rw [same, ofText_eq plain] at has ⊢
  dsimp only at has ⊢
  unfold splitAuthority at has ⊢
  split at has
  next rest =>
    cases has
    refine ⟨fun c inside =>
      List.mem_takeWhile_imp (p := fun c => decide (c ≠ '/') && !endsPath c) inside, ?_⟩
    have stopped := List.head?_dropWhile_not (fun c => decide (c ≠ '/') && !endsPath c) rest
    dsimp only
    cases left : rest.dropWhile fun c => decide (c ≠ '/') && !endsPath c with
    | nil => exact fun some => absurd rfl some
    | cons c path =>
      rw [left, List.head?_cons] at stopped
      rw [List.takeWhile_cons]
      cases mark : endsPath c with
      | true => exact fun some => absurd rfl some
      | false =>
        simp only [mark, Bool.not_false, Bool.and_true, decide_eq_false_iff_not, not_not] at stopped
        subst stopped
        exact fun _ => rfl
  next => cases has
  next => cases has

/-- A path that is there starts with a slash. -/
theorem head_path {url : Url} (base : url.cannotBeABase = false) (some : url.parts.path ≠ []) :
    url.parts.path.head? = .some '/' := by
  cases has : url.parts.authority with
  | some authority => exact (authority_of_base base has).2 some
  | none =>
    unfold cannotBeABase Parts.isOpaque at base
    rw [has] at base
    simpa using base

/-- A path where no authority is in front of it. Two slashes at its start would be taken for those of an
authority, so a dot is put before them. -/
theorem hierarchy_of_none {parts : Parts} (authority : parts.authority = none) {c : Char} {rest : List Char}
    (path : parts.path = '/' :: c :: rest) :
    parts.hierarchy = if c = '/' then '/' :: '.' :: '/' :: c :: rest else '/' :: c :: rest := by
  unfold Parts.hierarchy
  rw [authority, path]
  by_cases double : c = '/'
  · subst double
    rfl
  · rw [if_neg double]
    dsimp only
    split
    next here =>
      cases here
      exact absurd rfl double
    next => rfl

/-- More of a path is shown after what the path shows, except if a slash alone would become two by it. -/
theorem hierarchy_append {parts : Parts} (starts : parts.path.head? = some '/') {more : List Char}
    (single : parts.path = ['/'] → more.head? ≠ some '/') :
    Parts.hierarchy { parts with path := parts.path ++ more } = parts.hierarchy ++ more := by
  obtain ⟨rest, same⟩ := List.head?_eq_some_iff.mp starts
  cases has : parts.authority with
  | some name => simp only [Parts.hierarchy, has, List.append_assoc, List.cons_append]
  | none =>
    cases rest with
    | nil =>
      cases more with
      | nil => simp only [Parts.hierarchy, has, List.append_nil]
      | cons c more =>
        have path : parts.path ++ c :: more = '/' :: c :: more := by rw [same]; rfl
        have other : ¬ c = '/' := fun slash => single same (congrArg some slash)
        rw [@hierarchy_of_none { parts with authority := none, path := _ } rfl _ _ path,
          if_neg other, Parts.hierarchy, has, same]
        rfl
    | cons c rest =>
      have path : parts.path ++ more = '/' :: c :: (rest ++ more) := by rw [same]; rfl
      rw [@hierarchy_of_none { parts with authority := none, path := _ } rfl _ _ path,
        hierarchy_of_none has same]
      split <;> rfl

/-- The path and the authority are found again in what they show. Only a path with a `.` in front may
be taken for the mark that keeps a path from reading as a host. -/
theorem splitAuthority_hierarchy {parts : Parts}
    (authority : ∀ authority, parts.authority = some authority →
      ∀ c ∈ authority, (c ≠ '/' && !endsPath c) = true)
    (starts : parts.path.head? = some '/') :
    splitAuthority parts.hierarchy = (parts.authority, parts.path) ∨
      ∃ rest, parts.authority = none ∧ parts.path = '/' :: '.' :: '/' :: '/' :: rest ∧
        splitAuthority parts.hierarchy = (none, '/' :: '/' :: rest) := by
  obtain ⟨rest, same⟩ : ∃ rest, parts.path = '/' :: rest := List.head?_eq_some_iff.mp starts
  cases has : parts.authority with
  | some name =>
    have passes := authority name has
    have front : ('/' :: rest).takeWhile (fun c => decide (c ≠ '/') && !endsPath c) = [] := rfl
    have back : ('/' :: rest).dropWhile (fun c => decide (c ≠ '/') && !endsPath c) = '/' :: rest :=
      rfl
    left
    simp only [Parts.hierarchy, has, same, List.cons_append, splitAuthority,
      List.takeWhile_append_of_pos passes, List.dropWhile_append_of_pos passes, front, back,
      List.append_nil]
  | none =>
    dsimp only [Parts.hierarchy]
    rw [has, same]
    dsimp only
    split
    next more double =>
      cases double
      exact .inl rfl
    next single =>
      have single : ∀ more, '/' :: rest = '/' :: '/' :: more → False :=
        fun more here => single more here
      by_cases marked : ∃ more, rest = '.' :: '/' :: '/' :: more
      · obtain ⟨more, rfl⟩ := marked
        exact .inr ⟨more, rfl, rfl, rfl⟩
      · have unmarked : ∀ more, '/' :: rest = '/' :: '.' :: '/' :: '/' :: more → False :=
          fun more here => marked ⟨more, List.tail_eq_of_cons_eq here⟩
        exact .inl (splitAuthority.eq_3 _ single unmarked)

/-- The parts are found again in what they show. Only a path with a `.` in front may be taken for the mark
that keeps a path from reading as a host. -/
theorem parts_ofParts {parts : Parts} (plain : ':' ∉ parts.scheme)
    (authority : ∀ authority, parts.authority = some authority →
      ∀ c ∈ authority, (c ≠ '/' && !endsPath c) = true)
    (starts : parts.path.head? = some '/') (unmarked : Path.Unmarked parts.path)
    (query : ∀ query, parts.query = some query → '#' ∉ query) :
    (ofParts parts).parts = parts ∨
      ∃ rest, parts.authority = none ∧ parts.path = '/' :: '.' :: '/' :: '/' :: rest ∧
        (ofParts parts).parts = { parts with path := '/' :: '/' :: rest } := by
  let tail := tailText parts.query parts.fragment
  let longer : Parts := { parts with path := parts.path ++ tail }
  have single : tail.head? ≠ some '/' := fun slash => absurd (head_tailText slash) (by decide)
  have shown : longer.hierarchy = parts.hierarchy ++ tail := hierarchy_append starts fun _ => single
  have passes {path : List Char} (unmarked : Path.Unmarked path) :
      (path ++ tail).takeWhile (fun c => !endsPath c) = path ∧
        (path ++ tail).dropWhile (fun c => !endsPath c) = tail :=
    span_append tail (fun c inside => by rw [unmarked c inside]; rfl)
      fun c head => by rw [head_tailText head]; rfl
  have tails : tailOf tail = (parts.query, parts.fragment) := tailOf_tailText query
  have found : (ofParts parts).parts = Parts.ofText (parts.scheme ++ ':' :: longer.hierarchy) := by
    rw [Url.parts, ofParts, String.toList_ofList, Parts.text_eq, shown]
  rw [ofText_eq plain] at found
  -- without an authority a path that begins with a dot and an empty segment is read without the dot
  rcases @splitAuthority_hierarchy longer authority (Path.head_append starts tail) with
    split | ⟨rest, none, same, split⟩
  · left
    rw [found, split]
    simp only [longer, passes unmarked, tails]
  · right
    have path : parts.path = '/' :: '.' :: '/' :: '/' :: rest.takeWhile fun c => !endsPath c := by
      have cut := congrArg (List.takeWhile fun c => !endsPath c) same
      rw [(passes unmarked).1] at cut
      exact cut
    have more : '/' :: '/' :: rest = ('/' :: '/' :: rest.takeWhile fun c => !endsPath c) ++ tail := by
      have whole : parts.path ++ tail = '/' :: '.' :: '/' :: '/' :: rest := same
      rw [path] at whole
      exact (List.tail_eq_of_cons_eq (List.tail_eq_of_cons_eq whole)).symm
    have unmarked : Path.Unmarked ('/' :: '/' :: rest.takeWhile fun c => !endsPath c) := by
      rw [path] at unmarked
      exact fun c inside => unmarked c (List.mem_cons_of_mem _ (List.mem_cons_of_mem _ inside))
    refine ⟨_, none, path, ?_⟩
    rw [found, split, more]
    simp only [passes unmarked, tails]
    rw [← none]

/-- The scheme is found again in what shows the parts, whatever they are otherwise. -/
theorem scheme_ofParts {parts : Parts} (plain : ':' ∉ parts.scheme) :
    (ofParts parts).parts.scheme = parts.scheme := by
  rw [Url.parts, ofParts, String.toList_ofList, Parts.text_eq, ofText_eq plain]

/-- What shows the path of a directory at its end names a directory, with the query and the fragment that it
shows. -/
theorem isDirectoryWith_ofParts {parts : Parts} (plain : ':' ∉ parts.scheme)
    (authority : ∀ authority, parts.authority = some authority →
      ∀ c ∈ authority, (c ≠ '/' && !endsPath c) = true)
    (path : Path.IsDirectory (kindOf parts.scheme) parts.path) (unmarked : Path.Unmarked parts.path)
    (query : ∀ query, parts.query = some query → '#' ∉ query)
    (hosted : kindOf parts.scheme = .file → parts.authority.isSome) :
    (ofParts parts).IsDirectoryWith parts.query parts.fragment := by
  have scheme := scheme_ofParts plain
  have shown : (ofParts parts).parts.text = (ofParts parts).text.toList := by
    refine text_ofText ?_
    rw [ofParts, String.toList_ofList, Parts.text_eq]
    exact List.mem_append_right _ List.mem_cons_self
  rcases parts_ofParts plain authority path.starts unmarked query with found | ⟨rest, none, same, found⟩
  · refine ⟨?_, by rw [found], by rw [found], shown⟩
    rw [scheme, found]
    exact path
  · refine ⟨?_, by rw [found], by rw [found], shown⟩
    rw [scheme, found]
    have ends := path.ends
    rw [same] at ends
    refine ⟨rfl, ends, fun file => ?_⟩
    have some := hosted file
    rw [none] at some
    cases some

/-- A root as a directory has the scheme of the root. -/
theorem scheme_asDirectory (root : Url) : root.asDirectory.parts.scheme = root.parts.scheme := by
  unfold asDirectory
  split
  · rfl
  · exact scheme_ofParts (colon_notMem_scheme root)

/-- A query ends where the fragment comes, so the mark that begins the fragment is not in it. -/
theorem mark_notMem_query {url : Url} {query : List Char} (has : url.parts.query = some query) :
    '#' ∉ query := by
  have passed (text : List Char) (found : (tailOf text).1 = some query) : '#' ∉ query := by
    have inside (rest : List Char) : '#' ∉ rest.takeWhile fun c => decide (c ≠ '#') :=
      fun mark => absurd (List.mem_takeWhile_imp mark) (by decide)
    unfold tailOf at found
    split at found
    next rest =>
      dsimp only at found
      split at found
      · cases found
        exact inside rest
      · cases found
        exact inside rest
    next => cases found
    next => cases found
  exact passed _ has

/-- A URL gets the path of a directory. -/
theorem isDirectoryWith_replaced {root : Url} (base : root.cannotBeABase = false)
    (single : root.HasSinglePath) {path : List Char}
    (directory : Path.IsDirectory (kindOf root.parts.scheme) path) (unmarked : Path.Unmarked path) :
    (ofParts { root.parts with path }).IsDirectoryWith root.parts.query root.parts.fragment :=
  @isDirectoryWith_ofParts { root.parts with path } (colon_notMem_scheme root)
    (fun _ has => (authority_of_base base has).1) directory unmarked
    (fun _ has => mark_notMem_query has) fun file => (single file).1

/-- A root as a directory: what comes after its path stays where it is. -/
theorem isDirectoryWith_asDirectory {root : Url} (base : root.cannotBeABase = false)
    (single : root.HasSinglePath) :
    root.asDirectory.IsDirectoryWith root.parts.query root.parts.fragment := by
  unfold asDirectory
  split
  next kept =>
    have ends : root.parts.path.getLast? = some '/' := by
      simpa only [base, Bool.false_eq_true, false_or, Url.path] using kept
    have some : root.parts.path ≠ [] := by
      intro none
      rw [none] at ends
      cases ends
    exact ⟨⟨head_path base some, ends, fun file => (single file).2⟩, rfl, rfl,
      text_ofText (colon_of_base base)⟩
  next added =>
    obtain ⟨rest, slashed⟩ : ∃ rest, root.path ++ ['/'] = '/' :: rest := by
      by_cases some : root.path = []
      · exact ⟨[], by rw [some]; rfl⟩
      · obtain ⟨rest, same⟩ := List.head?_eq_some_iff.mp (head_path base some)
        exact ⟨rest ++ ['/'], by rw [Url.path, same]; rfl⟩
    have last : ('/' :: rest).getLast? = some '/' := by
      rw [← slashed, List.getLast?_concat]
    have read (afterHost : Bool) :=
      Path.isDirectory_readStart (kindOf root.parts.scheme) afterHost rest last
    unfold withPath
    rw [slashed]
    exact isDirectoryWith_replaced base single (read _).1 (read _).2

/-- The URL of a directory, if nothing comes after the path of the URL. -/
theorem isDirectory_asDirectory {root : Url} (base : root.cannotBeABase = false)
    (query : root.parts.query = none) (fragment : root.parts.fragment = none)
    (single : root.HasSinglePath) : root.asDirectory.IsDirectory := by
  obtain ⟨path, query', fragment', shown⟩ := isDirectoryWith_asDirectory base single
  exact ⟨path, query'.trans query, fragment'.trans fragment, shown⟩

end Url

end LanguageClient
