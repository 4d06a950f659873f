import LanguageClient.Proofs.Scoping.Within

/-!
# Names in a directory

A plain name that is read relative to a directory comes after the directory's path as it is
(`Url.join_name`). A query and a fragment of the directory are left out, so the name does not come after
the text of the directory where it has one of them (`Url.not_start_of_tail`).
-/

namespace LanguageClient

namespace Percent

variable {set : Char → Bool} {text : List Char}

/-- A text is encoded as itself if nothing in it has to be encoded. -/
theorem encode_eq_self (plain : ∀ c ∈ text, set c = false) : encode set text = text := by
  induction text with
  | nil => rfl
  | cons c text ih =>
    have itself : encodeChar set c = [c] := by
      rw [encodeChar, plain c List.mem_cons_self, if_neg Bool.false_ne_true]
    rw [encode, List.flatMap_cons, itself]
    exact congrArg (c :: ·) (ih fun d member => plain d (List.mem_cons_of_mem _ member))

end Percent

namespace Path

variable {kind : SchemeKind} {path name : List Char}

/-- A segment that every path shows as it is. -/
structure IsName (name : List Char) : Prop where
  some : name ≠ []
  plain : ∀ c ∈ name, Percent.path c = false
  whole : ∀ c ∈ name, c ≠ '/' ∧ c ≠ '\\' ∧ c ≠ ':' ∧ c ≠ '|'
  other : isParent name = false ∧ isSelf name = false

/-- What may come in a name neither ends a path nor is a blank. -/
theorem solid_of_plain {c : Char} (plain : Percent.path c = false) :
    32 < c.toNat ∧ c ≠ '?' ∧ c ≠ '#' := by
  simp only [Percent.path, Percent.fragment, Percent.control, Bool.or_eq_false_iff,
    decide_eq_false_iff_not] at plain
  obtain ⟨⟨⟨⟨⟨⟨⟨⟨⟨⟨low, -⟩, blank⟩, -⟩, -⟩, -⟩, -⟩, hash⟩, query⟩, -⟩, -⟩ := plain
  have other : c.toNat ≠ 32 := fun same => blank (Char.toNat_inj.mp same)
  exact ⟨by omega, query, hash⟩

/-- What has neither a colon nor a bar in it does not start with a drive. -/
theorem startsWithDrive_of_plain {segment : List Char}
    (whole : ∀ c ∈ segment, c ≠ ':' ∧ c ≠ '|') : startsWithDrive segment = false := by
  unfold startsWithDrive
  split
  next c d =>
    have plain := whole d (by simp)
    simp only [plain, decide_false, Bool.or_self, Bool.and_false]
  next c d e rest =>
    have plain := whole d (by simp)
    simp only [plain, decide_false, Bool.or_self, Bool.and_false, Bool.false_and]
  next => rfl

/-- Nor does the start of a name. -/
theorem IsName.startsWithDrive_take (isName : IsName name) (count : Nat) :
    startsWithDrive (name.take count) = false :=
  startsWithDrive_of_plain fun c member => (isName.whole c (List.mem_of_mem_take member)).2.2

/-- A name is no drive. -/
theorem IsName.isDrive (isName : IsName name) : isDrive name = false := by
  have drive := startsWithDrive_of_plain fun c member => (isName.whole c member).2.2
  rw [Path.isDrive, drive, Bool.and_false]

/-- A name comes after a path with a slash at its end. -/
theorem addSegment_name (kind : SchemeKind) (ends : path.getLast? = some '/') (isName : IsName name) :
    addSegment kind path name false = path ++ name := by
  have written : Percent.encode Percent.path name = name := Percent.encode_eq_self isName.plain
  simp only [addSegment, written, isNormalDrive_of_ends ends, isName.other, isName.isDrive,
    Bool.false_eq_true, and_false, if_false, List.append_nil]

/-- A text without a slash is one segment, which is added to what was read of the segment before. -/
theorem readSegments_plain (kind : SchemeKind) (context : Context) (path segment : List Char)
    (noHost : Bool) (plain : ∀ c ∈ name, c ≠ '/' ∧ c ≠ '\\' ∧ c ≠ '?' ∧ c ≠ '#') :
    (readSegments kind context path segment noHost name).path =
        addSegment kind path (segment.reverse ++ name) false ∧
      (readSegments kind context path segment noHost name).rest = [] := by
  induction name generalizing segment with
  | nil => exact ⟨by rw [List.append_nil]; rfl, rfl⟩
  | cons c name ih =>
    have inside := plain c List.mem_cons_self
    have step := ih (c :: segment) fun d member => plain d (List.mem_cons_of_mem _ member)
    rw [List.reverse_cons, List.append_assoc, List.singleton_append] at step
    simpa only [readSegments, inside, false_and, or_self, if_false] using step

/-- A name is read onto the path of a directory: it is a single segment, none of those that go up or stay,
and it is put behind the last slash as it is. -/
theorem read_name (isDirectory : IsDirectory kind path) (isName : IsName name) :
    (read kind .url path name).path = path ++ name ∧ (read kind .url path name).rest = [] := by
  have plain (c : Char) (member : c ∈ name) : c ≠ '/' ∧ c ≠ '\\' ∧ c ≠ '?' ∧ c ≠ '#' := by
    have whole := isName.whole c member
    exact ⟨whole.1, whole.2.1, (solid_of_plain (isName.plain c member)).2⟩
  obtain ⟨added, rest⟩ := readSegments_plain kind .url path [] false plain
  rw [List.reverse_nil, List.nil_append, addSegment_name kind isDirectory.ends isName] at added
  unfold read
  split
  next file =>
    refine ⟨?_, rest⟩
    obtain ⟨more, slash⟩ := List.head?_eq_some_iff.mp isDirectory.starts
    have single := isDirectory.single file
    rw [slash, List.drop_one, List.tail_cons] at single
    have stops : ∀ c, (more ++ name).head? = some c → decide (c = '/') = false := by
      intro c head
      refine decide_eq_false ?_
      rintro rfl
      cases more with
      | nil => exact (isName.whole '/' (List.mem_of_head? head)).1 rfl
      | cons => exact single head
    have inside : ∀ c ∈ ['/'], decide (c = '/') = true := List.forall_mem_singleton.mpr rfl
    dsimp only
    rw [added, slash, List.cons_append]
    exact congrArg ('/' :: ·) (Url.span_append _ inside stops).2
  next => exact ⟨added, rest⟩

end Path

namespace Url

open LanguageClient.Path (IsName)

variable {directory : Url} {query fragment : Option (List Char)} {name : List Char}

/-- What has no blank in it stays in front, whatever becomes of the rest. -/
theorem clean_append {front : List Char} (some : front ≠ []) (solid : ∀ c ∈ front, 32 < c.toNat)
    (rest : List Char) : ∃ more, clean (front ++ rest) = front ++ more ∧ (rest = [] → more = []) := by
  let blank (c : Char) : Bool := c.toNat ≤ 32
  have stays {text : List Char} (some : text ≠ []) (solid : ∀ c ∈ text, 32 < c.toNat)
      (more : List Char) : (text ++ more).dropWhile blank = text ++ more := by
    obtain ⟨c, text, rfl⟩ := List.exists_cons_of_ne_nil some
    refine List.dropWhile_cons_of_neg ?_
    have here := solid c List.mem_cons_self
    rw [decide_eq_true_eq]
    omega
  have back : (rest.reverse ++ front.reverse).dropWhile blank =
      rest.reverse.dropWhile blank ++ front.reverse := by
    have front := stays (List.reverse_ne_nil_iff.mpr some)
      (fun c member => solid c (List.mem_reverse.mp member)) []
    rw [List.append_nil] at front
    rw [List.dropWhile_append]
    split
    next none => rw [List.isEmpty_iff.mp none, List.nil_append, front]
    next => rfl
  have kept : ∀ c ∈ front, (!(c = '\t' || c = '\n' || c = '\r')) = true := by
    intro c member
    have here := solid c member
    have other (d : Char) (low : d.toNat ≤ 32) : c ≠ d := by
      rintro rfl
      omega
    simp only [other '\t' (by decide), other '\n' (by decide), other '\r' (by decide), decide_false,
      Bool.or_self, Bool.not_false]
  refine ⟨(rest.reverse.dropWhile blank).reverse.filter
    fun c => !(c = '\t' || c = '\n' || c = '\r'), ?_, ?_⟩
  · simp only [clean]
    rw [stays some solid, List.reverse_append, back, List.reverse_append, List.reverse_reverse,
      List.filter_append, List.filter_eq_self.mpr kept]
  · rintro rfl
    rfl

/-- A text without a blank is read as it is: there is nothing to trim or to drop. -/
theorem clean_eq_self {text : List Char} (solid : ∀ c ∈ text, 32 < c.toNat) : clean text = text := by
  by_cases some : text = []
  · rw [some]
    rfl
  · obtain ⟨more, cleaned, none⟩ := clean_append some solid []
    rw [none rfl, List.append_nil] at cleaned
    exact cleaned

/-- A text without a colon has no scheme in front, so it is read relative to its base. -/
theorem readScheme?_eq_none {text : List Char} (plain : ':' ∉ text) : readScheme? text = none := by
  cases text with
  | nil => rfl
  | cons c text =>
    simp only [readScheme?]
    split
    · split
      next rest colon =>
        have inside : ':' ∈ (c :: text).dropWhile inScheme := by
          rw [colon]
          exact List.mem_cons_self
        exact absurd ((List.dropWhile_sublist _).subset inside) plain
      next => rfl
    · rfl

/-- The text of the parts up to the end of the path. -/
def Parts.front (parts : Parts) : List Char := parts.scheme ++ ':' :: parts.hierarchy

/-- The text of the parts is their front, which is what comes up to the end of the path, and their tail. -/
theorem Parts.text_eq_front (parts : Parts) :
    parts.text = parts.front ++ tailText parts.query parts.fragment := by
  rw [Parts.text_eq, Parts.front, List.append_assoc, List.cons_append]

/-- The text of a directory ends with its query and its fragment. -/
theorem IsDirectoryWith.text_eq (isDirectory : directory.IsDirectoryWith query fragment) :
    directory.text.toList = directory.parts.front ++ tailText query fragment := by
  rw [← isDirectory.shown, Parts.text_eq_front, isDirectory.query, isDirectory.fragment]

/-- A directory can be a base, as its path starts with a slash. -/
theorem IsDirectoryWith.base (isDirectory : directory.IsDirectoryWith query fragment) :
    directory.cannotBeABase = false := by
  unfold cannotBeABase Parts.isOpaque
  rw [isDirectory.path.starts]
  simp

/-- The parts of a directory with a name in it. -/
def Parts.withName (parts : Parts) (name : List Char) : Parts :=
  { parts with path := parts.path ++ name, query := none, fragment := none }

/-- A directory with a name in it is shown by its front and the name, without its tail. -/
theorem Parts.text_withName {parts : Parts} (starts : parts.path.head? = some '/')
    (isName : IsName name) : (parts.withName name).text = parts.front ++ name := by
  have single : name.head? ≠ some '/' := fun slash =>
    (isName.whole '/' (List.mem_of_head? slash)).1 rfl
  have longer : (parts.withName name).hierarchy = parts.hierarchy ++ name :=
    hierarchy_append starts fun _ => single
  rw [Parts.text_eq_front, Parts.front, longer, Parts.front]
  simp only [Parts.withName, tailText, List.append_nil, List.append_assoc, List.cons_append]

/-- A name that is read as a path relative to a directory is put behind the path of the directory. -/
theorem withPath_name {parts : Parts} (path : Path.IsDirectory (kindOf parts.scheme) parts.path)
    (isName : IsName name) : parts.withPath parts.path name = parts.withName name := by
  obtain ⟨added, rest⟩ := Path.read_name path isName
  have none' (kind : SchemeKind) : readTail kind [] = (none, none) := rfl
  simp only [Parts.withPath, added, rest, none', Parts.withName]

/-- A name is read in a directory. It has no scheme, starts with no slash and no drive, and so comes to the
path in the end. -/
theorem read_name {parts : Parts} (path : Path.IsDirectory (kindOf parts.scheme) parts.path)
    (isName : IsName name) : Parts.read (some parts) name = .ok (parts.withName name) := by
  have solid (c : Char) (member : c ∈ name) := Path.solid_of_plain (isName.plain c member)
  have colon : ':' ∉ name := fun member => (isName.whole ':' member).2.2.1 rfl
  have based : parts.isOpaque = false := by
    unfold Parts.isOpaque
    rw [path.starts]
    simp
  obtain ⟨c, rest, rfl⟩ := List.exists_cons_of_ne_nil isName.some
  have whole := isName.whole c List.mem_cons_self
  have marks := (solid c List.mem_cons_self).2
  have relative : (c :: rest).head? ≠ some '/' ∧ (c :: rest).head? ≠ some '\\' :=
    ⟨fun slash => whole.1 (Option.some.inj slash), fun slash => whole.2.1 (Option.some.inj slash)⟩
  have tail : parts.withTail? (c :: rest) = none := by
    unfold Parts.withTail?
    dsimp only
    split
    next here => cases here
    next here => exact absurd (List.head_eq_of_cons_eq here) marks.1
    next here => exact absurd (List.head_eq_of_cons_eq here) marks.2
    next => rfl
  simp only [Parts.read, clean_eq_self fun c member => (solid c member).1, readScheme?_eq_none colon]
  split
  next here => exact absurd (List.head_eq_of_cons_eq here) marks.2
  next =>
    rw [based, if_neg Bool.false_ne_true, ← withPath_name path isName]
    split
    next file =>
      rw [readFile_relative relative]
      simp only [readFile.noSlash, tail, startsWithDriveSegment, isName.startsWithDrive_take,
        Bool.false_eq_true, if_false, Path.pop_of_ends .file path.ends]
    next => exact readRelative_relative relative tail path

/-- A name in a directory comes after the directory's path. -/
theorem join_name (isDirectory : directory.IsDirectoryWith query fragment) {name : String}
    (isName : IsName name.toList) :
    directory.join name = .ok ⟨String.ofList (directory.parts.front ++ name.toList)⟩ := by
  rw [join, read_name isDirectory.path isName, Except.map, ofParts,
    Parts.text_withName isDirectory.path.starts isName]

/-- What is named in a directory has neither a query nor a fragment. -/
theorem tail_of_name (isDirectory : directory.IsDirectoryWith query fragment)
    (isName : IsName name) :
    (Url.parts ⟨String.ofList (directory.parts.front ++ name)⟩).query = none ∧
      (Url.parts ⟨String.ofList (directory.parts.front ++ name)⟩).fragment = none := by
  have unmarked : Path.Unmarked (directory.parts.path ++ name) := by
    refine Path.Unmarked.append (fun c inside => ?_) fun c inside => ?_
    · simpa using List.mem_takeWhile_imp inside
    · have marks := (Path.solid_of_plain (isName.plain c inside)).2
      simp only [endsPath, marks, decide_false, Bool.or_self]
  have found := @parts_ofParts (directory.parts.withName name) (colon_notMem_scheme directory)
    (fun _ has => (authority_of_base isDirectory.base has).1)
    (Path.head_append isDirectory.path.starts name) unmarked (by rintro query ⟨⟩)
  rw [ofParts, Parts.text_withName isDirectory.path.starts isName] at found
  rcases found with found | ⟨rest, -, -, found⟩
  · rw [found]
    exact ⟨rfl, rfl⟩
  · rw [found]
    exact ⟨rfl, rfl⟩

/-- What is named in a directory does not come after a query or a fragment of the directory. -/
theorem not_start_of_tail {front tail : List Char} (isName : IsName name) (tail' : tail ≠ [])
    (marked : ∀ c, tail.head? = some c → endsPath c = true) : ¬ front ++ tail <+: front ++ name := by
  intro start
  obtain ⟨c, rest, rfl⟩ := List.exists_cons_of_ne_nil tail'
  have inside : c ∈ name := ((List.prefix_append_right_inj front).mp start).subset List.mem_cons_self
  have marks := (Path.solid_of_plain (isName.plain c inside)).2
  have mark := marked c rfl
  simp only [endsPath, marks, decide_false, Bool.or_self, Bool.false_eq_true] at mark

end Url

end LanguageClient
