import LanguageClient.Url

/-!
# Reading segments below a directory

A path that is read onto that of a directory is the directory's with one segment after another
(`readSegments_path`). It stays below the directory as long as no segment `..` goes beyond what was
read before: `depth?` counts how many segments there are to go back at least, and `Below` is what
every segment keeps. That a segment that names a drive is never taken away only helps.
-/

namespace LanguageClient

namespace Path

variable {kind : SchemeKind} {base path segment name : List Char} {depth : Nat}

/-! ## Segments -/

/-- Whether a segment ends at the character. -/
def endsSegment (kind : SchemeKind) (c : Char) : Bool := c = '/' || (c = '\\' && kind.special)

/-- What of a text is read as a path. -/
def visible : Context → List Char → List Char
  | .url, text => text.takeWhile fun c => !(c = '?' || c = '#')
  | .alone, text => text

/-- The path after several segments, of which the last has no slash after it. -/
def addSegments (kind : SchemeKind) (path : List Char) : List (List Char) → List Char
  | [] => path
  | [last] => addSegment kind path last false
  | segment :: rest => addSegments kind (addSegment kind path segment true) rest

/-- A segment that another one follows has a slash after it. -/
theorem addSegments_cons {rest : List (List Char)} (more : rest ≠ []) :
    addSegments kind path (segment :: rest) =
      addSegments kind (addSegment kind path segment true) rest := by
  cases rest with
  | nil => exact absurd rfl more
  | cons => rfl

/-- What is read onto a path is the path with the segments of the text, of which the first goes on from what
was read before. By induction on the text as it is read. -/
theorem readSegments_path (kind : SchemeKind) (context : Context) (path segment : List Char)
    (noHost : Bool) (text : List Char) :
    (readSegments kind context path segment noHost text).path =
      addSegments kind path
        (List.splitOnPPrepend (endsSegment kind) (visible context text) segment) := by
  induction text generalizing path segment noHost with
  | nil => cases context <;> rfl
  | cons c rest ih =>
    by_cases slash : c = '/' ∨ (c = '\\' ∧ kind.special)
    · have ends : endsSegment kind c = true := by
        simpa only [endsSegment, Bool.or_eq_true, Bool.and_eq_true, decide_eq_true_eq] using slash
      have seen : visible context (c :: rest) = c :: visible context rest := by
        cases context with
        | alone => rfl
        | url => obtain rfl | ⟨rfl, -⟩ := slash <;> rfl
      rw [seen, List.splitOnPPrepend.eq_2, if_pos ends,
        addSegments_cons (List.splitOnPPrepend_ne_nil _ _ _), ← ih, readSegments, if_pos slash]
    · have goes : endsSegment kind c = false := by
        simpa only [endsSegment, Bool.or_eq_false_iff, Bool.and_eq_false_imp, decide_eq_true_eq,
          decide_eq_false_iff_not, not_or, not_and, Bool.not_eq_true] using slash
      by_cases stops : (c = '?' ∨ c = '#') ∧ context = .url
      · obtain ⟨mark, rfl⟩ := stops
        have unseen : visible .url (c :: rest) = [] := by
          obtain rfl | rfl := mark <;> rfl
        rw [unseen, List.splitOnPPrepend.eq_1, readSegments, if_neg slash, if_pos ⟨mark, rfl⟩]
        rfl
      · have seen : visible context (c :: rest) = c :: visible context rest := by
          cases context with
          | alone => rfl
          | url =>
            have inside : ¬ (c = '?' ∨ c = '#') := fun mark => stops ⟨mark, rfl⟩
            simp only [not_or] at inside
            simp only [visible, List.takeWhile_cons, inside.1, inside.2, decide_false, Bool.or_self,
              Bool.not_false, if_true]
        rw [seen, List.splitOnPPrepend.eq_2, goes, if_neg Bool.false_ne_true, ← ih, readSegments,
          if_neg slash, if_neg stops]

/-- No segment has a slash in it, since a text is split at each of them. The induction follows the
splitting, with the segment that is under way. -/
theorem slash_notMem_of_split {text segments : List Char} {segment : List Char}
    (clean : '/' ∉ segment)
    (member : segments ∈ List.splitOnPPrepend (endsSegment kind) text segment) : '/' ∉ segments := by
  induction text generalizing segment with
  | nil =>
    rw [List.splitOnPPrepend.eq_1, List.mem_singleton] at member
    rw [member, List.mem_reverse]
    exact clean
  | cons c rest ih =>
    rw [List.splitOnPPrepend.eq_2] at member
    split at member
    next =>
      rcases List.mem_cons.mp member with rfl | later
      · rw [List.mem_reverse]
        exact clean
      · exact ih List.not_mem_nil later
    next goes =>
      refine ih (fun inside => ?_) member
      rcases List.mem_cons.mp inside with rfl | inside
      · exact goes rfl
      · exact clean inside

/-! ## Encoding -/

/-- What is encoded is a percent sign, a digit, or a character that stands for itself. -/
theorem mem_encode {set : Char → Bool} {text : List Char} {c : Char}
    (inside : c ∈ Percent.encode set text) :
    (c ∈ text ∧ set c = false) ∨ c = '%' ∨ ∃ n : Fin 16, c = Percent.digit n.val := by
  obtain ⟨d, member, inside⟩ := List.mem_flatMap.mp inside
  unfold Percent.encodeChar at inside
  split at inside
  next =>
    obtain ⟨byte, -, inside⟩ := List.mem_flatMap.mp inside
    have small := byte.toNat_lt
    simp only [Percent.byte, List.mem_cons, List.not_mem_nil, or_false] at inside
    rcases inside with sign | high | low
    · exact .inr (.inl sign)
    · exact .inr (.inr ⟨⟨byte.toNat / 16, by omega⟩, high⟩)
    · exact .inr (.inr ⟨⟨byte.toNat % 16, by omega⟩, low⟩)
  next itself =>
    rw [List.mem_singleton] at inside
    subst inside
    exact .inl ⟨member, Bool.not_eq_true _ ▸ itself⟩

/-- No digit ends a segment or a path. -/
theorem digit_ne_mark : ∀ n : Fin 16, Percent.digit n.val ≠ '/' ∧ Percent.digit n.val ≠ '?' ∧
    Percent.digit n.val ≠ '#' := by
  decide

/-- A text without a slash is encoded without one. -/
theorem slash_notMem_encode {set : Char → Bool} {text : List Char} (clean : '/' ∉ text) :
    '/' ∉ Percent.encode set text := by
  intro inside
  rcases mem_encode inside with ⟨member, -⟩ | sign | ⟨n, digit⟩
  · exact clean member
  · exact absurd sign (by decide)
  · exact (digit_ne_mark n).1 digit.symm

/-! ## One segment -/

/-- What a segment does to a path: it goes back, or stays, or is added as it is shown. A path that is
a drive alone gets the slash that it lacks. -/
theorem addSegment_eq (kind : SchemeKind) (path segment : List Char) (slash : Bool) :
    ∃ front shown, (front = path ∨ front = path ++ ['/'] ∧ isNormalDrive (path.drop 1) = true) ∧
      (∀ c ∈ shown, c = ':' ∨ c ∈ Percent.encode Percent.path segment) ∧
      addSegment kind path segment slash =
        if isParent (Percent.encode Percent.path segment) then
          if slash then endSlash (pop kind (dropLastSlash front))
          else pop kind (dropLastSlash front)
        else if isSelf (Percent.encode Percent.path segment) then endSlash front
        else front ++ (shown ++ if slash then ['/'] else []) := by
  have drive (c : Char) (inside : c ∈ (Percent.encode Percent.path segment).take 1 ++ [':']) :
      c = ':' ∨ c ∈ Percent.encode Percent.path segment := by
    rcases List.mem_append.mp inside with written | colon
    · exact .inr (List.mem_of_mem_take written)
    · exact .inl (List.mem_singleton.mp colon)
  unfold addSegment
  split
  next alone =>
    refine ⟨path ++ ['/'], Percent.encode Percent.path segment, .inr ⟨rfl, alone.2.2⟩,
      fun c inside => .inr inside, ?_⟩
    simp only [Bool.false_eq_true, false_and, and_false, if_false, List.append_assoc]
  next =>
    refine ⟨path, if kind = .file ∧ path.length = 1 ∧ isDrive (Percent.encode Percent.path segment)
      then (Percent.encode Percent.path segment).take 1 ++ [':']
      else Percent.encode Percent.path segment, .inl rfl, fun c inside => ?_, ?_⟩
    · split at inside
      · exact drive c inside
      · exact .inr inside
    · simp only [decide_eq_true_eq, List.append_assoc]

/-! ## Going back -/

/-- The last slash of a directory with a name in it is that of the directory. -/
theorem uptoLastSlash_append (ends : base.getLast? = some '/') (clean : '/' ∉ name) :
    uptoLastSlash (base ++ name) = base := by
  have skipped : (base.reverse.dropWhile (· ≠ '/')) = base.reverse := by
    obtain ⟨before, rfl⟩ := List.getLast?_eq_some_iff.mp ends
    simp
  have passes : ∀ c ∈ name.reverse, decide (c ≠ '/') = true := by
    intro c member
    exact decide_eq_true fun slash => clean (slash ▸ List.mem_reverse.mp member)
  unfold uptoLastSlash
  rw [List.reverse_append, List.dropWhile_append_of_pos passes, skipped, List.reverse_reverse]

/-- What comes after that slash is the name, which has no slash of its own. -/
theorem afterLastSlash_append (ends : base.getLast? = some '/') (clean : '/' ∉ name) :
    afterLastSlash (base ++ name) = name := by
  have stopped : (base.reverse.takeWhile (· ≠ '/')) = [] := by
    obtain ⟨before, rfl⟩ := List.getLast?_eq_some_iff.mp ends
    simp
  have passes : ∀ c ∈ name.reverse, decide (c ≠ '/') = true := by
    intro c member
    exact decide_eq_true fun slash => clean (slash ▸ List.mem_reverse.mp member)
  unfold afterLastSlash
  rw [List.reverse_append, List.takeWhile_append_of_pos passes, stopped, List.append_nil,
    List.reverse_reverse]

/-- A path with a slash at its end has no segment to take away. -/
theorem pop_of_ends (kind : SchemeKind) (ends : path.getLast? = some '/') : pop kind path = path := by
  have upto := uptoLastSlash_append ends (List.not_mem_nil (a := '/'))
  have after := afterLastSlash_append ends (List.not_mem_nil (a := '/'))
  rw [List.append_nil] at upto after
  have none : isNormalDrive [] = false := rfl
  simp only [pop, after, none, Bool.false_eq_true, and_false, if_false, upto]

/-- A path with a slash at its end gets no other. -/
theorem endSlash_of_ends (ends : path.getLast? = some '/') : endSlash path = path := if_pos ends

/-- A segment that names a drive has a drive in front of the slash after it. -/
theorem startsWithDrive_of_isNormalDrive (drive : isNormalDrive name = true) :
    startsWithDrive (name ++ ['/']) = true := by
  simp only [isNormalDrive, isDrive, Bool.and_eq_true, decide_eq_true_eq] at drive
  obtain ⟨⟨two, starts⟩, -⟩ := drive
  match name, two, starts with
  | [c, d], _, starts =>
    simp only [startsWithDrive] at starts
    simp [startsWithDrive, starts]

/-- The last segment is taken away, or stays if it names a drive. -/
theorem pop_dropLastSlash (kind : SchemeKind) (ends : base.getLast? = some '/') (clean : '/' ∉ name) :
    pop kind (dropLastSlash (base ++ (name ++ ['/']))) = base ∨
      pop kind (dropLastSlash (base ++ (name ++ ['/']))) = base ++ (name ++ ['/']) := by
  have last : (base ++ (name ++ ['/'])).getLast? = some '/' := by simp
  have before : (base ++ (name ++ ['/'])).dropLast = base ++ name := by
    rw [← List.append_assoc, List.dropLast_concat]
  have some : base.isEmpty = false := by
    cases base with
    | nil => cases ends
    | cons => rfl
  have dropped : dropLastSlash (base ++ (name ++ ['/'])) =
      if startsWithDrive (name ++ ['/']) then base ++ (name ++ ['/']) else base ++ name := by
    unfold dropLastSlash
    rw [if_neg (not_not_intro last)]
    simp only [before, uptoLastSlash_append ends clean, some, Bool.false_eq_true, if_false,
      List.drop_left]
  cases drive : startsWithDrive (name ++ ['/']) with
  | true =>
    rw [dropped, if_pos drive, pop_of_ends kind last]
    exact .inr rfl
  | false =>
    have plain : isNormalDrive name = false := by
      cases normal : isNormalDrive name with
      | true => exact drive ▸ (startsWithDrive_of_isNormalDrive normal).symm
      | false => rfl
    rw [dropped, if_neg (by rw [drive]; exact Bool.false_ne_true)]
    have popped : pop kind (base ++ name) = base := by
      simp only [pop, afterLastSlash_append ends clean, plain, Bool.false_eq_true, and_false,
        if_false, uptoLastSlash_append ends clean]
    exact .inl popped

/-! ## Below a directory -/

/-- How far a path is below a directory at least, after one more segment; none if the segment may go
above the directory. -/
def depth? (depth : Nat) (segment : List Char) : Option Nat :=
  let written := Percent.encode Percent.path segment
  if isParent written then
    match depth with
    | 0 => none
    | depth + 1 => some depth
  else if isSelf written then some depth
  else some (depth + 1)

/-- A path that is at least so many segments below a directory. -/
def Below (base : List Char) (depth : Nat) (path : List Char) : Prop :=
  ∃ names : List (List Char), path = base ++ names.flatMap (fun name => name ++ ['/']) ∧
    depth ≤ names.length ∧ ∀ name ∈ names, '/' ∉ name

/-- A path is below itself, by no segment. -/
theorem Below.refl (base : List Char) : Below base 0 base :=
  ⟨[], by rw [List.flatMap_nil, List.append_nil], Nat.zero_le _, nofun⟩

/-- What is below a path goes on from it. -/
theorem Below.starts (below : Below base depth path) : base <+: path := by
  obtain ⟨names, rfl, -, -⟩ := below
  exact List.prefix_append base _

/-- What is below a path with a slash at its end has one at its end, after the last segment or as that path
itself. -/
theorem Below.ends (below : Below base depth path) (ends : base.getLast? = some '/') :
    path.getLast? = some '/' := by
  obtain ⟨names, rfl, -, -⟩ := below
  rcases List.eq_nil_or_concat names with rfl | ⟨before, name, rfl⟩
  · rw [List.flatMap_nil, List.append_nil]
    exact ends
  · rw [List.concat_eq_append, List.flatMap_append, List.flatMap_singleton]
    simp

/-- A segment more. The path is one level further below the base by that. -/
theorem Below.add (below : Below base depth path) (clean : '/' ∉ name) :
    Below base (depth + 1) (path ++ (name ++ ['/'])) := by
  obtain ⟨names, rfl, deep, cleans⟩ := below
  refine ⟨names ++ [name], ?_, ?_, ?_⟩
  · rw [List.flatMap_append, List.flatMap_singleton, List.append_assoc]
  · rw [List.length_append, List.length_singleton]
    exact Nat.succ_le_succ deep
  · intro other member
    rcases List.mem_append.mp member with member | member
    · exact cleans other member
    · exact List.mem_singleton.mp member ▸ clean

/-- A segment back. Below the base there is one to be taken off, so that the path does not leave the base.
-/
theorem Below.parent (kind : SchemeKind) (below : Below base (depth + 1) path)
    (ends : base.getLast? = some '/') :
    Below base depth (pop kind (dropLastSlash path)) := by
  obtain ⟨names, rfl, deep, cleans⟩ := below
  obtain ⟨names, name, rfl⟩ : ∃ before name, names = before ++ [name] := by
    rcases List.eq_nil_or_concat names with rfl | found
    · exact absurd deep (Nat.not_succ_le_zero depth)
    · simpa only [List.concat_eq_append] using found
  have deep : depth ≤ names.length := by
    rw [List.length_append, List.length_singleton] at deep
    exact Nat.le_of_succ_le_succ deep
  have before : Below base depth (base ++ names.flatMap fun name => name ++ ['/']) :=
    ⟨names, rfl, deep, fun other member => cleans other (List.mem_append_left _ member)⟩
  have clean : '/' ∉ name := cleans name (List.mem_append_right _ (List.mem_singleton_self name))
  have taken := pop_dropLastSlash kind (before.ends ends) clean
  rw [List.flatMap_append, List.flatMap_singleton, ← List.append_assoc]
  rcases taken with taken | taken
  · rw [taken]
    exact before
  · obtain ⟨names, same, deep, cleans⟩ := before.add clean
    rw [taken]
    exact ⟨names, same, Nat.le_of_succ_le deep, cleans⟩

/-- No drive is in front of a slash at the end. -/
theorem isNormalDrive_of_ends (ends : path.getLast? = some '/') :
    isNormalDrive (path.drop 1) = false := by
  cases normal : isNormalDrive (path.drop 1) with
  | false => rfl
  | true =>
    simp only [isNormalDrive, isDrive, Bool.and_eq_true, decide_eq_true_eq] at normal
    obtain ⟨⟨two, -⟩, colon⟩ := normal
    match path, two, ends, colon with
    | [_, _, _], _, ends, colon => exact absurd (ends.symm.trans colon) (by decide)

/-- What a segment does to a path with a slash at its end. -/
theorem addSegment_of_ends (kind : SchemeKind) (ends : path.getLast? = some '/')
    (clean : '/' ∉ segment) (slash : Bool) :
    ∃ shown, '/' ∉ shown ∧ addSegment kind path segment slash =
      if isParent (Percent.encode Percent.path segment) then
        if slash then endSlash (pop kind (dropLastSlash path)) else pop kind (dropLastSlash path)
      else if isSelf (Percent.encode Percent.path segment) then path
      else path ++ (shown ++ if slash then ['/'] else []) := by
  obtain ⟨front, shown, fronts, shows, added⟩ := addSegment_eq kind path segment slash
  have same : front = path := by
    refine fronts.resolve_right fun drive => ?_
    rw [isNormalDrive_of_ends ends] at drive
    exact Bool.false_ne_true drive.2
  subst same
  refine ⟨shown, fun inside => ?_, by rw [added, endSlash_of_ends ends]⟩
  rcases shows '/' inside with colon | written
  · exact absurd colon (by decide)
  · exact slash_notMem_encode clean written

/-- Every segment keeps a path below the directory, as far as it counts. -/
theorem addSegment_below (kind : SchemeKind) {deeper : Nat} (below : Below base depth path)
    (ends : base.getLast? = some '/') (clean : '/' ∉ segment)
    (counted : depth? depth segment = some deeper) :
    Below base deeper (addSegment kind path segment true) ∧
      base <+: addSegment kind path segment false := by
  obtain ⟨shown, keeps, added⟩ := addSegment_of_ends kind (below.ends ends) clean true
  obtain ⟨last, -, closed⟩ := addSegment_of_ends kind (below.ends ends) clean false
  rw [added, closed]
  unfold depth? at counted
  cases parent : isParent (Percent.encode Percent.path segment) with
  | true =>
    simp only [parent, if_true] at counted ⊢
    cases depth with
    | zero => cases counted
    | succ depth =>
      cases counted
      have back := below.parent kind ends
      rw [endSlash_of_ends (back.ends ends)]
      exact ⟨back, back.starts⟩
  | false =>
    simp only [parent, Bool.false_eq_true, if_false] at counted ⊢
    split at counted
    next self =>
      cases counted
      simp only [self, if_true]
      exact ⟨below, below.starts⟩
    next other =>
      cases counted
      simp only [other, if_true]
      exact ⟨below.add keeps, below.starts.trans (List.prefix_append path _)⟩

/-- Segments that do not go above a directory stay below it. The depth is counted along the segments, and as
long as it does not fall below zero the base is a start of the path. -/
theorem addSegments_below (kind : SchemeKind) {segments : List (List Char)} {deeper : Nat}
    (below : Below base depth path) (ends : base.getLast? = some '/')
    (clean : ∀ segment ∈ segments, '/' ∉ segment)
    (counted : segments.foldlM depth? depth = some deeper) :
    base <+: addSegments kind path segments := by
  induction segments generalizing depth path with
  | nil => exact below.starts
  | cons segment rest ih =>
    rw [List.foldlM_cons] at counted
    obtain ⟨middle, first, counted⟩ := Option.bind_eq_some_iff.mp counted
    obtain ⟨below, last⟩ := addSegment_below kind below ends
      (clean segment List.mem_cons_self) first
    by_cases more : rest = []
    · subst more
      exact last
    · rw [addSegments_cons more]
      exact ih below (fun other member => clean other (List.mem_cons_of_mem _ member)) counted

end Path

end LanguageClient
