import LanguageClient.Proofs.Reading.Authorities

/-!
# Texts that go on from a URL

A text that goes on from the text of a URL may say no URL. That is so where the text of the URL ends within
its authority, because what comes next is then part of the authority, or with the one slash with which a
second slash would start an authority: such a URL is open (`Url.isOpen`). Of the URLs that were read and can be
a base, those that are not open are the ones from which every text may go on (`Url.continues_iff`). For them
the end of the authority was seen before anything that is added.
-/

namespace LanguageClient

namespace Url

variable {kind : SchemeKind} {scheme text rest : List Char} {parts : Parts}

/-- What follows the scheme and its colon. -/
def afterScheme (url : Url) : List Char := (url.text.toList.dropWhile (· ≠ ':')).drop 1

/-- Whether what comes next would be part of an authority, or start one. -/
def isOpen (url : Url) : Bool :=
  match url.afterScheme with
  | ['/'] => true
  | '/' :: '/' :: rest => rest.all fun c => c ≠ '/' && !endsPath c
  | _ => false

/-! ## Paths that were read -/

/-- A scheme that is neither that of files nor one of the web is plain. -/
theorem plain_of_not_special (other : kind.special = false) : kind = .plain := by
  cases kind with
  | plain => rfl
  | file => cases other
  | hosted => cases other

/-- A path that was read starts with a slash, or is empty in a plain scheme. -/
theorem head_readStart (kind : SchemeKind) (text : List Char) :
    (Path.readStart kind .url true text).path.head? = some '/' ∨
      kind.special = false ∧ (Path.readStart kind .url true text).path = [] := by
  have starts (text : List Char) : (Path.read kind .url ['/'] text).path.head? = some '/' := by
    unfold Path.read
    split
    · rfl
    · exact Path.readSegments_head kind _ _ _ _ rfl
  unfold Path.readStart
  by_cases special : kind.special = true
  · rw [if_pos special, if_pos rfl]
    left
    split
    · exact starts _
    · exact starts _
    · exact starts _
  · obtain rfl := plain_of_not_special (Bool.not_eq_true _ ▸ special)
    rw [if_neg special]
    split
    · exact .inr ⟨rfl, rfl⟩
    next rest =>
      refine .inl ?_
      show (Path.readSegments .plain .url (Path.addSegment .plain [] [] true) [] _ rest).path.head? = _
      refine Path.readSegments_head .plain _ _ _ _ ?_
      rw [Path.addSegment_nil]
      rfl
    · split
      · exact .inr ⟨rfl, rfl⟩
      · exact .inl (starts _)

/-- No path that is shown has a blank in it. -/
theorem inPaths_solid : Path.InPaths fun c => 32 < c.toNat where
  slash := by decide
  colon := by decide
  encoded text c inside := by
    have digit : ∀ n : Fin 16, 32 < (Percent.digit n.val).toNat := by decide
    rcases Path.mem_encode inside with ⟨-, plain⟩ | rfl | ⟨n, rfl⟩
    · exact (Path.solid_of_plain plain).1
    · decide
    · exact digit n

/-! ## URLs that were read -/

/-- An authority that shows what was read: the host of a file, or a user, a host and a port. -/
def ShowsAuthority (scheme text : List Char) : Prop :=
  if kindOf scheme = .file then IsFileHost text
  else ∃ authority : Authority, text = authority.chars ∧ authority.IsShown (kindOf scheme)

/-- The parts of a URL that was read. -/
structure Parts.WasRead (parts : Parts) : Prop where
  scheme : IsScheme parts.scheme
  authority : ∀ text, parts.authority = some text → ShowsAuthority parts.scheme text ∧
    (parts.path.head? = some '/' ∨ kindOf parts.scheme = .plain ∧ parts.path = [])
  /-- Only a plain scheme does without an authority. -/
  bare : parts.authority = none → kindOf parts.scheme = .plain ∧
    (parts.path.head? = some '/' → ∀ c ∈ parts.path, 32 < c.toNat)

/-- What was read with an authority has one that is shown, and a path that starts with a slash after it
unless there is none. -/
theorem wasRead_readAuthority (isScheme : IsScheme scheme) (other : kindOf scheme ≠ .file)
    (done : readAuthority scheme text = .ok parts) : parts.WasRead := by
  have same := scheme_readAuthority done
  obtain ⟨authority, has, shown⟩ := isShown_readAuthority done
  have path : parts.path.head? = some '/' ∨ kindOf parts.scheme = .plain ∧ parts.path = [] := by
    rw [readAuthority_eq] at done
    split at done
    · cases done
    · split at done
      · cases done
      · split at done
        · cases done
        · cases done
          exact (head_readStart (kindOf scheme) _).imp_right fun found =>
            ⟨plain_of_not_special found.1, found.2⟩
  refine ⟨same ▸ isScheme, fun text found => ⟨?_, path⟩, fun none => ?_⟩
  · cases has.symm.trans found
    rw [ShowsAuthority, same, if_neg other]
    exact ⟨authority, rfl, shown⟩
  · cases has.symm.trans none

/-- Encoding a text that does not start with a slash makes none at its front. -/
theorem head_encode {set : Char → Bool} (head : text.head? ≠ some '/') :
    (Percent.encode set text).head? ≠ some '/' := by
  cases text with
  | nil => exact nofun
  | cons c text =>
    rw [Percent.encode, List.flatMap_cons]
    intro slash
    obtain ⟨d, more, same⟩ := List.exists_cons_of_ne_nil (Percent.encodeChar_ne_nil set c)
    rw [same, List.cons_append, List.head?_cons, Option.some.injEq] at slash
    subst slash
    unfold Percent.encodeChar at same
    split at same
    · obtain ⟨first, others, bytes⟩ :=
        List.exists_cons_of_ne_nil (String.utf8EncodeChar_ne_nil (c := c))
      rw [bytes, List.flatMap_cons] at same
      exact absurd (List.head_eq_of_cons_eq same) (by decide)
    · exact head (congrArg some (List.head_eq_of_cons_eq same))

/-- What was read in a plain scheme has an authority or a path, and the path of one without an authority has
no blank in it where it starts with a slash. -/
theorem wasRead_readPlain (isScheme : IsScheme scheme) (plain : kindOf scheme = .plain)
    (done : readPlain scheme text = .ok parts) : parts.WasRead := by
  unfold readPlain at done
  dsimp only at done
  split at done
  next => exact wasRead_readAuthority isScheme (by rw [plain]; decide) done
  next rest _ =>
    cases done
    refine ⟨isScheme, nofun, fun _ => ⟨plain, fun _ => ?_⟩⟩
    show ∀ c ∈ (Path.read (kindOf scheme) .url ['/'] rest).path, 32 < c.toNat
    rw [plain]
    exact inPaths_solid.readSegments .plain .url [] false rest (List.forall_mem_singleton.mpr (by decide))
  next single none =>
    cases done
    refine ⟨isScheme, nofun, fun _ => ⟨plain, fun slash => ?_⟩⟩
    refine absurd slash (head_encode ?_)
    rw [List.head?_takeWhile]
    intro starts
    obtain ⟨rest, same⟩ := List.head?_eq_some_iff.mp (Option.filter_eq_some_iff.mp starts).1
    exact none rest same

/-- Whatever was read as a URL has the parts of one. This is all that the rest of the module knows of
reading. -/
theorem wasRead_read (done : Parts.read none text = .ok parts) : parts.WasRead := by
  unfold Parts.read at done
  dsimp only at done
  split at done
  next scheme rest schemed =>
    have isScheme := isScheme_readScheme schemed
    unfold readAfterScheme at done
    split at done
    next file =>
      obtain ⟨same, ⟨host, has, isFileHost⟩, rest, path, -⟩ := isFile_readFile done
      have kind : kindOf parts.scheme = .file := by
        rw [same]
        rfl
      refine ⟨?_, fun text found => ⟨?_, .inl (path ▸ rfl)⟩, fun none => ?_⟩
      · rw [same]
        refine ⟨⟨'f', rfl, rfl⟩, fun c member => ?_⟩
        have letters : "file".toList.all (fun c => inScheme c && c.toLower = c) = true := by decide
        simpa using List.all_eq_true.mp letters c member
      · cases has.symm.trans found
        rw [ShowsAuthority, if_pos kind]
        exact isFileHost
      · cases has.symm.trans none
    next plain => exact wasRead_readPlain isScheme plain done
    next hosted => exact wasRead_readAuthority isScheme (by rw [hosted]; decide) done
  next => cases done

/-! ## Texts in front -/

/-- A scheme is read again in front of its colon. It is in small letters by then and of characters that may
be in a scheme, so the reader takes it as it is. -/
theorem readScheme?_again (isScheme : IsScheme scheme) (rest : List Char) :
    readScheme? (scheme ++ ':' :: rest) = some (scheme, rest) := by
  obtain ⟨c, head, letter⟩ := isScheme.starts
  obtain ⟨others, rfl⟩ := List.head?_eq_some_iff.mp head
  obtain ⟨front, back⟩ := span_append (':' :: rest) (fun d member => (isScheme.inside d member).1)
    (by rintro d ⟨⟩; rfl)
  have small : (c :: others).map Char.toLower = c :: others :=
    (List.map_congr_left (g := id) fun d member => (isScheme.inside d member).2).trans (List.map_id _)
  unfold readScheme?
  simp only [List.cons_append] at front back ⊢
  rw [if_pos letter, back, front]
  simp only [small]

/-- A scheme has no blank in it. -/
theorem IsScheme.solid (isScheme : IsScheme scheme) : ∀ c ∈ scheme, 32 < c.toNat := by
  intro c member
  have inside := (isScheme.inside c member).1
  exact Host.forall_ascii (fun c => inScheme c = true → 32 < c.toNat) (by decide)
    (toNat_lt_of_inScheme inside) inside

/-- An authority has neither a blank nor a character that would end it. -/
theorem ShowsAuthority.solid {shown : List Char} (shows : ShowsAuthority scheme shown) :
    ∀ c ∈ shown, 32 < c.toNat ∧ c ∉ ['/', '\\', '?', '#'] := by
  have fewer {c : Char} (plain : c ∉ Host.strange) : c ∉ ['/', '\\', '?', '#'] := fun mark =>
    plain (List.mem_append_left ['@'] mark)
  unfold ShowsAuthority at shows
  split at shows
  · rcases shows with rfl | ⟨text, read⟩
    · exact fun _ inside => absurd inside List.not_mem_nil
    · have read : Host.readFor .file text = .ok shown := read
      exact fun c inside => ((Host.isShown_readFor read).solid c inside).imp_right fewer
  · obtain ⟨authority, rfl, isShown⟩ := shows
    intro c inside
    rcases List.mem_append.mp inside with user | inside
    · rcases isShown.user with none | ⟨name, same, -, plain⟩
      · rw [none] at user
        exact absurd user List.not_mem_nil
      · rw [same] at user
        rcases List.mem_append.mp user with name | sign
        · exact (plain c name).imp_right fewer
        · rw [List.mem_singleton.mp sign]
          decide
    · exact (isShown.solid c inside).imp_right fewer

/-- So an authority is tame: nothing in it ends it, and it is read up to its end. -/
theorem ShowsAuthority.tame {shown : List Char} (shows : ShowsAuthority scheme shown) : Host.Tame shown := by
  intro c inside
  have plain := (shows.solid c inside).2
  simp only [List.mem_cons, List.not_mem_nil, or_false, not_or] at plain
  simp only [endsPath, plain, ne_eq, not_false_eq_true, decide_true, decide_false, Bool.or_self,
    Bool.not_false, Bool.and_self]

/-! ## Authorities in front -/

/-- The host of a file is read again in front of what ends it, also where it is empty. -/
theorem readFileAuthority_again {host : List Char} (isFileHost : IsFileHost host) {c : Char}
    (ends : c = '/' ∨ endsPath c = true) (rest : List Char) :
    ∃ parts, readFileAuthority (host ++ c :: rest) = .ok parts := by
  have shows : ShowsAuthority "file".toList host := isFileHost
  have inside : ∀ d ∈ host, (!endsAuthority .file d) = true := by
    intro d member
    have plain := (shows.solid d member).2
    simp only [List.mem_cons, List.not_mem_nil, or_false, not_or] at plain
    simp only [endsAuthority, endsPath, plain, decide_false, Bool.false_and, Bool.or_self, Bool.not_false]
  obtain ⟨front, back⟩ := span_append (c :: rest) inside
    (by rintro d ⟨⟩; rw [endsAuthority_hosted ends]; rfl)
  have found : ∃ read, readFileHost (host ++ c :: rest) = .ok read := by
    simp only [readFileHost, front, back]
    split
    · exact ⟨_, rfl⟩
    next some =>
      rcases isFileHost with rfl | ⟨text, read⟩
      · exact absurd (.inl rfl) some
      · have read : Host.readFor .file text = .ok host := read
        obtain ⟨again, readAgain⟩ := Host.readFor_again read
        have readAgain : Host.read host = .ok again := readAgain
        rw [readAgain]
        exact ⟨_, rfl⟩
  obtain ⟨⟨shown, after⟩, found⟩ := found
  unfold readFileAuthority
  rw [found]
  show ∃ parts, (if shown.isEmpty then _ else _) = _
  split
  · exact ⟨_, rfl⟩
  · exact ⟨_, rfl⟩

/-- After an authority that has come to its end, every text is read: what follows is a path, a query or a
fragment, and none of these can fail. -/
theorem readAfterScheme_again {shown : List Char} (shows : ShowsAuthority scheme shown) {c : Char}
    (ends : c = '/' ∨ endsPath c = true) (rest : List Char) :
    ∃ parts, readAfterScheme none scheme ('/' :: '/' :: (shown ++ c :: rest)) = .ok parts := by
  have stops : ∀ d, (c :: rest).head? = some d → d = '/' ∨ endsPath d = true := by
    rintro d ⟨⟩
    exact ends
  have plain (d : Char) (member : d ∈ shown) := (shows.solid d member).2
  unfold ShowsAuthority at shows
  unfold readAfterScheme
  split at shows
  next file =>
    rw [file]
    exact readFileAuthority_again shows ends rest
  next other =>
    obtain ⟨authority, rfl, isShown⟩ := shows
    obtain ⟨parts, read⟩ := readAuthority_again isShown stops
    refine ⟨parts, ?_⟩
    split
    next file => exact absurd file other
    next => exact read
    next hosted =>
      have some : authority.chars ≠ [] := by
        have host : authority.host ≠ [] := fun none => (isShown.hosted none).2.2 hosted
        exact List.append_ne_nil_of_right_ne_nil _ (List.append_ne_nil_of_left_ne_nil host _)
      obtain ⟨d, more, same⟩ := List.exists_cons_of_ne_nil some
      have other := plain d (same ▸ List.mem_cons_self)
      simp only [List.mem_cons, List.not_mem_nil, or_false, not_or] at other
      rw [same] at read
      simp only [skipSlashes, same, List.cons_append, List.dropWhile_cons, other, decide_true,
        decide_false, Bool.true_or, Bool.or_self, if_true, Bool.false_eq_true, if_false]
      exact read

/-! ## Whole URLs in front -/

/-- The text of a URL is its scheme, a colon and what comes after the scheme, which is its hierarchy and its
tail. -/
theorem afterScheme_ofParts (plain : ':' ∉ parts.scheme) :
    (ofParts parts).text.toList = parts.scheme ++ ':' :: (ofParts parts).afterScheme ∧
      (ofParts parts).afterScheme = parts.hierarchy ++ tailText parts.query parts.fragment := by
  have text : (ofParts parts).text.toList =
      parts.scheme ++ ':' :: (parts.hierarchy ++ tailText parts.query parts.fragment) := by
    rw [ofParts, String.toList_ofList, Parts.text_eq]
  have passes : ∀ c ∈ parts.scheme, decide (c ≠ ':') = true :=
    fun c member => decide_eq_true fun colon => plain (colon ▸ member)
  have after : (ofParts parts).afterScheme =
      parts.hierarchy ++ tailText parts.query parts.fragment := by
    rw [afterScheme, text, List.dropWhile_append_of_pos passes, List.dropWhile_cons_of_neg (by decide)]
    rfl
  exact ⟨by rw [text, after], after⟩

/-- The path of a URL that can be a base starts with a slash, or an authority is in front of it. Either way,
so does what comes after the scheme. -/
theorem head_of_base (plain : ':' ∉ parts.scheme) (base : (ofParts parts).cannotBeABase = false) :
    (ofParts parts).afterScheme.head? = some '/' := by
  obtain ⟨text, -⟩ := afterScheme_ofParts plain
  by_contra other
  have split : splitAuthority (ofParts parts).afterScheme = (none, (ofParts parts).afterScheme) := by
    unfold splitAuthority
    split
    next same => exact absurd (congrArg List.head? same) other
    next same => exact absurd (congrArg List.head? same) other
    next => rfl
  unfold cannotBeABase Parts.isOpaque Url.parts at base
  rw [text, ofText_eq plain, split] at base
  simp only [Option.isNone_none, Bool.true_and, decide_eq_false_iff_not, not_not,
    List.head?_takeWhile] at base
  exact other (Option.filter_eq_some_iff.mp base).1

/-- A path without an authority never starts as one: where it has two slashes in front, a dot is put before
them. -/
theorem hierarchy_bare (authority : parts.authority = none) (starts : parts.hierarchy.head? = some '/') :
    parts.path.head? = some '/' ∧
      (parts.hierarchy = ['/'] ∨ ∃ c more, parts.hierarchy = '/' :: c :: more ∧ c ≠ '/' ∧
        (c = '.' ∨ c ∈ parts.path)) := by
  unfold Parts.hierarchy at starts ⊢
  rw [authority] at starts ⊢
  dsimp only at starts ⊢
  split at starts
  next rest same =>
    rw [same]
    exact ⟨rfl, .inr ⟨'.', _, rfl, by decide, .inl rfl⟩⟩
  next single =>
    refine ⟨starts, ?_⟩
    obtain ⟨rest, same⟩ := List.head?_eq_some_iff.mp starts
    cases rest with
    | nil => exact .inl same
    | cons c rest =>
      refine .inr ⟨c, rest, same, ?_, .inr (same ▸ List.mem_cons_of_mem _ List.mem_cons_self)⟩
      rintro rfl
      exact single _ same

/-- What comes after the scheme of a URL that was read and can be a base. -/
inductive AfterScheme (scheme : List Char) : List Char → Prop where
  /-- An authority and nothing more. -/
  | within {shown : List Char} (shows : ShowsAuthority scheme shown) (plain : kindOf scheme = .plain) :
    AfterScheme scheme ('/' :: '/' :: shown)
  /-- An authority that has come to its end. -/
  | beyond {shown more : List Char} {c : Char} (shows : ShowsAuthority scheme shown)
    (ends : c = '/' ∨ endsPath c = true) : AfterScheme scheme ('/' :: '/' :: (shown ++ c :: more))
  /-- A slash and nothing more. -/
  | slash (plain : kindOf scheme = .plain) : AfterScheme scheme ['/']
  /-- A slash that starts no authority. -/
  | bare {c : Char} {more : List Char} (plain : kindOf scheme = .plain) (other : c ≠ '/')
    (solid : 32 < c.toNat) : AfterScheme scheme ('/' :: c :: more)

/-- What comes after the scheme where there is an authority: it ends with the URL, or a slash or a tail
follows it. -/
theorem afterScheme_authority (wasRead : parts.WasRead) {shown : List Char}
    (has : parts.authority = some shown) :
    AfterScheme parts.scheme (parts.hierarchy ++ tailText parts.query parts.fragment) := by
  obtain ⟨shows, path⟩ := wasRead.authority shown has
  have follows : parts.hierarchy = '/' :: '/' :: (shown ++ parts.path) := by
    rw [Parts.hierarchy, has]
    rfl
  rw [follows, List.cons_append, List.cons_append, List.append_assoc]
  rcases path with slash | ⟨plain, none⟩
  · obtain ⟨rest, same⟩ := List.head?_eq_some_iff.mp slash
    rw [same, List.cons_append]
    exact .beyond shows (.inl rfl)
  · rw [none, List.nil_append]
    cases tail : tailText parts.query parts.fragment with
    | nil =>
      rw [List.append_nil]
      exact .within shows plain
    | cons c more => exact .beyond shows (.inr (head_tailText (congrArg List.head? tail)))

/-- What comes after the scheme where there is none: a lone slash, or a slash that starts a path. -/
theorem afterScheme_bare (wasRead : parts.WasRead) (has : parts.authority = none)
    (slash : parts.hierarchy.head? = some '/') :
    AfterScheme parts.scheme (parts.hierarchy ++ tailText parts.query parts.fragment) := by
  obtain ⟨plain, solid⟩ := wasRead.bare has
  obtain ⟨path, alone | ⟨c, more, same, other, written⟩⟩ := hierarchy_bare has slash
  · rw [alone, List.singleton_append]
    cases tail : tailText parts.query parts.fragment with
    | nil => exact .slash plain
    | cons c more =>
      have ends := head_tailText (congrArg List.head? tail)
      simp only [endsPath, Bool.or_eq_true, decide_eq_true_eq] at ends
      rcases ends with rfl | rfl
      · exact .bare plain (by decide) (by decide)
      · exact .bare plain (by decide) (by decide)
  · rw [same, List.cons_append, List.cons_append]
    refine .bare plain other ?_
    rcases written with rfl | inside
    · decide
    · exact solid path c inside

/-- What comes after the scheme of a URL that was read and can be a base is one of these four. -/
theorem afterScheme_wasRead (wasRead : parts.WasRead) (base : (ofParts parts).cannotBeABase = false) :
    AfterScheme parts.scheme (ofParts parts).afterScheme := by
  have starts := head_of_base wasRead.scheme.colon base
  rw [(afterScheme_ofParts wasRead.scheme.colon).2] at starts ⊢
  cases has : parts.authority with
  | some shown => exact afterScheme_authority wasRead has
  | none =>
    refine afterScheme_bare wasRead has ?_
    cases front : parts.hierarchy with
    | nil =>
      rw [front, List.nil_append] at starts
      exact absurd (head_tailText starts) (by decide)
    | cons c others =>
      rw [front] at starts
      exact starts

/-- What comes after the scheme is read as it is where there is no blank in it. Blanks at the end of the
text and tabs in it do not count, so a text that is added may lose some of its own. -/
theorem read_after (isScheme : IsScheme scheme) {front : List Char} (solid : ∀ c ∈ front, 32 < c.toNat)
    (rest : List Char) : ∃ more, (rest = [] → more = []) ∧
      Parts.read none (scheme ++ ':' :: (front ++ rest)) = readAfterScheme none scheme (front ++ more) := by
  have some : scheme ++ ':' :: front ≠ [] := List.append_ne_nil_of_right_ne_nil _ (List.cons_ne_nil _ _)
  obtain ⟨more, cleaned, none⟩ := clean_append some
    (List.forall_mem_append.mpr ⟨isScheme.solid, List.forall_mem_cons.mpr ⟨by decide, solid⟩⟩) rest
  rw [List.append_assoc, List.cons_append] at cleaned
  refine ⟨more, none, ?_⟩
  unfold Parts.read
  rw [cleaned, List.append_assoc, List.cons_append]
  simp only [readScheme?_again isScheme]

/-- From a URL that is not open, every text may go on. The cases are an authority that has come to its end
and a slash that starts no authority. -/
theorem AfterScheme.read_continues {after : List Char} (goesOn : AfterScheme scheme after)
    (isScheme : IsScheme scheme) (closed : ¬ after = ['/'])
    (ended : ∀ shown, after = '/' :: '/' :: shown → ¬ Host.Tame shown) (rest : List Char) :
    ∃ found, Parts.read none (scheme ++ ':' :: (after ++ rest)) = .ok found := by
  cases goesOn with
  | within shows plain => exact absurd shows.tame (ended _ rfl)
  | slash => exact absurd rfl closed
  | @beyond shown more c shows ends =>
    have mark : 32 < c.toNat := by
      simp only [endsPath, Bool.or_eq_true, decide_eq_true_eq] at ends
      rcases ends with rfl | rfl | rfl <;> decide
    have solid : ∀ d ∈ '/' :: '/' :: (shown ++ [c]), 32 < d.toNat := by
      refine List.forall_mem_cons.mpr ⟨by decide, List.forall_mem_cons.mpr ⟨by decide, ?_⟩⟩
      exact List.forall_mem_append.mpr
        ⟨fun d member => (shows.solid d member).1, List.forall_mem_singleton.mpr mark⟩
    -- Line ends and tabs may be dropped from what is added, never from what is in front of it.
    obtain ⟨kept, -, read⟩ := read_after isScheme solid (more ++ rest)
    simp only [List.cons_append, List.append_assoc, List.nil_append] at read ⊢
    rw [read]
    exact readAfterScheme_again shows ends kept
  | @bare c more plain other mark =>
    have solid : ∀ d ∈ ['/', c], 32 < d.toNat :=
      List.forall_mem_cons.mpr ⟨by decide, List.forall_mem_singleton.mpr mark⟩
    obtain ⟨kept, -, read⟩ := read_after isScheme solid (more ++ rest)
    simp only [List.cons_append, List.nil_append] at read ⊢
    rw [read, readAfterScheme, plain]
    simp only [readPlain]
    split
    next here => exact absurd (List.head_eq_of_cons_eq (List.tail_eq_of_cons_eq here)) other
    next => exact ⟨_, rfl⟩
    next none => exact (none _ rfl).elim

/-- What goes on from an open URL and says no URL. -/
def breaker (url : Url) : List Char := if url.afterScheme = ['/'] then ['/', ':', 'x'] else [':', 'x']

/-- In a plain scheme an authority may be empty. -/
theorem showsAuthority_nil (plain : kindOf scheme = .plain) : ShowsAuthority scheme [] := by
  rw [ShowsAuthority, if_neg (by rw [plain]; decide)]
  refine ⟨⟨[], [], []⟩, rfl, .inl rfl, ⟨[], ?_⟩, .inl rfl, fun _ => ⟨rfl, rfl, ?_⟩⟩
  · rw [plain]
    rfl
  · rw [plain]
    decide

/-- Within an authority, not every text may go on: a colon and a letter after it are no port. -/
theorem read_breaks {shown : List Char} (isScheme : IsScheme scheme) (plain : kindOf scheme = .plain)
    (shows : ShowsAuthority scheme shown) :
    ∃ fault, Parts.read none (scheme ++ ':' :: '/' :: '/' :: (shown ++ [':', 'x'])) = .error fault := by
  have solid : ∀ c ∈ '/' :: '/' :: (shown ++ [':', 'x']), 32 < c.toNat := by
    refine List.forall_mem_cons.mpr ⟨by decide, List.forall_mem_cons.mpr ⟨by decide, ?_⟩⟩
    refine List.forall_mem_append.mpr ⟨fun c member => (shows.solid c member).1, ?_⟩
    exact List.forall_mem_cons.mpr ⟨by decide, List.forall_mem_singleton.mpr (by decide)⟩
  obtain ⟨kept, none, read⟩ := read_after isScheme solid []
  rw [none rfl, List.append_nil] at read
  unfold ShowsAuthority at shows
  rw [if_neg (by rw [plain]; decide)] at shows
  obtain ⟨authority, rfl, isShown⟩ := shows
  rw [read, readAfterScheme, plain]
  exact readAuthority_broken isShown

/-- An open URL and what breaks it say no URL. After a lone slash it takes one more slash, to start an
authority. -/
theorem AfterScheme.read_breaks {url : Url} (goesOn : AfterScheme scheme url.afterScheme)
    (isScheme : IsScheme scheme) (opened : url.isOpen = true) :
    ∃ fault, Parts.read none (scheme ++ ':' :: (url.afterScheme ++ url.breaker)) = .error fault := by
  unfold isOpen breaker at *
  generalize url.afterScheme = after at goesOn opened
  cases goesOn with
  | @within shown shows plain =>
    have more : ¬ '/' :: '/' :: shown = ['/'] := by simp
    rw [if_neg more]
    exact Url.read_breaks isScheme plain shows
  | slash plain =>
    rw [if_pos rfl]
    exact Url.read_breaks isScheme plain (showsAuthority_nil plain)
  | @beyond shown more c shows ends =>
    have passed := List.all_eq_true.mp opened c (List.mem_append_right _ List.mem_cons_self)
    rcases ends with rfl | mark
    · cases passed
    · rw [mark, Bool.not_true, Bool.and_false] at passed
      cases passed
  | bare plain other solid =>
    split at opened
    next here => cases here
    next here => exact absurd (List.head_eq_of_cons_eq (List.tail_eq_of_cons_eq here)) other
    next => cases opened

/-- A text that goes on from a URL is parsed as the scheme of the URL, a colon and what goes on after it. -/
theorem parse_continued (wasRead : parts.WasRead) (rest : List Char) :
    parse (String.ofList ((ofParts parts).text.toList ++ rest)) =
      (Parts.read none (parts.scheme ++ ':' :: ((ofParts parts).afterScheme ++ rest))).map ofParts := by
  rw [parse, String.toList_ofList, (afterScheme_ofParts wasRead.scheme.colon).1, List.append_assoc,
    List.cons_append]

/-- Of the URLs that were read and can be a base, every text may go on from those that are not open; from
those that are, not what breaks them. So being open is seen from the URL alone, and yet says something of
all texts. -/
theorem continues_iff {text : String} {url : Url} (named : parse text = .ok url)
    (base : url.cannotBeABase = false) :
    (url.isOpen = false ↔ ∀ rest : List Char, ∃ found,
      parse (String.ofList (url.text.toList ++ rest)) = .ok found) ∧
    (url.isOpen = true → ∃ fault,
      parse (String.ofList (url.text.toList ++ url.breaker)) = .error fault) := by
  unfold parse at named
  cases read : Parts.read none text.toList with
  | error fault =>
    rw [read] at named
    cases named
  | ok parts =>
    rw [read] at named
    cases named
    have wasRead := wasRead_read read
    have goesOn := afterScheme_wasRead wasRead base
    have breaks (opened : (ofParts parts).isOpen = true) : ∃ fault,
        parse (String.ofList ((ofParts parts).text.toList ++ (ofParts parts).breaker)) = .error fault := by
      obtain ⟨fault, broken⟩ := goesOn.read_breaks wasRead.scheme opened
      exact ⟨fault, by rw [parse_continued wasRead, broken]; rfl⟩
    refine ⟨⟨fun closed rest => ?_, fun every => ?_⟩, breaks⟩
    · have within : ∀ shown, (ofParts parts).afterScheme = '/' :: '/' :: shown → ¬ Host.Tame shown := by
        intro shown same tame
        rw [isOpen, same] at closed
        exact Bool.false_ne_true (closed.symm.trans (List.all_eq_true.mpr tame))
      have slash : ¬ (ofParts parts).afterScheme = ['/'] := by
        intro same
        rw [isOpen, same] at closed
        cases closed
      obtain ⟨found, continued⟩ := goesOn.read_continues wasRead.scheme slash within rest
      exact ⟨ofParts found, by rw [parse_continued wasRead, continued]; rfl⟩
    · rw [Bool.eq_false_iff]
      intro opened
      obtain ⟨fault, broken⟩ := breaks opened
      obtain ⟨found, continued⟩ := every (ofParts parts).breaker
      cases broken.symm.trans continued

end Url

end LanguageClient
