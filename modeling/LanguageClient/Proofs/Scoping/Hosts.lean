import LanguageClient.Proofs.Scoping.Directories

/-!
# Hosts of files

No host that is read has a character in it that would end it in the text of a URL
(`Host.tame_read`): it is shown as an address or as a name in small letters (`Host.read_cases`). So the
URL of a file shows its host and, after that, its path, which has one slash in front
(`Url.hasSinglePath_of_parse`).
-/

namespace LanguageClient

namespace Host

/-- Whether nothing in a text ends an authority. -/
def Tame (text : List Char) : Prop := ∀ c ∈ text, (c ≠ '/' && !Url.endsPath c) = true

instance (text : List Char) : Decidable (Tame text) :=
  List.decidableBAll (fun c => (c ≠ '/' && !Url.endsPath c) = true) text

/-- Two texts of which nothing ends an authority, one after the other. -/
theorem Tame.append {first second : List Char} (tame : Tame first) (also : Tame second) :
    Tame (first ++ second) := fun c inside =>
  (List.mem_append.mp inside).elim (tame c) (also c)

/-- Nothing in an empty text ends an authority. -/
theorem tame_nil : Tame [] := nofun

/-- A character of texts with a separator between them is one of the separator or of one of the texts. -/
theorem mem_intercalate {separator : List Char} {texts : List (List Char)} {c : Char}
    (inside : c ∈ separator.intercalate texts) : c ∈ separator ∨ ∃ text ∈ texts, c ∈ text := by
  match texts, inside with
  | [text], inside =>
    rw [List.intercalate_singleton] at inside
    exact .inr ⟨text, List.mem_cons_self, inside⟩
  | text :: next :: rest, inside =>
    rw [List.intercalate_cons_cons, List.mem_append, List.mem_append] at inside
    rcases inside with (first | between) | later
    · exact .inr ⟨text, List.mem_cons_self, first⟩
    · exact .inl between
    · refine (mem_intercalate later).imp_right ?_
      rintro ⟨other, member, inside⟩
      exact ⟨other, List.mem_cons_of_mem _ member, inside⟩

/-- The characters of a number are digits, in any base up to sixteen. -/
theorem mem_toDigits {base n : Nat} {c : Char} (positive : 0 < base) (small : base ≤ 16)
    (inside : c ∈ Nat.toDigits base n) : ∃ digit : Fin 16, c = Nat.digitChar digit.val := by
  have go (fuel n : Nat) (digits : List Char)
      (all : ∀ c ∈ digits, ∃ digit : Fin 16, c = Nat.digitChar digit.val) :
      ∀ c ∈ Nat.toDigitsCore base fuel n digits, ∃ digit : Fin 16, c = Nat.digitChar digit.val := by
    induction fuel generalizing n digits with
    | zero => exact all
    | succ fuel ih =>
      have more := List.forall_mem_cons.mpr
        ⟨⟨⟨n % base, Nat.lt_of_lt_of_le (Nat.mod_lt n positive) small⟩, rfl⟩, all⟩
      rw [Nat.toDigitsCore.eq_2]
      split
      · exact more
      · exact ih _ _ more
  exact go _ _ _ (fun _ none => absurd none List.not_mem_nil) c inside

/-- The numbers of an IPv4 address. -/
def bytes (address : Nat) : List Nat := [24, 16, 8, 0].map fun shift => address / Nat.pow 2 shift % 256

/-- An IPv4 address is shown by the decimal digits of four bytes with dots between them. -/
theorem dotted_eq (address : Nat) :
    dotted address = ['.'].intercalate ((bytes address).map (Nat.toDigits 10)) := by
  rw [dotted, String.toList_intercalate, List.map_map]
  simp only [bytes, List.map_cons, List.map_nil, Function.comp_apply, toString, Nat.toList_repr]
  rfl

/-- There are only dots and digits in it. -/
theorem mem_dotted {address : Nat} {c : Char} (inside : c ∈ dotted address) :
    c = '.' ∨ c.isDigit = true := by
  rw [dotted_eq] at inside
  rcases mem_intercalate inside with dot | ⟨text, member, inside⟩
  · exact .inl (List.mem_singleton.mp dot)
  · obtain ⟨byte, -, rfl⟩ := List.mem_map.mp member
    exact .inr (Nat.isDigit_of_mem_toDigits (by decide) (by decide) inside)

/-- There are only colons and hexadecimal digits in what shows groups. -/
theorem mem_hexGroups {groups : List Nat} {c : Char} (inside : c ∈ hexGroups groups) :
    c = ':' ∨ ∃ digit : Fin 16, c = Nat.digitChar digit.val := by
  rcases mem_intercalate inside with colon | ⟨text, member, inside⟩
  · exact .inl (List.mem_singleton.mp colon)
  · obtain ⟨group, -, rfl⟩ := List.mem_map.mp member
    exact .inr (mem_toDigits (by decide) (by decide) inside)

/-- The same for all of an IPv6 address, with a run of zeros left out or not. -/
theorem mem_showIpv6 {groups : List Nat} {c : Char} (inside : c ∈ showIpv6 groups) :
    c = ':' ∨ ∃ digit : Fin 16, c = Nat.digitChar digit.val := by
  unfold showIpv6 at inside
  dsimp only at inside
  split at inside
  · exact mem_hexGroups inside
  · rw [List.mem_append, List.mem_append] at inside
    rcases inside with (before | colons) | after
    · exact mem_hexGroups before
    · left
      simpa using colons
    · exact mem_hexGroups after

/-! ## What a host is shown as -/

/-- What holds of all characters of ASCII can be looked up. -/
theorem forall_ascii (holds : Char → Prop) (all : ∀ n : Fin 128, holds (Char.ofNat n.val)) {c : Char}
    (small : c.toNat < 128) : holds c := by
  have known := all ⟨c.toNat, small⟩
  rwa [Char.ofNat_toNat] at known

/-- A small letter may come in a name if the letter may. -/
theorem toLower_name {c : Char} (name : forbiddenInName c = false) :
    forbiddenInName c.toLower = false ∧ c.toLower.toLower = c.toLower := by
  have small : c.toNat < 128 := by
    simp only [forbiddenInName, Bool.or_eq_false_iff, decide_eq_false_iff_not] at name
    omega
  exact forall_ascii (fun c => forbiddenInName c = false →
    forbiddenInName c.toLower = false ∧ c.toLower.toLower = c.toLower) (by decide) small name

/-- A name of a host as it is shown: in small letters, and not to be taken for an address. -/
structure IsName (host : List Char) : Prop where
  some : host ≠ []
  allowed : ∀ c ∈ host, forbiddenInName c = false
  small : ∀ c ∈ host, c.toLower = c
  unnumbered : endsInNumber host = false

/-- What was read in brackets is shown as the groups that were read. -/
theorem bracketed_cases {text host : List Char} (done : bracketed text = .ok host) :
    ∃ groups, ipv6? (text.drop 1).dropLast = some groups ∧ host = '[' :: showIpv6 groups ++ [']'] := by
  unfold bracketed at done
  split at done
  · cases done
  · split at done
    next => cases done
    next groups found =>
      cases done
      exact ⟨groups, found, rfl⟩

/-- A host is an address of either kind or a name. Brackets make it one of IPv6, and among the others those
that end in a number are of IPv4. -/
theorem read_cases {text host : List Char} (done : read text = .ok host) :
    (∃ inside groups, ipv6? inside = some groups ∧ host = '[' :: showIpv6 groups ++ [']']) ∨
      (∃ address, host = dotted address) ∨ IsName host := by
  unfold read at done
  split at done
  next => exact .inl ⟨_, bracketed_cases done⟩
  next =>
    split at done
    next => cases done
    next name decoded =>
      split at done
      next => cases done
      next clean =>
        split at done
        next => cases done
        next some =>
          right
          dsimp only at done
          have allowed (c : Char) (member : c ∈ name) : forbiddenInName c = false := by
            simpa using fun bad => clean (List.any_eq_true.mpr ⟨c, member, bad⟩)
          split at done
          next =>
            unfold ipv4 at done
            dsimp only at done
            split at done
            · cases done
            · split at done
              · cases done
              · cases done
                exact .inl ⟨_, rfl⟩
          next unnumbered =>
            cases done
            refine .inr ⟨?_, ?_, ?_, by simpa using unnumbered⟩
            · simpa using some
            · exact List.forall_mem_map.mpr fun c member => (toLower_name (allowed c member)).1
            · exact List.forall_mem_map.mpr fun c member => (toLower_name (allowed c member)).2

/-- No digit ends an authority, as can be looked up. -/
theorem tame_digitChar : ∀ digit : Fin 16, (Nat.digitChar digit.val ≠ '/' &&
    !Url.endsPath (Nat.digitChar digit.val)) = true := by
  decide

/-- Nothing in an IPv6 address ends an authority. -/
theorem tame_showIpv6 (groups : List Nat) : Tame (showIpv6 groups) := by
  intro c inside
  rcases mem_showIpv6 inside with rfl | ⟨digit, rfl⟩
  · rfl
  · exact tame_digitChar digit

/-- Nor does anything in an IPv4 address. -/
theorem tame_dotted (address : Nat) : Tame (dotted address) := by
  intro c inside
  rcases mem_dotted inside with rfl | digit
  · rfl
  · have other (d : Char) (mark : d.isDigit = false) : c ≠ d := by
      rintro rfl
      exact Bool.false_ne_true (mark.symm.trans digit)
    simp only [Url.endsPath, other '/' rfl, other '?' rfl, other '#' rfl, ne_eq, not_false_eq_true,
      decide_true, decide_false, Bool.or_self, Bool.not_false, Bool.and_self]

/-- Nor in a name, since what would is forbidden in one. -/
theorem IsName.tame {host : List Char} (isName : IsName host) : Tame host := by
  intro c inside
  have allowed := isName.allowed c inside
  simp only [forbiddenInName, Bool.or_eq_false_iff, decide_eq_false_iff_not] at allowed
  simp only [Url.endsPath, allowed, ne_eq, not_false_eq_true, decide_true, decide_false, Bool.or_self,
    Bool.not_false, Bool.and_self]

/-- So nothing in a host that was read ends the authority that it is shown in, and the text of the URL says
the host. -/
theorem tame_read {text host : List Char} (done : read text = .ok host) : Tame host := by
  rcases read_cases done with ⟨-, groups, -, rfl⟩ | ⟨address, rfl⟩ | isName
  · have front : Tame ['['] := by decide
    have back : Tame [']'] := by decide
    exact (front.append (tame_showIpv6 groups)).append back
  · exact tame_dotted address
  · exact isName.tame

end Host

namespace Url

/-- The host of a file as it is shown: this machine, or what was read as a host. -/
def IsFileHost (host : List Char) : Prop := host = [] ∨ ∃ text, Host.read text = .ok host

/-- The same for the host of a file, which may be empty. -/
theorem IsFileHost.tame {host : List Char} (isFileHost : IsFileHost host) : Host.Tame host := by
  rcases isFileHost with rfl | ⟨text, read⟩
  · exact Host.tame_nil
  · exact Host.tame_read read

/-- A file that was read: a host, and a path with one slash in front. -/
structure IsFile (parts : Parts) : Prop where
  scheme : parts.scheme = "file".toList
  host : ∃ host, parts.authority = some host ∧ IsFileHost host
  path : ∃ rest, parts.path = '/' :: rest ∧ rest.head? ≠ some '/'

/-- The path of a file that is read has one slash in front, as those in front of it are one. -/
theorem single_read (context : Path.Context) (start text : List Char) :
    ∃ rest, (Path.read .file context start text).path = '/' :: rest ∧ rest.head? ≠ some '/' := by
  unfold Path.read
  refine ⟨_, rfl, fun slash => ?_⟩
  have stopped := List.head?_dropWhile_not (· = '/')
    (Path.readSegments .file context start [] false text).path
  rw [slash] at stopped
  exact absurd stopped (by decide)

/-- A path that is read without a host is that of a file on this machine. -/
theorem isFile_filePath (start text : List Char) : IsFile (filePath [] start text) where
  scheme := rfl
  host := ⟨[], rfl, .inl rfl⟩
  path := single_read .url start text

/-- The same at the start of the path, behind a host. -/
theorem single_readStart (text : List Char) :
    ∃ rest, (Path.readStart .file .url true text).path = '/' :: rest ∧ rest.head? ≠ some '/' := by
  unfold Path.readStart
  rw [if_pos (by rfl), if_pos rfl]
  split
  · exact single_read ..
  · exact single_read ..
  · exact single_read ..

/-- What was read as the host of a file is shown as one. A name that only says this machine is left out. -/
theorem isFileHost_readFileHost {text host rest : List Char}
    (done : readFileHost text = .ok (host, rest)) : IsFileHost host := by
  unfold readFileHost at done
  dsimp only at done
  split at done
  · cases done
    exact .inl rfl
  · cases read : Host.read (text.takeWhile fun c => !endsAuthority .file c) with
    | error fault =>
      rw [read] at done
      cases done
    | ok shown =>
      rw [read] at done
      cases done
      split
      · exact .inl rfl
      · exact .inr ⟨_, read⟩

/-- What was read as the host and the path of a file is a file. -/
theorem isFile_readFileAuthority {text : List Char} {parts : Parts}
    (done : readFileAuthority text = .ok parts) : IsFile parts := by
  unfold readFileAuthority at done
  cases read : readFileHost text with
  | error fault =>
    rw [read] at done
    cases done
  | ok found =>
    obtain ⟨host, rest⟩ := found
    have isFileHost := isFileHost_readFileHost read
    rw [read] at done
    simp only [bind, Except.bind, pure, Except.pure] at done
    split at done
    · cases done
      exact isFile_filePath _ _
    · cases done
      refine ⟨rfl, ⟨_, rfl, ?_⟩, single_readStart rest⟩
      split
      · exact .inl rfl
      · exact isFileHost

/-- Whatever comes after the scheme of a file is read as a file, with two slashes in front of a host or
without. -/
theorem isFile_readFile {text : List Char} {parts : Parts} (done : readFile none text = .ok parts) :
    IsFile parts := by
  unfold readFile at done
  dsimp only at done
  split at done
  · split at done
    · exact isFile_readFileAuthority done
    · split at done
      · cases done
        exact isFile_filePath _ _
      · cases done
        exact isFile_filePath _ _
  · split at done
    · cases done
      exact isFile_filePath _ _
    · cases done
      exact isFile_filePath _ _
  · cases done
    exact isFile_filePath _ _

/-- The text of a file says its host and its path: there is always an authority in front of the path, and
the path begins with one slash, so that both are read as they were put together. -/
theorem hasSinglePath_ofParts {parts : Parts} (file : IsFile parts) :
    (ofParts parts).HasSinglePath := by
  obtain ⟨scheme, ⟨host, authority, isFileHost⟩, rest, path, single⟩ := file
  have tame := isFileHost.tame
  have plain : ':' ∉ parts.scheme := by
    rw [scheme]
    decide
  have text : (ofParts parts).text.toList = parts.scheme ++ ':' :: '/' :: '/' ::
      (host ++ '/' :: (rest ++ tailText parts.query parts.fragment)) := by
    rw [ofParts, String.toList_ofList, Parts.text_eq, Parts.hierarchy, authority, path]
    simp only [List.cons_append, List.append_assoc]
  have found : (ofParts parts).parts = Parts.ofText (parts.scheme ++ ':' :: '/' :: '/' ::
      (host ++ '/' :: (rest ++ tailText parts.query parts.fragment))) := congrArg Parts.ofText text
  have mark : ¬ (!endsPath '/') = false := by decide
  rw [ofText_eq plain, splitAuthority, List.takeWhile_append_of_pos tame,
    List.dropWhile_append_of_pos tame] at found
  intro _
  rw [found]
  refine ⟨rfl, ?_⟩
  show ((rest ++ tailText parts.query parts.fragment).takeWhile fun c => !endsPath c).head? ≠ some '/'
  rw [List.head?_takeWhile]
  intro slash
  have slash := (Option.filter_eq_some_iff.mp slash).1
  cases rest with
  | cons c rest => exact single slash
  | nil =>
    unfold tailText at slash
    cases query : parts.query <;> cases fragment : parts.fragment <;> rw [query, fragment] at slash <;>
      cases slash

/-! ## Schemes -/

/-- What may come in a scheme is a character of ASCII: a letter, a digit or one of three marks. -/
theorem toNat_lt_of_inScheme {c : Char} (inside : inScheme c = true) : c.toNat < 128 := by
  unfold inScheme Char.isAlphanum Char.isAlpha Char.isUpper Char.isLower Char.isDigit at inside
  simp only [Bool.or_eq_true, Bool.and_eq_true, decide_eq_true_eq, UInt32.le_iff_toNat_le] at inside
  rcases inside with (((((⟨-, le⟩ | ⟨-, le⟩) | ⟨-, le⟩) | rfl) | rfl) | rfl)
  · exact Nat.lt_of_le_of_lt le (by decide)
  · exact Nat.lt_of_le_of_lt le (by decide)
  · exact Nat.lt_of_le_of_lt le (by decide)
  · decide
  · decide
  · decide

/-- What is in a scheme is there in small letters too, and is no blank. -/
theorem toLower_inScheme {c : Char} (inside : inScheme c = true) :
    inScheme c.toLower = true ∧ c.toLower.toLower = c.toLower ∧
      (c.isAlpha = true → c.toLower.isAlpha = true) :=
  Host.forall_ascii (fun c => inScheme c = true → inScheme c.toLower = true ∧
    c.toLower.toLower = c.toLower ∧ (c.isAlpha = true → c.toLower.isAlpha = true)) (by decide)
    (toNat_lt_of_inScheme inside) inside

/-- A scheme as it is shown: in small letters, with a letter in front. -/
structure IsScheme (scheme : List Char) : Prop where
  starts : ∃ c, scheme.head? = some c ∧ c.isAlpha = true
  inside : ∀ c ∈ scheme, inScheme c = true ∧ c.toLower = c

/-- A scheme that was read is in small letters and starts with a letter. -/
theorem isScheme_readScheme {text scheme rest : List Char}
    (read : readScheme? text = some (scheme, rest)) : IsScheme scheme := by
  have lowered : ∃ c, text.head? = some c ∧ c.isAlpha = true ∧
      scheme = (text.takeWhile inScheme).map Char.toLower := by
    unfold readScheme? at read
    split at read
    · cases read
    next c _ =>
      split at read
      next letter =>
        split at read
        · cases read
          exact ⟨c, rfl, letter, rfl⟩
        · cases read
      · cases read
  obtain ⟨c, head, letter, rfl⟩ := lowered
  obtain ⟨text, rfl⟩ := List.head?_eq_some_iff.mp head
  have first : inScheme c = true := by
    unfold inScheme Char.isAlphanum
    rw [letter]
    rfl
  refine ⟨⟨c.toLower, ?_, (toLower_inScheme first).2.2 letter⟩, List.forall_mem_map.mpr fun d member => ?_⟩
  · rw [List.takeWhile_cons_of_pos first]
    rfl
  · have known := toLower_inScheme (List.mem_takeWhile_imp member)
    exact ⟨known.1, known.2.1⟩

/-- There is no colon in a scheme. -/
theorem IsScheme.colon {scheme : List Char} (isScheme : IsScheme scheme) : ':' ∉ scheme := fun colon =>
  absurd (isScheme.inside ':' colon).1 (by decide)

/-- The scheme that is read has no colon. -/
theorem colon_notMem_readScheme {text scheme rest : List Char}
    (read : readScheme? text = some (scheme, rest)) : ':' ∉ scheme :=
  (isScheme_readScheme read).colon

/-- Reading an authority leaves the scheme as it was, whatever comes of user, host and port. -/
theorem scheme_readAuthority {scheme text : List Char} {parts : Parts}
    (done : readAuthority scheme text = .ok parts) : parts.scheme = scheme := by
  unfold readAuthority at done
  dsimp only at done
  cases user : readUserinfo (kindOf scheme) text with
  | error fault =>
    rw [user] at done
    cases done
  | ok found =>
    obtain ⟨userinfo, rest⟩ := found
    rw [user] at done
    cases host : readHostAndPort scheme rest with
    | error fault =>
      simp only [bind, Except.bind, host] at done
      cases done
    | ok found =>
      obtain ⟨host', hasHost, rest'⟩ := found
      simp only [bind, Except.bind, host] at done
      split at done
      · cases done
      · cases done
        rfl

/-- So does reading what comes after the scheme of anything but a file. -/
theorem scheme_readAfterScheme {scheme text : List Char} {parts : Parts}
    (other : kindOf scheme ≠ .file) (done : readAfterScheme none scheme text = .ok parts) :
    parts.scheme = scheme := by
  unfold readAfterScheme at done
  split at done
  next file => exact absurd file other
  next =>
    unfold readPlain at done
    dsimp only at done
    split at done
    · exact scheme_readAuthority done
    · cases done
      rfl
    · cases done
      rfl
  next => exact scheme_readAuthority done

/-- Every URL that was read has one slash in front of its path if it is a file. -/
theorem hasSinglePath_of_parse {text : String} {url : Url} (named : parse text = .ok url) :
    url.HasSinglePath := by
  unfold parse at named
  cases read : Parts.read none text.toList with
  | error fault =>
    rw [read] at named
    cases named
  | ok parts =>
    rw [read] at named
    cases named
    unfold Parts.read at read
    dsimp only at read
    cases schemed : readScheme? (clean text.toList) with
    | none =>
      rw [schemed] at read
      cases read
    | some found =>
      obtain ⟨scheme, rest⟩ := found
      rw [schemed] at read
      by_cases file : kindOf scheme = .file
      · have read : readFile none rest = .ok parts := by
          simpa only [readAfterScheme, file, Option.filter_none] using read
        exact hasSinglePath_ofParts (isFile_readFile read)
      · have same := scheme_readAfterScheme file read
        have shown := scheme_ofParts (same ▸ colon_notMem_readScheme schemed)
        intro also
        rw [shown, same] at also
        exact absurd also file

end Url

end LanguageClient
