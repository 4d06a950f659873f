import LanguageClient.Proofs.Reading.Hosts

/-!
# Authorities that are shown are read again

An authority is shown as a user, a host and a port (`Url.Authority`). What was read as an authority and is
shown is read as one again, whatever comes after its end (`Url.readAuthority_again`). Where it does not end,
what comes next is part of it: with a colon and a letter after it there is no authority any more
(`Url.readAuthority_broken`).
-/

namespace LanguageClient

namespace Url

variable {kind : SchemeKind} {text rest : List Char}

/-! ## Hosts within a text -/

/-- Characters that neither end a host nor are brackets belong to the host, and what follows them is split
as it is. A colon is such a character only inside brackets. -/
theorem splitHost_append {inBrackets : Bool} {front : List Char}
    (plain : ∀ c ∈ front, endsAuthority kind c = false ∧ (c = ':' → inBrackets = true) ∧ c ≠ '[' ∧ c ≠ ']') :
    splitHost kind inBrackets (front ++ rest) =
      (front ++ (splitHost kind inBrackets rest).1, (splitHost kind inBrackets rest).2) := by
  induction front with
  | nil => rfl
  | cons c front ih =>
    obtain ⟨goesOn, colon, opens, closes⟩ := plain c List.mem_cons_self
    have inside : ¬ (endsAuthority kind c = true ∨ (c = ':' ∧ ¬ inBrackets = true)) := by
      rintro (ends | ⟨mark, outside⟩)
      · exact Bool.false_ne_true (goesOn.symm.trans ends)
      · exact outside (colon mark)
    rw [List.cons_append, splitHost, if_neg inside, if_neg opens, if_neg closes]
    simp only [ih fun d member => plain d (List.mem_cons_of_mem _ member), List.cons_append]

/-- A character that no host has ends no authority. -/
theorem endsAuthority_of_notMem {c : Char} (plain : c ∉ Host.strange) : endsAuthority kind c = false := by
  simp only [Host.strange, List.mem_cons, List.not_mem_nil, or_false, not_or] at plain
  simp only [endsAuthority, endsPath, plain, decide_false, Bool.false_and, Bool.or_self]

/-- A host is found again in front of a port or of the end of the authority. An address in brackets is the
case for which the split keeps count of them, as it has colons of its own. -/
theorem splitHost_isShown {host : List Char} (shown : Host.IsShown host)
    (ends : ∀ c, rest.head? = some c → c = ':' ∨ endsAuthority kind c = true) :
    splitHost kind false (host ++ rest) = (host, rest) := by
  have stops : splitHost kind false rest = ([], rest) := by
    cases rest with
    | nil => rfl
    | cons c rest =>
      rw [splitHost, if_pos]
      exact (ends c rfl).symm.imp_right fun colon => ⟨colon, Bool.false_ne_true⟩
  -- a shown host is a name without marks, or an address in brackets, in which a colon ends nothing
  rcases shown with plain | ⟨groups, rfl⟩
  · rw [splitHost_append, stops, List.append_nil]
    intro c inside
    have marks := (plain c inside).2
    refine ⟨endsAuthority_of_notMem (Host.notMem_strange marks), ?_, ?_, ?_⟩
    · rintro rfl
      exact absurd (by decide) marks
    · rintro rfl
      exact absurd (by decide) marks
    · rintro rfl
      exact absurd (by decide) marks
  · have opens : ¬ (endsAuthority kind '[' = true ∨ ('[' = ':' ∧ ¬ false = true)) := by
      cases kind <;> decide
    have closes : ¬ (endsAuthority kind ']' = true ∨ (']' = ':' ∧ ¬ true = true)) := by
      cases kind <;> decide
    have inside (c : Char) (member : c ∈ Host.showIpv6 groups) : endsAuthority kind c = false ∧
        (c = ':' → true = true) ∧ c ≠ '[' ∧ c ≠ ']' := by
      rcases Host.mem_showIpv6 member with rfl | ⟨digit, rfl⟩
      · exact ⟨endsAuthority_of_notMem (by decide), fun _ => rfl, by decide, by decide⟩
      · have fine := (Host.digitChar_fine digit).2
        refine ⟨endsAuthority_of_notMem (Host.notMem_strange fine), fun _ => rfl, ?_, ?_⟩
        · intro mark
          exact fine (mark ▸ by decide)
        · intro mark
          exact fine (mark ▸ by decide)
    have closing : splitHost kind true (']' :: rest) = ([']'], rest) := by
      rw [splitHost, if_neg closes, if_neg (by decide), if_pos rfl]
      simp only [stops]
    have whole : '[' :: Host.showIpv6 groups ++ [']'] ++ rest =
        '[' :: (Host.showIpv6 groups ++ ']' :: rest) := by
      simp only [List.cons_append, List.append_assoc, List.nil_append]
    rw [whole, splitHost, if_neg opens, if_pos rfl]
    simp only [splitHost_append inside, closing, List.cons_append]

/-! ## Ports -/

/-- A port is shown as a colon and a number. -/
def IsPort (port : List Char) : Prop :=
  port = [] ∨ ∃ number : Nat, number ≤ 65535 ∧ port = ':' :: Nat.toDigits 10 number

/-- The digits of a number are read up to the first character that is none. -/
theorem digits_append (number : Nat) (rest : List Char)
    (ends : ∀ c, rest.head? = some c → c.isDigit = false) :
    (Nat.toDigits 10 number ++ rest).takeWhile Char.isDigit = Nat.toDigits 10 number ∧
      (Nat.toDigits 10 number ++ rest).dropWhile Char.isDigit = rest :=
  span_append rest (fun _ inside => Nat.isDigit_of_mem_toDigits (by decide) (by decide) inside) ends

/-- The value of the digits of a number is the number again. -/
theorem foldl_toDigits (number : Nat) :
    (Nat.toDigits 10 number).foldl (fun n c => n * 10 + (c.toNat - 48)) 0 = number := by
  have same : (fun n (c : Char) => n * 10 + (c.toNat - 48)) = fun n c => 10 * n + (c.toNat - '0'.toNat) := by
    funext n c
    rw [Nat.mul_comm]
    rfl
  rw [same]
  exact Nat.ofDigitChars_toDigits (by decide) (by decide)

/-- A slash ends an authority for every scheme, and so does what ends a path. -/
theorem endsAuthority_hosted {c : Char} (mark : c = '/' ∨ endsPath c = true) :
    endsAuthority kind c = true := by
  unfold endsAuthority
  rcases mark with rfl | mark
  · rfl
  · rw [mark, Bool.or_true, Bool.true_or]

/-- What ends an authority is no digit, so a port in front of it is read to its end. -/
theorem not_digit_of_ends {c : Char} (ends : c = '/' ∨ endsPath c = true) : c.isDigit = false := by
  simp only [endsPath, Bool.or_eq_true, decide_eq_true_eq] at ends
  rcases ends with rfl | rfl | rfl <;> rfl

/-- A port is read again up to the end of the authority, and what follows is left for the path. -/
theorem readPort_again {number : Nat} (small : number ≤ 65535)
    (ends : ∀ c, rest.head? = some c → c = '/' ∨ endsPath c = true) :
    readPort (Nat.toDigits 10 number ++ rest) = .ok (some number, rest) := by
  obtain ⟨front, back⟩ := digits_append number rest fun c head => not_digit_of_ends (ends c head)
  have some : (Nat.toDigits 10 number).isEmpty = false := List.isEmpty_eq_false_iff.mpr Nat.toDigits_ne_nil
  simp only [readPort, front, back, foldl_toDigits, if_neg (Nat.not_lt.mpr small), some,
    Bool.false_eq_true, if_false]
  cases rest with
  | nil => rfl
  | cons c rest => exact if_pos (endsAuthority_hosted (ends c rfl))

/-- No port has a colon or a letter after it. This is what breaks a URL that ends in a port. -/
theorem readPort_broken {number : Nat} {c : Char} (other : c.isDigit = false)
    (goesOn : endsAuthority .hosted c = false) :
    readPort (Nat.toDigits 10 number ++ c :: rest) = .error .invalidPort := by
  obtain ⟨front, back⟩ := digits_append number (c :: rest) (by rintro d ⟨⟩; exact other)
  simp only [readPort, front, back, goesOn, Bool.false_eq_true, if_false, ite_self]

/-- A port that was read fits two bytes. The premise of `readPort_again` holds of each port that is shown.
-/
theorem readPort_le {port : Option Nat} (done : readPort text = .ok (port, rest)) :
    ∀ number, port = some number → number ≤ 65535 := by
  unfold readPort at done
  dsimp only at done
  split at done
  · cases done
  next small =>
    have fits (found : Option Nat) (same : (if (text.takeWhile Char.isDigit).isEmpty then none
        else some ((text.takeWhile Char.isDigit).foldl (fun n c => n * 10 + (c.toNat - 48)) 0)) = found) :
        ∀ number, found = some number → number ≤ 65535 := by
      rintro number rfl
      split at same
      · cases same
      · cases same
        exact Nat.not_lt.mp small
    split at done
    · cases done
      exact fits _ rfl
    · split at done
      · cases done
        exact fits _ rfl
      · cases done

/-! ## Users -/

/-- A user is shown as a name and a sign after it. -/
def IsUser (user : List Char) : Prop :=
  user = [] ∨ ∃ name, user = name ++ ['@'] ∧ name ≠ [] ∧ ∀ c ∈ name, 32 < c.toNat ∧ c ∉ Host.strange

/-- A hexadecimal digit is a character that may be in a host. -/
theorem digit_notMem_strange : ∀ digit : Fin 16, 32 < (Percent.digit digit.val).toNat ∧
    Percent.digit digit.val ∉ Host.strange := by
  decide

/-- A name or a password is encoded where it has a character that means something around a host, and then
consists of signs and digits. -/
theorem plain_userinfo {c : Char} {text : List Char} (inside : c ∈ Percent.encode Percent.userinfo text) :
    32 < c.toNat ∧ c ∉ Host.strange := by
  rcases Path.mem_encode inside with ⟨-, seen⟩ | rfl | ⟨digit, rfl⟩
  · simp only [Percent.userinfo, Bool.or_eq_false_iff, decide_eq_false_iff_not] at seen
    have path := seen.1.1.1.1.1.1.1.1.1.1
    obtain ⟨solid, query, fragment⟩ := Path.solid_of_plain path
    refine ⟨solid, ?_⟩
    simp only [Host.strange, List.mem_cons, List.not_mem_nil, or_false, seen, query, fragment,
      not_false_eq_true]
  · decide
  · exact digit_notMem_strange digit

/-- A name and a password, encoded, are a user as it is shown, with the sign after them if there is anything
to show. -/
theorem isUser_shown (name password : List Char) :
    let shown := Percent.encode Percent.userinfo name ++
      (if password.isEmpty then [] else ':' :: Percent.encode Percent.userinfo password)
    IsUser (if shown.isEmpty then [] else shown ++ ['@']) := by
  intro shown
  split
  · exact .inl rfl
  next some =>
    refine .inr ⟨shown, rfl, fun none => some (List.isEmpty_iff.mpr none), fun c inside => ?_⟩
    rcases List.mem_append.mp inside with name | password
    · exact plain_userinfo name
    · split at password
      · exact absurd password List.not_mem_nil
      · rcases List.mem_cons.mp password with rfl | password
        · decide
        · exact plain_userinfo password

/-- What was read as a user is shown as one: what could end a user was encoded when it was read, so that it
does so no more. -/
theorem isUser_readUserinfo {user : List Char} (done : readUserinfo kind text = .ok (user, rest)) :
    IsUser user := by
  unfold readUserinfo at done
  dsimp only at done
  split at done
  · cases done
    exact .inl rfl
  · split at done
    · split at done
      · cases done
      · cases done
        exact .inl rfl
    · cases done
      exact isUser_shown _ _

/-- An authority is read up to its end, whatever signs are in it, since a sign does not end it. -/
theorem takeWhile_authority {front : List Char} (plain : ∀ c ∈ front, c ∉ Host.strange ∨ c = '@')
    (ends : ∀ c, rest.head? = some c → endsAuthority kind c = true) :
    (front ++ rest).takeWhile (fun c => !endsAuthority kind c) = front := by
  refine (span_append rest (fun c inside => ?_) fun c head => ?_).1
  · rcases plain c inside with plain | rfl
    · rw [endsAuthority_of_notMem plain]
      rfl
    · cases kind <;> rfl
  · rw [ends c head]
    rfl

/-- A user is read again, in front of what has no sign. The last sign of the authority is then that of the
user. -/
theorem readUserinfo_again {user after : List Char} (isUser : IsUser user)
    (plain : ∀ c ∈ after, c ∉ Host.strange)
    (ends : ∀ c, rest.head? = some c → endsAuthority kind c = true) :
    ∃ again, readUserinfo kind (user ++ (after ++ rest)) = .ok (again, after ++ rest) ∧
      (user = [] → again = []) := by
  have unsigned : '@' ∉ after := fun sign => plain '@' sign (by decide)
  rcases isUser with rfl | ⟨name, rfl, some, solid⟩
  · refine ⟨[], ?_, fun _ => rfl⟩
    have inside := takeWhile_authority (fun c member => .inl (plain c member)) ends
    simp only [readUserinfo, List.nil_append, inside]
    rw [if_pos (by simpa using unsigned)]
  · let inside := name ++ '@' :: after
    have whole : name ++ ['@'] ++ (after ++ rest) = inside ++ rest := by
      simp only [inside, List.append_assoc, List.cons_append, List.nil_append]
    have seen : (inside ++ rest).takeWhile (fun c => !endsAuthority kind c) = inside := by
      refine takeWhile_authority (fun c member => ?_) ends
      rcases List.mem_append.mp member with name | member
      · exact .inl (solid c name).2
      · rcases List.mem_cons.mp member with rfl | after
        · exact .inr rfl
        · exact .inl (plain c after)
    have reversed : inside.reverse = after.reverse ++ '@' :: name.reverse := by
      simp only [inside, List.reverse_append, List.reverse_cons, List.append_assoc, List.cons_append,
        List.nil_append]
    have passes : ∀ c ∈ after.reverse, decide (c ≠ '@') = true :=
      fun c member => decide_eq_true fun sign => unsigned (sign ▸ List.mem_reverse.mp member)
    obtain ⟨back, front⟩ := span_append ('@' :: name.reverse) passes (by rintro c ⟨⟩; rfl)
    have signed : ¬ (!inside.contains '@') = true := by
      simp [inside]
    have filled : ¬ name.isEmpty = true := by
      rw [List.isEmpty_iff]
      exact some
    rw [whole]
    simp only [readUserinfo, seen, if_neg signed, reversed, back, front, List.drop_left,
      List.reverse_reverse, List.reverse_cons, List.dropLast_concat, if_neg filled]
    exact ⟨_, rfl, fun none => absurd none (by simp)⟩

/-! ## Hosts with ports -/

/-- How the port of a host is shown. -/
def showPort (scheme : List Char) : Option Nat → List Char
  | some port => if usualPort? scheme = some port then [] else ':' :: Nat.toDigits 10 port
  | none => []

/-- A port that fits two bytes is shown as one, or not at all where it is the usual one of the scheme. -/
theorem isPort_showPort {scheme : List Char} {port : Option Nat}
    (small : ∀ number, port = some number → number ≤ 65535) : IsPort (showPort scheme port) := by
  cases port with
  | none => exact .inl rfl
  | some number =>
    by_cases usual : usualPort? scheme = some number
    · exact .inl (if_pos usual)
    · exact .inr ⟨number, small number rfl, if_neg usual⟩

/-- A host and what follows it up to the end of the authority. -/
def readAfterHost (scheme host : List Char) : List Char → Except UrlError (List Char × Bool × List Char)
  | ':' :: rest =>
    if host.isEmpty then .error .emptyHost
    else
      match readPort rest with
      | .ok (port, rest) => .ok (host ++ showPort scheme port, true, rest)
      | .error fault => .error fault
  | rest => .ok (host, !host.isEmpty, rest)

/-- What the reader does after a host, step by step, is `readAfterHost`, which the lemmas below take apart.
-/
theorem readAfterHost_eq (scheme host rest : List Char) :
    (match rest with
      | ':' :: rest => do
        if host.isEmpty then throw .emptyHost
        let (port, rest) ← readPort rest
        match port with
        | some port =>
          if usualPort? scheme = some port then pure (host, true, rest)
          else pure (host ++ ':' :: (toString port).toList, true, rest)
        | none => pure (host, true, rest)
      | rest => pure (host, !host.isEmpty, rest)) = readAfterHost scheme host rest := by
  have shows (number : Nat) : (toString number).toList = Nat.toDigits 10 number := Nat.toList_repr
  unfold readAfterHost
  split
  next rest =>
    split
    · rfl
    · cases readPort rest with
      | error fault => rfl
      | ok found =>
        obtain ⟨_ | port, rest⟩ := found
        · simp only [showPort, List.append_nil]
          rfl
        · show (if usualPort? scheme = some port then _ else _) = _
          by_cases usual : usualPort? scheme = some port
          · simp only [showPort, if_pos usual, List.append_nil]
            rfl
          · simp only [showPort, if_neg usual, shows]
            rfl
  next => rfl

/-- The reader of a host and a port splits the host off, reads it by the kind of the scheme, and goes on
after it. -/
theorem readHostAndPort_eq (scheme text : List Char) : readHostAndPort scheme text =
    if (splitHost (kindOf scheme) false text).1.isEmpty ∧ kindOf scheme = .hosted then .error .emptyHost
    else
      match Host.readFor (kindOf scheme) (splitHost (kindOf scheme) false text).1 with
      | .ok host => readAfterHost scheme host (splitHost (kindOf scheme) false text).2
      | .error fault => .error fault := by
  unfold readHostAndPort Host.readFor
  dsimp only
  generalize (splitHost (kindOf scheme) false text).2 = rest
  split
  · rfl
  · split
    · cases Host.read (splitHost (kindOf scheme) false text).1 with
      | error fault => rfl
      | ok host => exact readAfterHost_eq scheme host rest
    · cases Host.readOpaque (splitHost (kindOf scheme) false text).1 with
      | error fault => rfl
      | ok host => exact readAfterHost_eq scheme host rest

/-- What comes of reading after a host: the host is shown as it was, followed by a port or nothing, and
there is no port where there is no host. -/
theorem readAfterHost_cases {scheme host shown : List Char} {hasHost : Bool}
    (done : readAfterHost scheme host text = .ok (shown, hasHost, rest)) :
    ∃ port, shown = host ++ port ∧ IsPort port ∧ hasHost = !host.isEmpty ∧ (host = [] → port = []) := by
  unfold readAfterHost at done
  split at done
  · split at done
    · cases done
    next some =>
      split at done
      next port rest read =>
        cases done
        have filled : host.isEmpty = false := Bool.not_eq_true _ ▸ some
        refine ⟨_, rfl, isPort_showPort (readPort_le read), by rw [filled]; rfl, ?_⟩
        rintro rfl
        cases filled
      · cases done
  · cases done
    exact ⟨[], (List.append_nil _).symm, .inl rfl, rfl, fun _ => rfl⟩

/-! ## Whole authorities -/

/-- An authority as it is shown. -/
structure Authority where
  user : List Char
  host : List Char
  port : List Char

def Authority.chars (authority : Authority) : List Char :=
  authority.user ++ (authority.host ++ authority.port)

/-- An authority that shows what was read. -/
structure Authority.IsShown (kind : SchemeKind) (authority : Authority) : Prop where
  user : IsUser authority.user
  host : ∃ text, Host.readFor kind text = .ok authority.host
  port : IsPort authority.port
  hosted : authority.host = [] → authority.user = [] ∧ authority.port = [] ∧ kind ≠ .hosted

/-- The reader of an authority reads the user, then the host and the port, and refuses a user without a
host. -/
theorem readAuthority_eq (scheme text : List Char) : readAuthority scheme text =
    match readUserinfo (kindOf scheme) text with
    | .error fault => .error fault
    | .ok (user, rest) =>
      match readHostAndPort scheme rest with
      | .error fault => .error fault
      | .ok (host, hasHost, rest) =>
        if !hasHost ∧ ¬user.isEmpty then .error .emptyHost
        else
          let reading := Path.readStart (kindOf scheme) .url true rest
          let (query, fragment) := readTail (kindOf scheme) reading.rest
          .ok ⟨scheme, some (user ++ host), reading.path, query, fragment⟩ := by
  unfold readAuthority
  dsimp only
  cases readUserinfo (kindOf scheme) text with
  | error fault => rfl
  | ok found =>
    obtain ⟨user, rest⟩ := found
    dsimp only [bind, Except.bind]
    cases readHostAndPort scheme rest with
    | error fault => rfl
    | ok found =>
      obtain ⟨host, hasHost, rest⟩ := found
      dsimp only
      split <;> rfl

/-- An authority that was read shows a user, a host that was read from some text, and a port. -/
theorem isShown_readAuthority {scheme : List Char} {parts : Parts}
    (done : readAuthority scheme text = .ok parts) :
    ∃ authority : Authority, parts.authority = some authority.chars ∧
      authority.IsShown (kindOf scheme) := by
  rw [readAuthority_eq] at done
  split at done
  · cases done
  next user rest named =>
    split at done
    · cases done
    next shown hasHost rest' found =>
      rw [readHostAndPort_eq] at found
      split at found
      · cases found
      next hosted =>
        split at found
        next host read =>
          obtain ⟨port, rfl, isPort, has, none⟩ := readAfterHost_cases found
          split at done
          · cases done
          next userless =>
            cases done
            refine ⟨⟨user, host, port⟩, rfl, isUser_readUserinfo named, ⟨_, read⟩, isPort, ?_⟩
            rintro rfl
            refine ⟨?_, none rfl, fun same => ?_⟩
            · simpa [has] using userless
            · refine Host.readFor_ne_nil (fun empty => ?_) read rfl
              exact hosted ⟨List.isEmpty_iff.mpr empty, same⟩
        next => cases found

variable {scheme : List Char} {authority : Authority}

/-- Nothing in the host and the port of an authority is a blank, nor a character that no host has. -/
theorem Authority.IsShown.solid (shown : authority.IsShown kind) :
    ∀ c ∈ authority.host ++ authority.port, 32 < c.toNat ∧ c ∉ Host.strange := by
  obtain ⟨text, read⟩ := shown.host
  intro c inside
  rcases List.mem_append.mp inside with host | port
  · exact (Host.isShown_readFor read).solid c host
  · rcases shown.port with none | ⟨number, -, same⟩
    · rw [none] at port
      exact absurd port List.not_mem_nil
    · rw [same] at port
      rcases List.mem_cons.mp port with rfl | inside
      · decide
      · obtain ⟨digit, rfl⟩ := Host.mem_toDigits (by decide) (by decide) inside
        exact (Host.digitChar_fine digit).imp_right Host.notMem_strange

/-- In particular there is no sign in them, which is what reading the user again needs. -/
theorem Authority.IsShown.plain (shown : authority.IsShown kind) :
    ∀ c ∈ authority.host ++ authority.port, c ∉ Host.strange :=
  fun c inside => (shown.solid c inside).2

/-- The host and the port are found again. The host may be read as another text than it is shown by, but not
as none. -/
theorem Authority.IsShown.readHostAndPort (shown : authority.IsShown (kindOf scheme))
    (ends : ∀ c, rest.head? = some c → c = ':' ∨ endsAuthority (kindOf scheme) c = true) :
    ∃ again, (authority.host ≠ [] → again ≠ []) ∧
      Url.readHostAndPort scheme (authority.host ++ (authority.port ++ rest)) =
        readAfterHost scheme again (authority.port ++ rest) := by
  obtain ⟨text, read⟩ := shown.host
  obtain ⟨again, readAgain⟩ := Host.readFor_again read
  have follows : ∀ c, (authority.port ++ rest).head? = some c →
      c = ':' ∨ endsAuthority (kindOf scheme) c = true := by
    intro c head
    rcases shown.port with none | ⟨number, -, same⟩
    · rw [none, List.nil_append] at head
      exact ends c head
    · rw [same] at head
      cases head
      exact .inl rfl
  have split := splitHost_isShown (Host.isShown_readFor read) follows
  have hosted : ¬ (authority.host.isEmpty = true ∧ kindOf scheme = .hosted) := fun both =>
    (shown.hosted (List.isEmpty_iff.mp both.1)).2.2 both.2
  refine ⟨again, fun some => Host.readFor_ne_nil some readAgain, ?_⟩
  rw [readHostAndPort_eq, split, if_neg hosted, readAgain]

/-- What is shown is read again, whatever comes after its end. By the user, the host and the port in turn.
-/
theorem readAuthority_again (shown : authority.IsShown (kindOf scheme))
    (ends : ∀ c, rest.head? = some c → c = '/' ∨ endsPath c = true) :
    ∃ parts, readAuthority scheme (authority.chars ++ rest) = .ok parts := by
  have stops (c : Char) (head : rest.head? = some c) : endsAuthority (kindOf scheme) c = true :=
    endsAuthority_hosted (ends c head)
  obtain ⟨user, named, userless⟩ := readUserinfo_again shown.user shown.plain stops
  obtain ⟨again, filled, found⟩ := shown.readHostAndPort fun c head => .inr (stops c head)
  have ported : ∃ host, readAfterHost scheme again (authority.port ++ rest) =
      .ok (host, !again.isEmpty, rest) := by
    rcases shown.port with none | ⟨number, small, same⟩
    · rw [none, List.nil_append]
      refine ⟨again, ?_⟩
      unfold readAfterHost
      split
      next rest =>
        have mark := ends ':' rfl
        exact absurd mark (by decide)
      next => rfl
    · have some : again ≠ [] := filled fun none => by
        have port := (shown.hosted none).2.1
        rw [same] at port
        cases port
      have some : again.isEmpty = false := List.isEmpty_eq_false_iff.mpr some
      rw [same, List.cons_append, readAfterHost, some, if_neg Bool.false_ne_true,
        readPort_again small ends]
      exact ⟨_, rfl⟩
  obtain ⟨host, ported⟩ := ported
  rw [Authority.chars, List.append_assoc, readAuthority_eq, named]
  simp only [List.append_assoc, found, ported]
  rw [if_neg]
  · exact ⟨_, rfl⟩
  · rintro ⟨none, some⟩
    have empty : again = [] := by simpa using none
    have hostless : authority.host = [] := by
      by_contra host
      exact filled host empty
    rw [userless (shown.hosted hostless).1] at some
    exact some rfl

/-- With a colon and a letter after it, there is no authority: after a host they are no port, after a port
they go on with it, and without a host there is none in front of the colon. -/
theorem readAuthority_broken (shown : authority.IsShown (kindOf scheme)) :
    ∃ fault, readAuthority scheme (authority.chars ++ [':', 'x']) = .error fault := by
  have plain : ∀ c ∈ authority.host ++ (authority.port ++ [':', 'x']), c ∉ Host.strange := by
    rw [← List.append_assoc]
    refine List.forall_mem_append.mpr ⟨shown.plain, List.forall_mem_cons.mpr ⟨by decide, ?_⟩⟩
    exact List.forall_mem_singleton.mpr (by decide)
  have stops : ∀ c, ([] : List Char).head? = some c → endsAuthority (kindOf scheme) c = true := nofun
  have colon : ∀ c, [':', 'x'].head? = some c → c = ':' ∨ endsAuthority (kindOf scheme) c = true := by
    rintro c ⟨⟩
    exact .inl rfl
  obtain ⟨user, named, -⟩ := readUserinfo_again shown.user plain stops
  obtain ⟨again, filled, found⟩ := shown.readHostAndPort colon
  have ported : ∃ fault, readAfterHost scheme again (authority.port ++ [':', 'x']) = .error fault := by
    by_cases empty : again.isEmpty = true
    · rcases shown.port with none | ⟨number, -, same⟩
      · rw [none, List.nil_append, readAfterHost, if_pos empty]
        exact ⟨_, rfl⟩
      · rw [same, List.cons_append, readAfterHost, if_pos empty]
        exact ⟨_, rfl⟩
    · rcases shown.port with none | ⟨number, -, same⟩
      · rw [none, List.nil_append, readAfterHost, if_neg empty]
        exact ⟨.invalidPort, rfl⟩
      · rw [same, List.cons_append, readAfterHost, if_neg empty, readPort_broken rfl rfl]
        exact ⟨_, rfl⟩
  obtain ⟨fault, ported⟩ := ported
  rw [List.append_nil] at named
  rw [Authority.chars, List.append_assoc, List.append_assoc, readAuthority_eq, named]
  simp only [found, ported]
  exact ⟨fault, rfl⟩

end Url

end LanguageClient
