import LanguageClient.Proofs.Reading.Numbers
import LanguageClient.Proofs.Scoping.Names

/-!
# Hosts that are shown are read again

A host is shown as an address in brackets or as a text without the characters that mean something around a
host (`Host.IsShown`). Such a host is found again in front of a port or of what ends the authority
(`Url.splitHost_isShown`), and what was read as a host is read as one again when it is shown
(`Host.readFor_again`).
-/

namespace LanguageClient

namespace Percent

/-- No character is encoded by nothing. -/
theorem encodeChar_ne_nil (set : Char → Bool) (c : Char) : encodeChar set c ≠ [] := by
  unfold encodeChar
  split
  · obtain ⟨first, rest, same⟩ := List.exists_cons_of_ne_nil (String.utf8EncodeChar_ne_nil (c := c))
    rw [same, List.flatMap_cons]
    exact List.append_ne_nil_of_left_ne_nil (List.cons_ne_nil _ _) _
  · exact List.cons_ne_nil _ _

end Percent

namespace Host

variable {text host : List Char} {c : Char}

/-- The characters that mean something around a host. -/
def marks : List Char := ['/', '\\', '?', '#', '@', ':', '[', ']']

/-- How a host is shown. -/
def IsShown (host : List Char) : Prop :=
  (∀ c ∈ host, 32 < c.toNat ∧ c ∉ marks) ∨ ∃ groups, host = '[' :: showIpv6 groups ++ [']']

/-- The characters that no host has. -/
def strange : List Char := ['/', '\\', '?', '#', '@']

/-- A digit of an IPv6 address is a character that means nothing around a host. -/
theorem digitChar_fine : ∀ digit : Fin 16, 32 < (Nat.digitChar digit.val).toNat ∧
    Nat.digitChar digit.val ∉ marks := by
  decide

/-- Of the characters that mean something around a host, a colon and the brackets are in some hosts; the
strange ones are in none. -/
theorem notMem_strange (plain : c ∉ marks) : c ∉ strange := by
  simp only [marks, strange, List.mem_cons, List.not_mem_nil, or_false, not_or] at plain ⊢
  exact ⟨plain.1, plain.2.1, plain.2.2.1, plain.2.2.2.1, plain.2.2.2.2.1⟩

/-- A host that is shown has neither a blank nor a strange character, whether it is in brackets or not. -/
theorem IsShown.solid (shown : IsShown host) : ∀ c ∈ host, 32 < c.toNat ∧ c ∉ strange := by
  intro c inside
  rcases shown with plain | ⟨groups, rfl⟩
  · exact ⟨(plain c inside).1, notMem_strange (plain c inside).2⟩
  · simp only [List.cons_append, List.mem_cons, List.mem_append, List.not_mem_nil, or_false] at inside
    rcases inside with rfl | inside | rfl
    · decide
    · rcases mem_showIpv6 inside with rfl | ⟨digit, rfl⟩
      · decide
      · exact ⟨(digitChar_fine digit).1, notMem_strange (digitChar_fine digit).2⟩
    · decide

/-! ## Names and IPv4 addresses -/

/-- A text of plain characters with nothing encoded in it is decoded as itself. -/
theorem decodeAscii?_eq_self (plain : ∀ c ∈ text, c ≠ '%' ∧ c.toNat < 128) :
    Percent.decodeAscii? text = some text := by
  induction text with
  | nil => rfl
  | cons c text ih =>
    have here := plain c List.mem_cons_self
    rw [Percent.decodeAscii?.eq_3 _ _ fun _ _ _ sign _ => here.1 sign, if_pos here.2,
      ih fun d member => plain d (List.mem_cons_of_mem _ member)]
    rfl

/-- What a name may contain is no blank, is plain, and means nothing around a host. -/
theorem ascii_of_allowed (allowed : forbiddenInName c = false) :
    32 < c.toNat ∧ c.toNat < 128 ∧ c ≠ '%' ∧ c ∉ marks := by
  simp only [forbiddenInName, Bool.or_eq_false_iff, decide_eq_false_iff_not] at allowed
  simp only [marks, List.mem_cons, List.not_mem_nil, or_false, allowed, not_false_eq_true, and_true,
    ne_eq]
  omega

/-- What may be a name and is in lower case reads as itself, or as an address if it ends in a number. -/
theorem read_allowed (some : host ≠ []) (allowed : ∀ c ∈ host, forbiddenInName c = false)
    (small : ∀ c ∈ host, c.toLower = c) :
    read host = if endsInNumber host then ipv4 host else .ok host := by
  have ascii (c : Char) (inside : c ∈ host) := ascii_of_allowed (allowed c inside)
  have plain : host.head? ≠ .some '[' := fun bracket =>
    (ascii '[' (List.mem_of_head? bracket)).2.2.2 (by decide)
  have clean : ¬ host.any forbiddenInName = true := by
    rw [List.any_eq_true]
    rintro ⟨c, inside, bad⟩
    exact Bool.false_ne_true ((allowed c inside).symm.trans bad)
  have lowered : host.map Char.toLower = host :=
    (List.map_congr_left (g := id) small).trans (List.map_id host)
  have decoded : Percent.decodeAscii? host = .some host :=
    decodeAscii?_eq_self fun c inside => ⟨(ascii c inside).2.2.1, (ascii c inside).2.1⟩
  have filled : ¬ host.isEmpty = true := by
    rw [List.isEmpty_iff]
    exact some
  rw [read, if_neg plain, decoded]
  simp only [if_neg clean, if_neg filled, lowered]

/-- An IPv4 address that is shown consists of what a name may contain, in lower case. -/
theorem allowed_dotted {address : Nat} (inside : c ∈ dotted address) :
    forbiddenInName c = false ∧ c.toLower = c := by
  rcases mem_dotted inside with rfl | digit
  · decide
  · exact forall_ascii
      (fun c => c.isDigit = true → forbiddenInName c = false ∧ c.toLower = c) (by decide)
      (Nat.lt_of_le_of_lt (Char.isDigit_iff_toNat.mp digit).2 (by decide)) digit

/-- An IPv4 address is shown by some text. -/
theorem dotted_ne_nil (address : Nat) : dotted address ≠ [] := by
  rw [dotted_eq]
  simp only [bytes, List.map_cons, List.intercalate_cons_cons]
  exact List.append_ne_nil_of_left_ne_nil
    (List.append_ne_nil_of_left_ne_nil Nat.toDigits_ne_nil _) _

/-- What shows an IPv4 address is read as a host again, as one that ends in a number or as a name. -/
theorem read_dotted (address : Nat) : ∃ again, read (dotted address) = .ok again := by
  rw [read_allowed (dotted_ne_nil address) (fun c inside => (allowed_dotted inside).1)
    fun c inside => (allowed_dotted inside).2]
  split
  · exact ipv4_dotted address
  · exact ⟨_, rfl⟩

/-! ## Addresses in brackets -/

/-- What shows the groups that were read of an IPv6 address is read as one again, in its brackets. The
groups were read from a text, so there are eight of them. -/
theorem bracketed_showIpv6 {inside : List Char} {groups : List Nat} (found : ipv6? inside = some groups) :
    ∃ again, bracketed ('[' :: showIpv6 groups ++ [']']) = .ok again := by
  obtain ⟨eight, small⟩ := ipv6?_fits found
  obtain ⟨shown, read⟩ := ipv6?_showIpv6 eight small
  have closed : ¬ ('[' :: showIpv6 groups ++ [']']).getLast? ≠ some ']' :=
    not_not_intro List.getLast?_concat
  have between : (('[' :: showIpv6 groups ++ [']']).drop 1).dropLast = showIpv6 groups :=
    List.dropLast_concat
  rw [bracketed, if_neg closed, between, read]
  exact ⟨_, rfl⟩

/-! ## All hosts -/

/-- What the host of a URL is read as. -/
def readFor (kind : SchemeKind) (text : List Char) : Except UrlError (List Char) :=
  if kind.special then read text else readOpaque text

/-- What encodes a character may be in an opaque host. -/
theorem digit_unforbidden : ∀ n : Fin 16, 32 < (Percent.digit n.val).toNat ∧
    forbiddenInOpaque (Percent.digit n.val) = false := by
  decide

/-- An opaque host that was read is an IPv6 address in brackets, or has no blank in it and nothing that is
forbidden, since the rest is encoded. -/
theorem readOpaque_cases (done : readOpaque text = .ok host) :
    (∃ inside groups, ipv6? inside = some groups ∧ host = '[' :: showIpv6 groups ++ [']']) ∨
      ∀ c ∈ host, 32 < c.toNat ∧ forbiddenInOpaque c = false := by
  unfold readOpaque at done
  split at done
  next => exact .inl ⟨_, bracketed_cases done⟩
  next =>
    split at done
    · cases done
    next clean =>
      cases done
      right
      intro c inside
      rcases Path.mem_encode inside with ⟨member, seen⟩ | rfl | ⟨digit, rfl⟩
      · have fine : forbiddenInOpaque c = false := by
          simpa using fun bad => clean (List.any_eq_true.mpr ⟨c, member, bad⟩)
        have blank : c.toNat ≠ 32 := by
          intro same
          obtain rfl : c = ' ' := Char.toNat_inj.mp same
          cases fine
        refine ⟨?_, fine⟩
        simp only [Percent.control, Bool.or_eq_false_iff, decide_eq_false_iff_not] at seen
        omega
      · decide
      · exact digit_unforbidden digit

/-- What was read as a host is shown as one, for every kind of scheme. -/
theorem isShown_readFor {kind : SchemeKind} (done : readFor kind text = .ok host) : IsShown host := by
  unfold readFor at done
  split at done
  · rcases read_cases done with ⟨-, groups, -, rfl⟩ | ⟨address, rfl⟩ | isName
    · exact .inr ⟨groups, rfl⟩
    · refine .inl fun c inside => ?_
      obtain ⟨solid, -, -, plain⟩ := ascii_of_allowed (allowed_dotted inside).1
      exact ⟨solid, plain⟩
    · refine .inl fun c inside => ?_
      obtain ⟨solid, -, -, plain⟩ := ascii_of_allowed (isName.allowed c inside)
      exact ⟨solid, plain⟩
  · rcases readOpaque_cases done with ⟨-, groups, -, rfl⟩ | allowed
    · exact .inr ⟨groups, rfl⟩
    · refine .inl fun c inside => ⟨(allowed c inside).1, ?_⟩
      have fine := (allowed c inside).2
      simp only [forbiddenInOpaque, Bool.or_eq_false_iff, decide_eq_false_iff_not] at fine
      simp only [marks, List.mem_cons, List.not_mem_nil, or_false, fine, not_false_eq_true]

/-- A host that was read and is shown is read as a host again. It need not be the same one: the claim is
only that reading does not fail. -/
theorem readFor_again {kind : SchemeKind} (done : readFor kind text = .ok host) :
    ∃ again, readFor kind host = .ok again := by
  have bracket (groups : List Nat) : ('[' :: showIpv6 groups ++ [']']).head? = some '[' := rfl
  unfold readFor at done ⊢
  split at done
  next special =>
    rw [if_pos special]
    rcases read_cases done with ⟨inside, groups, found, rfl⟩ | ⟨address, rfl⟩ | isName
    · rw [read, if_pos (bracket groups)]
      exact bracketed_showIpv6 found
    · exact read_dotted address
    · rw [read_allowed isName.some isName.allowed isName.small, isName.unnumbered]
      exact ⟨_, rfl⟩
  next plain =>
    rw [if_neg plain]
    rcases readOpaque_cases done with ⟨inside, groups, found, rfl⟩ | allowed
    · rw [readOpaque, if_pos (bracket groups)]
      exact bracketed_showIpv6 found
    · have opened : host.head? ≠ some '[' := fun bracket =>
        absurd (allowed '[' (List.mem_of_head? bracket)).2 (by decide)
      have clean : ¬ host.any forbiddenInOpaque = true := by
        rw [List.any_eq_true]
        rintro ⟨c, inside, bad⟩
        exact Bool.false_ne_true ((allowed c inside).2.symm.trans bad)
      rw [readOpaque, if_neg opened, if_neg clean]
      exact ⟨_, rfl⟩

/-- What is read of some text is shown by some text, so an authority with a host does not lose it. -/
theorem readFor_ne_nil {kind : SchemeKind} (some : text ≠ []) (done : readFor kind text = .ok host) :
    host ≠ [] := by
  unfold readFor at done
  split at done
  · rcases read_cases done with ⟨-, groups, -, rfl⟩ | ⟨address, rfl⟩ | isName
    · exact List.cons_ne_nil _ _
    · exact dotted_ne_nil address
    · exact isName.some
  · obtain ⟨c, rest, rfl⟩ := List.exists_cons_of_ne_nil some
    unfold readOpaque at done
    split at done
    next =>
      obtain ⟨groups, -, rfl⟩ := bracketed_cases done
      exact List.cons_ne_nil _ _
    next =>
      split at done
      · cases done
      · cases done
        rw [Percent.encode, List.flatMap_cons]
        exact List.append_ne_nil_of_left_ne_nil (Percent.encodeChar_ne_nil _ _) _

end Host

end LanguageClient
