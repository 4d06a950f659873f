import LanguageClient.Proofs.Scoping.Hosts

/-!
# Addresses that are shown are read again

The text that shows the four numbers of an IPv4 address reads as an address (`Host.ipv4_dotted`). So does the
text that shows the eight groups of an IPv6 address, with the longest run of zeros left out or not
(`Host.ipv6?_showIpv6`): that run is at least two groups long, so the double colon, which counts as one
group, always finds its place.

Neither part says that the same numbers are read.
-/

namespace LanguageClient

namespace Host

/-! ## IPv4 -/

/-- Every text has a label, an empty one if need be. -/
theorem labels_ne_nil (text : List Char) : labels text ≠ [] := by
  unfold labels
  split
  · exact List.cons_ne_nil _ _
  · exact List.cons_ne_nil _ _
  · split
    · exact List.cons_ne_nil _ _
    · exact List.cons_ne_nil _ _

/-- A character that is no dot goes to the label that it stands in front of. -/
theorem labels_cons {c : Char} (other : c ≠ '.') (text : List Char) :
    ∃ label rest, labels text = label :: rest ∧ labels (c :: text) = (c :: label) :: rest := by
  obtain ⟨label, rest, same⟩ := List.exists_cons_of_ne_nil (labels_ne_nil text)
  refine ⟨label, rest, same, ?_⟩
  rw [labels.eq_3 _ _ other, same]

/-- A text without a dot is one label. -/
theorem labels_self {label : List Char} (plain : '.' ∉ label) : labels label = [label] := by
  induction label with
  | nil => rfl
  | cons c label ih =>
    have other : c ≠ '.' := fun dot => plain (dot ▸ List.mem_cons_self)
    obtain ⟨first, rest, same, more⟩ := labels_cons other label
    rw [ih fun inside => plain (List.mem_cons_of_mem _ inside)] at same
    cases same
    exact more

/-- A text without a dot in front of a dot is the first label of the whole. -/
theorem labels_append {label : List Char} (plain : '.' ∉ label) (text : List Char) :
    labels (label ++ '.' :: text) = label :: labels text := by
  induction label with
  | nil => rfl
  | cons c label ih =>
    have other : c ≠ '.' := fun dot => plain (dot ▸ List.mem_cons_self)
    obtain ⟨first, rest, same, more⟩ := labels_cons other (label ++ '.' :: text)
    rw [ih fun inside => plain (List.mem_cons_of_mem _ inside)] at same
    cases same
    exact more

/-- The labels of texts that have dots between them are these texts. -/
theorem labels_intercalate {texts : List (List Char)} (some : texts ≠ [])
    (plain : ∀ text ∈ texts, '.' ∉ text) : labels (['.'].intercalate texts) = texts := by
  match texts, some, plain with
  | [text], _, plain =>
    rw [List.intercalate_singleton]
    exact labels_self (plain text List.mem_cons_self)
  | text :: next :: rest, _, plain =>
    have later := labels_intercalate (List.cons_ne_nil next rest)
      fun other member => plain other (List.mem_cons_of_mem _ member)
    rw [List.intercalate_cons_cons, List.append_assoc, List.singleton_append,
      labels_append (plain text List.mem_cons_self), later]

/-- The decimal digits of a byte are read as that byte: they do not begin with a zero unless it is all there
is, so nothing is taken for octal. -/
theorem labelNumber?_byte : ∀ byte : Fin 256,
    labelNumber? (Nat.toDigits 10 byte.val) = some byte.val := by
  decide +kernel

/-- Four bytes are always an address. -/
theorem address?_bytes {a b c d : Nat} (first : a < 256) (second : b < 256) (third : c < 256)
    (last : d < 256) : (address? [a, b, c, d]).isSome := by
  have allowed : [c, b, a].any (fun n => decide (255 < n)) = false := by
    simp only [List.any_cons, List.any_nil, Bool.or_false, Bool.or_eq_false_iff,
      decide_eq_false_iff_not]
    omega
  have fits : ¬ Nat.pow 256 (4 - [c, b, a].length) ≤ d := Nat.not_le.mpr last
  simp only [address?, List.reverse_cons, List.reverse_nil, List.nil_append, List.cons_append, allowed,
    if_neg fits]
  rfl

/-- There is no dot among the digits of a number. -/
theorem plain_toDigits (n : Nat) : '.' ∉ Nat.toDigits 10 n := fun inside =>
  absurd (Nat.isDigit_of_mem_toDigits (by decide) (by decide) inside) (by decide)

/-- What shows an IPv4 address reads as one: its labels are four bytes. -/
theorem ipv4_dotted (address : Nat) : ∃ shown, ipv4 (dotted address) = .ok shown := by
  have small (shift : Nat) : address / Nat.pow 2 shift % 256 < 256 := Nat.mod_lt _ (by decide)
  have split : labels (dotted address) = (bytes address).map (Nat.toDigits 10) := by
    rw [dotted_eq]
    refine labels_intercalate (List.cons_ne_nil _ _) ?_
    exact List.forall_mem_map.mpr fun byte _ => plain_toDigits byte
  have closed : ((bytes address).map (Nat.toDigits 10)).getLast? ≠ some [] := by
    intro none
    exact Nat.toDigits_ne_nil (Option.some.inj none)
  have numbers : ((bytes address).map (Nat.toDigits 10)).mapM labelNumber? = some (bytes address) := by
    have each (shift : Nat) := labelNumber?_byte ⟨_, small shift⟩
    simp only [bytes, List.map_cons, List.map_nil, List.mapM_cons, List.mapM_nil, each]
    rfl
  obtain ⟨shown, read⟩ := Option.isSome_iff_exists.mp
    (address?_bytes (small 24) (small 16) (small 8) (small 0))
  refine ⟨dotted shown, ?_⟩
  have read : address? (bytes address) = some shown := read
  simp only [ipv4, split, if_neg closed, numbers, read]

/-! ## What an IPv6 address consists of -/

/-- A number of so many digits is below that power of its base. -/
theorem numberIn_lt {base : Nat} {text : List Char} (digits : ∀ c ∈ text, (Percent.hex? c).getD 0 < base) :
    numberIn base text < Nat.pow base text.length := by
  have go (text : List Char) (n : Nat) (digits : ∀ c ∈ text, (Percent.hex? c).getD 0 < base) :
      text.foldl (fun n c => n * base + (Percent.hex? c).getD 0) n < (n + 1) * Nat.pow base text.length := by
    induction text generalizing n with
    | nil => simp
    | cons c text ih =>
      have later := ih (n * base + (Percent.hex? c).getD 0)
        fun d member => digits d (List.mem_cons_of_mem _ member)
      have here : n * base + (Percent.hex? c).getD 0 + 1 ≤ (n + 1) * base := by
        have digit := digits c List.mem_cons_self
        rw [Nat.add_mul, Nat.one_mul]
        omega
      have power : Nat.pow base (text.length + 1) = base * Nat.pow base text.length := Nat.pow_succ'
      rw [List.foldl_cons, List.length_cons, power, ← Nat.mul_assoc]
      exact Nat.lt_of_lt_of_le later (Nat.mul_le_mul_right _ here)
  simpa [numberIn] using go text 0 digits

/-- The value of a hexadecimal digit is below sixteen, for digits and for letters of either case. -/
theorem hex?_lt {c : Char} {n : Nat} (digit : Percent.hex? c = some n) : n < 16 := by
  unfold Percent.hex? at digit
  simp only [Char.le_def, UInt32.le_iff_toNat_le] at digit
  split at digit
  next decimal =>
    cases digit
    have high : c.toNat ≤ 57 := decimal.2
    omega
  next =>
    split at digit
    next small =>
      cases digit
      have high : c.toNat ≤ 102 := small.2
      omega
    next =>
      split at digit
      next capital =>
        cases digit
        have high : c.toNat ≤ 70 := capital.2
        omega
      next => cases digit

/-- Groups that were read: each fits two bytes, and there is place for all of them. -/
structure Groups.Fits (g : Groups) : Prop where
  position : g.position ≤ 8
  before : ∀ n ∈ g.before, n < 65536
  after : ∀ n ∈ g.after.getD [], n < 65536

/-- Each group that is read takes one place. -/
theorem Groups.position_push (g : Groups) (n : Nat) : (g.push n).position = g.position + 1 := by
  obtain ⟨before, _ | after⟩ := g
  · simp [Groups.push, Groups.position, Groups.count]
  · simp [Groups.push, Groups.position, Groups.count]
    omega

/-- Groups with one more, if there is place for it and it fits two bytes. -/
theorem Groups.Fits.push {g : Groups} (fits : g.Fits) (room : g.position < 8) {n : Nat}
    (small : n < 65536) : (g.push n).Fits := by
  refine ⟨by rw [Groups.position_push]; exact room, ?_, ?_⟩
  · obtain ⟨before, _ | after⟩ := g
    · exact List.forall_mem_append.mpr ⟨fits.before, List.forall_mem_singleton.mpr small⟩
    · exact fits.before
  · obtain ⟨before, _ | after⟩ := g
    · exact fits.after
    · exact List.forall_mem_append.mpr ⟨fits.after, List.forall_mem_singleton.mpr small⟩

/-- There is place for a double colon where there is place for a group. -/
theorem Groups.Fits.opened {g : Groups} (fits : g.Fits) (room : g.position < 8) (single : g.after = none) :
    Groups.Fits ⟨g.before, some []⟩ := by
  refine ⟨?_, fits.before, fun _ inside => absurd inside List.not_mem_nil⟩
  simp only [Groups.position, Groups.count, single, Option.getD_none, Option.getD_some,
    Option.isSome_none, Option.isSome_some, List.length_nil, Bool.false_eq_true, if_false,
    if_true] at room ⊢
  exact room

/-- Up to four hexadecimal digits are a number that fits two bytes. -/
theorem group_lt (text : List Char) :
    numberIn 16 ((text.take 4).takeWhile fun c => (Percent.hex? c).isSome) < 65536 := by
  let digits := (text.take 4).takeWhile fun c => (Percent.hex? c).isSome
  have short : digits.length ≤ 4 :=
    Nat.le_trans (List.takeWhile_sublist _).length_le (List.length_take_le 4 text)
  have hexadecimal : ∀ c ∈ digits, (Percent.hex? c).getD 0 < 16 := by
    intro c inside
    have digit := List.mem_takeWhile_imp (p := fun c => (Percent.hex? c).isSome) inside
    obtain ⟨n, digit⟩ := Option.isSome_iff_exists.mp digit
    rw [digit]
    exact hex?_lt digit
  exact Nat.lt_of_lt_of_le (numberIn_lt hexadecimal) (Nat.pow_le_pow_right (by decide) short)

/-- A byte that was read is one. -/
theorem byte?_le {text rest : List Char} {n : Nat} (read : byte? text = some (n, rest)) : n ≤ 255 := by
  unfold byte? at read
  dsimp only at read
  split at read
  · cases read
  next allowed =>
    cases read
    simp only [Bool.or_eq_true, decide_eq_true_eq, not_or, Nat.not_lt] at allowed
    exact allowed.2

/-- Four bytes are two groups, each of which fits two bytes, since a group is put together of two numbers
below 256. -/
theorem quad?_fits {text : List Char} {numbers : List Nat} (read : quad? text = some numbers) :
    ∃ m n, numbers = [m, n] ∧ m < 65536 ∧ n < 65536 := by
  simp only [quad?, Option.bind_eq_bind, Option.bind_eq_some_iff] at read
  obtain ⟨⟨a, _⟩, first, ⟨b, _⟩, ⟨_, -, second⟩, ⟨c, _⟩, ⟨_, -, third⟩, ⟨d, _⟩, ⟨_, -, last⟩, read⟩ := read
  dsimp only at read
  split at read
  · cases read
    have first := byte?_le first
    have second := byte?_le second
    have third := byte?_le third
    have last := byte?_le last
    exact ⟨_, _, rfl, by omega, by omega⟩
  · cases read

/-- There is nothing to read where no place is left. -/
theorem groups?_full {fuel : Nat} {g : Groups} {text : List Char} (some : text ≠ [])
    (full : g.position = 8) : groups? (fuel + 1) g text = none := by
  by_cases colon : text.head? = .some ':'
  · obtain ⟨rest, rfl⟩ := List.head?_eq_some_iff.mp colon
    rw [groups?.eq_3, full]
    rfl
  · rw [groups?.eq_4 g text fuel some fun rest same => colon (congrArg List.head? same), if_pos full]

/-- What is read where no colon comes first: a group up to the end, four bytes in place of the last two
groups, or a group and what follows the colon. -/
theorem groups?_group {fuel : Nat} {g : Groups} {text : List Char} (some : text ≠ [])
    (other : text.head? ≠ .some ':') (room : g.position ≠ 8) :
    groups? (fuel + 1) g text =
      (let digits := (text.take 4).takeWhile fun c => (Percent.hex? c).isSome
      match text.drop digits.length with
      | [] => .some (g.push (numberIn 16 digits))
      | '.' :: _ =>
        if digits.isEmpty || 6 < g.position then none
        else (quad? text).map fun numbers => numbers.foldl Groups.push g
      | ':' :: rest => if rest.isEmpty then none else groups? fuel (g.push (numberIn 16 digits)) rest
      | _ => none) := by
  exact (groups?.eq_4 g text fuel some fun rest same => other (congrArg List.head? same)).trans
    (if_neg room)

/-- Reading keeps the groups within their places. By induction on the fuel, with a case for each way in
which the text may go on. -/
theorem groups?_fits {fuel : Nat} {g read : Groups} {text : List Char} (fits : g.Fits)
    (done : groups? fuel g text = some read) : read.Fits := by
  -- A round takes the place of a group, or of two for four bytes, and does so only where it is left.
  induction fuel generalizing g text with
  | zero =>
    rw [groups?] at done
    cases done
  | succ fuel ih =>
    by_cases none : text = []
    · rw [none, groups?.eq_2 _ _ (Nat.succ_ne_zero fuel)] at done
      cases done
      exact fits
    by_cases full : g.position = 8
    · rw [groups?_full none full] at done
      cases done
    have room : g.position < 8 := Nat.lt_of_le_of_ne fits.position full
    by_cases colon : text.head? = some ':'
    · obtain ⟨rest, rfl⟩ := List.head?_eq_some_iff.mp colon
      rw [groups?.eq_3] at done
      split at done
      · cases done
      next open_ =>
        have single : g.after = .none := by
          cases after : g.after with
          | none => rfl
          | some _ => simp [after] at open_
        exact ih (fits.opened room single) done
    · rw [groups?_group none colon full] at done
      have more := fits.push room (group_lt text)
      dsimp only at done
      split at done
      · cases done
        exact more
      · split at done
        · cases done
        next early =>
          simp only [Bool.or_eq_true, decide_eq_true_eq, not_or, Nat.not_lt] at early
          obtain ⟨numbers, found, rfl⟩ := Option.map_eq_some_iff.mp done
          obtain ⟨m, n, rfl, first, second⟩ := quad?_fits found
          refine (fits.push room first).push ?_ second
          rw [Groups.position_push]
          omega
      · split at done
        · cases done
        · exact ih more done
      · cases done

/-- All groups, with zeros for the double colon. -/
def Groups.all? (g : Groups) : Option (List Nat) :=
  match g.after with
  | none => if g.before.length = 8 then some g.before else none
  | some after => some (g.before ++ List.replicate (8 - g.count) 0 ++ after)

/-- The groups of a text, of which a double colon may come first. -/
def ipv6Groups? (text : List Char) : Option Groups :=
  match text with
  | ':' :: ':' :: rest => groups? (text.length + 1) ⟨[], some []⟩ rest
  | ':' :: _ => none
  | _ => groups? (text.length + 1) ⟨[], none⟩ text

/-- The reader of an IPv6 address as reading its groups and then filling the double colon with zeros. -/
theorem ipv6?_eq (text : List Char) :
    ipv6? text = if text.length < 2 then none else ipv6Groups? text >>= Groups.all? := by
  unfold ipv6?
  split
  next => rfl
  next tail single =>
    rw [ipv6Groups?.eq_2 tail single]
    split <;> rfl
  next double single =>
    rw [ipv6Groups?.eq_3 text double single]
    split <;> rfl

/-- Groups that fit are eight groups of two bytes, once the double colon is filled with zeros. It takes at
least one place, so the zeros are as many as are missing. -/
theorem Groups.Fits.all? {g : Groups} {groups : List Nat} (fits : g.Fits)
    (shown : g.all? = some groups) : groups.length = 8 ∧ ∀ n ∈ groups, n < 65536 := by
  have place := fits.position
  obtain ⟨before, _ | after⟩ := g
  · simp only [Groups.all?] at shown
    split at shown
    next eight =>
      cases shown
      exact ⟨eight, fits.before⟩
    next => cases shown
  · cases shown
    simp only [Groups.position, Groups.count, Option.getD_some, Option.isSome_some, if_true] at place ⊢
    refine ⟨?_, ?_⟩
    · simp only [List.length_append, List.length_replicate]
      omega
    · refine List.forall_mem_append.mpr ⟨List.forall_mem_append.mpr ⟨fits.before, ?_⟩, fits.after⟩
      intro n zero
      rw [List.eq_of_mem_replicate zero]
      decide

/-- Where nothing was read yet the groups fit, with a double colon in front or without one. -/
theorem fits_nil {after : Option (List Nat)} (none : after.getD [] = []) : Groups.Fits ⟨[], after⟩ where
  position := by
    simp only [Groups.position, Groups.count, none, List.length_nil]
    split <;> decide
  before := fun _ inside => absurd inside List.not_mem_nil
  after := by
    intro n inside
    rw [none] at inside
    exact absurd inside List.not_mem_nil

/-- An IPv6 address has eight groups of two bytes, however it was written: with all of them, with a gap, or
with an IPv4 address at its end. -/
theorem ipv6?_fits {text : List Char} {groups : List Nat} (done : ipv6? text = some groups) :
    groups.length = 8 ∧ ∀ n ∈ groups, n < 65536 := by
  rw [ipv6?_eq] at done
  split at done
  · cases done
  · obtain ⟨g, read, shown⟩ := Option.bind_eq_some_iff.mp done
    refine Groups.Fits.all? ?_ shown
    unfold ipv6Groups? at read
    split at read
    · exact groups?_fits (fits_nil rfl) read
    · cases read
    · exact groups?_fits (fits_nil rfl) read

/-! ## What is shown of an IPv6 address -/

/-- The digits by which a group is shown are hexadecimal. -/
theorem hex?_digitChar : ∀ digit : Fin 16, (Percent.hex? (Nat.digitChar digit.val)).isSome := by decide

/-- None of these digits is a colon. -/
theorem digitChar_ne_colon : ∀ digit : Fin 16, Nat.digitChar digit.val ≠ ':' := by decide

/-- The digits of a group are read up to their end: they are four at most, and a colon or nothing comes
after them. -/
theorem digits_toDigits {n : Nat} (small : n < 65536) (rest : List Char)
    (ends : ∀ c, rest.head? = some c → c = ':') :
    ((Nat.toDigits 16 n ++ rest).take 4).takeWhile (fun c => (Percent.hex? c).isSome) =
      Nat.toDigits 16 n := by
  have short : (Nat.toDigits 16 n).length ≤ 4 :=
    (Nat.length_toDigits_le_iff (by decide) (by decide)).mpr small
  rw [List.take_append, List.take_of_length_le short]
  refine (Url.span_append _ ?_ ?_).1
  · intro c inside
    obtain ⟨digit, rfl⟩ := mem_toDigits (by decide) (by decide) inside
    exact hex?_digitChar digit
  · intro c head
    rw [ends c ?_]
    · rfl
    · rw [List.head?_take] at head
      split at head
      · cases head
      · exact head

/-- A group does not begin with a colon. -/
theorem toDigits_head (n : Nat) (rest : List Char) : (Nat.toDigits 16 n ++ rest).head? ≠ some ':' := by
  obtain ⟨c, digits, same⟩ := List.exists_cons_of_ne_nil (Nat.toDigits_ne_nil (n := n) (b := 16))
  intro colon
  rw [same, List.cons_append, List.head?_cons, Option.some.injEq] at colon
  have inside : c ∈ Nat.toDigits 16 n := same ▸ List.mem_cons_self
  obtain ⟨digit, rfl⟩ := mem_toDigits (by decide) (by decide) inside
  exact digitChar_ne_colon digit colon

/-- The number that is read where a number is shown. -/
def shownNumber (n : Nat) : Nat := numberIn 16 (Nat.toDigits 16 n)

/-- The last group is read where nothing comes after it. -/
theorem groups?_last {fuel n : Nat} {g : Groups} (small : n < 65536) (room : g.position ≠ 8) :
    groups? (fuel + 1) g (Nat.toDigits 16 n) = some (g.push (shownNumber n)) := by
  have digits := digits_toDigits small [] nofun
  have head := toDigits_head n []
  rw [List.append_nil] at digits head
  rw [groups?_group Nat.toDigits_ne_nil head room]
  simp only [digits, List.drop_length]
  rfl

/-- A group with a colon after it is read, and reading goes on behind the colon, provided that something is
there. -/
theorem groups?_more {fuel n : Nat} {g : Groups} (small : n < 65536) (room : g.position ≠ 8)
    {rest : List Char} (more : rest ≠ []) :
    groups? (fuel + 1) g (Nat.toDigits 16 n ++ ':' :: rest) =
      groups? fuel (g.push (shownNumber n)) rest := by
  have digits := digits_toDigits small (':' :: rest) (by rintro c ⟨⟩; rfl)
  have some : Nat.toDigits 16 n ++ ':' :: rest ≠ [] :=
    List.append_ne_nil_of_left_ne_nil Nat.toDigits_ne_nil _
  have goesOn : rest.isEmpty = false := List.isEmpty_eq_false_iff.mpr more
  rw [groups?_group some (toDigits_head n _) room]
  simp only [digits, List.drop_left, goesOn, Bool.false_eq_true, if_false]
  rfl

/-- The groups that were read and those that are shown. -/
def Groups.pushAll (g : Groups) (groups : List Nat) : Groups :=
  groups.foldl (fun g n => g.push (shownNumber n)) g

/-- Groups that are read before any double colon go in front of it. -/
theorem Groups.pushAll_none (before groups : List Nat) :
    Groups.pushAll ⟨before, none⟩ groups = ⟨before ++ groups.map shownNumber, none⟩ := by
  induction groups generalizing before with
  | nil => rw [List.map_nil, List.append_nil]; rfl
  | cons n groups ih =>
    refine (ih (before ++ [shownNumber n])).trans ?_
    rw [List.append_assoc, List.singleton_append, List.map_cons]

/-- Groups that are read after the double colon go behind it. -/
theorem Groups.pushAll_some (before after groups : List Nat) :
    Groups.pushAll ⟨before, some after⟩ groups = ⟨before, some (after ++ groups.map shownNumber)⟩ := by
  induction groups generalizing after with
  | nil => rw [List.map_nil, List.append_nil]; rfl
  | cons n groups ih =>
    refine (ih (after ++ [shownNumber n])).trans ?_
    rw [List.append_assoc, List.singleton_append, List.map_cons]

/-- Groups are shown one after the other with a colon between them. -/
theorem hexGroups_cons (n m : Nat) (groups : List Nat) :
    hexGroups (n :: m :: groups) = Nat.toDigits 16 n ++ ':' :: hexGroups (m :: groups) := by
  simp only [hexGroups, List.map_cons, List.intercalate_cons_cons, List.append_assoc,
    List.singleton_append]

/-- A single group is shown by its digits. -/
theorem hexGroups_singleton (n : Nat) : hexGroups [n] = Nat.toDigits 16 n := by
  simp only [hexGroups, List.map_cons, List.map_nil, List.intercalate_singleton]

/-- Each group takes a character at least, so the fuel that the reader gets, which is the length of the
text, is enough for all of them. -/
theorem length_hexGroups (groups : List Nat) : groups.length ≤ (hexGroups groups).length := by
  match groups with
  | [] => exact Nat.zero_le _
  | [n] =>
    rw [hexGroups_singleton]
    exact Nat.length_toDigits_pos
  | n :: m :: groups =>
    have later := length_hexGroups (m :: groups)
    rw [hexGroups_cons, List.length_append]
    simp only [List.length_cons] at later ⊢
    omega

/-- Groups do not begin with a colon, which would be taken for the first half of a double one. -/
theorem hexGroups_head {groups : List Nat} (some : groups ≠ []) (rest : List Char) :
    (hexGroups groups ++ rest).head? ≠ .some ':' := by
  match groups, some with
  | [n], _ =>
    rw [hexGroups_singleton]
    exact toDigits_head n rest
  | n :: m :: groups, _ =>
    rw [hexGroups_cons, List.append_assoc]
    exact toDigits_head n _

/-- Some groups are shown by some text. -/
theorem hexGroups_ne_nil {groups : List Nat} (some : groups ≠ []) : hexGroups groups ≠ [] := by
  intro none
  have long := length_hexGroups groups
  rw [none] at long
  exact some (List.eq_nil_of_length_eq_zero (Nat.le_zero.mp long))

/-- Groups are read up to a colon after them. By induction on the groups, with one unit of fuel for each. -/
theorem groups?_hexGroups {fuel : Nat} {g : Groups} {groups : List Nat} (some : groups ≠ [])
    (small : ∀ n ∈ groups, n < 65536) (place : g.position + groups.length ≤ 8) {rest : List Char}
    (more : rest ≠ []) :
    groups? (fuel + groups.length) g (hexGroups groups ++ ':' :: rest) =
      groups? fuel (g.pushAll groups) rest := by
  induction groups generalizing g with
  | nil => exact absurd rfl some
  | cons n groups ih =>
    have room : g.position ≠ 8 := by
      rw [List.length_cons] at place
      omega
    have first := small n List.mem_cons_self
    cases groups with
    | nil =>
      rw [hexGroups_singleton]
      exact groups?_more first room more
    | cons m groups =>
      rw [hexGroups_cons, List.append_assoc, List.cons_append]
      refine (groups?_more first room (by simp)).trans ?_
      refine ih (List.cons_ne_nil m groups) (fun k member => small k (List.mem_cons_of_mem _ member)) ?_
      rw [Groups.position_push, Nat.add_assoc, Nat.add_comm 1]
      exact place

/-- The last groups are read, by induction, and nothing is left to read. -/
theorem groups?_end {fuel : Nat} {g : Groups} {groups : List Nat} (small : ∀ n ∈ groups, n < 65536)
    (place : g.position + groups.length ≤ 8) (enough : groups.length < fuel) :
    groups? fuel g (hexGroups groups) = some (g.pushAll groups) := by
  induction groups generalizing fuel g with
  | nil => exact groups?.eq_2 fuel g (Nat.ne_of_gt enough)
  | cons n groups ih =>
    obtain ⟨fuel, rfl⟩ := Nat.exists_eq_succ_of_ne_zero (Nat.ne_of_gt (Nat.zero_lt_of_lt enough))
    have room : g.position ≠ 8 := by
      rw [List.length_cons] at place
      omega
    have first := small n List.mem_cons_self
    cases groups with
    | nil =>
      rw [hexGroups_singleton]
      exact groups?_last first room
    | cons m groups =>
      rw [hexGroups_cons]
      refine (groups?_more first room (hexGroups_ne_nil (List.cons_ne_nil m groups))).trans ?_
      refine ih (fun k member => small k (List.mem_cons_of_mem _ member)) ?_ (Nat.lt_of_succ_lt_succ enough)
      rw [Groups.position_push, Nat.add_assoc, Nat.add_comm 1]
      exact place

/-! ## The zeros that are left out -/

/-- The run that the search holds lies within the groups, whether it was found before or starts here. -/
theorem longestZeros_go {total i : Nat} {groups : List Nat} {best : Nat × Nat}
    (here : i + groups.length ≤ total) (held : best.1 + best.2 ≤ total) :
    (longestZeros.go i groups best).1 + (longestZeros.go i groups best).2 ≤ total := by
  induction groups generalizing i best with
  | nil => exact held
  | cons n groups ih =>
    rw [List.length_cons] at here
    refine ih (by omega) ?_
    split
    · have short := (List.takeWhile_sublist (· = 0) (l := n :: groups)).length_le
      rw [List.length_cons] at short
      dsimp only
      omega
    · exact held

/-- The longest run of zeros lies within the groups. -/
theorem longestZeros_le (groups : List Nat) :
    (longestZeros groups).1 + (longestZeros groups).2 ≤ groups.length :=
  longestZeros_go (Nat.le_of_eq (Nat.zero_add _)) (Nat.zero_le _)

/-- A text that begins with no colon is read from its first group. -/
theorem ipv6Groups?_other {text : List Char} (other : text.head? ≠ some ':') :
    ipv6Groups? text = groups? (text.length + 1) ⟨[], none⟩ text :=
  ipv6Groups?.eq_3 text (fun _ same => other (congrArg List.head? same))
    fun _ same => other (congrArg List.head? same)

/-- Groups with a double colon between them are read. If there are none in front of it, the text begins with
the double colon, which the reader treats apart. -/
theorem ipv6Groups?_double {before after : List Nat} (first : ∀ n ∈ before, n < 65536)
    (last : ∀ n ∈ after, n < 65536) (place : before.length + after.length ≤ 6) :
    ipv6Groups? (hexGroups before ++ ':' :: ':' :: hexGroups after) =
      some ⟨before.map shownNumber, some (after.map shownNumber)⟩ := by
  have long := length_hexGroups after
  have opened (read : List Nat) (short : read.length + after.length ≤ 6) {fuel : Nat}
      (enough : after.length < fuel) : groups? fuel ⟨read, some []⟩ (hexGroups after) =
        some ⟨read, some (after.map shownNumber)⟩ := by
    have position : Groups.position ⟨read, some []⟩ = read.length + 1 := rfl
    rw [groups?_end last (by omega) enough, Groups.pushAll_some, List.nil_append]
  by_cases none' : before = []
  · subst none'
    exact opened [] place (Nat.lt_succ_of_le (Nat.le_trans long (Nat.le_add_right _ 2)))
  · have early := length_hexGroups before
    rw [ipv6Groups?_other (hexGroups_head none' _)]
    obtain ⟨fuel, same, enough⟩ : ∃ fuel,
        (hexGroups before ++ ':' :: ':' :: hexGroups after).length + 1 = fuel + 1 + before.length ∧
          after.length < fuel := by
      refine ⟨(hexGroups before).length - before.length + (hexGroups after).length + 2, ?_, by omega⟩
      simp only [List.length_append, List.length_cons]
      omega
    have start : Groups.position ⟨[], none⟩ = 0 := rfl
    have position : Groups.position ⟨before.map shownNumber, none⟩ = before.length := by
      simp [Groups.position, Groups.count]
    have open_ : ¬ (decide (Groups.position ⟨before.map shownNumber, none⟩ = 8) ||
        (none : Option (List Nat)).isSome) = true := by
      rw [position]
      simp
      omega
    rw [same, groups?_hexGroups none' first (by omega) (List.cons_ne_nil _ _), Groups.pushAll_none,
      List.nil_append, groups?.eq_3, if_neg open_]
    exact opened _ (by rw [List.length_map]; exact place) enough

/-- What shows the eight groups of an IPv6 address reads as one. If a run was left out, it was two groups
long at least, so the double colon finds its place. -/
theorem ipv6?_showIpv6 {groups : List Nat} (eight : groups.length = 8) (small : ∀ n ∈ groups, n < 65536) :
    ∃ shown, ipv6? (showIpv6 groups) = some shown := by
  have inside := longestZeros_le groups
  rw [ipv6?_eq, showIpv6]
  dsimp only
  split
  next =>
    have long := length_hexGroups groups
    have some : groups ≠ [] := by
      rintro rfl
      cases eight
    have head := hexGroups_head some []
    have start : Groups.position ⟨[], none⟩ = 0 := rfl
    rw [List.append_nil] at head
    rw [if_neg (by omega), ipv6Groups?_other head, groups?_end small (by omega) (by omega),
      Groups.pushAll_none]
    refine ⟨groups.map shownNumber, ?_⟩
    simp only [Option.bind_eq_bind, Option.bind_some, Groups.all?, List.nil_append, List.length_map,
      eight, if_true]
  next double =>
    have text : "::".toList = [':', ':'] := rfl
    rw [text, List.append_assoc, List.cons_append, List.singleton_append, if_neg (by simp; omega),
      ipv6Groups?_double (fun n member => small n (List.mem_of_mem_take member))
        (fun n member => small n (List.mem_of_mem_drop member))
        (by rw [List.length_take, List.length_drop]; omega)]
    exact ⟨_, rfl⟩

end Host

end LanguageClient
