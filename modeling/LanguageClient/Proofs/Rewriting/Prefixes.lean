import LanguageClient.Rewriter

/-!
# Prefixes and the way back

The rewriter of a list of mappings swaps the first prefix that fits for its counterpart and reads the
text again. Where no prefix of a side starts another of that side, only one prefix fits a URL, in
whatever order the mappings are (`Rewriter.findPrefix?_of_apart`). So the prefix that is found on the way
back is the one that was put in on the way out: what was mapped comes back, and what has no prefix is
left alone by both directions (`Rewriter.ofMappings_returns`).

All of this is about URLs whose text reads as the URL. What reads as another URL comes back as that one.
-/

namespace LanguageClient

/-- The text of the URL reads as the URL. -/
def Url.ReadsBack (url : Url) : Prop := Url.parse url.text = .ok url

/-- The text of the second URL goes on from that of the first. -/
def Url.Starts (front url : Url) : Prop := front.text.toList <+: url.text.toList

instance (front url : Url) : Decidable (front.Starts url) :=
  inferInstanceAs (Decidable (front.text.toList <+: url.text.toList))

/-- Neither URL starts the other. -/
def Url.Apart (first second : Url) : Prop := ¬ first.Starts second ∧ ¬ second.Starts first

instance (first second : Url) : Decidable (first.Apart second) :=
  inferInstanceAs (Decidable (_ ∧ _))

/-- The other direction. -/
def Direction.back : Direction → Direction
  | .toServer => .toClient
  | .toClient => .toServer

namespace UriMapping

/-- The prefix that is looked for in a direction. -/
def source (mapping : UriMapping) : Direction → Url
  | .toServer => mapping.client
  | .toClient => mapping.server

/-- The prefix that is put in its place. -/
def target (mapping : UriMapping) : Direction → Url
  | .toServer => mapping.server
  | .toClient => mapping.client

/-- What is looked for on the way back is what was put in on the way out. -/
@[simp] theorem source_back (mapping : UriMapping) (direction : Direction) :
    mapping.source direction.back = mapping.target direction := by
  cases direction <;> rfl

/-- And what is put in on the way back is what was looked for on the way out. -/
@[simp] theorem target_back (mapping : UriMapping) (direction : Direction) :
    mapping.target direction.back = mapping.source direction := by
  cases direction <;> rfl

end UriMapping

/-! ## What follows a prefix -/

/-- Stripping a front leaves what follows it, and there is only one such rest. -/
theorem stripFront?_eq_some_iff {front text rest : List Char} :
    stripFront? front text = some rest ↔ text = front ++ rest := by
  induction front generalizing text with
  | nil =>
    rw [stripFront?, Option.some.injEq, List.nil_append]
  | cons c front ih =>
    cases text with
    | nil => simp [stripFront?]
    | cons d text =>
      by_cases same : c = d
      · subst same
        simp only [stripFront?, if_true, ih, List.cons_append, List.cons.injEq, true_and]
      · simp only [stripFront?, if_neg same, reduceCtorEq, List.cons_append, List.cons.injEq,
          Ne.symm same, false_and]

/-- Stripping fails just if the text does not start with the front. -/
theorem stripFront?_eq_none_iff {front text : List Char} :
    stripFront? front text = none ↔ ¬ front <+: text := by
  rw [Option.eq_none_iff_forall_ne_some]
  constructor
  · rintro none ⟨rest, same⟩
    exact none rest (stripFront?_eq_some_iff.mpr same.symm)
  · intro misfits rest strips
    exact misfits ⟨rest, (stripFront?_eq_some_iff.mp strips).symm⟩

namespace Rewriter

variable {url moved source target : Url} {tail : List Char} {pairs : List (Url × Url)}

/-- No prefix is found if none of them starts the URL, and only then. The search goes through the pairs in
order, so the induction is on them. -/
theorem findPrefix?_eq_none_iff :
    findPrefix? url pairs = none ↔ ∀ pair ∈ pairs, ¬ pair.1.Starts url := by
  induction pairs with
  | nil => simp [findPrefix?]
  | cons pair pairs ih =>
    obtain ⟨source, target⟩ := pair
    rw [findPrefix?, List.forall_mem_cons]
    cases strips : stripFront? source.text.toList url.text.toList with
    | none =>
      rw [ih]
      exact (and_iff_right (stripFront?_eq_none_iff.mp strips)).symm
    | some tail =>
      have starts : source.Starts url := ⟨tail, (stripFront?_eq_some_iff.mp strips).symm⟩
      simp [starts]

/-- A prefix that is found is one of the pairs, and the URL is the prefix followed by the tail that comes
with it. -/
theorem mem_of_findPrefix? (found : findPrefix? url pairs = some (target, tail)) :
    ∃ source, (source, target) ∈ pairs ∧ url.text.toList = source.text.toList ++ tail := by
  induction pairs with
  | nil => cases found
  | cons pair pairs ih =>
    rw [findPrefix?] at found
    split at found
    next strips =>
      cases found
      exact ⟨_, List.mem_cons_self, stripFront?_eq_some_iff.mp strips⟩
    next =>
      obtain ⟨source, member, front⟩ := ih found
      exact ⟨source, List.mem_cons_of_mem _ member, front⟩

/-- Of prefixes that do not start each other only one fits, wherever it stands: two that start the same URL
would start one another. -/
theorem findPrefix?_of_apart (apart : pairs.Pairwise fun a b => a.1.Apart b.1)
    (member : (source, target) ∈ pairs) (front : url.text.toList = source.text.toList ++ tail) :
    findPrefix? url pairs = some (target, tail) := by
  have starts : source.Starts url := ⟨tail, front.symm⟩
  induction pairs with
  | nil => cases member
  | cons pair pairs ih =>
    obtain ⟨elsewhere, apart⟩ := List.pairwise_cons.mp apart
    rcases List.mem_cons.mp member with rfl | later
    · rw [findPrefix?, stripFront?_eq_some_iff.mpr front]
    · -- A prefix in front of it that fits as well would start it or be started by it.
      have misfits : stripFront? pair.1.text.toList url.text.toList = none := by
        refine stripFront?_eq_none_iff.mpr fun fits => ?_
        rcases List.prefix_or_prefix_of_prefix fits starts with first | first
        · exact (elsewhere _ later).1 first
        · exact (elsewhere _ later).2 first
      rw [findPrefix?, misfits]
      exact ih apart later

/-- A URL whose text reads as it is what is read from the text. -/
theorem read_of_readsBack (readsBack : moved.ReadsBack) : Url.read moved.text = .ok moved := by
  rw [Url.read, readsBack]

/-- Where only one prefix fits, it is swapped for its counterpart, and the text that comes about is read as
the URL that it is said to be. -/
theorem swap_of_apart (apart : pairs.Pairwise fun a b => a.1.Apart b.1)
    (member : (source, target) ∈ pairs) (front : url.text.toList = source.text.toList ++ tail)
    (swapped : moved.text.toList = target.text.toList ++ tail) (readsBack : moved.ReadsBack) :
    swap pairs url = .ok moved := by
  rw [swap, findPrefix?_of_apart apart member front]
  dsimp only
  rw [← swapped, String.ofList_toList]
  exact read_of_readsBack readsBack

/-- A URL that no prefix starts is left as it is, without being read again. -/
theorem swap_of_none (free : ∀ pair ∈ pairs, ¬ pair.1.Starts url) : swap pairs url = .ok url := by
  rw [swap, findPrefix?_eq_none_iff.mpr free]

/-! ## Mappings -/

variable {mappings : List UriMapping} {mapping : UriMapping}

/-- The prefixes that are swapped in a direction. -/
def sides (mappings : List UriMapping) (direction : Direction) : List (Url × Url) :=
  mappings.map fun mapping => (mapping.source direction, mapping.target direction)

/-- The rewriter of some mappings swaps the prefixes of one side for those of the other. -/
theorem convert_ofMappings (mappings : List UriMapping) (direction : Direction) :
    (ofMappings mappings).convert direction = swap (sides mappings direction) := by
  cases direction <;> rfl

/-- Each mapping gives a pair of prefixes in either direction. -/
theorem mem_sides (member : mapping ∈ mappings) (direction : Direction) :
    (mapping.source direction, mapping.target direction) ∈ sides mappings direction :=
  List.mem_map_of_mem member

/-- Mappings whose prefixes are apart give pairs that are. -/
theorem apart_sides {direction : Direction}
    (apart : mappings.Pairwise fun a b => (a.source direction).Apart (b.source direction)) :
    (sides mappings direction).Pairwise fun a b => a.1.Apart b.1 :=
  List.pairwise_map.mpr apart

/-- Where no prefix of a side starts another of that side: a URL with a prefix is converted to the URL
with the counterpart in its place, if the text that comes about is in normal form, and that is converted
back to the first; a URL with no prefix of either side is left alone in both directions. -/
theorem ofMappings_returns {mappings : List UriMapping}
    (apart : ∀ direction, mappings.Pairwise fun a b =>
      (a.source direction).Apart (b.source direction)) :
    (∀ direction, ∀ mapping ∈ mappings, ∀ (url moved : Url) (tail : List Char),
      url.text.toList = (mapping.source direction).text.toList ++ tail →
      moved.text.toList = (mapping.target direction).text.toList ++ tail → moved.ReadsBack →
        (ofMappings mappings).convert direction url = .ok moved ∧
        (url.ReadsBack → (ofMappings mappings).convert direction.back moved = .ok url)) ∧
    (∀ url : Url, (∀ mapping ∈ mappings, ¬ mapping.client.Starts url ∧ ¬ mapping.server.Starts url) →
      (ofMappings mappings).toServer url = .ok url ∧
        (ofMappings mappings).toClient url = .ok url) := by
  constructor
  · intro direction mapping member url moved tail front swapped normal
    constructor
    · rw [convert_ofMappings]
      exact swap_of_apart (apart_sides (apart direction)) (mem_sides member direction) front swapped
        normal
    · intro readsBack
      have back := mem_sides member direction.back
      rw [UriMapping.source_back, UriMapping.target_back] at back
      rw [convert_ofMappings]
      exact swap_of_apart (apart_sides (apart direction.back)) back swapped front readsBack
  · intro url free
    refine ⟨swap_of_none ?_, swap_of_none ?_⟩
    · exact List.forall_mem_map.mpr fun mapping member => (free mapping member).1
    · exact List.forall_mem_map.mpr fun mapping member => (free mapping member).2

/-- Prefixes of two kinds: one ends in a fragment, one in a path without a slash at its end. -/
def mounted : List UriMapping :=
  [⟨⟨"git://host/app?abc#"⟩, ⟨"file:///workspace/"⟩⟩, ⟨⟨"memfs:/project"⟩, ⟨"file:///other"⟩⟩]

theorem ofMappings_returns_mounted :
    (ofMappings mounted).convert .toServer ⟨"git://host/app?abc#src/a.ts"⟩ =
      .ok ⟨"file:///workspace/src/a.ts"⟩ ∧
    (ofMappings mounted).convert .toClient ⟨"file:///workspace/src/a.ts"⟩ =
      .ok ⟨"git://host/app?abc#src/a.ts"⟩ ∧
    (ofMappings mounted).toServer ⟨"untitled:a"⟩ = .ok ⟨"untitled:a"⟩ := by
  have apart : ∀ direction, mounted.Pairwise fun a b =>
      (a.source direction).Apart (b.source direction) := by
    rintro (_ | _) <;> decide
  obtain ⟨returns, stays⟩ := ofMappings_returns apart
  obtain ⟨there, back⟩ := returns .toServer _ List.mem_cons_self ⟨"git://host/app?abc#src/a.ts"⟩
    ⟨"file:///workspace/src/a.ts"⟩ "src/a.ts".toList (by rfl) (by rfl) (by rfl)
  exact ⟨there, back (by rfl), (stays ⟨"untitled:a"⟩ (by decide)).1⟩

end Rewriter

end LanguageClient
