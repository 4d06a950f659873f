import LanguageClient.Proofs.Registering.Scope

/-!
# Roots inside roots

A document may be under several roots, and then one of them is under the other: `Url.isUnder` arranges the
roots above a document in a line. It is said by texts alone, and the text of a root's directory is that of the
root or has one slash more (`Url.TakesSlash`). So two roots above one document have directories one of whose
texts starts the other, and this slash is all that can come between the text of a directory and that of its
root.

The premise is what setting the path does to a URL without a query and a fragment, as a rule. It is not shown
here for the URLs that can be read, and does not hold of all of them: a drive may be read with a bar, which
becomes a colon when the path is set.
-/

namespace LanguageClient

namespace Url

variable {a b c : Url}

/-- A slash that the path of the URL lacks is put at the end of the text. -/
def TakesSlash (url : Url) : Prop :=
  url.cannotBeABase = false → url.path.getLast? ≠ some '/' →
    (url.withPath (url.path ++ ['/'])).text = url.text ++ "/"

instance (url : Url) : Decidable url.TakesSlash := inferInstanceAs (Decidable (_ → _ → _))

example : Url.parse "file:///c|/x" = .ok ⟨"file:///c|/x"⟩ ∧ ¬ TakesSlash ⟨"file:///c|/x"⟩ :=
  ⟨by rfl, by decide⟩

/-- The text of a directory is that of the root, or has one slash more. -/
theorem TakesSlash.asDirectory (takes : a.TakesSlash) :
    a.asDirectory = a ∨ a.asDirectory.text.toList = a.text.toList ++ ['/'] := by
  unfold Url.asDirectory
  split
  next => exact .inl rfl
  next lacks =>
    obtain ⟨base, open_⟩ := not_or.mp lacks
    refine .inr ?_
    rw [takes (Bool.eq_false_iff.mpr base) open_, String.toList_append]
    rfl

/-- A directory's text goes on from that of its root. -/
theorem TakesSlash.prefix_asDirectory (takes : a.TakesSlash) :
    a.text.toList <+: a.asDirectory.text.toList := by
  rcases takes.asDirectory with same | slashed
  · exact ⟨[], by rw [same, List.append_nil]⟩
  · exact ⟨['/'], slashed.symm⟩

/-- Every root is under itself. -/
theorem isUnder_refl (a : Url) : a.isUnder a = true := isUnder_iff.mpr (.inl rfl)

/-- What is under a root is under the roots above it. The text of the root in between starts that of its
directory, which takes the premise. -/
theorem isUnder_trans (takes : b.TakesSlash) (inner : a.isUnder b = true) (outer : b.isUnder c = true) :
    a.isUnder c = true := by
  rcases isUnder_iff.mp inner with rfl | below
  · exact outer
  · rcases isUnder_iff.mp outer with rfl | above
    · exact inner
    · exact isUnder_iff.mpr (.inr (above.trans (takes.prefix_asDirectory.trans below)))

/-- A root whose directory starts the text of another root's directory is above that root, or is that root
with a slash at its end. -/
theorem isUnder_or_of_starts (takes : a.TakesSlash) (takes' : b.TakesSlash)
    (starts : a.asDirectory.text.toList <+: b.asDirectory.text.toList) :
    b.isUnder a = true ∨ a.isUnder b = true := by
  rcases takes'.asDirectory with same | slashed
  · rw [same] at starts
    exact .inl (isUnder_iff.mpr (.inr starts))
  · rw [slashed] at starts
    -- The directories are one, and the roots differ by the slash at most; or the text of the other root is
    -- long enough by itself.
    rcases List.prefix_concat_iff.mp starts with whole | starts
    · rcases takes.asDirectory with same | slashed'
      · exact .inr (isUnder_iff.mpr (.inr ⟨[], by rw [List.append_nil, slashed, ← whole, same]⟩))
      · have texts : b.text.toList = a.text.toList := by
          rw [slashed'] at whole
          exact (List.append_cancel_right whole).symm
        have roots : b = a := by
          cases a
          cases b
          exact congrArg Url.mk (String.toList_inj.mp texts)
        exact .inl (isUnder_iff.mpr (.inl roots))
    · exact .inl (isUnder_iff.mpr (.inr starts))

/-- Two roots above one document are one above the other. -/
theorem isUnder_total (takes : a.TakesSlash) (takes' : b.TakesSlash) {document : Url}
    (first : document.isUnder a = true) (second : document.isUnder b = true) :
    a.isUnder b = true ∨ b.isUnder a = true := by
  rcases isUnder_iff.mp first with rfl | below
  · exact .inl second
  · rcases isUnder_iff.mp second with rfl | below'
    · exact .inr first
    · rcases List.prefix_or_prefix_of_prefix below below' with starts | starts
      · exact (isUnder_or_of_starts takes takes' starts).symm
      · exact isUnder_or_of_starts takes' takes starts

end Url

end LanguageClient
