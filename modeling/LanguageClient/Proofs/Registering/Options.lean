import LanguageClient.Feature

/-!
# The options of a registration as JSON

What a registration says of its provider is written as an object with a selector, and a feature that a server
advertises is registered by options that were written so. What is written is read again as it was
(`RegisterOptions.ofRegistration_toJson`): an entry that is a language stays a language and no filter, a
filter keeps what it leaves out, and an empty selector is not the same as none.
-/

namespace LanguageClient

open Json (Slot)

namespace DocumentFilter

/-- A filter is read again as it was, and what it leaves out is left out of the object as well. -/
theorem ofJson?_toJson (filter : DocumentFilter) : ofJson? Json.dialect filter.toJson = some filter := by
  obtain ⟨language, scheme, pattern⟩ := filter
  cases language <;> cases scheme <;> cases pattern <;> rfl

end DocumentFilter

namespace SelectorEntry

/-- An entry of a selector is read again: a language is a text, and a filter is none. -/
theorem ofJson?_toJson (entry : SelectorEntry) : ofJson? Json.dialect entry.toJson = some entry := by
  cases entry with
  | language name => rfl
  | filter given =>
    have written : ofJson? Json.dialect (toJson (.filter given)) =
        (DocumentFilter.ofJson? Json.dialect given.toJson).map .filter := rfl
    rw [written, DocumentFilter.ofJson?_toJson, Option.map_some]

end SelectorEntry

namespace DocumentSelector

/-- A selector is read again entry by entry. Configurations, which have a selector of their own, use this
too. -/
theorem ofJson?_toJson (selector : DocumentSelector) : ofJson? selector.toJson = some selector := by
  change (selector.map SelectorEntry.toJson).mapM (SelectorEntry.ofJson? Json.dialect) = some selector
  induction selector with
  | nil => rfl
  | cons entry selector ih =>
    rw [List.map_cons, List.mapM_cons, SelectorEntry.ofJson?_toJson, ih]
    rfl

end DocumentSelector

namespace RegisterOptions

/-- The options of a registration are read again, with a selector or without one. -/
theorem ofJson?_toJson (options : RegisterOptions) : ofJson? options.toJson = some options := by
  obtain ⟨_ | selector⟩ := options
  · rfl
  · have present : Slot.optional DocumentSelector.ofJson? (.present selector.toJson) = some (some selector) := by
      rw [Slot.optional, Slot.optionalIn, if_neg (fun both => nomatch both.2),
        DocumentSelector.ofJson?_toJson, Option.map_some]
    have written : ofJson? (toJson ⟨some selector⟩) =
        (Slot.optional DocumentSelector.ofJson? (.present selector.toJson)).bind fun found => some ⟨found⟩ := rfl
    rw [written, present, Option.bind_some]

/-- Options that were written are those of the registration. -/
theorem ofRegistration_toJson (options : RegisterOptions) (method : String) :
    ofRegistration (some options.toJson) method = .ok options := by
  have read := options.ofJson?_toJson
  unfold toJson at read ⊢
  unfold ofRegistration
  dsimp only
  rw [read]

end RegisterOptions

end LanguageClient
