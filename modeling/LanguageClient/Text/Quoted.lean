/-!
# Quoted text

A text between double quotes, for a reader of the log: a backslash stands in front of every quote
and every backslash.
-/

namespace LanguageClient

/-- A character between quotes. -/
def quotedChar (c : Char) : List Char := if c = '"' ∨ c = '\\' then ['\\', c] else [c]

/-- A text between quotes. -/
def quoted (text : String) : String :=
  String.ofList ('"' :: text.toList.flatMap quotedChar ++ ['"'])

/-- A text that may be absent. -/
def quotedOption : Option String → String
  | none => "None"
  | some text => "Some(" ++ quoted text ++ ")"

end LanguageClient
