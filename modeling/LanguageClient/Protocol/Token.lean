import LanguageClient.Json.Decoder

/-!
# Tokens

A code or a token on the wire is a number of 32 bits with a sign, or a text.
-/

namespace LanguageClient

/-- A number of 32 bits with a sign as a value. -/
def Json.integer (n : Int32) : Json := .num (.int n.toInt)

/-- A number or a text. -/
inductive Token where
  | number (value : Int32)
  | text (value : String)
  deriving DecidableEq, Repr

namespace Token

def toJson : Token → Json
  | .number n => Json.integer n
  | .text s => .str s

def ofJson? (value : Json) : Option Token :=
  (value.int32?.map .number).or (value.string?.map .text)

end Token

end LanguageClient
