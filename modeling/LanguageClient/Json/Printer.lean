import LanguageClient.Binary64.Digits
import LanguageClient.Json

/-!
# JSON text of a value

The compact form: no blanks, fields in the order the value has them, and in strings an escape only
for the quote, the backslash and the control characters. `Json.toChars` is the text as characters,
which the reader in `LanguageClient.Json.Parser` takes back.
-/

namespace LanguageClient

namespace Json

/-- Numbers with at most sixteen digits before the point and four zeros after it are written
positionally. -/
def numberStyle : DecimalStyle := { greatestPoint := 16, leastPoint := -4, plus := "+" }

/-- The digit of a number below sixteen. -/
def hexDigit (n : Nat) : Char :=
  if n < 10 then Char.ofNat (48 + n) else Char.ofNat (87 + n)

/-- A character inside a quoted text. -/
def escape (c : Char) : List Char :=
  if c = '"' then ['\\', '"']
  else if c = '\\' then ['\\', '\\']
  else if c = '\x08' then ['\\', 'b']
  else if c = '\x0c' then ['\\', 'f']
  else if c = '\n' then ['\\', 'n']
  else if c = '\r' then ['\\', 'r']
  else if c = '\t' then ['\\', 't']
  else if c.toNat < 32 then
    ['\\', 'u', '0', '0', hexDigit (c.toNat / 16), hexDigit (c.toNat % 16)]
  else [c]

def quote (text : List Char) : List Char := '"' :: text.flatMap escape ++ ['"']

def numberChars : Number → List Char
  | .int n => (toString n).toList
  | .float x => (numberStyle.render x).toList

mutual

def toChars : Json → List Char
  | .null => "null".toList
  | .bool true => "true".toList
  | .bool false => "false".toList
  | .num n => numberChars n
  | .str s => quote s.toList
  | .arr items => '[' :: itemsChars items ++ [']']
  | .obj fields => '\x7b' :: fieldsChars fields ++ ['\x7d']

def itemsChars : List Json → List Char
  | [] => []
  | [item] => item.toChars
  | item :: rest => item.toChars ++ ',' :: itemsChars rest

def fieldsChars : List (String × Json) → List Char
  | [] => []
  | [field] => quote field.1.toList ++ ':' :: field.2.toChars
  | field :: rest => quote field.1.toList ++ ':' :: field.2.toChars ++ ',' :: fieldsChars rest

end

def text (value : Json) : String := String.ofList value.toChars

end Json

end LanguageClient
