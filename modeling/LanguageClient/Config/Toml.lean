import LanguageClient.Config
import LanguageClient.Toml.Parser

/-!
# Configuration files

A configuration is written as TOML. `Config.parse` reads a text, `Config.load` the bytes of a file;
both refuse what `Config.validate` refuses.
-/

namespace LanguageClient

namespace Config

mutual

/-- Whether every integer of the value fits 128 bits, with a sign or without. -/
def integersFit : Json → Bool
  | .num (.int n) => decide (-(Nat.pow 2 127 : Int) ≤ n ∧ n < Nat.pow 2 128)
  | .arr items => integersFitItems items
  | .obj fields => integersFitFields fields
  | _ => true

def integersFitItems : List Json → Bool
  | [] => true
  | item :: rest => integersFit item && integersFitItems rest

def integersFitFields : List (String × Json) → Bool
  | [] => true
  | field :: rest => integersFit field.2 && integersFitFields rest

end

/-- The configuration that a TOML table says. Integers in the options for the server fit 64 bits. -/
def ofTable? (table : Toml.Table) : Option Config := do
  let value := table.toJson
  let config ← if integersFit value then ofJsonIn? Toml.dialect value else none
  if (config.initializationOptions.map Json.inRange).getD true then some config else none

/-- The configuration of a text, which may come from a file. -/
def parseIn (path : Option String) (text : String) : Except ConfigError Config :=
  match Toml.parse? text >>= ofTable? with
  | none => .error (.malformed path)
  | some config => config.validate

def parse (text : String) : Except ConfigError Config := parseIn none text

/-- The configuration of a file, by its bytes; there are none where nothing can be read. -/
def load (path : String) (bytes : Option ByteArray) : Except ConfigError Config :=
  match bytes >>= String.fromUTF8? with
  | none => .error (.unreadable path)
  | some text => parseIn (some path) text

end Config

end LanguageClient
