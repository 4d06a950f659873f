import LanguageClient.Toml.Scalar

/-!
# Reading TOML

A document is read line by line into the table of its entries: pairs of a key and a value go to the
table of the last header. Arrays and tables may span lines and end in a comma; both may be nested
eighty deep. No key may be given twice.
-/

namespace LanguageClient

namespace Toml

/-- The greatest number of arrays and tables around a value. -/
def nestingLimit : Nat := 80

/-! ## Blanks -/

/-- A space or a tab. -/
def isBlank (c : Char) : Bool := c = ' ' || c = '\t'

/-- What follows the blanks. -/
def skipBlanks (text : List Char) : List Char := text.dropWhile isBlank

/-- A control character other than a tab. -/
def isControl (c : Char) : Bool := (c.toNat < 32 && c ≠ '\t') || c.toNat = 127

/-- What follows a comment, if there is one. -/
def skipComment? (text : List Char) : Option (List Char) :=
  match text with
  | '#' :: rest =>
    let body := rest.takeWhile fun c => c ≠ '\n' && c ≠ '\r'
    if body.any isControl then none else some (rest.drop body.length)
  | text => some text

/-- What follows the end of the line; the end of the text ends a line. -/
def lineEnd? (text : List Char) : Option (List Char) :=
  match text with
  | [] => some []
  | '\n' :: rest => some rest
  | '\r' :: '\n' :: rest => some rest
  | _ => none

/-- What follows blanks and a comment up to the end of the line. -/
def skipLine? (text : List Char) : Option (List Char) :=
  skipComment? (skipBlanks text) >>= lineEnd?

/-- What follows blanks, comments and line ends. -/
def skipFiller? (fuel : Nat) (text : List Char) : Option (List Char) :=
  match fuel with
  | 0 => none
  | fuel + 1 => do
    let rest ← skipComment? (skipBlanks text)
    match rest with
    | '\n' :: rest | '\r' :: '\n' :: rest => skipFiller? fuel rest
    | rest => some rest

/-! ## Strings -/

/-- The character of so many hexadecimal digits, and what follows them. -/
def codePoint? (count : Nat) (text : List Char) : Option (Char × List Char) :=
  let ds := text.take count
  if ds.length = count ∧ ds.all (isDigitIn 16) then
    let n := ofDigits 16 ds
    if h : n.isValidChar then some (Char.ofNatAux n h, text.drop count) else none
  else none

/-- The character that is written after a backslash, and what follows it. -/
def escape? : List Char → Option (Char × List Char)
  | 'b' :: rest => some ('\x08', rest)
  | 't' :: rest => some ('\t', rest)
  | 'n' :: rest => some ('\n', rest)
  | 'f' :: rest => some ('\x0c', rest)
  | 'r' :: rest => some ('\r', rest)
  | 'e' :: rest => some ('\x1b', rest)
  | '"' :: rest => some ('"', rest)
  | '\\' :: rest => some ('\\', rest)
  | 'x' :: rest => codePoint? 2 rest
  | 'u' :: rest => codePoint? 4 rest
  | 'U' :: rest => codePoint? 8 rest
  | _ => none

/-- A text in double quotes, after the first of them. -/
def basic? (fuel : Nat) (text : List Char) : Option (List Char × List Char) :=
  match fuel, text with
  | 0, _ | _, [] => none
  | _, '"' :: rest => some ([], rest)
  | fuel + 1, '\\' :: rest => do
    let (c, rest) ← escape? rest
    let (cs, rest) ← basic? fuel rest
    some (c :: cs, rest)
  | fuel + 1, c :: rest =>
    if isControl c then none
    else do
      let (cs, rest) ← basic? fuel rest
      some (c :: cs, rest)

/-- A text in single quotes, after the first of them. -/
def literal? (text : List Char) : Option (List Char × List Char) :=
  let body := text.takeWhile (· ≠ '\'')
  match text.drop body.length with
  | '\'' :: rest => if body.any isControl then none else some (body, rest)
  | _ => none

/-- The end of a text in three quotes: up to two more quotes belong to the text. -/
def closing? (quote : Char) (text : List Char) : Option (List Char × List Char) :=
  let run := (text.takeWhile (· = quote)).length
  if run < 3 then none
  else
    let extra := min (run - 3) 2
    some (List.replicate extra quote, text.drop (3 + extra))

/-- What follows the blanks and line ends after a backslash at the end of a line. -/
def continuation? (text : List Char) : Option (List Char) :=
  match skipBlanks text with
  | '\n' :: rest => some (rest.dropWhile isSpace)
  | '\r' :: '\n' :: rest => some (rest.dropWhile isSpace)
  | _ => none
where
  isSpace (c : Char) : Bool := isBlank c || c = '\n' || c = '\r'

/-- A text in three quotes, after them. Only in double quotes a backslash is special. -/
def multiline? (fuel : Nat) (quote : Char) (text : List Char) : Option (List Char × List Char) :=
  match fuel with
  | 0 => none
  | fuel + 1 =>
    match closing? quote text with
    | some found => some found
    | none =>
      match text with
      | [] => none
      | '\r' :: '\n' :: rest => do
        let (cs, rest) ← multiline? fuel quote rest
        some ('\r' :: '\n' :: cs, rest)
      | '\\' :: rest =>
        if quote = '"' then
          match continuation? rest with
          | some rest => multiline? fuel quote rest
          | none => do
            let (c, rest) ← escape? rest
            let (cs, rest) ← multiline? fuel quote rest
            some (c :: cs, rest)
        else do
          let (cs, rest) ← multiline? fuel quote rest
          some ('\\' :: cs, rest)
      | c :: rest =>
        if isControl c ∧ c ≠ '\n' then none
        else do
          let (cs, rest) ← multiline? fuel quote rest
          some (c :: cs, rest)

/-- What follows a line end right after three quotes. -/
def skipFirstLineEnd : List Char → List Char
  | '\n' :: rest => rest
  | '\r' :: '\n' :: rest => rest
  | rest => rest

/-! ## Keys -/

/-- Whether a key without quotes may contain the character. -/
def inBareKey (c : Char) : Bool := c.isAlphanum || c = '_' || c = '-'

/-- A key and what follows it. -/
def simpleKey? (text : List Char) : Option (String × List Char) :=
  match text with
  | '"' :: rest => (basic? (rest.length + 1) rest).map fun (cs, rest) => (String.ofList cs, rest)
  | '\'' :: rest => (literal? rest).map fun (cs, rest) => (String.ofList cs, rest)
  | text =>
    let cs := text.takeWhile inBareKey
    if cs.isEmpty then none else some (String.ofList cs, text.drop cs.length)

/-- Keys with dots between them: those in front, the last one, and what follows. -/
def keyPath? (fuel : Nat) (text : List Char) : Option (List String × String × List Char) :=
  match fuel with
  | 0 => none
  | fuel + 1 => do
    let (key, rest) ← simpleKey? (skipBlanks text)
    match skipBlanks rest with
    | '.' :: rest => do
      let (path, last, rest) ← keyPath? fuel rest
      some (key :: path, last, rest)
    | rest => some ([], key, rest)

/-! ## Values -/

/-- Whether a word may contain the character. -/
def inWord (c : Char) : Bool := c.isAlphanum || c = '_' || c = '-' || c = '+' || c = '.' || c = ':'

/-- A word and what follows it; after a date a blank may stand before the time. -/
def splitWord (text : List Char) : List Char × List Char :=
  let first := text.takeWhile inWord
  let rest := text.drop first.length
  match date? first, rest with
  | some (_, []), ' ' :: c :: _ =>
    if c.isDigit then
      let second := (rest.drop 1).takeWhile inWord
      (first ++ ' ' :: second, rest.drop (second.length + 1))
    else (first, rest)
  | _, _ => (first, rest)

mutual

/-- A value and what follows it, where `depth` more arrays and tables may be opened. -/
def value? (fuel depth : Nat) (text : List Char) : Option (Value × List Char) :=
  match fuel with
  | 0 => none
  | fuel + 1 =>
    match text with
    | '"' :: '"' :: '"' :: rest =>
      (multiline? (rest.length + 1) '"' (skipFirstLineEnd rest)).map fun (cs, rest) =>
        (.text (String.ofList cs), rest)
    | '\'' :: '\'' :: '\'' :: rest =>
      (multiline? (rest.length + 1) '\'' (skipFirstLineEnd rest)).map fun (cs, rest) =>
        (.text (String.ofList cs), rest)
    | '"' :: rest =>
      (basic? (rest.length + 1) rest).map fun (cs, rest) => (.text (String.ofList cs), rest)
    | '\'' :: rest => (literal? rest).map fun (cs, rest) => (.text (String.ofList cs), rest)
    | '[' :: rest =>
      if depth = 0 then none
      else do
        let (items, rest) ← items? fuel (depth - 1) rest
        some (.array items, rest)
    | '\x7b' :: rest =>
      if depth = 0 then none
      else do
        let (table, rest) ← pairs? fuel (depth - 1) (.empty .explicit) rest
        some (.table (table.withKind .inline), rest)
    | text => do
      let (word, rest) := splitWord text
      let value ← word? word
      some (value, rest)

/-- The items of an array up to its closing bracket. -/
def items? (fuel depth : Nat) (text : List Char) : Option (List Value × List Char) :=
  match fuel with
  | 0 => none
  | fuel + 1 => do
    let rest ← skipFiller? (text.length + 1) text
    match rest with
    | ']' :: rest => some ([], rest)
    | rest => do
      let (item, rest) ← value? fuel depth rest
      let rest ← skipFiller? (rest.length + 1) rest
      match rest with
      | ']' :: rest => some ([item], rest)
      | ',' :: rest => do
        let (items, rest) ← items? fuel depth rest
        some (item :: items, rest)
      | _ => none

/-- The table with the pairs up to the closing brace. -/
def pairs? (fuel depth : Nat) (table : Table) (text : List Char) : Option (Table × List Char) :=
  match fuel with
  | 0 => none
  | fuel + 1 => do
    let rest ← skipFiller? (text.length + 1) text
    match rest with
    | '\x7d' :: rest => some (table, rest)
    | rest => do
      let (path, key, rest) ← keyPath? (rest.length + 1) rest
      let rest ← after? '=' rest
      let (value, rest) ← value? fuel depth (skipBlanks rest)
      let table ← table.addPair path key value
      let rest ← skipFiller? (rest.length + 1) rest
      match rest with
      | '\x7d' :: rest => some (table, rest)
      | ',' :: rest => pairs? fuel depth table rest
      | _ => none

end

/-! ## Documents -/

/-- A document as far as it was read: its table, and the path of the last header. -/
structure Document where
  root : Table
  header : List String

/-- The document with one more pair. -/
def Document.addPair (document : Document) (path : List String) (key : String) (value : Value) :
    Option Document := do
  let root ← document.root.descend false document.header (Table.addPair path key value)
  some { document with root }

/-- The document with one more header; `item` says that it is one of several. -/
def Document.addHeader (document : Document) (item : Bool) (path : List String) (key : String) :
    Option Document := do
  let root ← if item then document.root.addItemHeader path key else document.root.addHeader path key
  some { root, header := path ++ [key] }

/-- Reads the next line onto the document; what follows it is the rest. -/
def line? (document : Document) (text : List Char) : Option (Document × List Char) :=
  match skipBlanks text with
  | '[' :: '[' :: rest => do
    let (path, key, rest) ← keyPath? (rest.length + 1) rest
    let rest ← after? ']' rest >>= after? ']' >>= skipLine?
    let document ← document.addHeader true path key
    some (document, rest)
  | '[' :: rest => do
    let (path, key, rest) ← keyPath? (rest.length + 1) rest
    let rest ← after? ']' rest >>= skipLine?
    let document ← document.addHeader false path key
    some (document, rest)
  | rest =>
    match skipLine? rest with
    | some rest => some (document, rest)
    | none => do
      let (path, key, rest) ← keyPath? (rest.length + 1) rest
      let rest ← after? '=' rest
      let (value, rest) ← value? (rest.length + 1) nestingLimit (skipBlanks rest)
      let rest ← skipLine? rest
      let document ← document.addPair path key value
      some (document, rest)

/-- Reads all lines onto the document. -/
def lines? (fuel : Nat) (document : Document) (text : List Char) : Option Document :=
  match fuel, text with
  | _, [] => some document
  | 0, _ => none
  | fuel + 1, text => do
    let (document, rest) ← line? document text
    lines? fuel document rest

/-- The table that a text says; a mark of the byte order in front does not count. -/
def parse? (text : String) : Option Table :=
  let chars := match text.toList with
    | '\ufeff' :: rest => rest
    | chars => chars
  (lines? (chars.length + 1) ⟨.empty .explicit, []⟩ chars).map Document.root

end Toml

end LanguageClient
