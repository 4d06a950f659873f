import LanguageClient.Json.Decoder

/-!
# TOML values

The tree that a TOML document says. A table remembers how it came to be, because that decides
whether a later line may add to it. `Table.descend` walks a path of keys, making the tables that are
missing, and changes the table at its end.

`Table.toJson` is the tree as a JSON value: a number that is not finite becomes `null` and a moment
in time an object with one text.
-/

namespace LanguageClient

namespace Toml

/-- How a table came to be. -/
inductive TableKind where
  /-- By a header of its own, or as the document itself. -/
  | explicit
  /-- On the path of a header. -/
  | implicit
  /-- On the path of a key. -/
  | dotted
  /-- As a value. -/
  | inline
  deriving DecidableEq, Repr

mutual

/-- A value. -/
inductive Value where
  | text (value : String)
  | integer (value : Int)
  | float (value : Binary64)
  /-- An infinity or an undefined number. -/
  | notFinite
  | bool (value : Bool)
  /-- A date, a time, or both. -/
  | moment (text : String)
  | array (items : List Value)
  | table (table : Table)
  /-- Tables that share a header, in the order of their headers. -/
  | tables (tables : List Table)

/-- A table: its entries in the order in which they were added. -/
inductive Table where
  | mk (kind : TableKind) (entries : List (String × Value))

end

instance : Inhabited Value := ⟨.notFinite⟩

namespace Table

/-- How the table came to be. -/
def kind : Table → TableKind
  | mk kind _ => kind

/-- The entries of the table. -/
def entries : Table → List (String × Value)
  | mk _ entries => entries

/-- A table without entries. -/
def empty (kind : TableKind) : Table := mk kind []

/-- The same entries in a table of another kind. -/
def withKind (kind : TableKind) (table : Table) : Table := mk kind table.entries

/-- The value of a key. -/
def get? (table : Table) (key : String) : Option Value :=
  (table.entries.find? fun entry => entry.1 = key).map Prod.snd

/-- The table with a value for the key, in the place of an earlier one or at the end. -/
def set (table : Table) (key : String) (value : Value) : Table :=
  if (table.get? key).isSome then
    mk table.kind (table.entries.map fun entry => if entry.1 = key then (key, value) else entry)
  else mk table.kind (table.entries ++ [(key, value)])

/-- Changes the table at the end of a path. Missing tables on the way are made; `dotted` says that
the path is that of a key, which may not pass a table with a header of its own. -/
def descend (dotted : Bool) (path : List String) (change : Table → Option Table) (table : Table) :
    Option Table :=
  match path with
  | [] => change table
  | key :: rest =>
    match table.get? key with
    | none => do
      let child ← descend dotted rest change (empty (if dotted then .dotted else .implicit))
      some (table.set key (.table child))
    | some (.table child) =>
      if child.kind = .inline ∨ (dotted ∧ child.kind = .explicit) then none
      else do
        let child ← descend dotted rest change child
        some (table.set key (.table child))
    | some (.tables items) => do
      let last ← items.getLast?
      let last ← descend dotted rest change last
      some (table.set key (.tables (items.dropLast ++ [last])))
    | some _ => none

/-- The table with one more entry, whose key is a path. The table at the end of a longer path is one
that keys have made. -/
def addPair (path : List String) (key : String) (value : Value) (table : Table) : Option Table :=
  table.descend true path fun target =>
    if (target.kind = .dotted) = path.isEmpty then none
    else if (target.get? key).isSome then none
    else some (target.set key value)

/-- The table with a header for the table at the end of a path. -/
def addHeader (path : List String) (key : String) (table : Table) : Option Table :=
  table.descend false path fun parent =>
    match parent.get? key with
    | none => some (parent.set key (.table (empty .explicit)))
    | some (.table child) =>
      if child.kind = .implicit then some (parent.set key (.table (child.withKind .explicit)))
      else none
    | some _ => none

/-- The table with a header for one more of the tables at the end of a path. -/
def addItemHeader (path : List String) (key : String) (table : Table) : Option Table :=
  table.descend false path fun parent =>
    match parent.get? key with
    | none => some (parent.set key (.tables [empty .explicit]))
    | some (.tables items) => some (parent.set key (.tables (items ++ [empty .explicit])))
    | some _ => none

end Table

/-- The key under which a moment in time is kept. -/
def momentKey : String := "$__toml_private_datetime"

mutual

/-- The value as a JSON value. -/
def Value.toJson : Value → Json
  | .text s => .str s
  | .integer n => Json.int n
  | .float x => .num (.float x)
  | .notFinite => .null
  | .bool b => .bool b
  | .moment s => .obj [(momentKey, .str s)]
  | .array items => .arr (valuesToJson items)
  | .table table => table.toJson
  | .tables items => .arr (tablesToJson items)

/-- The table as a JSON value. -/
def Table.toJson : Table → Json
  | .mk _ entries => Json.object (entriesToJson entries)

/-- The values as JSON values. -/
def valuesToJson : List Value → List Json
  | [] => []
  | value :: rest => value.toJson :: valuesToJson rest

/-- The tables as JSON values. -/
def tablesToJson : List Table → List Json
  | [] => []
  | table :: rest => table.toJson :: tablesToJson rest

/-- The entries as JSON fields. -/
def entriesToJson : List (String × Value) → List (String × Json)
  | [] => []
  | entry :: rest => (entry.1, entry.2.toJson) :: entriesToJson rest

end

/-- What a TOML document says of records: nothing is absent that is written, and the content of a
variant may be an empty table or an empty array. -/
def dialect : Dialect where
  nullIsAbsent := false
  isUnit value := match value with
    | .arr [] => true
    | .obj [] => true
    | _ => false

end Toml

end LanguageClient
