import LanguageClient.Log
import LanguageClient.Text.Blank

/-!
# Log filters

A filter is a list of directives with commas between them. A directive gives a level to the events
of a target; a target stands for every target that starts with its text. The most specific directive
that fits an event decides: the one with the longest target, then the one with the most field names.
An event that none fits is dropped.

A directive is `level`, `target` or `target=level`, where a span in brackets may follow the target.
What names a span, or the value of a field, fits no event by itself.
-/

namespace LanguageClient

/-- The greatest rank of level that a filter lets through; zero lets nothing through. -/
abbrev LevelLimit := Nat

namespace LogFilter

/-- A directive as it is written. -/
structure Directive where
  limit : LevelLimit
  target : Option String
  span : Option String
  /-- The names of fields, and whether each has a value. -/
  fields : List (String × Bool)
  deriving DecidableEq, Repr

/-- The directive that lets everything through. -/
def Directive.everything : Directive := ⟨5, none, none, []⟩

/-- The directive that lets nothing through. -/
def Directive.nothing : Directive := ⟨0, none, none, []⟩

/-- The limit of a name or a number. -/
def limitOf? (text : String) : Option LevelLimit :=
  match numberOf? text.toList with
  | some n => if n ≤ 5 then some n else none
  | none =>
    match text.toLower with
    | "" => some 1
    | "off" => some 0
    | "error" => some 1
    | "warn" => some 2
    | "info" => some 3
    | "debug" => some 4
    | "trace" => some 5
    | _ => none
where
  numberOf? (cs : List Char) : Option Nat :=
    let digits := match cs with
      | '+' :: rest => rest
      | cs => cs
    if digits.isEmpty ∨ ¬digits.all Char.isDigit then none
    else some (digits.foldl (fun n c => n * 10 + (c.toNat - 48)) 0)

/-- Where the reading of a directive stands; positions are counted from its start. -/
inductive Stage where
  | start
  | levelOrTarget (since : Nat)
  | span (since : Nat)
  | field (since : Nat)
  | fields
  | target
  | level (since : Nat)
  deriving DecidableEq, Repr

/-- The part of a text between two positions. -/
def slice (text : List Char) (start stop : Nat) : String :=
  String.ofList ((text.take stop).drop start)

/-- A field by its name, with a value after an equals sign. -/
def fieldOf (text : String) : String × Bool :=
  let cs := text.toList
  let name := cs.takeWhile (· ≠ '=')
  (String.ofList name, name.length < cs.length)

/-- Whether a directive may start with the character; all that is not ASCII may. -/
def startsDirective (c : Char) : Bool :=
  c.isAlphanum || c = '-' || c = ':' || c = '_' || 127 < c.toNat

/-- Reads one character at its position. -/
def step (text : List Char) (at_ : Nat) (c : Char) (stage : Stage) (d : Directive) :
    Option (Stage × Directive) :=
  match stage with
  | .start =>
    if c = '[' then some (.span (at_ + 1), d)
    else if startsDirective c then some (.levelOrTarget at_, d)
    else none
  | .levelOrTarget since =>
    if c = '=' then some (.level (at_ + 1), { d with target := some (slice text since at_) })
    else if c = '[' then some (.span (at_ + 1), { d with target := some (slice text since at_) })
    else some (stage, d)
  | .target => if c = '=' then some (.level (at_ + 1), d) else none
  | .span since =>
    if c = ']' then some (.target, { d with span := some (slice text since at_) })
    else if c = '\x7b' then
      let name := slice text since at_
      some (.field (at_ + 1), { d with span := if name = "" then none else some name })
    else some (stage, d)
  | .field since =>
    if c = '\x7d' then
      let name := slice text since at_
      if name = "" then none else some (.fields, { d with fields := d.fields ++ [fieldOf name] })
    else some (stage, d)
  | .fields => if c = ']' then some (.target, d) else none
  | .level _ => some (stage, d)

def steps (text : List Char) (at_ : Nat) (cs : List Char) (stage : Stage) (d : Directive) :
    Option (Stage × Directive) :=
  match cs with
  | [] => some (stage, d)
  | c :: rest => do
    let (stage, d) ← step text at_ c stage d
    steps text (at_ + 1) rest stage d

def trim (text : List Char) : List Char :=
  ((text.dropWhile isWhiteSpace).reverse.dropWhile isWhiteSpace).reverse

/-- The directive that a text writes. It is read without the white space around it, but its last
part is what the whole text has from the position on where that part starts. -/
def directive? (text : List Char) : Option Directive := do
  let (stage, d) ← steps text 0 (trim text) .start .everything
  match stage with
  | .levelOrTarget since =>
    let last := slice text since text.length
    match if last = "" then some 5 else limitOf? last with
    | some limit => some { d with limit }
    | none => some { d with target := some last }
  | .level since =>
    let last := slice text since text.length
    let limit ← if last = "" then some 5 else limitOf? last
    some { d with limit }
  | .target => some d
  | _ => none

/-- The parts between commas. -/
def splitCommas : List Char → List (List Char)
  | [] => [[]]
  | ',' :: rest => [] :: splitCommas rest
  | c :: rest =>
    match splitCommas rest with
    | [] => [[c]]
    | first :: others => (c :: first) :: others

/-- A directive that fits events by themselves. -/
structure Rule where
  target : Option String
  fields : List String
  limit : LevelLimit
  deriving DecidableEq, Repr

/-- The rule of a directive, unless that names a span or the value of a field. -/
def Directive.rule? (d : Directive) : Option Rule :=
  if d.span.isSome ∨ d.fields.any Prod.snd then none
  else some ⟨d.target, d.fields.map Prod.fst, d.limit⟩

/-- The order of names in a dictionary. -/
def namesBefore : List String → List String → Bool
  | [], [] => false
  | [], _ :: _ => true
  | _ :: _, [] => false
  | a :: as, b :: bs => a < b || (a = b && namesBefore as bs)

/-- How specific a rule is: by the length of its target, then by the number of its fields. -/
def Rule.weight (rule : Rule) : Nat × Nat :=
  (match rule.target with
    | none => 0
    | some t => t.utf8ByteSize + 1, rule.fields.length)

/-- Whether the first rule is tried before the second. -/
def Rule.before (a b : Rule) : Bool :=
  if a.weight.1 ≠ b.weight.1 then b.weight.1 < a.weight.1
  else if a.weight.2 ≠ b.weight.2 then b.weight.2 < a.weight.2
  else if a.target ≠ b.target then (b.target.getD "") < (a.target.getD "")
  else namesBefore b.fields a.fields

/-- The rules with one more, which takes the place of one for the same target and fields. -/
def insert (rule : Rule) : List Rule → List Rule
  | [] => [rule]
  | other :: rest =>
    if rule.target = other.target ∧ rule.fields = other.fields then rule :: rest
    else if rule.before other then rule :: other :: rest
    else other :: insert rule rest

end LogFilter

/-- The rules of a log, the most specific first. -/
structure LogFilter where
  rules : List LogFilter.Rule
  deriving DecidableEq, Repr

namespace LogFilter

/-- The filter of directives; without any it lets nothing through. Rules without fields or spans
come in before the others. -/
def ofDirectives (directives : List Directive) : LogFilter :=
  let directives := if directives.isEmpty then [.nothing] else directives
  let plain := directives.filter fun d => d.span.isNone && d.fields.isEmpty
  let others := directives.filter fun d => !(d.span.isNone && d.fields.isEmpty)
  ⟨((plain ++ others).filterMap Directive.rule?).foldl (fun rules rule => insert rule rules) []⟩

/-- The filter that a text writes. -/
def parse? (text : String) : Option LogFilter := do
  let parts := (splitCommas text.toList).filter fun part => !part.isEmpty
  let directives ← parts.mapM directive?
  some (ofDirectives directives)

/-- Whether a rule speaks of the events of a target that have the given fields. -/
def Rule.fits (rule : Rule) (target : String) (fields : List String) : Bool :=
  (match rule.target with
    | none => true
    | some t => t.toList.isPrefixOf target.toList) &&
  rule.fields.all fields.contains

/-- Whether the filter lets an event through. -/
def allows (filter : LogFilter) (event : LogEvent) : Bool :=
  let names := "message" :: event.fields.map Prod.fst
  match filter.rules.find? fun rule => rule.fits event.target names with
  | some rule => event.level.rank ≤ rule.limit
  | none => false

end LogFilter

end LanguageClient
