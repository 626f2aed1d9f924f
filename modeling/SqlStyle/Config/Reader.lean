import SqlStyle.Config
import SqlStyle.Toml.Document

/-! # Reading a configuration

Keys that mean nothing are passed over; a key that means something has to have a value of its
type. -/

namespace SqlStyle

/-- The text is no document, or a value has the wrong type. -/
structure ConfigFault where
deriving DecidableEq, Repr

def ConfigFault.message (_ : ConfigFault) : String := "Failed to parse config"

namespace Config

open Toml (Entries Value)

/-- The value of a key, read by `f`; `default` if the key is not there. -/
def field {α : Type} (es : Entries) (key : String) (default : α) (f : Value → Option α) :
    Option α :=
  match es.lookup key with
  | none => some default
  | some v => f v

def stringOf : Value → Option String
  | .string s => some s
  | _ => none

def booleanOf : Value → Option Bool
  | .boolean b => some b
  | _ => none

def naturalOf : Value → Option Nat
  | .integer n => if 0 ≤ n then some n.toNat else none
  | _ => none

def stringsOf : Value → Option (List String)
  | .array _ vs => vs.mapM stringOf
  | _ => none

/-- A table or an array with nothing in it. -/
def isVoid : Value → Bool
  | .array _ vs => vs.isEmpty
  | .table _ es => es.isEmpty
  | _ => false

/-- A severity is written by its name, or as the only key of a table, with nothing below it. -/
def severityOf : Value → Option Severity
  | .string s => Severity.ofName? s
  | .table _ [(name, v)] => if isVoid v then Severity.ofName? name else none
  | _ => none

/-- The key of a date's text where a table is asked for. -/
def dateTimeKey : String := "$__toml_private_datetime"

/-- The entries of a table; a date counts as a table that holds its text. -/
def entriesOf : Value → Option Entries
  | .table _ es => some es
  | .dateTime d => some [(dateTimeKey, .string d.text)]
  | _ => none

mutual

/-- The value of an option: a table that begins with the key of a date's text is that date, and
has to hold it and nothing else. -/
def optionOf : Value → Option Value
  | .array byHeaders vs => (optionList vs).map (.array byHeaders)
  | .table origin es =>
      match es with
      | (k, v) :: rest =>
          if k == dateTimeKey then
            match v, rest with
            | .string s, [] => (Toml.dateTimeOf? s).map .dateTime
            | _, _ => none
          else (optionEntries ((k, v) :: rest)).map (.table origin)
      | [] => some (.table origin [])
  | v => some v

def optionList : List Value → Option (List Value)
  | [] => some []
  | v :: vs =>
      match optionOf v, optionList vs with
      | some v, some vs => some (v :: vs)
      | _, _ => none

def optionEntries : List (String × Value) → Option (List (String × Value))
  | [] => some []
  | (k, v) :: es =>
      match optionOf v, optionEntries es with
      | some v, some es => some ((k, v) :: es)
      | _, _ => none

end

/-- The table `[linter]`, or its values in order. -/
def linterOf (v : Value) : Option LinterConfig :=
  match v with
  | .array _ vs => do
      let d : LinterConfig := {}
      let item {α : Type} (i : Nat) (default : α) (f : Value → Option α) : Option α :=
        match vs[i]? with
        | none => some default
        | some v => f v
      let excludes ← item 0 d.excludes stringsOf
      let includes ← item 1 d.includes stringsOf
      let respect ← item 2 d.respectIgnoreFiles booleanOf
      let parallelism ← item 3 none fun v => (naturalOf v).map some
      some ⟨excludes, includes, respect, parallelism⟩
  | v => do
      let es ← entriesOf v
      let d : LinterConfig := {}
      let excludes ← field es "exclude" d.excludes stringsOf
      let includes ← field es "include" d.includes stringsOf
      let respect ← field es "respect_gitignore" d.respectIgnoreFiles booleanOf
      let parallelism ← field es "parallelism" none fun v => (naturalOf v).map some
      some ⟨excludes, includes, respect, parallelism⟩

/-- The table of a rule: what is not `enabled` or `severity` is an option. -/
def ruleOf (v : Value) : Option RuleConfig := do
  let es ← entriesOf v
  let enabled ← field es "enabled" none fun v => (booleanOf v).map some
  let severity ← field es "severity" none fun v => (severityOf v).map some
  let options ← optionEntries (es.filter fun (k, _) => k != "enabled" && k != "severity")
  some ⟨enabled, severity, options⟩

def rulesOf (v : Value) : Option (List (String × RuleConfig)) := do
  (← entriesOf v).mapM fun (name, v) => (ruleOf v).map (name, ·)

/-- The configuration that a top table writes. -/
def ofEntries (es : Entries) : Option Config := do
  let preset ← field es "preset" none fun v => (stringOf v).map some
  let failOn ← field es "fail_on" none fun v => (severityOf v).map some
  let linter ← field es "linter" {} linterOf
  let rules ← field es "rules" [] rulesOf
  some ⟨preset, failOn, linter, rules⟩

/-- Reads the text of a configuration file. -/
def parse (text : String) : Except ConfigFault Config :=
  match (Toml.parse text).bind ofEntries with
  | some c => .ok c
  | none => .error ⟨⟩

end Config

end SqlStyle
