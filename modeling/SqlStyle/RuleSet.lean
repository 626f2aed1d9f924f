import SqlStyle.Config
import SqlStyle.Rule.BuiltIn

/-! # Which rules run -/

namespace SqlStyle

inductive Preset
  | recommended
  | strict
  | minimal
deriving DecidableEq, Repr

namespace Preset

def name : Preset → String
  | recommended => "recommended"
  | strict => "strict"
  | minimal => "minimal"

/-- A text that names no preset. -/
structure Unknown where
  text : String
deriving DecidableEq, Repr

def Unknown.message (e : Unknown) : String :=
  "unknown preset `" ++ e.text ++ "` (expected recommended, strict or minimal)"

/-- Reads a preset in any ASCII case. -/
def parse (s : String) : Except Unknown Preset :=
  match [recommended, strict, minimal].find? (·.name == Text.lower s) with
  | some p => .ok p
  | none => .error ⟨s⟩

/-- The rules of a preset, in the order in which they run. -/
def rules : Preset → List BuiltIn
  | recommended =>
      [.keywordCasing .upper, .selectStar true, .printStatement true, .informationSchema,
       .disallowCursors, .linkedServer]
  | strict =>
      [.keywordCasing .upper, .selectStar false, .printStatement false, .informationSchema,
       .disallowCursors, .linkedServer, .upperLower]
  | minimal => [.keywordCasing .upper]

end Preset

namespace BuiltIn

/-- The names of all built-in rules, sorted. -/
def names : List String := (all.map name).mergeSort (· ≤ ·)

/-- The casing that a table sets; upper case if it sets none that is known. -/
def casingOf (c : RuleConfig) : Casing :=
  match Casing.parse (c.string "casing" "upper") with
  | .ok casing => casing
  | .error _ => .upper

/-- This kind of rule with the options of a table. -/
def configured (c : RuleConfig) : BuiltIn → BuiltIn
  | keywordCasing _ => keywordCasing (casingOf c)
  | selectStar _ => selectStar (c.boolean "allow_in_exists" true)
  | printStatement _ => printStatement (c.boolean "allow_in_tests" true)
  | b => b

/-- The rule of a name, with the options of a table. -/
def ofName? (name : String) (c : RuleConfig) : Option BuiltIn :=
  (all.find? (·.name == name)).map (configured c)

end BuiltIn

namespace RuleSet

/-- A preset's rule, made anew if its table holds options. -/
def refine (c : Config) (b : BuiltIn) : BuiltIn :=
  match c.rules.lookup b.name with
  | some table => if table.options.isEmpty then b else b.configured table
  | none => b

/-- The tables that switch on a rule other than the given ones, by name. -/
def extras (c : Config) (known : List BuiltIn) : List (String × RuleConfig) :=
  (c.rules.filter fun (name, table) =>
    table.enabled == some true && !known.any (·.name == name)).mergeSort fun a b => a.1 ≤ b.1

/-- The rules of a configuration: those of its preset, then those it adds. -/
def resolve (c : Config) : Except Preset.Unknown (List BuiltIn) := do
  let preset ← match c.preset with
    | some name => Preset.parse name
    | none => .ok .recommended
  let rules := preset.rules.map (refine c)
  return rules ++ (extras c rules).filterMap fun (name, table) => BuiltIn.ofName? name table

/-- The named rules with the options of their tables; unknown names are passed over. -/
def select (names : List String) (c : Config) : List BuiltIn :=
  names.filterMap fun name => BuiltIn.ofName? name ((c.rules.lookup name).getD {})

end RuleSet

end SqlStyle
