import SqlStyle.Rule
import SqlStyle.Rule.Keyword
import SqlStyle.Rule.LinkedServer
import SqlStyle.Rule.SelectStar

/-! # The built-in rules -/

namespace SqlStyle

/-- A built-in rule with its options. -/
inductive BuiltIn
  | keywordCasing (casing : Casing)
  | selectStar (allowInExists : Bool)
  | printStatement (allowInTests : Bool)
  | informationSchema
  | disallowCursors
  | linkedServer
  | upperLower
deriving DecidableEq, Repr

namespace BuiltIn

def name : BuiltIn → String
  | keywordCasing _ => "keyword-casing"
  | selectStar _ => "select-star"
  | printStatement _ => "print-statement"
  | informationSchema => "information-schema"
  | disallowCursors => "disallow-cursors"
  | linkedServer => "linked-server"
  | upperLower => "upper-lower"

def description : BuiltIn → String
  | keywordCasing _ => "Reserved T-SQL keywords must use a consistent casing"
  | selectStar _ => "Forbids * in select lists"
  | printStatement _ => "Forbids PRINT statements"
  | informationSchema => "Forbids INFORMATION_SCHEMA views in favour of sys catalog views"
  | disallowCursors => "Forbids cursor declarations"
  | linkedServer => "Forbids linked server calls through four-part names"
  | upperLower => "Discourages UPPER() and LOWER() in favour of case-insensitive collations"

def severity : BuiltIn → Severity
  | informationSchema | linkedServer => .error
  | _ => .warning

/-- `PRINT`, unless a point stands beside it. -/
def printFindings (ls : List Lexeme) : List Finding :=
  Finding.each "Use RAISERROR or THROW instead of PRINT"
    (fun before l after => l.isWord "PRINT" && !Lexeme.isQualified before after) ls

def cursorFindings (ls : List Lexeme) : List Finding :=
  Finding.each "Found cursor declaration"
    (fun before l after => l.isWord "CURSOR" && !Lexeme.isQualified before after) ls

/-- Calls of `UPPER` and `LOWER`. -/
def foldFindings (ls : List Lexeme) : List Finding :=
  Finding.each "Use of the UPPER or LOWER functions is not allowed"
    (fun before l after => (l.isWord "UPPER" || l.isWord "LOWER") && Lexeme.nextIs "(" after
      && !Lexeme.isQualified before after) ls

/-- A view's name right behind a point. -/
def namesView : List Lexeme → Bool
  | dot :: view :: _ => dot.isSymbol "." && view.isName
  | _ => false

/-- `INFORMATION_SCHEMA`, with the view if it is named. -/
def schemaFindings (ls : List Lexeme) : List Finding :=
  Finding.walk (fun i _ l after =>
    if l.isName && Text.eqIgnoreCase l.unquoted "INFORMATION_SCHEMA" then
      some ⟨"Expected sys catalog views rather than INFORMATION_SCHEMA views", i,
        if namesView after then i + 2 else i⟩
    else none) 0 [] ls

/-- What a rule finds among the significant lexemes of a file. -/
def findings (isTest : Bool) (ls : List Lexeme) : BuiltIn → List Finding
  | keywordCasing casing => casing.findings ls
  | selectStar allowInExists => SelectStar.findings allowInExists ls
  | printStatement allowInTests => if allowInTests && isTest then [] else printFindings ls
  | informationSchema => schemaFindings ls
  | disallowCursors => cursorFindings ls
  | linkedServer => LinkedServer.findings ls
  | upperLower => foldFindings ls

/-- The violations that a rule finds in a file. -/
def check (b : BuiltIn) (ctx : FileContext) : List Violation :=
  let ts := ctx.significant
  Finding.violations b.name ts (b.findings ctx.isTest (ts.map (·.toLexeme)))

/-- A built-in rule among rules of any kind; it never fails. -/
def toRule (b : BuiltIn) : Rule where
  name := b.name
  description := b.description
  severity := b.severity
  check := fun ctx => .ok (b.check ctx)

/-- Every built-in rule with its default options. -/
def all : List BuiltIn :=
  [keywordCasing .upper, selectStar true, printStatement true, informationSchema,
   disallowCursors, linkedServer, upperLower]

end BuiltIn

end SqlStyle
