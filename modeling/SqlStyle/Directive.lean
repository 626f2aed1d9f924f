import SqlStyle.Text.Ascii
import SqlStyle.Text.Blank
import SqlStyle.Text.Numeric

/-! # Directives in comments

A comment that holds `tsqllint-disable` or `tsqllint-enable` switches a rule, or all of them. -/

namespace SqlStyle

inductive Action
  | disable
  | enable
deriving DecidableEq, Repr

def Action.keyword : Action → String
  | .disable => "disable"
  | .enable => "enable"

/-- What a directive is about: one rule, by its name in upper case, or all rules. -/
abbrev Key := Option String

structure Directive where
  action : Action
  key : Key
deriving DecidableEq, Repr

namespace Directive

/-- Characters of rule names. -/
def isNameChar (c : Char) : Bool := Text.isAlphanumeric c || c == '-' || c == '_'

/-- A directive does not start right behind such a character. -/
def isJoined (c : Char) : Bool := Text.isAlphanumeric c || c == '_'

/-- `cs` without `tail` at its end, if it ends so. -/
def dropTail (tail cs : List Char) : List Char :=
  if tail.isSuffixOf cs then cs.take (cs.length - tail.length) else cs

/-- A comment without its markers. -/
def body : List Char → List Char
  | '/' :: '*' :: inner => dropTail ['*', '/'] inner
  | '-' :: '-' :: inner => inner
  | cs => cs

/-- The rule name at the front, behind blanks. -/
def keyOf (cs : List Char) : Key :=
  match (cs.dropWhile Text.isBlank).takeWhile isNameChar with
  | [] => none
  | name => some (Text.upper (.ofList name))

/-- The text behind an action's keyword, unless the keyword runs on. -/
def afterAction? (a : Action) (cs : List Char) : Option (List Char) :=
  match Text.dropWord? a.keyword.toList cs with
  | some rest => if rest.head?.any isNameChar then none else some rest
  | none => none

/-- The directive at the front of a text. -/
def here? (cs : List Char) : Option Directive :=
  match Text.dropWord? "tsqllint-".toList cs with
  | none => none
  | some rest =>
      match afterAction? .disable rest with
      | some tail => some ⟨.disable, keyOf tail⟩
      | none =>
          match afterAction? .enable rest with
          | some tail => some ⟨.enable, keyOf tail⟩
          | none => none

/-- The directive at the front of a text that stands behind the character `before`. -/
def behind? (before : Option Char) (cs : List Char) : Option Directive :=
  if before.any isJoined then none else here? cs

/-- The first directive of a text that stands behind the character `before`. -/
def find? (before : Option Char) : List Char → Option Directive
  | [] => none
  | c :: cs =>
      match behind? before (c :: cs) with
      | some d => some d
      | none => find? (some c) cs

/-- The directive that a comment holds. -/
def parse (comment : String) : Option Directive := find? none (body comment.toList)

end Directive

end SqlStyle
