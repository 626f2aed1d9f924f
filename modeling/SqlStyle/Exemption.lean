import SqlStyle.Directive
import SqlStyle.Token

/-! # Exempt ranges

A range runs from a directive that switches a key off to the one that switches it on again, or
to the end of the file. -/

namespace SqlStyle

/-- Inclusive character offsets at which one rule, or every rule, is switched off. -/
structure Exemption where
  key : Key
  startChar : Nat
  stopChar : Nat
deriving DecidableEq, Repr

namespace Exemption

/-- A range for a rule named in any ASCII case. -/
def named (rule : Option String) (startChar stopChar : Nat) : Exemption :=
  ⟨rule.map Text.upper, startChar, stopChar⟩

def covers (x : Exemption) (rule : String) (offset : Nat) : Bool :=
  x.startChar ≤ offset && offset ≤ x.stopChar && x.key.all (Text.eqIgnoreCase · rule)

/-- The order of keys: all rules first, then names by code points. -/
def keyLe : Key → Key → Bool
  | none, _ => true
  | some _, none => false
  | some a, some b => a ≤ b

/-- Keys that are switched off, with the offset since when. -/
abbrev Open := List (Key × Nat)

/-- How far the directives of a file have been followed. -/
structure Scan where
  isOpen : Open
  closed : List Exemption
deriving DecidableEq, Repr

namespace Scan

def start : Scan := ⟨[], []⟩

/-- The effect of one directive, held by the comment `t`. -/
def apply (s : Scan) (t : Token) (d : Directive) : Scan :=
  match d.action, s.isOpen.lookup d.key with
  | .disable, none => { s with isOpen := s.isOpen ++ [(d.key, t.startChar)] }
  | .disable, some _ => s
  | .enable, none => s
  | .enable, some since =>
      { isOpen := s.isOpen.filter (·.1 != d.key)
        closed := s.closed ++ [⟨d.key, since, t.stopChar⟩] }

/-- Follow one comment. -/
def step (s : Scan) (t : Token) : Scan :=
  match Directive.parse t.text with
  | some d => s.apply t d
  | none => s

/-- Close what is open at the end of the file, in the order of keys. -/
def finish (s : Scan) (last : Nat) : List Exemption :=
  s.closed ++ (s.isOpen.mergeSort fun a b => keyLe a.1 b.1).map fun (k, since) =>
    ⟨k, since, max last since⟩

end Scan

/-- The ranges that the comments of a file exempt. -/
def scan (ts : List Token) : List Exemption :=
  ((Token.comments ts).foldl Scan.step .start).finish ((Token.lastChar? ts).getD 0)

end Exemption

end SqlStyle
