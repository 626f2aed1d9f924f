import SqlStyle.Diagnostic
import SqlStyle.Total

/-! # Diagnostics shown in their source -/

namespace SqlStyle

/-- A stretch of UTF-8 bytes of a source text. -/
structure ByteSpan where
  offset : Nat
  length : Nat
deriving DecidableEq, Repr

/-- How many bytes the first `n` characters take. -/
def byteOffset (cs : List Char) (n : Nat) : Nat := total Char.utf8Size (cs.take n)

/-- What is drawn beside the source text for a diagnostic. -/
structure Label where
  message : String
  help : Option String
  text : String
  span : ByteSpan
deriving DecidableEq, Repr

namespace Label

/-- The comment that switches a rule off. -/
def hint (rule : String) : String := "/* tsqllint-disable " ++ rule ++ " */"

/-- How many offsets there are, those of 64 bits. Counting goes on from the last one to 0. -/
def offsets : Nat := 18446744073709551616

/-- The bytes of a diagnostic's characters. -/
def spanOf (d : Diagnostic) (source : String) : ByteSpan :=
  let start := byteOffset source.toList d.startChar
  ⟨start, byteOffset source.toList ((d.stopChar + 1) % offsets) - start⟩

def ofDiagnostic (d : Diagnostic) (source : String) : Label where
  message := "[" ++ d.severity.name ++ "] " ++ d.message
  help := if d.isFault then none else some ("suppress with " ++ hint d.rule)
  text := d.rule
  span := if d.isFault then ⟨0, 0⟩ else spanOf d source

end Label

end SqlStyle
