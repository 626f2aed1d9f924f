/-! # Letter case in the ASCII range -/

namespace SqlStyle.Text

/-- ASCII letters in upper case; every other character stays. -/
def upper (s : String) : String := .ofList (s.toList.map Char.toUpper)

/-- ASCII letters in lower case; every other character stays. -/
def lower (s : String) : String := .ofList (s.toList.map Char.toLower)

/-- Equality of characters up to the case of ASCII letters. -/
def sameLetter (a b : Char) : Bool := a.toUpper == b.toUpper

/-- Equality of texts up to the case of ASCII letters. -/
def eqIgnoreCase (s t : String) : Bool := upper s == upper t

@[simp] theorem toList_upper (s : String) : (upper s).toList = s.toList.map Char.toUpper := by
  simp [upper]

@[simp] theorem toList_lower (s : String) : (lower s).toList = s.toList.map Char.toLower := by
  simp [lower]

/-- The rest of `cs` after `word`, if `cs` begins with it up to ASCII case. -/
def dropWord? : (word : List Char) → (cs : List Char) → Option (List Char)
  | [], cs => some cs
  | w :: ws, c :: cs => if sameLetter w c then dropWord? ws cs else none
  | _ :: _, [] => none

end SqlStyle.Text
