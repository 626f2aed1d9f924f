import SqlStyle.Glob
import Mathlib

/-!
# What a pattern matches

A pattern matches a text if its pieces match stretches of the text, one behind the other.  The
program does not try the ways to cut the text.  It goes through the pieces from the last to the
first and notes for every end of the text whether the pieces so far match it.  What it notes behind
all pieces is the truth about every end, so nothing is lost by never going back.
-/

namespace SqlStyle

namespace Ends

variable {α : Type} (p : List α → Bool) (cs : List α)

theorem map_tabulate (f : Bool → Bool) :
    (tabulate p cs).map f = tabulate (fun cs => f (p cs)) cs := by
  induction cs with
  | nil => rfl
  | cons c cs ih => exact congrArg (f (p (c :: cs)) :: ·) ih

theorem getLastD_tabulate (b : Bool) : (tabulate p cs).getLastD b = p [] := by
  induction cs generalizing b with
  | nil => rfl
  | cons c cs ih => rw [tabulate, List.getLastD_cons, ih]

theorem span_tabulate (admits : α → Bool) :
    span admits cs (tabulate p cs) =
      tabulate (fun cs => (span admits cs (tabulate p cs)).hasAll) cs := by
  induction cs with
  | nil => rfl
  | cons c cs ih => exact congrArg (_ :: ·) ih

theorem below_tabulate (isSeparator : α → Bool) :
    below isSeparator cs (tabulate p cs) =
      tabulate (fun cs => (below isSeparator cs (tabulate p cs)).hasAll) cs := by
  induction cs with
  | nil => rfl
  | cons c cs ih => exact congrArg (_ :: ·) ih

end Ends

namespace Glob

open Ends (tabulate)

/-- Pieces match a text.  A piece `*` takes any stretch of it.  A piece `**` takes nothing, or a
stretch that ends in a separator, or all that is left if the pieces behind it match nothing. -/
inductive Matches : List Piece → List Char → Prop
  | nil : Matches [] []
  | one {p : Piece} {c : Char} {ps : List Piece} {cs : List Char} (hadmits : p.admits c = true)
      (hrest : Matches ps cs) : Matches (p :: ps) (c :: cs)
  | many (as : List Char) {ps : List Piece} {cs : List Char} (hrest : Matches ps cs) :
      Matches (.many :: ps) (as ++ cs)
  | deep {as : List Char} {ps : List Piece} {cs : List Char}
      (hwhole : as = [] ∨ as.getLast? = some '/' ∨ cs = []) (hrest : Matches ps cs) :
      Matches (.deep :: ps) (as ++ cs)

variable {p : Piece} {ps : List Piece} {cs : List Char}

theorem matches_nil_iff : Matches [] cs ↔ cs = [] := by
  constructor
  · intro h
    cases h
    rfl
  · rintro rfl
    exact .nil

theorem matches_many_iff :
    Matches (.many :: ps) cs ↔ ∃ as bs, cs = as ++ bs ∧ Matches ps bs := by
  constructor
  · intro h
    cases h with
    | one hadmits _ => cases hadmits
    | many as hrest => exact ⟨as, _, rfl, hrest⟩
  · rintro ⟨as, bs, rfl, hrest⟩
    exact .many as hrest

theorem matches_deep_iff :
    Matches (.deep :: ps) cs ↔
      ((∃ as s bs, cs = as ++ s :: bs ∧ (s == '/') = true ∧ Matches ps bs) ∨ Matches ps cs) ∨
        Matches ps [] := by
  constructor
  · intro h
    cases h with
    | one hadmits _ => cases hadmits
    | deep hwhole hrest =>
        rcases hwhole with rfl | hslash | rfl
        · exact .inl (.inr hrest)
        · obtain ⟨as, rfl⟩ := List.getLast?_eq_some_iff.mp hslash
          exact .inl (.inl ⟨as, '/', _, by simp, rfl, hrest⟩)
        · exact .inr hrest
  · rintro ((⟨as, s, bs, rfl, hs, hrest⟩ | hrest) | hrest)
    · rw [eq_of_beq hs, List.append_cons]
      exact .deep (.inr (.inl (by simp))) hrest
    · exact .deep (.inl rfl) hrest
    · have h : Matches (.deep :: ps) (cs ++ []) := .deep (.inr (.inr rfl)) hrest
      rwa [List.append_nil] at h

/-- Any other piece takes one character. -/
theorem matches_one_iff (hmany : p ≠ .many) (hdeep : p ≠ .deep) :
    Matches (p :: ps) cs ↔ ∃ c bs, cs = c :: bs ∧ p.admits c = true ∧ Matches ps bs := by
  constructor
  · intro h
    cases h with
    | one hadmits hrest => exact ⟨_, _, rfl, hadmits, hrest⟩
    | many as hrest => exact absurd rfl hmany
    | deep hwhole hrest => exact absurd rfl hdeep
  · rintro ⟨c, bs, rfl, hadmits, hrest⟩
    exact .one hadmits hrest

open Classical in
theorem step_admits_tabulate (p : Piece) (hmany : p ≠ .many) (hdeep : p ≠ .deep)
    (ps : List Piece) (cs : List Char) :
    Ends.step p.admits cs (tabulate (fun cs => decide (Matches ps cs)) cs) =
      tabulate (fun cs => decide (Matches (p :: ps) cs)) cs := by
  rw [Ends.step_tabulate]
  congr 1
  funext cs
  rw [Bool.eq_iff_iff, decide_eq_true_eq, matches_one_iff hmany hdeep]
  cases cs with
  | nil => simp
  | cons c cs => simp

open Classical in
/-- A piece takes what is noted about the ends behind it to what holds with it. -/
theorem before_tabulate (p : Piece) (ps : List Piece) (cs : List Char) :
    p.before cs (tabulate (fun cs => decide (Matches ps cs)) cs) =
      tabulate (fun cs => decide (Matches (p :: ps) cs)) cs := by
  cases p with
  | many =>
      rw [Piece.before, Ends.span_tabulate]
      congr 1
      funext cs
      rw [Bool.eq_iff_iff, Ends.hasAll_span_tabulate, decide_eq_true_eq, matches_many_iff]
      simp
  | deep =>
      rw [Piece.before, Ends.below_tabulate, Ends.union_tabulate, Ends.getLastD_tabulate,
        Ends.map_tabulate]
      congr 1
      funext cs
      rw [Bool.eq_iff_iff, Bool.or_eq_true, Bool.or_eq_true, Ends.hasAll_below_tabulate,
        decide_eq_true_eq, matches_deep_iff]
      simp
  | char d => exact step_admits_tabulate (.char d) nofun nofun ps cs
  | any => exact step_admits_tabulate .any nofun nofun ps cs
  | oneOf negated ranges => exact step_admits_tabulate (.oneOf negated ranges) nofun nofun ps cs

open Classical in
/-- What is noted behind all pieces is which ends they match. -/
theorem matched_eq_tabulate (cs : List Char) (ps : List Piece) :
    matched cs ps = tabulate (fun cs => decide (Matches ps cs)) cs := by
  induction ps with
  | nil =>
      have hempty : (fun cs => decide (Matches [] cs)) = List.isEmpty := by
        funext cs
        rw [Bool.eq_iff_iff, decide_eq_true_eq, matches_nil_iff, List.isEmpty_iff]
      rw [hempty]
      rfl
  | cons p ps ih =>
      rw [← before_tabulate, ← ih]
      rfl

/-- A pattern matches a path exactly if its pieces do. -/
theorem isMatch_iff (g : Glob) (path : String) :
    g.isMatch path = true ↔ Matches g.pieces path.toList := by
  classical
  rw [isMatch, matched_eq_tabulate, Ends.hasAll_tabulate, decide_eq_true_eq]

end Glob

end SqlStyle
