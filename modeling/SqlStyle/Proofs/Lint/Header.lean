import SqlStyle.Proofs.Exemption.Shift
import SqlStyle.Proofs.Lint.Pipeline

/-!
# A header moves diagnostics

Built-in rules look at the texts of significant tokens and at the path, never at offsets; these
they only copy into their violations.  Under a header of white space and comments without
directives, they find the same in the same tokens, further on.  The exempt ranges have moved on
with them, and so has the order of places.
-/

namespace SqlStyle

variable (k m : Nat)

/-- The violation further on in a file, by characters and by lines. -/
def Violation.shift (v : Violation) : Violation :=
  { v with startChar := v.startChar + k, stopChar := v.stopChar + k, line := v.line + m }

/-- The diagnostic further on in a file. -/
def Diagnostic.shift (d : Diagnostic) : Diagnostic :=
  { d with toViolation := d.toViolation.shift k m }

/-- The report with all its diagnostics further on; as many are listed, and as many suppressed. -/
def Report.shift (r : Report) : Report :=
  { r with diagnostics := r.diagnostics.map (·.shift k m) }

/-! ## Violations -/

theorem Violation.joinTexts_shift (ts : List Token) :
    joinTexts (ts.map (·.shift k m)) = joinTexts ts := by
  rw [joinTexts, joinTexts, List.map_map]
  rfl

theorem Violation.spanning_shift (rule message : String) (ts : List Token) :
    spanning rule message (ts.map (·.shift k m)) =
      (spanning rule message ts).map (·.shift k m) := by
  rw [spanning, spanning, List.head?_map, List.getLast?_map, joinTexts_shift]
  cases ts.head? with
  | none => rfl
  | some first =>
      cases ts.getLast? with
      | none => rfl
      | some last => rfl

theorem Finding.tokens_shift (f : Finding) (ts : List Token) :
    f.tokens (ts.map (·.shift k m)).toArray = (f.tokens ts.toArray).map (·.shift k m) := by
  rw [tokens, tokens, Array.toList_extract, Array.toList_extract, List.extract_eq_take_drop,
    List.extract_eq_take_drop, List.map_take, List.map_drop]

/-- Findings tell tokens by their positions in the list, so they can be taken to tokens that have
moved on. -/
theorem Finding.violations_shift (rule : String) (ts : List Token) (fs : List Finding) :
    violations rule (ts.map (·.shift k m)) fs =
      (violations rule ts fs).map (·.shift k m) := by
  rw [violations, violations, List.map_filterMap]
  refine List.filterMap_congr fun f _ => ?_
  rw [tokens_shift, Violation.spanning_shift]

namespace BuiltIn

variable {k m} {header : List Token}

theorem check_header (h : ∀ t ∈ header, t.Idle) (b : BuiltIn) (path : String) (ts : List Token) :
    b.check ⟨path, header ++ ts.map (·.shift k m)⟩ = (b.check ⟨path, ts⟩).map (·.shift k m) := by
  have hlexemes : ((Token.significant ts).map (·.shift k m)).map (·.toLexeme) =
      (Token.significant ts).map (·.toLexeme) := by
    rw [List.map_map]
    rfl
  simp only [check, FileContext.significant, Token.significant_header h, hlexemes]
  exact Finding.violations_shift k m b.name (Token.significant ts) _

end BuiltIn

/-! ## Reports -/

theorem Report.ofDiagnostics_shift (ds : List Diagnostic) (suppressed : Nat) :
    ofDiagnostics (ds.map (·.shift k m)) suppressed = (ofDiagnostics ds suppressed).shift k m := by
  have hplace (d e : Diagnostic) : placeLe d e = placeLe (d.shift k m) (e.shift k m) := by
    rw [Bool.eq_iff_iff, placeLe_iff, placeLe_iff]
    simp only [Diagnostic.shift, Violation.shift]
    omega
  have hsort := List.map_mergeSort (l := ds) fun d _ e _ => hplace d e
  rw [ofDiagnostics, ofDiagnostics, shift, ← hsort, List.length_map]

namespace Lint

open Exemption (Exempt scan)

variable {k m} {header : List Token}

/-- Where a violation was exempt it is so further on, and nowhere else. -/
theorem exempt_header (h : ∀ t ∈ header, t.Idle ∧ t.stopChar < k) (ts : List Token) (rule : String)
    (v : Violation) :
    Exempt (scan (header ++ ts.map (·.shift k m))) rule (v.shift k m).startChar ↔
      Exempt (scan ts) rule v.startChar := by
  rw [Exemption.scan_header h]
  exact Exemption.exempt_shift

theorem plain_header (h : ∀ t ∈ header, t.Idle ∧ t.stopChar < k) (path : String)
    (ts : List Token) (b : BuiltIn) :
    plain ⟨path, header ++ ts.map (·.shift k m)⟩ b.toRule =
      (plain ⟨path, ts⟩ b.toRule).map (·.shift k m) := by
  rw [plain_toRule, plain_toRule, BuiltIn.check_header fun t ht => (h t ht).1, List.filter_map,
    List.map_map, List.map_map]
  simp only [Function.comp_def, exempt_header h]
  rfl

theorem exempted_header (h : ∀ t ∈ header, t.Idle ∧ t.stopChar < k) (path : String)
    (ts : List Token) (b : BuiltIn) :
    exempted ⟨path, header ++ ts.map (·.shift k m)⟩ b.toRule = exempted ⟨path, ts⟩ b.toRule := by
  have hreturned (ctx : FileContext) : returned ctx b.toRule = b.check ctx := rfl
  rw [exempted, exempted, hreturned, hreturned, BuiltIn.check_header fun t ht => (h t ht).1,
    List.countP_map]
  simp only [Function.comp_def, exempt_header h]

/-- A header of white space and of comments without directives moves diagnostics on, and does
nothing else.  It has to end before the file begins; the file moves on by `k` characters and `m`
lines, and keeps its columns.  Its report is then the report of the file alone, with each
diagnostic moved on by `k` characters and `m` lines: in the same order, with the same count, and
with as many violations suppressed.  The tokens of the file need not be in order. -/
theorem header_moves_diagnostics (path : String) (header ts : List Token) (bs : List BuiltIn)
    (k m : Nat) (h : ∀ t ∈ header, t.Idle ∧ t.stopChar < k) :
    file ⟨path, header ++ ts.map (·.shift k m)⟩ (bs.map (·.toRule)) =
      (file ⟨path, ts⟩ (bs.map (·.toRule))).shift k m := by
  rw [file_eq, file_eq, ← Report.ofDiagnostics_shift, List.flatMap_map, List.flatMap_map,
    List.map_flatMap, total_map, total_map]
  simp only [plain_header h, exempted_header h]

/-- Two stars, the second one behind a comment that is never closed, under two lines of header. -/
theorem star_moves_under_header :
    let header : List Token :=
      [.place ⟨.lineComment, "-- no directive\n"⟩ 0 1 0, .place ⟨.whitespace, "\n"⟩ 16 2 0]
    let ts : List Token :=
      [.place ⟨.word, "SELECT"⟩ 0 1 0, .place ⟨.symbol, "*"⟩ 7 1 7, .place ⟨.symbol, ","⟩ 8 1 8,
       .place ⟨.blockComment, "/* tsqllint-disable */"⟩ 9 1 9, .place ⟨.symbol, "*"⟩ 31 1 31]
    let report (ts : List Token) := file ⟨"a.sql", ts⟩ [BuiltIn.toRule (.selectStar true)]
    (∀ t ∈ header, t.Idle ∧ t.stopChar < 17) ∧
      (report ts).suppressed = 1 ∧ (report ts).diagnostics.map (·.startChar) = [7] ∧
      report (header ++ ts.map (·.shift 17 2)) = (report ts).shift 17 2 := by
  intro header ts report
  have h : ∀ t ∈ header, t.Idle ∧ t.stopChar < 17 := by decide
  exact ⟨h, by decide +kernel, by decide +kernel,
    header_moves_diagnostics "a.sql" header ts [.selectStar true] 17 2 h⟩

end Lint

end SqlStyle
