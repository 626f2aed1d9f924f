import SqlStyle.Proofs.Rule.Anchor

/-!
# Built-in rules do not see the layout

Two files may have the same significant tokens, by kind and text, and be laid out differently: with
other white space and other comments between them, and so at other offsets, lines and columns.  The
rules find the same in both, at the same positions among the significant tokens.  A finding within
the tokens always becomes a violation, so the violations of the two files correspond one by one.
-/

namespace SqlStyle

namespace Violation

/-- A violation from the token at one position to the token at another. -/
structure Spans (ts : List Token) (i j : Nat) (v : Violation) : Prop where
  le : i ≤ j
  first : ts[i]?.map (fun t => (t.startChar, t.line, t.column)) =
    some (v.startChar, v.line, v.column)
  last : ts[j]?.map (·.stopChar) = some v.stopChar

/-- Violations of two files with the same message and the same text, from and to the same positions
among the tokens of their files. -/
structure SamePositions (ts ts' : List Token) (v v' : Violation) : Prop where
  message_eq : v.message = v'.message
  trigger_eq : v.trigger = v'.trigger
  positions : ∃ i j, v.Spans ts i j ∧ v'.Spans ts' i j

end Violation

namespace Finding

open Violation (spanning joinTexts)

variable {rule : String} {ts ts' : List Token} {f : Finding} {fs : List Finding}

/-- Two lists of as many tokens have as many violations from the same findings; these are related
one by one if what each finding gives is. -/
theorem forall₂_violations {R : Violation → Violation → Prop} (hlength : ts.length = ts'.length)
    (hfs : Ordered 0 ts.length fs)
    (hR : ∀ f ∈ fs, ∀ v v', spanning rule f.message (f.tokens ts.toArray) = some v →
      spanning rule f.message (f.tokens ts'.toArray) = some v' → R v v') :
    List.Forall₂ R (violations rule ts fs) (violations rule ts' fs) := by
  have hsome : List.Forall₂ (Option.Rel R) ((violations rule ts fs).map some)
      ((violations rule ts' fs).map some) := by
    rw [map_some_violations rule hfs, map_some_violations rule (hlength ▸ hfs),
      List.forall₂_map_left_iff, List.forall₂_map_right_iff, List.forall₂_same]
    intro f hf
    obtain ⟨-, hle, hlast⟩ := hfs.bounds f hf
    have hv := spanning_tokens rule hle hlast
    have hv' := spanning_tokens rule hle (hlength ▸ hlast)
    have hrel := hR f hf _ _ hv hv'
    rw [hv, hv']
    exact .some hrel
  rw [List.forall₂_map_left_iff, List.forall₂_map_right_iff] at hsome
  refine hsome.imp ?_
  rintro v v' ⟨h⟩
  exact h

/-- A finding within the tokens says from which to which the violation goes. -/
theorem spans_of_spanning (h : f.first ≤ f.last) (hlast : f.last < ts.length) {v : Violation}
    (hv : spanning rule f.message (f.tokens ts.toArray) = some v) :
    v.Spans ts f.first f.last := by
  rw [spanning_tokens rule h hlast] at hv
  cases hv
  refine ⟨h, ?_, ?_⟩
  · rw [List.getElem?_eq_getElem (h.trans_lt hlast)]
    rfl
  · rw [List.getElem?_eq_getElem hlast]
    rfl

/-- The text of a violation is a matter of the texts of the tokens. -/
theorem trigger_of_spanning (h : f.first ≤ f.last) (hlast : f.last < ts.length) {v : Violation}
    (hv : spanning rule f.message (f.tokens ts.toArray) = some v) :
    v.message = f.message ∧
      v.trigger = .join (((ts.map (·.text)).drop f.first).take (f.last + 1 - f.first)) := by
  rw [spanning_tokens rule h hlast] at hv
  cases hv
  refine ⟨rfl, ?_⟩
  rw [joinTexts, tokens, Array.toList_extract, List.extract_eq_take_drop, List.map_take,
    List.map_drop]

end Finding

namespace BuiltIn

open Violation (SamePositions)

/-- Built-in rules do not see the layout of a file.  Take two files that are both test scripts or
both not, and whose significant tokens agree in number, kinds and texts, one by one; everything else
may differ, white space, comments, offsets, lines and columns.  Then each rule, with any options,
has as many violations in one file as in the other, and the violations that correspond have the same
message and the same text, and start and stop at the same positions among the significant tokens of
their files. -/
theorem check_blind_to_layout (b : BuiltIn) (ctx ctx' : FileContext)
    (htest : ctx.isTest = ctx'.isTest)
    (hlexemes : ctx.significant.map (·.toLexeme) = ctx'.significant.map (·.toLexeme)) :
    List.Forall₂ (SamePositions ctx.significant ctx'.significant) (b.check ctx) (b.check ctx') := by
  have hlength : ctx.significant.length = ctx'.significant.length := by
    simpa using congrArg List.length hlexemes
  have htexts : ctx.significant.map (·.text) = ctx'.significant.map (·.text) := by
    have h := congrArg (List.map (·.text)) hlexemes
    rwa [List.map_map, List.map_map] at h
  have hordered := b.ordered_check ctx
  rw [check, check, ← htest, ← hlexemes]
  refine Finding.forall₂_violations hlength hordered ?_
  intro f hf v v' hv hv'
  obtain ⟨-, hle, hlast⟩ := hordered.bounds f hf
  have hlast' : f.last < ctx'.significant.length := hlength ▸ hlast
  obtain ⟨hmessage, htrigger⟩ := Finding.trigger_of_spanning hle hlast hv
  obtain ⟨hmessage', htrigger'⟩ := Finding.trigger_of_spanning hle hlast' hv'
  refine ⟨hmessage.trans hmessage'.symm, ?_, f.first, f.last, ?_, ?_⟩
  · rw [htrigger, htrigger', htexts]
  · exact Finding.spans_of_spanning hle hlast hv
  · exact Finding.spans_of_spanning hle hlast' hv'

/-- A star behind a point, on one line and over three with comments in between. -/
theorem star_found_over_three_lines :
    let ctx : FileContext := ⟨"a.sql",
      [.place ⟨.word, "SELECT"⟩ 0 1 0, .place ⟨.whitespace, " "⟩ 6 1 6,
       .place ⟨.word, "t"⟩ 7 1 7, .place ⟨.symbol, "."⟩ 8 1 8, .place ⟨.symbol, "*"⟩ 9 1 9]⟩
    let ctx' : FileContext := ⟨"b.sql",
      [.place ⟨.word, "SELECT"⟩ 0 1 0, .place ⟨.lineComment, "-- all\n"⟩ 6 1 6,
       .place ⟨.word, "t"⟩ 13 2 0, .place ⟨.blockComment, "/*\n*/"⟩ 14 2 1,
       .place ⟨.symbol, "."⟩ 19 3 2, .place ⟨.whitespace, " "⟩ 20 3 3,
       .place ⟨.symbol, "*"⟩ 21 3 4]⟩
    let b := BuiltIn.selectStar true
    ctx.isTest = ctx'.isTest ∧
      ctx.significant.map (·.toLexeme) = ctx'.significant.map (·.toLexeme) ∧
      (b.check ctx).map (fun v => (v.startChar, v.stopChar, v.trigger)) = [(7, 9, "t.*")] ∧
      (b.check ctx').map (fun v => (v.startChar, v.stopChar, v.trigger)) = [(13, 21, "t.*")] ∧
      List.Forall₂ (SamePositions ctx.significant ctx'.significant) (b.check ctx) (b.check ctx') := by
  intro ctx ctx' b
  have htest : ctx.isTest = ctx'.isTest := by decide +kernel
  have hlexemes : ctx.significant.map (·.toLexeme) = ctx'.significant.map (·.toLexeme) := by decide
  exact ⟨htest, hlexemes, by decide +kernel, by decide +kernel,
    check_blind_to_layout b ctx ctx' htest hlexemes⟩

end BuiltIn

end SqlStyle
