import SqlStyle.Proofs.Token.Place
import SqlStyle.Slice
import SqlStyle.Token.Source
import Mathlib

/-!
# Spans that do not fit their text

A lexer says where a lexeme stands by lines and columns, and nothing makes these fit the text: a
line or a column may be 0 or lie past the end, and a span may stop before it starts.  Three guards
keep such spans harmless.  Line 0 is at the start and a line past the last one at the end, columns
count on no further than to the end, and a span that stops where it starts, or before, is passed
over.  Here the spans are followed with operations that fail out of range.  The guards see to it
that none of them ever does, and the tokens that come out are cut from the text.  On places that
the text really has, the table of lines is exact.
-/

namespace SqlStyle

/-! ## Spans in checked steps -/

namespace LineIndex

/-- The offset of a location; fails where a line before the first one would be asked for.  A column
0 counts as 1. -/
def checkedOffset (ix : LineIndex) (l : Location) : Option Nat :=
  if l.line = 0 then some 0
  else do
    let row ← l.line.psub 1
    match ix.starts[row]? with
    | some s => return min (s + (l.column - 1)) ix.size
    | none => return ix.size

theorem checkedOffset_eq_some (ix : LineIndex) (l : Location) :
    ix.checkedOffset l = some (ix.offset l) := by
  rw [checkedOffset, offset]
  split
  · rfl
  · next h =>
      rw [Nat.psub_eq_sub (Nat.pos_of_ne_zero h), Option.bind_eq_bind, Option.bind_some]
      cases ix.starts[l.line - 1]? with
      | none => rfl
      | some s => rfl

end LineIndex

namespace Token

/-- The token that a span marks in a text, none for a span to be passed over; fails where the text
would be cut out of range or a number would become negative. -/
def checkedOfSpan (chars : Array Char) (ix : LineIndex) (s : Span) : Option (Option Token) := do
  let start ← ix.checkedOffset s.start
  let stop ← ix.checkedOffset s.stop
  if stop ≤ start then return none
  let text ← slice? chars start stop
  let last ← stop.psub 1
  return some {
    kind := s.kind
    text := .ofList text
    channel := s.kind.channel
    startChar := start
    stopChar := last
    line := s.start.line
    column := s.start.column - 1 }

/-- Follow spans from the first to the last, with the tokens that they mark; fails with the first
span that does. -/
def checkedOfSpans (cs : List Char) (spans : List Span) : Option (List Token) :=
  let ix := LineIndex.ofChars cs
  let chars := cs.toArray
  spans.foldlM (fun done s => (checkedOfSpan chars ix s).map (done ++ ·.toList)) []

/-! ## No operation fails -/

variable {cs : List Char} {t : Token}

/-- One span: its ends lie in the text, since the table clamps them, and they are in order once the
span is not passed over. -/
theorem checkedOfSpan_eq_some (cs : List Char) (s : Span) :
    checkedOfSpan cs.toArray (.ofChars cs) s =
      some (ofSpan? cs.toArray (.ofChars cs) s) := by
  have hsize : (LineIndex.ofChars cs).offset s.stop ≤ cs.toArray.size := by
    rw [List.size_toArray]
    exact LineIndex.offset_le_size _ _
  simp only [checkedOfSpan, ofSpan?, LineIndex.checkedOffset_eq_some, Option.bind_eq_bind,
    Option.bind_some]
  split
  · rfl
  · next h =>
      have hlt : (LineIndex.ofChars cs).offset s.start < (LineIndex.ofChars cs).offset s.stop :=
        Nat.lt_of_not_le h
      rw [slice?_of_le hlt.le hsize, Nat.psub_eq_sub (Nat.zero_lt_of_lt hlt)]
      rfl

/-- All spans, in turn. -/
theorem checkedOfSpans_eq_some (cs : List Char) (spans : List Span) :
    checkedOfSpans cs spans = some (ofSpans cs spans) := by
  have hrun (done : List Token) :
      spans.foldlM (fun done s =>
          (checkedOfSpan cs.toArray (.ofChars cs) s).map (done ++ ·.toList)) done =
        some (done ++ spans.filterMap (ofSpan? cs.toArray (.ofChars cs))) := by
    induction spans generalizing done with
    | nil => simp
    | cons s rest ih =>
        rw [List.foldlM_cons, checkedOfSpan_eq_some, Option.map_some, Option.bind_eq_bind,
          Option.bind_some, ih]
        cases h : ofSpan? cs.toArray (.ofChars cs) s with
        | none => simp [h]
        | some t => simp [h]
  exact hrun []

/-! ## What comes out -/

/-- A token that holds the characters of a text between its ends, at least one, on the channel of
its kind. -/
structure CutFrom (cs : List Char) (t : Token) : Prop where
  start_le_stop : t.startChar ≤ t.stopChar
  stop_lt : t.stopChar < cs.length
  text_ne : t.text ≠ ""
  text_eq : t.text.toList = cs.extract t.startChar (t.stopChar + 1)
  channel_eq : t.channel = t.kind.channel

/-- A token with the kind of a span, between the offsets that a table of lines gives for its
ends. -/
structure MarkedBy (ix : LineIndex) (s : Span) (t : Token) : Prop where
  kind_eq : t.kind = s.kind
  start_eq : t.startChar = ix.offset s.start
  stop_eq : t.stopChar + 1 = ix.offset s.stop
  line_eq : t.line = s.start.line
  column_eq : t.column = s.start.column - 1

/-- A stretch of a text with a first character is not empty. -/
theorem extract_ne_nil {start stop : Nat} (h : start < stop) (hstop : stop ≤ cs.length) :
    cs.extract start stop ≠ [] := by
  rw [← List.length_pos_iff, List.extract_eq_take_drop, List.length_take, List.length_drop]
  omega

/-- A span is passed over unless it stops behind its start, and else it marks a token that is cut
from the text. -/
theorem ofSpan?_cases (cs : List Char) (s : Span) :
    let ix := LineIndex.ofChars cs
    (ix.offset s.stop ≤ ix.offset s.start ∧ ofSpan? cs.toArray ix s = none) ∨
      ix.offset s.start < ix.offset s.stop ∧
        ∃ t, ofSpan? cs.toArray ix s = some t ∧ MarkedBy ix s t ∧ CutFrom cs t := by
  intro ix
  rcases Nat.lt_or_ge (ix.offset s.start) (ix.offset s.stop) with hlt | hge
  · have hstop : ix.offset s.stop ≤ cs.length := LineIndex.offset_le_size _ _
    have hsucc : ix.offset s.stop - 1 + 1 = ix.offset s.stop := by omega
    refine .inr ⟨hlt, _, if_neg (Nat.not_le.mpr hlt), ⟨rfl, rfl, hsucc, rfl, rfl⟩, ?_⟩
    constructor
    · exact Nat.le_sub_one_of_lt hlt
    · exact Nat.lt_of_lt_of_le (Nat.sub_one_lt_of_lt hlt) hstop
    · intro hempty
      have hnil := congrArg String.toList hempty
      rw [String.toList_ofList, Array.toList_extract] at hnil
      exact extract_ne_nil hlt hstop hnil
    · rw [String.toList_ofList, Array.toList_extract, hsucc]
    · rfl
  · exact .inl ⟨hge, if_pos hge⟩

/-- Every token that comes out is cut from the text. -/
theorem cutFrom_of_mem_ofSpans {spans : List Span} (h : t ∈ ofSpans cs spans) : CutFrom cs t := by
  obtain ⟨s, -, hs⟩ := List.mem_filterMap.mp h
  rcases ofSpan?_cases cs s with ⟨-, hnone⟩ | ⟨-, u, hu, -, hcut⟩
  · rw [hnone] at hs
    cases hs
  · rw [hu] at hs
    cases hs
    exact hcut

/-- One token comes out for each span that stops behind its start, in the order of the spans. -/
theorem forall₂_ofSpans (cs : List Char) (spans : List Span) :
    let ix := LineIndex.ofChars cs
    List.Forall₂ (MarkedBy ix) (spans.filter fun s => ix.offset s.start < ix.offset s.stop)
      (ofSpans cs spans) := by
  intro ix
  rw [ofSpans]
  induction spans with
  | nil => exact .nil
  | cons s rest ih =>
      rcases ofSpan?_cases cs s with ⟨hge, hnone⟩ | ⟨hlt, t, ht, hmarked, -⟩
      · rw [List.filterMap_cons_none hnone, List.filter_cons_of_neg (by simpa using hge)]
        exact ih
      · rw [List.filterMap_cons_some ht, List.filter_cons_of_pos (by simpa using hlt)]
        exact .cons hmarked ih

/-- Whatever the spans are, following them never cuts out of range and never takes a number below
0.  Every token that comes out holds the characters of the text between its ends, at least one,
on the channel of its kind, and there is one for each span that stops behind its start.  The table
of lines leads from the line and the column of every place, the end of the text included, back to
its offset. -/
theorem any_spans_are_safe (sql : String) (spans : List Span) :
    let ix := LineIndex.ofChars sql.toList
    checkedOfSpans sql.toList spans = some (ofSpans sql.toList spans) ∧
    (∀ t ∈ ofSpans sql.toList spans,
      t.startChar ≤ t.stopChar ∧ t.stopChar < sql.length ∧ t.text ≠ "" ∧
        t.text.toList = sql.toList.extract t.startChar (t.stopChar + 1) ∧
        t.channel = t.kind.channel) ∧
    List.Forall₂ (MarkedBy ix) (spans.filter fun s => ix.offset s.start < ix.offset s.stop)
      (ofSpans sql.toList spans) ∧
    ∀ o ≤ sql.length,
      ix.offset ⟨1 + (sql.toList.take o).count '\n',
        1 + ((sql.toList.take o).rtakeWhile (· ≠ '\n')).length⟩ = o := by
  intro ix
  refine ⟨checkedOfSpans_eq_some _ _, ?_, forall₂_ofSpans _ _, ?_⟩
  · intro t ht
    obtain ⟨hle, hlt, hne, htext, hchannel⟩ := cutFrom_of_mem_ofSpans ht
    rw [String.length_toList] at hlt
    exact ⟨hle, hlt, hne, htext, hchannel⟩
  · intro o ho
    rw [Nat.add_comm 1, Nat.add_comm 1]
    exact LineIndex.offset_ofChars (by rwa [String.length_toList])

/-- A span from line 0, one that goes backwards, one from column 0 to a line past the last, and one
that lies over it with a column past the end.  The end of the text is a place of its third line. -/
theorem misplaced_spans_are_safe :
    let sql := "a\n\nb\u00e9"
    let cs := sql.toList
    let spans : List Span :=
      [⟨.word, ⟨0, 7⟩, ⟨1, 2⟩⟩, ⟨.symbol, ⟨3, 3⟩, ⟨3, 1⟩⟩, ⟨.lineComment, ⟨3, 0⟩, ⟨9, 9⟩⟩,
        ⟨.whitespace, ⟨1, 2⟩, ⟨2, 99⟩⟩]
    let last : Token :=
      { kind := .whitespace, text := "\n\nb\u00e9", channel := .hidden, startChar := 1,
        stopChar := 4, line := 1, column := 1 }
    (ofSpans cs spans).map (fun t => (t.startChar, t.stopChar)) = [(0, 0), (3, 4), (1, 4)] ∧
      checkedOfSpans cs spans = some (ofSpans cs spans) ∧
      (last ∈ ofSpans cs spans ∧ last.stopChar < sql.length ∧ last.channel = last.kind.channel) ∧
      5 ≤ sql.length ∧ (cs.take 5).count '\n' = 2 ∧
      (LineIndex.ofChars cs).offset ⟨1 + (cs.take 5).count '\n',
        1 + ((cs.take 5).rtakeWhile (· ≠ '\n')).length⟩ = 5 := by
  intro sql cs spans last
  obtain ⟨hchecked, htokens, -, hoffset⟩ := any_spans_are_safe sql spans
  have hlast : last ∈ ofSpans cs spans := by decide +kernel
  obtain ⟨-, hstop, -, -, hchannel⟩ := htokens last hlast
  have hend : 5 ≤ sql.length := by decide
  exact ⟨by decide +kernel, hchecked, ⟨hlast, hstop, hchannel⟩, hend, by decide, hoffset 5 hend⟩

end Token

end SqlStyle
