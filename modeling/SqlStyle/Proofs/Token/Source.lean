import SqlStyle.Proofs.Token
import SqlStyle.Proofs.Token.Place
import SqlStyle.Token.Source

/-!
# Tokens lie over their text

A lexer says where its lexemes start and stop by line and column, and the text of a token is cut
out of the source again.  All that is needed of the lexer is that its spans tile the text: then so
do the tokens, and each of them knows its place.  The lexer of this library tiles every text that
it accepts.
-/

namespace SqlStyle

open Text (lineAt columnAt)

/-- Spans that tile a text which stands at the given place.  Each takes some characters, at least
one, starts where the one before has stopped, and stops at the place behind its characters. -/
inductive Span.Tile : Location → List Char → List Span → Prop
  | nil (here : Location) : Tile here [] []
  | cons {here : Location} {piece rest : List Char} {kind : Kind} {spans : List Span}
      (hne : piece ≠ []) (hrest : Tile (here.advanceAll piece) rest spans) :
      Tile here (piece ++ rest) (⟨kind, here, here.advanceAll piece⟩ :: spans)

namespace Lexer

/-- A lexeme takes its first character and a stretch behind it, so the spans of a text tile it. -/
theorem tile_spansFrom {here : Location} {cs : List Char} {spans : List Span}
    (h : spansFrom here cs = .ok spans) : Span.Tile here cs spans := by
  fun_induction spansFrom here cs generalizing spans with
  | case1 here =>
      cases h
      exact .nil here
  | case2 => cases h
  | case3 => cases h
  | case4 here c rest k hcut there tail htail =>
      rename_i ih
      cases h
      have hpiece : c :: rest = (c :: rest.take k.tail) ++ rest.drop k.tail := by
        rw [List.cons_append, List.take_append_drop]
      rw [hpiece]
      exact .cons (List.cons_ne_nil c _) (ih htail)

theorem tile_spans {cs : List Char} {spans : List Span} (h : Lexer.spans cs = .ok spans) :
    Span.Tile .start cs spans :=
  tile_spansFrom h

end Lexer

namespace Token

/-- Tokens that lie over a text from an offset to its end, one right behind the other, each with
the line and column of its first character. -/
inductive Laid (text : List Char) : Nat → List Token → Prop
  | nil {o : Nat} (hend : o = text.length) : Laid text o []
  | cons {o : Nat} {l : Lexeme} {ts : List Token} (hne : l.text ≠ "")
      (htext : l.text.toList <+: text.drop o) (hrest : Laid text (o + l.text.length) ts) :
      Laid text o (.place l o (lineAt text o) (columnAt text o) :: ts)

/-! ## From spans to tokens -/

/-- A span over some characters of a text marks the token of these characters. -/
theorem ofSpan?_of_piece (done piece rest : List Char) (kind : Kind) (hne : piece ≠ []) :
    ofSpan? (done ++ (piece ++ rest)).toArray (.ofChars (done ++ (piece ++ rest)))
        ⟨kind, Location.start.advanceAll done, Location.start.advanceAll (done ++ piece)⟩ =
      some (.place ⟨kind, .ofList piece⟩ done.length
        (lineAt (done ++ (piece ++ rest)) done.length)
        (columnAt (done ++ (piece ++ rest)) done.length)) := by
  have hstart := LineIndex.offset_ofChars_advanceAll done (piece ++ rest)
  have hstop := LineIndex.offset_ofChars_advanceAll (done ++ piece) rest
  rw [List.append_assoc] at hstop
  have hplace := Location.advanceAll_start_take (done ++ (piece ++ rest)) done.length
  rw [List.take_left] at hplace
  have hlen : 0 < piece.length := List.length_pos_iff.mpr hne
  have hcut : (done ++ (piece ++ rest)).extract done.length (done.length + piece.length) =
      piece := by
    rw [List.extract_eq_take_drop, List.drop_left, Nat.add_sub_cancel_left, List.take_left]
  simp only [ofSpan?, hstart, hstop, List.length_append]
  rw [if_neg (by omega), Array.toList_extract, hcut, hplace]
  simp only [place, String.length_ofList, Nat.add_sub_cancel, Nat.add_sub_assoc hlen]

/-- Where spans tile the rest of a text, the tokens that they mark lie over it. -/
theorem laid_filterMap_ofSpan? (done : List Char) {rest : List Char} {spans : List Span}
    (h : Span.Tile (Location.start.advanceAll done) rest spans) :
    Laid (done ++ rest) done.length
      (spans.filterMap (ofSpan? (done ++ rest).toArray (.ofChars (done ++ rest)))) := by
  generalize hhere : Location.start.advanceAll done = here at h
  induction h generalizing done with
  | nil here =>
      exact .nil (by rw [List.append_nil])
  | @cons here piece rest kind spans hne hrest ih =>
      subst hhere
      specialize ih (done ++ piece) (Location.advanceAll_append _ done piece)
      rw [List.append_assoc, List.length_append] at ih
      rw [← Location.advanceAll_append, List.filterMap_cons,
        ofSpan?_of_piece done piece rest kind hne]
      refine .cons ?_ ?_ ?_
      · intro hempty
        have hnil := congrArg String.toList hempty
        rw [String.toList_ofList] at hnil
        exact hne hnil
      · rw [String.toList_ofList, List.drop_left]
        exact List.prefix_append piece rest
      · rwa [String.length_ofList]

theorem laid_ofSpans {cs : List Char} {spans : List Span} (h : Span.Tile .start cs spans) :
    Laid cs 0 (ofSpans cs spans) :=
  laid_filterMap_ofSpan? [] h

theorem laid_ofSource {sql : String} {ts : List Token} (h : ofSource sql = .ok ts) :
    Laid sql.toList 0 ts := by
  rw [ofSource] at h
  cases hspans : Lexer.spans sql.toList with
  | error e =>
      rw [hspans] at h
      cases h
  | ok spans =>
      rw [hspans] at h
      cases h
      exact laid_ofSpans (Lexer.tile_spans hspans)

/-! ## What lies over a text -/

/-- A token lies within a text, takes as many characters as its own text has, and stands at the
line and column of the first of them. -/
structure InPlace (text : List Char) (t : Token) : Prop where
  start_le_stop : t.startChar ≤ t.stopChar
  stop_eq : t.stopChar + 1 = t.startChar + t.text.length
  stop_lt : t.stopChar < text.length
  line_eq : t.line = lineAt text t.startChar
  column_eq : t.column = columnAt text t.startChar

namespace Laid

variable {text : List Char} {o : Nat} {ts : List Token}

/-- Nothing of the text is lost. -/
theorem flatMap_toList (h : Laid text o ts) : ts.flatMap (·.text.toList) = text.drop o := by
  induction h with
  | nil hend => rw [hend, List.drop_length, List.flatMap_nil]
  | @cons o l ts hne htext hrest ih =>
      obtain ⟨rest, hrest⟩ := htext
      rw [List.flatMap_cons, ih, ← List.drop_drop, ← hrest]
      change l.text.toList ++ _ = _
      rw [← String.length_toList, List.drop_left]

theorem head_startChar (h : Laid text o ts) : ∀ t ∈ ts.head?, t.startChar = o := by
  cases h with
  | nil => simp
  | cons hne htext hrest => simp [place]

theorem text_length_pos {l : Lexeme} (h : l.text ≠ "") : 0 < l.text.length := by
  rw [Nat.pos_iff_ne_zero]
  exact fun hzero => h (String.length_eq_zero_iff.mp hzero)

theorem isChain (h : Laid text o ts) : ts.IsChain fun a b => b.startChar = a.stopChar + 1 := by
  induction h with
  | nil => exact .nil
  | @cons o l ts hne htext hrest ih =>
      refine List.isChain_cons.mpr ⟨?_, ih⟩
      intro t ht
      have hlen := text_length_pos hne
      rw [hrest.head_startChar t ht]
      simp only [place]
      omega

theorem last_stopChar (h : Laid text o ts) : ∀ t ∈ ts.getLast?, t.stopChar + 1 = text.length := by
  induction h with
  | nil => simp
  | @cons o l ts hne htext hrest ih =>
      cases hrest with
      | nil hend =>
          have hlen := text_length_pos hne
          intro t ht
          rw [List.getLast?_singleton, Option.mem_some_iff] at ht
          rw [← hend, ← ht]
          simp only [place]
          omega
      | cons hne' htext' hrest' =>
          rw [List.getLast?_cons_cons]
          exact ih

/-- Each token of a text lies where it says. -/
theorem inPlace (h : Laid text o ts) {t : Token} (ht : t ∈ ts) : InPlace text t := by
  induction h with
  | nil => cases ht
  | @cons o l ts hne htext hrest ih =>
      rcases List.mem_cons.mp ht with rfl | ht
      · have hlen := text_length_pos hne
        have hfit := htext.length_le
        rw [String.length_toList, List.length_drop] at hfit
        refine ⟨Nat.le_add_right _ _, ?_, ?_, rfl, rfl⟩
        · simp only [place]
          omega
        · simp only [place]
          omega
      · exact ih ht

/-- Tokens that lie over a text are in its order. -/
theorem inOrder (h : Laid text o ts) : InOrder ts where
  start_le_stop _ ht := (h.inPlace ht).start_le_stop
  stop_lt_next := h.isChain.imp fun a b hab => by omega

end Laid

/-- The tokens of a text put together are the text.  The first one starts at offset 0, each of the
others right behind the one before, and the last one stops with the text.  Each stops as many
characters behind its start as its text has, less one, and stands at the line and column of its
start. -/
structure Faithful (sql : String) (ts : List Token) : Prop where
  join_texts : String.join (ts.map (·.text)) = sql
  head_start : ∀ t ∈ ts.head?, t.startChar = 0
  next_start : ts.IsChain fun a b => b.startChar = a.stopChar + 1
  last_stop : ∀ t ∈ ts.getLast?, t.stopChar + 1 = sql.length
  stop_eq : ∀ t ∈ ts, t.stopChar + 1 = t.startChar + t.text.length
  line_eq : ∀ t ∈ ts, t.line = lineAt sql.toList t.startChar
  column_eq : ∀ t ∈ ts, t.column = columnAt sql.toList t.startChar

theorem Laid.faithful {sql : String} {ts : List Token} (h : Laid sql.toList 0 ts) :
    Faithful sql ts where
  join_texts := by
    rw [← String.toList_inj, String.toList_join, List.flatMap_map, h.flatMap_toList, List.drop_zero]
  head_start := h.head_startChar
  next_start := h.isChain
  last_stop := by
    rw [← String.length_toList]
    exact h.last_stopChar
  stop_eq _ ht := (h.inPlace ht).stop_eq
  line_eq _ ht := (h.inPlace ht).line_eq
  column_eq _ ht := (h.inPlace ht).column_eq

/-- Cutting a text into tokens loses nothing and misplaces nothing.  This holds for every lexer
whose spans tile the text, whatever kinds it gives them, and so for every text that the lexer here
accepts. -/
theorem tokens_faithful_to_source (sql : String) :
    (∀ spans, Span.Tile .start sql.toList spans → Faithful sql (ofSpans sql.toList spans)) ∧
    (∀ ts, ofSource sql = .ok ts → Faithful sql ts) :=
  ⟨fun _ h => (laid_ofSpans h).faithful, fun _ h => (laid_ofSource h).faithful⟩

/-- A comment over two lines, a line end of two characters, and a symbol on the third line. -/
theorem faithful_over_three_lines :
    let sql := "/* \u00e9\n */\r\n;"
    let spans : List Span :=
      [⟨.blockComment, ⟨1, 1⟩, ⟨2, 4⟩⟩, ⟨.whitespace, ⟨2, 4⟩, ⟨3, 1⟩⟩, ⟨.symbol, ⟨3, 1⟩, ⟨3, 2⟩⟩]
    Span.Tile .start sql.toList spans ∧ Faithful sql (ofSpans sql.toList spans) ∧
      ∃ ts, ofSource sql = .ok ts ∧ Faithful sql ts ∧
        ts.map (fun t => (t.startChar, t.stopChar)) = [(0, 7), (8, 9), (10, 10)] := by
  intro sql spans
  have hspans : Lexer.spans sql.toList = .ok spans := by cbv
  have hsource : ofSource sql = .ok (ofSpans sql.toList spans) := by
    rw [ofSource, hspans]
    rfl
  have htile : Span.Tile .start sql.toList spans := Lexer.tile_spans hspans
  obtain ⟨hany, hlexer⟩ := tokens_faithful_to_source sql
  exact ⟨htile, hany spans htile, _, hsource, hlexer _ hsource, by decide +kernel⟩

end Token

end SqlStyle
