import SqlStyle.Proofs.Lint.Pipeline
import SqlStyle.Proofs.Rule.Anchor
import SqlStyle.Proofs.Token.Source

/-!
# Diagnostics stand where they say

A diagnostic of a built-in rule has its place from the first and the last of the tokens it is about,
and tokens that lie over a text know their places in it.  Reports are sorted by line and column;
since these are true, this is the order of the text.
-/

namespace SqlStyle.Lint

open Text (lineAt columnAt)
open Token (InOrder Laid significant)

variable {ctx : FileContext} {bs : List BuiltIn}

/-- A diagnostic of a built-in rule is about a stretch of the significant tokens. -/
theorem anchored_of_mem_plain (hts : InOrder ctx.tokens) {b : BuiltIn} {d : Diagnostic}
    (hd : d ∈ plain ctx b.toRule) : d.Anchored ctx.significant := by
  rw [plain_toRule] at hd
  obtain ⟨v, hv, rfl⟩ := List.mem_map.mp hd
  obtain ⟨hfirst, hlast, htrigger⟩ :=
    BuiltIn.anchored_of_mem_check hts (List.mem_filter.mp hv).1
  exact ⟨hfirst, hlast, htrigger⟩

/-- A built-in rule says at most one thing about a place. -/
theorem pairwise_start_plain (hts : InOrder ctx.tokens) (b : BuiltIn) :
    (plain ctx b.toRule).Pairwise fun d e => d.startChar < e.startChar := by
  rw [plain_toRule, List.pairwise_map]
  exact (BuiltIn.pairwise_start_check hts b).filter _

/-- Rules with different names put at most one diagnostic each on a place. -/
theorem pairwise_apart_file (hts : InOrder ctx.tokens) (hnames : (bs.map (·.name)).Nodup) :
    (file ctx (bs.map (·.toRule))).diagnostics.Pairwise fun d e =>
      ¬ (d.rule = e.rule ∧ d.startChar = e.startChar) := by
  have hperm := (Report.stableOrder_ofDiagnostics ((bs.map (·.toRule)).flatMap (plain ctx))
    (total (exempted ctx) (bs.map (·.toRule)))).perm
  rw [file_eq, hperm.pairwise_iff fun h he => h ⟨he.1.symm, he.2.symm⟩, List.flatMap_map,
    List.pairwise_flatMap]
  constructor
  · intro b _
    exact (pairwise_start_plain hts b).imp fun hlt he => hlt.ne he.2
  · refine (List.pairwise_map.mp hnames).imp ?_
    intro b c hne d hd e he hde
    rw [rule_of_mem_plain hd, rule_of_mem_plain he] at hde
    exact hne hde.1

theorem pairwise_place_file (ctx : FileContext) (rules : List Rule) :
    (file ctx rules).diagnostics.Pairwise fun d e =>
      d.line < e.line ∨ d.line = e.line ∧ d.column ≤ e.column := by
  rw [file_eq]
  exact (Report.stableOrder_ofDiagnostics _ _).ordered

theorem anchored_of_mem_file (hts : InOrder ctx.tokens) {d : Diagnostic}
    (hd : d ∈ (file ctx (bs.map (·.toRule))).diagnostics) : d.Anchored ctx.significant := by
  obtain ⟨r, hr, hd⟩ := mem_diagnostics_file.mp hd
  obtain ⟨b, -, rfl⟩ := List.mem_map.mp hr
  exact anchored_of_mem_plain hts hd

/-- The diagnostics of a text are in its order, no rule says two things about one place, and each
stands at the line and column of a character of the text.  There a significant token starts; where
the diagnostic stops, one stops that is the same or a later one; and the text that is shown is
that of the significant tokens from the one to the other. -/
structure Placed (sql : String) (ts : List Token) (ds : List Diagnostic) : Prop where
  ordered : ds.Pairwise fun d e => d.startChar ≤ e.startChar
  apart : ds.Pairwise fun d e => ¬ (d.rule = e.rule ∧ d.startChar = e.startChar)
  start_lt : ∀ d ∈ ds, d.startChar < sql.length
  line_eq : ∀ d ∈ ds, d.line = lineAt sql.toList d.startChar
  column_eq : ∀ d ∈ ds, d.column = columnAt sql.toList d.startChar
  first : ∀ d ∈ ds, ∃ t ∈ significant ts, d.startChar = t.startChar
  last : ∀ d ∈ ds, ∃ t ∈ significant ts, d.stopChar = t.stopChar ∧ d.startChar ≤ t.startChar
  trigger : ∀ d ∈ ds, d.trigger = Violation.joinTexts
    ((significant ts).filter fun t => d.startChar ≤ t.startChar ∧ t.stopChar ≤ d.stopChar)

/-- What starts at a token has the token's place in the text. -/
theorem place_of_anchored {text : List Char} {ts : List Token} (h : Laid text 0 ts) {v : Violation}
    (hv : v.Anchored (significant ts)) :
    v.startChar < text.length ∧ v.line = lineAt text v.startChar ∧
      v.column = columnAt text v.startChar := by
  obtain ⟨t, ht, hstart, hline, hcolumn⟩ := hv.first
  have hplace := h.inPlace (List.filter_sublist.subset ht)
  rw [hstart, hline, hcolumn]
  exact ⟨hplace.start_le_stop.trans_lt hplace.stop_lt, hplace.line_eq, hplace.column_eq⟩

/-- Sorted by true lines and columns, diagnostics are sorted by offsets. -/
theorem pairwise_start_of_place {cs : List Char} {ds : List Diagnostic}
    (hplace : ∀ d ∈ ds, d.startChar < cs.length ∧ d.line = lineAt cs d.startChar ∧
      d.column = columnAt cs d.startChar)
    (hsorted : ds.Pairwise fun d e => d.line < e.line ∨ d.line = e.line ∧ d.column ≤ e.column) :
    ds.Pairwise fun d e => d.startChar ≤ e.startChar := by
  refine hsorted.imp_of_mem ?_
  intro d e hd he hle
  obtain ⟨hlt, hline, hcolumn⟩ := hplace d hd
  obtain ⟨-, hline', hcolumn'⟩ := hplace e he
  by_contra hnot
  have hbefore := Text.place_lt_of_lt (Nat.lt_of_not_le hnot) hlt.le
  omega

/-- The report of the built-in rules about tokens that lie over a text. -/
theorem placed_tokens {sql : String} {ts : List Token} (h : Laid sql.toList 0 ts)
    (hnames : (bs.map (·.name)).Nodup) :
    Placed sql ts (tokens ts (bs.map (·.toRule))).diagnostics := by
  have hts : InOrder (FileContext.anonymous ts).tokens := h.inOrder
  have hanchored : ∀ d ∈ (tokens ts (bs.map (·.toRule))).diagnostics,
      d.Anchored (significant ts) := fun d hd => anchored_of_mem_file hts hd
  have hplace := fun d hd => place_of_anchored h (hanchored d hd)
  exact {
    ordered := pairwise_start_of_place hplace (pairwise_place_file _ _)
    apart := pairwise_apart_file hts hnames
    start_lt := fun d hd => String.length_toList ▸ (hplace d hd).1
    line_eq := fun d hd => (hplace d hd).2.1
    column_eq := fun d hd => (hplace d hd).2.2
    first := fun d hd => by
      obtain ⟨t, ht, hstart, -⟩ := (hanchored d hd).first
      exact ⟨t, ht, hstart⟩
    last := fun d hd => (hanchored d hd).last
    trigger := fun d hd => (hanchored d hd).trigger }

/-- Built-in rules with different names report in the order of the text, no rule twice about one
place, and with true places and texts.  This holds for every lexer whose spans tile the text, and
so for every text that the lexer here accepts: such a text has a report. -/
theorem diagnostics_placed_in_source (sql : String) (bs : List BuiltIn)
    (hnames : (bs.map (·.name)).Nodup) :
    (∀ spans, Span.Tile .start sql.toList spans →
      Placed sql (Token.ofSpans sql.toList spans)
        (tokens (Token.ofSpans sql.toList spans) (bs.map (·.toRule))).diagnostics) ∧
    (∀ ts, Token.ofSource sql = .ok ts →
      ∃ report, source sql (bs.map (·.toRule)) = .ok report ∧
        Placed sql ts report.diagnostics) := by
  refine ⟨fun spans h => placed_tokens (Token.laid_ofSpans h) hnames, ?_⟩
  intro ts h
  refine ⟨tokens ts (bs.map (·.toRule)), ?_, placed_tokens (Token.laid_ofSource h) hnames⟩
  rw [source, h]
  rfl

/-- Two rules about one text: a statement on the first line, and on the second a star that is
reported with its alias. -/
theorem star_placed_on_second_line :
    let sql := "PRINT\n t.*"
    let spans : List Span :=
      [⟨.word, ⟨1, 1⟩, ⟨1, 6⟩⟩, ⟨.whitespace, ⟨1, 6⟩, ⟨2, 1⟩⟩, ⟨.whitespace, ⟨2, 1⟩, ⟨2, 2⟩⟩,
       ⟨.word, ⟨2, 2⟩, ⟨2, 3⟩⟩, ⟨.symbol, ⟨2, 3⟩, ⟨2, 4⟩⟩, ⟨.symbol, ⟨2, 4⟩, ⟨2, 5⟩⟩]
    let ts := Token.ofSpans sql.toList spans
    let bs : List BuiltIn := [.selectStar true, .printStatement false]
    (bs.map (·.name)).Nodup ∧ Span.Tile .start sql.toList spans ∧
      Placed sql ts (tokens ts (bs.map (·.toRule))).diagnostics ∧
      (∃ report, source sql (bs.map (·.toRule)) = .ok report ∧ Placed sql ts report.diagnostics) ∧
      (tokens ts (bs.map (·.toRule))).count = 2 := by
  intro sql spans ts bs
  have hnames : (bs.map (·.name)).Nodup := by decide
  have hspans : Lexer.spans sql.toList = .ok spans := by cbv
  have hsource : Token.ofSource sql = .ok ts := by
    rw [Token.ofSource, hspans]
    rfl
  have htile : Span.Tile .start sql.toList spans := Lexer.tile_spans hspans
  obtain ⟨hany, hlexer⟩ := diagnostics_placed_in_source sql bs hnames
  exact ⟨hnames, htile, hany spans htile, hlexer ts hsource, by decide +kernel⟩

end SqlStyle.Lint
