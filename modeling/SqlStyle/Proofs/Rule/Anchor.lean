import SqlStyle.Proofs.Rule.Order
import SqlStyle.Proofs.Token

/-!
# Violations are about stretches of tokens

A finding gives the positions of its first and its last token.  For tokens in order this is as good
as giving the two offsets: the tokens from the one position to the other are those that lie between
the start of the first and the stop of the last.  So a violation can be read without knowing the
finding it comes from, and findings in order give violations in order.
-/

namespace SqlStyle

open Token (InOrder)

/-! ## Stretches of tokens -/

namespace Token.InOrder

variable {ts before stretch after : List Token} {t first last : Token}

theorem start_head_le (h : InOrder ts) (hfirst : ts.head? = some first) (ht : t ∈ ts) :
    first.startChar ≤ t.startChar := by
  obtain ⟨us, rfl⟩ := List.head?_eq_some_iff.mp hfirst
  rcases List.mem_cons.mp ht with rfl | ht
  · exact Nat.le_refl _
  · have hle := h.start_le_stop first List.mem_cons_self
    have hlt := (List.pairwise_cons.mp h.pairwise).1 t ht
    exact hle.trans hlt.le

theorem stop_le_last (h : InOrder ts) (hlast : ts.getLast? = some last) (ht : t ∈ ts) :
    t.stopChar ≤ last.stopChar := by
  obtain ⟨us, rfl⟩ := List.getLast?_eq_some_iff.mp hlast
  rcases List.mem_append.mp ht with hmem | hmem
  · have hle := h.start_le_stop last (List.mem_append_right us List.mem_cons_self)
    exact (h.stop_lt_last hmem).le.trans hle
  · rw [List.mem_singleton.mp hmem]

/-- Later tokens start later. -/
theorem start_lt_start (h : InOrder ts) {i j : Nat} (hij : i < j) (hj : j < ts.length) :
    ts[i].startChar < ts[j].startChar := by
  have hi : i < ts.length := hij.trans hj
  have hlt := List.pairwise_iff_getElem.mp h.pairwise i j hi hj hij
  exact (h.start_le_stop _ (List.getElem_mem hi)).trans_lt hlt

/-- The tokens of a stretch are those that lie between its ends. -/
theorem filter_between (h : InOrder (before ++ (stretch ++ after)))
    (hfirst : stretch.head? = some first) (hlast : stretch.getLast? = some last) :
    (before ++ (stretch ++ after)).filter (fun t =>
      first.startChar ≤ t.startChar ∧ t.stopChar ≤ last.stopChar) = stretch := by
  obtain ⟨-, hrest, hsplit⟩ := List.pairwise_append.mp h.pairwise
  obtain ⟨-, -, hsplit'⟩ := List.pairwise_append.mp hrest
  have horder : InOrder stretch := h.sublist
    ((List.sublist_append_left stretch after).trans (List.sublist_append_right before _))
  have hbefore : ∀ t ∈ before, t.startChar < first.startChar := fun t ht =>
    (h.start_le_stop t (List.mem_append_left _ ht)).trans_lt
      (hsplit t ht first (List.mem_append_left after (List.mem_of_mem_head? hfirst)))
  have hafter : ∀ t ∈ after, last.stopChar < t.stopChar := fun t ht =>
    (hsplit' last (List.mem_of_mem_getLast? hlast) t ht).trans_le
      (h.start_le_stop t (List.mem_append_right _ (List.mem_append_right _ ht)))
  rw [List.filter_append, List.filter_append, List.filter_eq_nil_iff.mpr,
    List.filter_eq_self.mpr, List.filter_eq_nil_iff.mpr, List.nil_append, List.append_nil]
  · intro t ht hbetween
    exact Nat.not_le_of_lt (hafter t ht) (of_decide_eq_true hbetween).2
  · intro t ht
    exact decide_eq_true ⟨horder.start_head_le hfirst ht, horder.stop_le_last hlast ht⟩
  · intro t ht hbetween
    exact Nat.not_le_of_lt (hbefore t ht) (of_decide_eq_true hbetween).1

end Token.InOrder

namespace Violation

/-- A violation about a stretch of the given tokens: it starts where a token starts and stops where
one stops, at or behind the start, and shows the texts of the tokens in between. -/
structure Anchored (ts : List Token) (v : Violation) : Prop where
  first : ∃ t ∈ ts, v.startChar = t.startChar ∧ v.line = t.line ∧ v.column = t.column
  last : ∃ t ∈ ts, v.stopChar = t.stopChar ∧ v.startChar ≤ t.startChar
  trigger : v.trigger =
    joinTexts (ts.filter fun t => v.startChar ≤ t.startChar ∧ t.stopChar ≤ v.stopChar)

end Violation

namespace Finding

open Violation (spanning Anchored joinTexts)

variable {rule : String} {ts : List Token} {f : Finding} {fs : List Finding}

/-- A finding cuts the tokens in three. -/
theorem append_tokens_append (ts : List Token) (h : f.first ≤ f.last) :
    ts.take f.first ++ (f.tokens ts.toArray ++ ts.drop (f.last + 1)) = ts := by
  have hdrop : ts.drop (f.last + 1) = (ts.drop f.first).drop (f.last + 1 - f.first) := by
    rw [List.drop_drop]
    congr 1
    omega
  rw [tokens, Array.toList_extract, List.extract_eq_take_drop, hdrop, List.take_append_drop,
    List.take_append_drop]

theorem head?_tokens (h : f.first ≤ f.last) : (f.tokens ts.toArray).head? = ts[f.first]? := by
  rw [tokens, Array.toList_extract, List.extract_eq_take_drop, List.head?_take,
    if_neg (by omega), List.head?_drop]

theorem getLast?_tokens (h : f.first ≤ f.last) (hlast : f.last < ts.length) :
    (f.tokens ts.toArray).getLast? = ts[f.last]? := by
  have hindex : f.first + (f.last + 1 - f.first - 1) = f.last := by omega
  rw [tokens, Array.toList_extract, List.extract_eq_take_drop, List.getLast?_take,
    if_neg (by omega), List.getElem?_drop, hindex, List.getElem?_eq_getElem hlast]
  rfl

/-- A finding within the tokens becomes a violation from its first to its last token. -/
theorem spanning_tokens (rule : String) (h : f.first ≤ f.last) (hlast : f.last < ts.length) :
    spanning rule f.message (f.tokens ts.toArray) =
      some ⟨rule, f.message, joinTexts (f.tokens ts.toArray), ts[f.first].startChar,
        ts[f.last].stopChar, ts[f.first].line, ts[f.first].column⟩ := by
  rw [spanning, head?_tokens h, getLast?_tokens h hlast, List.getElem?_eq_getElem hlast,
    List.getElem?_eq_getElem (h.trans_lt hlast)]

theorem violations_cons (rule : String) (ts : List Token) (f : Finding) (fs : List Finding) :
    violations rule ts (f :: fs) =
      (spanning rule f.message (f.tokens ts.toArray)).toList ++ violations rule ts fs := by
  rw [violations, List.filterMap_cons]
  cases spanning rule f.message (f.tokens ts.toArray) with
  | none => rfl
  | some v => rfl

/-- Every finding within the tokens becomes a violation, and nothing else does. -/
theorem map_some_violations (rule : String) (hfs : Ordered 0 ts.length fs) :
    (violations rule ts fs).map some =
      fs.map fun f => spanning rule f.message (f.tokens ts.toArray) := by
  rw [violations, List.map_filterMap_some_eq_filter_map_isSome, List.filter_eq_self]
  intro v hv
  obtain ⟨f, hf, rfl⟩ := List.mem_map.mp hv
  obtain ⟨-, hle, hlast⟩ := hfs.bounds f hf
  rw [spanning_tokens rule hle hlast]
  rfl

theorem anchored_of_spanning (hts : InOrder ts) (h : f.first ≤ f.last) (hlast : f.last < ts.length)
    {v : Violation} (hv : spanning rule f.message (f.tokens ts.toArray) = some v) :
    Anchored ts v := by
  have hfirst : f.first < ts.length := h.trans_lt hlast
  rw [spanning_tokens rule h hlast] at hv
  cases hv
  refine ⟨⟨ts[f.first], List.getElem_mem hfirst, rfl, rfl, rfl⟩,
    ⟨ts[f.last], List.getElem_mem hlast, rfl, ?_⟩, ?_⟩
  · rcases h.lt_or_eq with hlt | heq
    · exact (hts.start_lt_start hlt hlast).le
    · simp only [heq, Nat.le_refl]
  · have hcut := append_tokens_append ts h
    have hbetween := InOrder.filter_between (hcut.symm ▸ hts)
      ((head?_tokens h).trans (List.getElem?_eq_getElem hfirst))
      ((getLast?_tokens h hlast).trans (List.getElem?_eq_getElem hlast))
    rw [hcut] at hbetween
    rw [hbetween]

/-- Every violation of a rule is about a stretch of the tokens. -/
theorem anchored_of_mem_violations (hts : InOrder ts) (hfs : Ordered 0 ts.length fs)
    {v : Violation} (hv : v ∈ violations rule ts fs) : Anchored ts v := by
  obtain ⟨f, hf, hv⟩ := List.mem_filterMap.mp hv
  obtain ⟨-, hle, hlast⟩ := hfs.bounds f hf
  exact anchored_of_spanning hts hle hlast hv

/-- The violations of a rule come in the order of the text, each at a place of its own. -/
theorem pairwise_start_violations (hts : InOrder ts) (hfs : Ordered 0 ts.length fs) :
    (violations rule ts fs).Pairwise fun v w => v.startChar < w.startChar := by
  rw [violations, List.pairwise_filterMap]
  refine hfs.starts.imp_of_mem ?_
  intro f g hf hg hfg v hv w hw
  obtain ⟨-, hf, hflast⟩ := hfs.bounds f hf
  obtain ⟨-, hg, hglast⟩ := hfs.bounds g hg
  rw [spanning_tokens rule hf hflast] at hv
  rw [spanning_tokens rule hg hglast] at hw
  cases hv
  cases hw
  exact hts.start_lt_start hfg (hg.trans_lt hglast)

end Finding

namespace BuiltIn

variable {ctx : FileContext}

theorem inOrder_significant (hts : InOrder ctx.tokens) : InOrder ctx.significant :=
  hts.sublist List.filter_sublist

theorem ordered_check (b : BuiltIn) (ctx : FileContext) :
    Finding.Ordered 0 ctx.significant.length
      (b.findings ctx.isTest (ctx.significant.map (·.toLexeme))) := by
  have h := b.ordered_findings ctx.isTest (ctx.significant.map (·.toLexeme))
  rwa [List.length_map] at h

theorem anchored_of_mem_check (hts : InOrder ctx.tokens) {b : BuiltIn} {v : Violation}
    (hv : v ∈ b.check ctx) : v.Anchored ctx.significant :=
  Finding.anchored_of_mem_violations (inOrder_significant hts) (b.ordered_check ctx) hv

theorem pairwise_start_check (hts : InOrder ctx.tokens) (b : BuiltIn) :
    (b.check ctx).Pairwise fun v w => v.startChar < w.startChar :=
  Finding.pairwise_start_violations (inOrder_significant hts) (b.ordered_check ctx)

end BuiltIn

end SqlStyle
