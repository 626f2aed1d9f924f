import SqlStyle.Proofs.Rule.Layout
import SqlStyle.Proofs.Rule.LetterCase

/-!
# Putting keywords into their casing

The rule about keywords reports some tokens of a file, and the remedy is to put their texts into the
casing asked for.  What is reported depends on the lexeme itself and on the points beside it.  The
remedy leaves points as they are, so it neither hides a keyword from the rule nor brings up another;
and a keyword in its casing is not reported.  The other rules do not see the case of words.
-/

namespace SqlStyle

/-! ## Files with some tokens changed -/

namespace Token

/-- Change the significant tokens of a file.  Each is given its position among them, counted
from `i`. -/
def mapSignificant (f : Nat → Token → Token) : Nat → List Token → List Token
  | _, [] => []
  | i, t :: ts =>
      if t.isSignificant then f i t :: mapSignificant f (i + 1) ts else t :: mapSignificant f i ts

theorem significant_mapSignificant {f : Nat → Token → Token}
    (hf : ∀ i t, (f i t).isSignificant = t.isSignificant) (i : Nat) (ts : List Token) :
    significant (mapSignificant f i ts) = (significant ts).mapIdx fun k => f (i + k) := by
  induction ts generalizing i with
  | nil => rfl
  | cons t ts ih =>
      rw [mapSignificant, significant]
      by_cases ht : t.isSignificant = true
      · have hshift : (fun k => f (i + (k + 1))) = fun k => f (i + 1 + k) := by
          funext k
          rw [Nat.add_assoc, Nat.add_comm 1 k]
        rw [if_pos ht, List.filter_cons_of_pos ((hf i t).trans ht), significant,
          List.filter_cons_of_pos ht, List.mapIdx_cons, Nat.add_zero, hshift]
        exact congrArg (f i t :: ·) (ih (i + 1))
      · rw [if_neg ht, List.filter_cons_of_neg ht, significant, List.filter_cons_of_neg ht]
        exact ih i

end Token

namespace Finding

variable {α : Type} {f : Nat → List Lexeme → Lexeme → List Lexeme → Option α} {a : α}

/-- A walk collects what there is at each position. -/
theorem mem_walk_iff {i : Nat} {before ls : List Lexeme} :
    a ∈ walk f i before ls ↔ ∃ k l, ls[k]? = some l ∧
      f (i + k) ((ls.take k).reverse ++ before) l (ls.drop (k + 1)) = some a := by
  induction ls generalizing i before with
  | nil => simp [walk]
  | cons l after ih =>
      have hwalk : a ∈ walk f i before (l :: after) ↔
          f i before l after = some a ∨ a ∈ walk f (i + 1) (l :: before) after := by
        rw [walk]
        split
        · next a' ha' => rw [ha', List.mem_cons, Option.some.injEq, eq_comm]
        · next hnone => rw [hnone, or_iff_right (Option.some_ne_none a).symm]
      rw [hwalk, ih]
      refine Iff.trans (or_congr ?_ ?_) Nat.or_exists_add_one
      · simp
      · refine exists_congr fun k => exists_congr fun l' => ?_
        rw [List.getElem?_cons_succ, List.take_succ_cons, List.reverse_cons, List.append_assoc,
          List.singleton_append, List.drop_succ_cons, Nat.add_assoc, Nat.add_comm 1 k]

open Violation (spanning atToken joinTexts)

/-- A finding about one token becomes a violation at that token. -/
theorem spanning_single (rule message : String) {ts : List Token} {i : Nat} (h : i < ts.length) :
    spanning rule message (tokens ts.toArray ⟨message, i, i⟩) =
      some (atToken rule message ts[i]) := by
  rw [tokens, Array.toList_extract, List.extract_eq_take_drop, Nat.add_sub_cancel_left,
    List.drop_eq_getElem_cons h, List.take_succ_cons, List.take_zero]
  simp [spanning, atToken, joinTexts, String.join]

end Finding

/-! ## Keywords in their casing -/

theorem Text.lt_of_toUpper_lt {c : Char} (h : c.toUpper.toNat < 128) : c.toNat < 128 := by
  by_cases hc : c.isLower = true
  · rw [Char.isLower, Bool.and_eq_true, decide_eq_true_eq, decide_eq_true_eq] at hc
    exact Nat.lt_of_le_of_lt hc.2 (by decide)
  · rwa [Char.toUpper_eq_of_not_isLower hc] at h

/-- Keywords are ASCII, in whatever case they are written. -/
theorem lt_of_isKeyword {word : String} (h : isKeyword word = true) {ch : Char}
    (hch : ch ∈ word.toList) : ch.toNat < 128 := by
  have htable : (keywords.all fun k => k.toList.all (·.toNat < 128)) = true := by decide +kernel
  rw [isKeyword, List.contains_iff_mem] at h
  have hword := List.all_eq_true.mp htable _ h
  rw [Text.toList_upper, List.all_map, List.all_eq_true] at hword
  exact Text.lt_of_toUpper_lt (of_decide_eq_true (hword ch hch))

theorem any_of_isKeyword {word : String} (h : isKeyword word = true) {p q : Char → Bool}
    (hpq : ∀ ch : Char, ch.toNat < 128 → p ch = q ch) : word.toList.any p = word.toList.any q := by
  rw [Bool.eq_iff_iff, List.any_eq_true, List.any_eq_true]
  refine exists_congr fun ch => and_congr_right fun hch => ?_
  rw [hpq ch (lt_of_isKeyword h hch)]

namespace Casing

variable {c : Casing} {i : Nat}

/-- Which characters outside ASCII have a case, and which one, makes no difference to what is said
about keywords. -/
theorem misses_eq_any {isLower isUpper : Char → Bool}
    (hlower : ∀ ch : Char, ch.toNat < 128 → isLower ch = ch.isLower)
    (hupper : ∀ ch : Char, ch.toNat < 128 → isUpper ch = ch.isUpper) (c : Casing) (l : Lexeme) :
    c.misses l = (l.kind == .word && isKeyword l.text &&
      l.text.toList.any (match c with | upper => isLower | lower => isUpper)) := by
  cases h : isKeyword l.text with
  | false => rw [misses, h, Bool.and_false, Bool.false_and, Bool.false_and]
  | true =>
      rw [misses, h]
      refine congrArg (l.kind == .word && true && ·) ?_
      cases c with
      | upper => exact (Bool.not_not _).trans (any_of_isKeyword h hlower).symm
      | lower => exact (Bool.not_not _).trans (any_of_isKeyword h hupper).symm

/-- The text in the casing. -/
def recase : Casing → String → String
  | upper => Text.upper
  | lower => Text.lower

theorem fits_recase (c : Casing) (s : String) : c.fits (c.recase s) = true := by
  cases c with
  | upper => simp [fits, recase]
  | lower => simp [fits, recase]

theorem upper_recase (c : Casing) (s : String) : Text.upper (c.recase s) = Text.upper s := by
  cases c with
  | upper => exact Text.upper_upper s
  | lower => exact Text.upper_lower s

theorem kind_of_misses {l : Lexeme} (h : c.misses l = true) : l.kind = .word := by
  rw [misses, Bool.and_eq_true, Bool.and_eq_true] at h
  exact eq_of_beq h.1.1

/-- The positions, among the significant tokens of a file, that the rule about keywords reports. -/
def reported (c : Casing) (ctx : FileContext) : List Nat :=
  ((BuiltIn.keywordCasing c).findings ctx.isTest (ctx.significant.map (·.toLexeme))).map (·.first)

/-- The token with its text put into the casing, if its position is reported. -/
def recaseAt (c : Casing) (ctx : FileContext) (i : Nat) (t : Token) : Token :=
  if i ∈ c.reported ctx then t.retext (c.recase t.text) else t

/-- The file with every token that the rule about keywords reports put into the casing. -/
def recased (c : Casing) (ctx : FileContext) : FileContext :=
  { ctx with tokens := Token.mapSignificant (c.recaseAt ctx) 0 ctx.tokens }

/-- The lexeme at the position is a keyword that misses the casing, with no point beside it. -/
def MissesAt (c : Casing) (ls : List Lexeme) (i : Nat) : Prop :=
  ∃ l, ls[i]? = some l ∧ c.misses l = true ∧
    Lexeme.isQualified (ls.take i).reverse (ls.drop (i + 1)) = false

theorem mem_reported_iff {ctx : FileContext} :
    i ∈ c.reported ctx ↔ c.MissesAt (ctx.significant.map (·.toLexeme)) i := by
  rw [reported, BuiltIn.findings, findings, Finding.each, List.mem_map]
  constructor
  · rintro ⟨f, hf, rfl⟩
    obtain ⟨k, l, hl, hsome⟩ := Finding.mem_walk_iff.mp hf
    rw [Nat.zero_add, List.append_nil] at hsome
    obtain ⟨hp, hsome⟩ := Option.ite_none_right_eq_some.mp hsome
    rw [Bool.and_eq_true, Bool.not_eq_true'] at hp
    cases hsome
    exact ⟨l, hl, hp.1, hp.2⟩
  · rintro ⟨l, hl, hmisses, hqualified⟩
    refine ⟨⟨c.message, i, i⟩, Finding.mem_walk_iff.mpr ⟨i, l, hl, ?_⟩, rfl⟩
    rw [Nat.zero_add, List.append_nil, hmisses, hqualified]
    rfl

/-! ## The file behind the remedy -/

variable {ctx : FileContext}

/-- Only texts are changed. -/
theorem exists_recaseAt_eq (c : Casing) (ctx : FileContext) (i : Nat) (t : Token) :
    ∃ text, c.recaseAt ctx i t = t.retext text := by
  rw [recaseAt]
  split
  · exact ⟨c.recase t.text, rfl⟩
  · exact ⟨t.text, rfl⟩

theorem significant_recased (c : Casing) (ctx : FileContext) :
    (c.recased ctx).significant = ctx.significant.mapIdx (c.recaseAt ctx) := by
  have hkeeps : ∀ i t, (c.recaseAt ctx i t).isSignificant = t.isSignificant := by
    intro i t
    obtain ⟨text, htext⟩ := exists_recaseAt_eq c ctx i t
    rw [htext]
    rfl
  have h := Token.significant_mapSignificant hkeeps 0 ctx.tokens
  simp only [Nat.zero_add] at h
  exact h

/-- The remedy changes the case of words, and nothing else. -/
theorem map_folded_recased (c : Casing) (ctx : FileContext) :
    ((c.recased ctx).significant.map (·.toLexeme)).map Lexeme.folded =
      (ctx.significant.map (·.toLexeme)).map Lexeme.folded := by
  rw [significant_recased, List.map_map, List.map_map]
  apply List.ext_getElem?
  intro i
  rw [List.getElem?_map, List.getElem?_map, List.getElem?_mapIdx, Option.map_map]
  cases ht : ctx.significant[i]? with
  | none => rfl
  | some t =>
      have hfolded : (c.recaseAt ctx i t).folded = t.folded := by
        rw [recaseAt]
        split
        · next hi =>
            obtain ⟨l, hl, hmisses, -⟩ := mem_reported_iff.mp hi
            rw [List.getElem?_map, ht] at hl
            cases hl
            exact Lexeme.folded_eq_of_word (kind_of_misses hmisses) (upper_recase c t.text)
        · rfl
      exact congrArg some hfolded

/-- Points stay as they are, so the same keywords stand beside one. -/
theorem isQualified_recased (c : Casing) (ctx : FileContext) (i : Nat) :
    let ls := ctx.significant.map (·.toLexeme)
    let ls' := (c.recased ctx).significant.map (·.toLexeme)
    Lexeme.isQualified (ls'.take i).reverse (ls'.drop (i + 1)) =
      Lexeme.isQualified (ls.take i).reverse (ls.drop (i + 1)) := by
  intro ls ls'
  have hfolded : ls'.map Lexeme.folded = ls.map Lexeme.folded := map_folded_recased c ctx
  rw [← Lexeme.isQualified_map_folded, List.map_reverse, List.map_take, List.map_drop, hfolded,
    ← List.map_take, ← List.map_drop, ← List.map_reverse, Lexeme.isQualified_map_folded]

/-- Behind the remedy no keyword misses the casing: those that did have been put into it, and
no other has been touched. -/
theorem reported_recased (c : Casing) (ctx : FileContext) : c.reported (c.recased ctx) = [] := by
  rw [List.eq_nil_iff_forall_not_mem]
  intro i hi
  obtain ⟨l, hl, hmisses, hqualified⟩ := mem_reported_iff.mp hi
  rw [isQualified_recased] at hqualified
  rw [significant_recased, List.getElem?_map, List.getElem?_mapIdx, Option.map_map] at hl
  obtain ⟨t, ht, rfl⟩ := Option.map_eq_some_iff.mp hl
  by_cases hreported : i ∈ c.reported ctx
  · have hfits : c.fits (c.recaseAt ctx i t).text = true := by
      rw [recaseAt, if_pos hreported]
      exact fits_recase c t.text
    have hmisses : c.misses (c.recaseAt ctx i t).toLexeme = true := hmisses
    rw [misses, hfits, Bool.not_true, Bool.and_false] at hmisses
    cases hmisses
  · have hsame : c.recaseAt ctx i t = t := if_neg hreported
    rw [Function.comp_apply, hsame] at hmisses
    refine hreported (mem_reported_iff.mpr ⟨t.toLexeme, ?_, hmisses, hqualified⟩)
    rw [List.getElem?_map, ht]
    rfl

end Casing

/-! ## Violations behind the remedy -/

namespace Violation

/-- The same violation, up to the case of the text it shows. -/
structure SameButCase (v v' : Violation) : Prop where
  same : { v' with trigger := v.trigger } = v
  trigger : Text.eqIgnoreCase v.trigger v'.trigger = true

end Violation

theorem Text.upper_join (texts : List String) :
    upper (.join texts) = .join (texts.map upper) := by
  rw [← String.toList_inj, toList_upper, String.toList_join, String.toList_join, List.map_flatMap,
    List.flatMap_map]
  simp only [toList_upper]

namespace Casing

open Violation (SameButCase atToken)

variable (c : Casing) (ctx : FileContext)

theorem map_upper_text_recased :
    (c.recased ctx).significant.map (fun t => Text.upper t.text) =
      ctx.significant.map fun t => Text.upper t.text := by
  have h := congrArg (List.map fun l : Lexeme => Text.upper l.text) (map_folded_recased c ctx)
  simp only [List.map_map, Function.comp_def, Lexeme.upper_text_folded] at h
  exact h

theorem exists_getElem_recased {i : Nat} (h : i < (c.recased ctx).significant.length)
    (h' : i < ctx.significant.length) :
    ∃ text, (c.recased ctx).significant[i] = ctx.significant[i].retext text := by
  simp only [significant_recased, List.getElem_mapIdx]
  exact exists_recaseAt_eq c ctx i ctx.significant[i]

/-- The other rules have the same violations behind the remedy as before it. -/
theorem forall₂_check_recased {b : BuiltIn} (hb : b.name ≠ "keyword-casing") :
    List.Forall₂ SameButCase (b.check ctx) (b.check (c.recased ctx)) := by
  let ts := ctx.significant
  let ts' := (c.recased ctx).significant
  have hlength : ts.length = ts'.length := by
    simpa using (congrArg List.length (map_upper_text_recased c ctx)).symm
  have hfindings : b.findings (c.recased ctx).isTest (ts'.map (·.toLexeme)) =
      b.findings ctx.isTest (ts.map (·.toLexeme)) := by
    rw [← BuiltIn.findings_map_folded hb, map_folded_recased, BuiltIn.findings_map_folded hb]
    rfl
  have hordered := b.ordered_check ctx
  rw [BuiltIn.check, BuiltIn.check, hfindings]
  refine Finding.forall₂_violations hlength hordered ?_
  intro f hf v v' hv hv'
  obtain ⟨-, hle, hlast⟩ := hordered.bounds f hf
  have hlast' : f.last < ts'.length := hlength ▸ hlast
  have htexts : (ts'.map (·.text)).map Text.upper = (ts.map (·.text)).map Text.upper := by
    rw [List.map_map, List.map_map]
    exact map_upper_text_recased c ctx
  have htrigger : Text.upper v.trigger = Text.upper v'.trigger := by
    rw [(Finding.trigger_of_spanning hle hlast hv).2,
      (Finding.trigger_of_spanning hle hlast' hv').2, Text.upper_join, Text.upper_join,
      List.map_take, List.map_take, List.map_drop, List.map_drop, htexts]
  obtain ⟨_, hfirst⟩ := exists_getElem_recased c ctx (hle.trans_lt hlast') (hle.trans_lt hlast)
  obtain ⟨_, hstop⟩ := exists_getElem_recased c ctx hlast' hlast
  refine ⟨?_, Text.eqIgnoreCase_iff.mpr htrigger⟩
  rw [Finding.spanning_tokens b.name hle hlast] at hv
  rw [Finding.spanning_tokens b.name hle hlast', hfirst, hstop] at hv'
  cases hv
  cases hv'
  rfl

/-- The violations of the rule about keywords stand at the tokens it reports. -/
theorem map_some_check_keywordCasing :
    ((BuiltIn.keywordCasing c).check ctx).map some = (c.reported ctx).map fun i =>
      ctx.significant[i]?.map (atToken "keyword-casing" c.message) := by
  have hordered := (BuiltIn.keywordCasing c).ordered_check ctx
  rw [BuiltIn.check, Finding.map_some_violations _ hordered, reported, List.map_map]
  refine List.map_congr_left fun f hf => ?_
  obtain ⟨-, -, hlast⟩ := hordered.bounds f hf
  obtain ⟨i, l, -, hsome⟩ := Finding.mem_walk_iff.mp hf
  obtain ⟨-, hsome⟩ := Option.ite_none_right_eq_some.mp hsome
  cases hsome
  rw [Function.comp_apply, List.getElem?_eq_getElem hlast, Finding.spanning_single _ _ hlast]
  rfl

/-- Putting keywords into their casing settles them and disturbs nothing else.  In every file, the
rule about keywords has its violations at the tokens it reports.  If the texts of just these tokens
are put into the casing, and everything else is left as it is, the rule has no violations any more.
Every other built-in rule, with any options, has the same violations as before, in the same order,
up to the case of the texts they show. -/
theorem recasing_settles_keywords (c : Casing) (ctx : FileContext) :
    ((BuiltIn.keywordCasing c).check ctx).map some = (c.reported ctx).map (fun i =>
        ctx.significant[i]?.map (atToken "keyword-casing" c.message)) ∧
      (BuiltIn.keywordCasing c).check (c.recased ctx) = [] ∧
      ∀ b : BuiltIn, b.name ≠ "keyword-casing" →
        List.Forall₂ SameButCase (b.check ctx) (b.check (c.recased ctx)) := by
  refine ⟨map_some_check_keywordCasing c ctx, ?_, fun b hb => forall₂_check_recased c ctx hb⟩
  have h := map_some_check_keywordCasing c (c.recased ctx)
  rw [reported_recased, List.map_nil] at h
  exact List.map_eq_nil_iff.mp h

/-- Two keywords are put into upper case, one in the middle of a word pair that a star needs; the
third stands behind a point and stays. -/
theorem star_found_behind_recased_top :
    let ctx : FileContext := ⟨"a.sql",
      [.place ⟨.word, "SELECT"⟩ 0 1 0, .place ⟨.whitespace, " "⟩ 6 1 6,
       .place ⟨.word, "Top"⟩ 7 1 7, .place ⟨.whitespace, " "⟩ 10 1 10,
       .place ⟨.number, "5"⟩ 11 1 11, .place ⟨.symbol, "*"⟩ 12 1 12,
       .place ⟨.word, "from"⟩ 13 1 13, .place ⟨.whitespace, " "⟩ 17 1 17,
       .place ⟨.word, "dbo"⟩ 18 1 18, .place ⟨.symbol, "."⟩ 21 1 21,
       .place ⟨.word, "user"⟩ 22 1 22]⟩
    let ctx' := upper.recased ctx
    upper.reported ctx = [1, 4] ∧
      ctx'.tokens.map (·.text) =
        ["SELECT", " ", "TOP", " ", "5", "*", "FROM", " ", "dbo", ".", "user"] ∧
      (BuiltIn.keywordCasing upper).check ctx' = [] ∧
      ((BuiltIn.selectStar true).check ctx).map (·.startChar) = [12] ∧
      List.Forall₂ SameButCase ((BuiltIn.selectStar true).check ctx)
        ((BuiltIn.selectStar true).check ctx') := by
  intro ctx ctx'
  obtain ⟨-, hsettled, hothers⟩ := recasing_settles_keywords upper ctx
  exact ⟨by decide +kernel, by decide +kernel, hsettled, by decide +kernel,
    hothers (.selectStar true) (by decide)⟩

end Casing

end SqlStyle
