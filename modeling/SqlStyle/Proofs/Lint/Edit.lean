import SqlStyle.Proofs.Exemption.Meaning
import SqlStyle.Proofs.Lint.Pipeline
import SqlStyle.Rule.BuiltIn

/-!
# Giving a comment a directive

A comment without a directive is given one, and nothing else changes.  Offset by offset, a
directive that switches a key off can only add to what is exempt, at or behind its start; one that
switches it on can only take away, behind its end.  The built-in rules do not look at comments, so
this is all that can change in a report: the two reports list the same violations, less those that
are exempt.
-/

namespace SqlStyle

open Exemption (Exempt scan SwitchedOff)
open Token (InOrder lastChar? not_directs_of_parse)

namespace Exemption

variable {before after : List Token} {t : Token} {text : String} {k : Key} {o : Nat}

/-! ## Directives around one token -/

/-- A key is off by what stands behind a token, or by the token and what stands before it, if
nothing behind switches it on. -/
theorem switchedOff_around :
    SwitchedOff (before ++ t :: after) k o ↔
      SwitchedOff after k o ∨
        (((t.Directs .disable k ∧ t.startChar ≤ o) ∨
            (SwitchedOff before k o ∧ (t.Directs .enable k → o ≤ t.stopChar))) ∧
          ∀ e ∈ after, e.Directs .enable k → o ≤ e.stopChar) := by
  rw [List.append_cons, switchedOff_append, switchedOff_append, switchedOff_singleton]
  simp only [List.mem_singleton, forall_eq]

/-- A comment that is given a directive holds that one. -/
theorem directs_retext {a a' : Action} {k' : Key} (hc : t.isComment = true)
    (h : Directive.parse text = some ⟨a, k⟩) :
    (t.retext text).Directs a' k' ↔ a' = a ∧ k' = k := by
  have hc' : (t.retext text).isComment = true := hc
  have htext : (t.retext text).text = text := rfl
  rw [Token.Directs, htext, h, Option.some.injEq, Directive.mk.injEq, and_iff_right hc', eq_comm,
    eq_comm (a := k)]

/-- Switching a key off adds offsets from the comment on, for this key only. -/
theorem switchedOff_retext_disable (hc : t.isComment = true)
    (hnone : Directive.parse t.text = none) {k₀ : Key}
    (h : Directive.parse text = some ⟨.disable, k₀⟩) :
    (SwitchedOff (before ++ t :: after) k o → SwitchedOff (before ++ t.retext text :: after) k o) ∧
      (SwitchedOff (before ++ t.retext text :: after) k o →
        SwitchedOff (before ++ t :: after) k o ∨ (k = k₀ ∧ t.startChar ≤ o)) := by
  simp only [switchedOff_around, directs_retext hc h, not_directs_of_parse hnone,
    Token.retext_startChar, reduceCtorEq, true_and, false_and, false_or, false_implies, and_true]
  constructor
  · rintro (hafter | ⟨hbefore, hafter⟩)
    · exact .inl hafter
    · exact .inr ⟨.inr hbefore, hafter⟩
  · rintro (hafter | ⟨hk | hbefore, hafter⟩)
    · exact .inl (.inl hafter)
    · exact .inr hk
    · exact .inl (.inr ⟨hbefore, hafter⟩)

/-- Switching a key on takes offsets away behind the comment, for this key only. -/
theorem switchedOff_retext_enable (hc : t.isComment = true)
    (hnone : Directive.parse t.text = none) {k₀ : Key}
    (h : Directive.parse text = some ⟨.enable, k₀⟩) :
    (SwitchedOff (before ++ t.retext text :: after) k o → SwitchedOff (before ++ t :: after) k o) ∧
      (SwitchedOff (before ++ t :: after) k o →
        SwitchedOff (before ++ t.retext text :: after) k o ∨ (k = k₀ ∧ t.stopChar < o)) := by
  simp only [switchedOff_around, directs_retext hc h, not_directs_of_parse hnone,
    Token.retext_stopChar, reduceCtorEq, true_and, false_and, false_or, false_implies, and_true]
  constructor
  · rintro (hafter | ⟨⟨hbefore, -⟩, hafter⟩)
    · exact .inl hafter
    · exact .inr ⟨hbefore, hafter⟩
  · rintro (hafter | ⟨hbefore, hafter⟩)
    · exact .inl (.inl hafter)
    · by_cases hk : k = k₀ ∧ t.stopChar < o
      · exact .inr hk
      · refine .inl (.inr ⟨⟨hbefore, fun hk' => ?_⟩, hafter⟩)
        exact Nat.le_of_not_lt fun hlt => hk ⟨hk', hlt⟩

/-- If tokens switch at most one key off where others do not, and only under some condition, then
they exempt at most the rules of this key there, under the same condition. -/
theorem exempt_of_switchedOff {ts us : List Token} (hts : InOrder ts) (hus : InOrder us)
    (hlast : lastChar? ts = lastChar? us) {k₀ : Key} {P : Prop} {rule : String}
    (h : ∀ k, SwitchedOff ts k o → SwitchedOff us k o ∨ (k = k₀ ∧ P))
    (hexempt : Exempt (scan ts) rule o) :
    Exempt (scan us) rule o ∨ (P ∧ (k₀ = none ∨ k₀ = some (Text.upper rule))) := by
  obtain ⟨hfile, k, hk, hoff⟩ := (exempt_scan_iff hts rule o).mp hexempt
  rcases h k hoff with hoff | ⟨rfl, hP⟩
  · exact .inl ((exempt_scan_iff hus rule o).mpr ⟨hlast ▸ hfile, k, hk, hoff⟩)
  · exact .inr ⟨hP, hk⟩

theorem exempt_mono_of_switchedOff {ts us : List Token} (hts : InOrder ts) (hus : InOrder us)
    (hlast : lastChar? ts = lastChar? us) {rule : String}
    (h : ∀ k, SwitchedOff ts k o → SwitchedOff us k o) (hexempt : Exempt (scan ts) rule o) :
    Exempt (scan us) rule o := by
  obtain ⟨hfile, k, hk, hoff⟩ := (exempt_scan_iff hts rule o).mp hexempt
  exact (exempt_scan_iff hus rule o).mpr ⟨hlast ▸ hfile, k, hk, h k hoff⟩

end Exemption

/-! ## Reports over the same violations -/

namespace BuiltIn

/-- Built-in rules see the significant tokens of a file, and its path. -/
theorem check_congr (b : BuiltIn) {path : String} {ts us : List Token}
    (h : Token.significant ts = Token.significant us) :
    b.check ⟨path, ts⟩ = b.check ⟨path, us⟩ := by
  simp only [check, FileContext.significant, FileContext.isTest, h]

/-- Built-in rules do not fail. -/
theorem exists_check_eq_ok (bs : List BuiltIn) (ctx : FileContext) :
    ∀ r ∈ bs.map (·.toRule), ∃ vs, r.check ctx = .ok vs := by
  intro r hr
  obtain ⟨b, -, rfl⟩ := List.mem_map.mp hr
  exact ⟨b.check ctx, rfl⟩

end BuiltIn

namespace Lint

variable {ctx ctx' : FileContext} {rules : List Rule}

/-- A rule that finds the same in two files reports, where more is exempt, what is left. -/
theorem plain_eq_filter {r : Rule} {vs : List Violation} (h : r.check ctx = .ok vs)
    (h' : r.check ctx' = .ok vs)
    (hmono : ∀ o, Exempt (scan ctx.tokens) r.name o → Exempt (scan ctx'.tokens) r.name o) :
    plain ctx' r =
      (plain ctx r).filter fun d => ¬ Exempt (scan ctx'.tokens) d.rule d.startChar := by
  rw [plain_of_ok h, plain_of_ok h', List.filter_map, List.filter_filter]
  refine congrArg (List.map _) (List.filter_congr ?_)
  intro v _
  by_cases hv : Exempt (scan ctx'.tokens) r.name v.startChar
  · simp [hv]
  · have hv' : ¬ Exempt (scan ctx.tokens) r.name v.startChar := fun he => hv (hmono _ he)
    simp [hv, hv']

/-- Where more is exempt, the report of rules that find the same lists what is left. -/
theorem diagnostics_eq_filter
    (hcheck : ∀ r ∈ rules, ∃ vs, r.check ctx = .ok vs ∧ r.check ctx' = .ok vs)
    (hmono : ∀ rule o, Exempt (scan ctx.tokens) rule o → Exempt (scan ctx'.tokens) rule o) :
    (file ctx' rules).diagnostics = (file ctx rules).diagnostics.filter fun d =>
      ¬ Exempt (scan ctx'.tokens) d.rule d.startChar := by
  have hplain : rules.flatMap (plain ctx') = (rules.flatMap (plain ctx)).filter fun d =>
      ¬ Exempt (scan ctx'.tokens) d.rule d.startChar := by
    rw [List.filter_flatMap]
    refine List.flatMap_congr fun r hr => ?_
    obtain ⟨vs, h, h'⟩ := hcheck r hr
    exact plain_eq_filter h h' (hmono r.name)
  rw [file_eq, file_eq, hplain]
  exact Report.filter_diagnostics _ _ _ _

/-- Whatever is left out when a list is filtered fails the test, however often it occurs. -/
theorem not_of_mem_diff_filter {ds : List Diagnostic} {p : Diagnostic → Bool} {d : Diagnostic}
    (hd : d ∈ ds.diff (ds.filter p)) : ¬ p d = true := by
  intro hp
  rw [← List.count_pos_iff, List.count_diff, List.count_filter hp, Nat.sub_self] at hd
  exact Nat.lt_irrefl 0 hd

/-! ## The built-in rules -/

/-- Where more is exempt and the significant tokens are the same, some of the diagnostics of the
built-in rules are left, and those that go are newly exempt.  None is lost from the count. -/
theorem tokens_of_exempt_mono {ts us : List Token} (bs : List BuiltIn)
    (hsignificant : Token.significant ts = Token.significant us)
    (hmono : ∀ rule o, Exempt (scan ts) rule o → Exempt (scan us) rule o)
    (P : String → Nat → Prop)
    (hnew : ∀ rule o, Exempt (scan us) rule o → Exempt (scan ts) rule o ∨ P rule o) :
    let old := tokens ts (bs.map (·.toRule))
    let new := tokens us (bs.map (·.toRule))
    new.diagnostics.Sublist old.diagnostics ∧
      (∀ d ∈ old.diagnostics.diff new.diagnostics, P d.rule d.startChar) ∧
      new.count + new.suppressed = old.count + old.suppressed := by
  intro old new
  have hcheck : ∀ r ∈ bs.map (·.toRule), ∃ vs, r.check (.anonymous ts) = .ok vs ∧
      r.check (.anonymous us) = .ok vs := by
    intro r hr
    obtain ⟨b, -, rfl⟩ := List.mem_map.mp hr
    exact ⟨b.check (.anonymous ts), rfl, congrArg Except.ok (b.check_congr hsignificant).symm⟩
  have hok := BuiltIn.exists_check_eq_ok bs
  have hfilter : new.diagnostics = old.diagnostics.filter fun d =>
      ¬ Exempt (scan us) d.rule d.startChar := diagnostics_eq_filter hcheck hmono
  refine ⟨?_, ?_, ?_⟩
  · rw [hfilter]
    exact List.filter_sublist
  · intro d hd
    rw [hfilter] at hd
    have hgone : Exempt (scan us) d.rule d.startChar := by
      simpa using not_of_mem_diff_filter hd
    have hkept := (not_exempt_of_mem_file (hok _) (List.diff_subset _ _ hd)).2
    exact (hnew d.rule d.startChar hgone).resolve_left hkept
  · have hreturned : (bs.map (·.toRule)).flatMap (returned (.anonymous us)) =
        (bs.map (·.toRule)).flatMap (returned (.anonymous ts)) := by
      refine List.flatMap_congr fun r hr => ?_
      obtain ⟨vs, h, h'⟩ := hcheck r hr
      simp only [returned, h, h']
    calc new.count + new.suppressed
        = ((bs.map (·.toRule)).flatMap (returned (.anonymous us))).length :=
          count_add_suppressed (hok _)
      _ = ((bs.map (·.toRule)).flatMap (returned (.anonymous ts))).length := by rw [hreturned]
      _ = old.count + old.suppressed := (count_add_suppressed (hok _)).symm

/-- A directive acts forward, on its own key, and in one direction.  Giving one to a comment that
has none, in its place, takes diagnostics away if it switches a key off, and brings some back if
it switches the key on.  What goes starts at or behind the comment's first character, what comes
starts behind its last one, both belong to rules that the key is about, and the number of
diagnostics and suppressed violations together stays the same. -/
theorem directive_acts_forward (before after : List Token) (t : Token) (k : Key)
    (bs : List BuiltIn) (horder : InOrder (before ++ t :: after)) (hc : t.isComment = true)
    (hnone : Directive.parse t.text = none) :
    let report (u : Token) := tokens (before ++ u :: after) (bs.map (·.toRule))
    (∀ text, Directive.parse text = some ⟨.disable, k⟩ →
      (report (t.retext text)).diagnostics.Sublist (report t).diagnostics ∧
      (∀ d ∈ (report t).diagnostics.diff (report (t.retext text)).diagnostics,
        t.startChar ≤ d.startChar ∧ (k = none ∨ k = some (Text.upper d.rule))) ∧
      (report (t.retext text)).count + (report (t.retext text)).suppressed =
        (report t).count + (report t).suppressed) ∧
    (∀ text, Directive.parse text = some ⟨.enable, k⟩ →
      (report t).diagnostics.Sublist (report (t.retext text)).diagnostics ∧
      (∀ d ∈ (report (t.retext text)).diagnostics.diff (report t).diagnostics,
        t.stopChar < d.startChar ∧ (k = none ∨ k = some (Text.upper d.rule))) ∧
      (report (t.retext text)).count + (report (t.retext text)).suppressed =
        (report t).count + (report t).suppressed) := by
  intro report
  constructor
  · intro text htext
    have horder' := horder.retext text
    have hlast := Token.lastChar?_retext before after t text
    refine tokens_of_exempt_mono bs (Token.significant_retext hc before after text).symm ?_
      (fun rule o => t.startChar ≤ o ∧ (k = none ∨ k = some (Text.upper rule))) ?_
    · intro rule o
      exact Exemption.exempt_mono_of_switchedOff horder horder' hlast.symm fun _ =>
        (Exemption.switchedOff_retext_disable hc hnone htext).1
    · intro rule o
      exact Exemption.exempt_of_switchedOff horder' horder hlast fun _ =>
        (Exemption.switchedOff_retext_disable hc hnone htext).2
  · intro text htext
    have horder' := horder.retext text
    have hlast := Token.lastChar?_retext before after t text
    have hreports := tokens_of_exempt_mono bs (Token.significant_retext hc before after text)
      (fun rule o => Exemption.exempt_mono_of_switchedOff horder' horder hlast fun _ =>
        (Exemption.switchedOff_retext_enable hc hnone htext).1)
      (fun rule o => t.stopChar < o ∧ (k = none ∨ k = some (Text.upper rule)))
      (fun rule o => Exemption.exempt_of_switchedOff horder horder' hlast.symm fun _ =>
        (Exemption.switchedOff_retext_enable hc hnone htext).2)
    exact ⟨hreports.1, hreports.2.1, hreports.2.2.symm⟩

/-- A star behind a comment goes when the comment switches its rule off. -/
theorem star_goes_behind_new_disable :
    let before : List Token := [.place ⟨.word, "SELECT"⟩ 0 1 0]
    let note : Token := .place ⟨.blockComment, "/* no words on the star for now */"⟩ 6 1 6
    let after : List Token := [.place ⟨.symbol, "*"⟩ 40 1 40]
    let report (u : Token) := tokens (before ++ u :: after) [BuiltIn.toRule (.selectStar true)]
    let edited := note.retext "/* tsqllint-disable select-star */"
    InOrder (before ++ note :: after) ∧ note.isComment = true ∧
      Directive.parse note.text = none ∧
      (report note).count = 1 ∧ (report edited).count = 0 ∧
      (report edited).diagnostics.Sublist (report note).diagnostics ∧
      (∀ d ∈ (report note).diagnostics.diff (report edited).diagnostics, 6 ≤ d.startChar) := by
  intro before note after report edited
  have horder : InOrder (before ++ note :: after) := ⟨by decide, by decide⟩
  have hnone : Directive.parse note.text = none := by decide
  have hacts := directive_acts_forward before after note (some "SELECT-STAR") [.selectStar true]
    horder rfl hnone
  obtain ⟨hsub, hgone, -⟩ := hacts.1 "/* tsqllint-disable select-star */" (by decide)
  exact ⟨horder, rfl, hnone, by decide +kernel, by decide +kernel, hsub, fun d hd => (hgone d hd).1⟩

end Lint

end SqlStyle
