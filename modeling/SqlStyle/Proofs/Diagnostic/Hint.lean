import SqlStyle.Diagnostic.Label
import SqlStyle.Proofs.Directive
import SqlStyle.Proofs.Exemption.Meaning

/-!
# The hint of a diagnostic works

A diagnostic offers a comment that is to switch its rule off.  The comment is read like any other:
its directive is the first one in it, whatever the rule is called, since only a blank stands before
the word.  Behind the keyword the name of the rule is read back whole: no character of a name is a
blank, and a blank ends it.  A file that holds the comment is then a file with a directive for the
rule, and what directives mean at an offset says the rest.
-/

namespace SqlStyle

namespace Text

/-- No blank is a letter or a digit, in any script. -/
theorem isAlphanumeric_of_isBlank {c : Char} (h : isBlank c = true) :
    isAlphanumeric c = false := by
  have halphabetic : isAlphabetic c = false := not_inRanges_of_apart (by decide +kernel) h
  have hnumeric : isNumeric c = false := not_inRanges_of_apart (by decide +kernel) h
  rw [isAlphanumeric, halphabetic, hnumeric]
  rfl

end Text

namespace Directive

theorem isNameChar_iff {c : Char} :
    isNameChar c = true ↔ Text.isAlphanumeric c = true ∨ c = '-' ∨ c = '_' := by
  rw [isNameChar, Bool.or_eq_true, Bool.or_eq_true, beq_iff_eq, beq_iff_eq, or_assoc]

/-- No blank is a character of a rule name. -/
theorem isNameChar_of_isBlank {c : Char} (h : Text.isBlank c = true) : isNameChar c = false := by
  rw [← Bool.not_eq_true, isNameChar_iff]
  rintro (halphanumeric | rfl | rfl)
  · cases (Text.isAlphanumeric_of_isBlank h).symm.trans halphanumeric
  · cases h
  · cases h

theorem isBlank_of_isNameChar {c : Char} (h : isNameChar c = true) : Text.isBlank c = false := by
  rw [← Bool.not_eq_true]
  intro hblank
  cases h.symm.trans (isNameChar_of_isBlank hblank)

variable {name : List Char}

/-- A name between blanks is the name of its rule. -/
theorem namesKey_between_blanks (hne : name ≠ []) (hname : ∀ c ∈ name, isNameChar c = true) :
    NamesKey (' ' :: (name ++ [' '])) (some (Text.upper (.ofList name))) := by
  have hblanks : Run Text.isBlank (' ' :: (name ++ [' '])) [' '] (name ++ [' ']) := by
    refine ⟨rfl, fun c hc => ?_, fun c hc => ?_⟩
    · rw [List.mem_singleton.mp hc]
      rfl
    · rw [List.head?_append_of_ne_nil name hne] at hc
      exact isBlank_of_isNameChar (hname c (List.mem_of_mem_head? hc))
  have hrun : Run isNameChar (name ++ [' ']) name [' '] := by
    refine ⟨rfl, hname, fun c hc => ?_⟩
    cases hc
    exact isNameChar_of_isBlank rfl
  exact ⟨_, _, _, _, hblanks, hrun, (if_neg hne).symm⟩

/-- A hint without its markers is the word, the keyword and the name, with blanks around. -/
theorem body_hint (rule : String) : body (Label.hint rule).toList =
    ' ' :: ("tsqllint-disable".toList ++ ' ' :: (rule.toList ++ [' '])) := by
  have hopens : "/* tsqllint-disable ".toList =
      ['/', '*'] ++ ' ' :: ("tsqllint-disable".toList ++ [' ']) := rfl
  have hcloses : " */".toList = [' '] ++ ['*', '/'] := rfl
  have hcomment : (Label.hint rule).toList = ['/', '*'] ++
      ' ' :: ("tsqllint-disable".toList ++ ' ' :: (rule.toList ++ [' '])) ++ ['*', '/'] := by
    unfold Label.hint
    rw [String.toList_append, String.toList_append, hopens, hcloses]
    simp only [List.append_assoc, List.cons_append, List.nil_append]
  rw [hcomment]
  exact (isBody_iff.mp (.block _)).symm

/-- The comment that a hint offers switches off the rule it is about. -/
theorem parse_hint {rule : String} (hne : rule ≠ "")
    (hname : ∀ c ∈ rule.toList, isNameChar c = true) :
    parse (Label.hint rule) = some ⟨.disable, some (Text.upper rule)⟩ := by
  let tail := ' ' :: (rule.toList ++ [' '])
  let b := ' ' :: ("tsqllint-disable".toList ++ tail)
  have hstands : StandsAt b 1 .disable tail := by
    refine ⟨⟨"tsqllint-disable".toList, rfl, by decide⟩, fun c hc => ?_, fun c hc => ?_⟩
    · cases hc
      exact isNameChar_of_isBlank rfl
    · cases hc
      rfl
  have hkey : NamesKey tail (some (Text.upper rule)) := by
    have h := namesKey_between_blanks (fun h => hne (String.toList_eq_nil_iff.mp h)) hname
    rwa [String.ofList_toList] at h
  -- only the blank at the front comes before the word, and no directive stands there
  have hfirst : ∀ q, 0 ≤ q → q < 1 → at? b q = none := by
    intro q _ hq
    rw [Nat.lt_one_iff.mp hq]
    rfl
  rw [parse, body_hint]
  exact (find?_eq_some_iff [] b _).mpr
    ⟨1, Nat.zero_le 1, at?_eq_some_iff.mpr ⟨tail, hstands, hkey⟩, hfirst⟩

end Directive

namespace Exemption

open Token (InOrder lastChar?)

variable {before after : List Token} {c : Token} {rule : String} {o last : Nat}

/-- A rule is exempt from a comment that switches it off to the end of the file, if no later one
switches it on. -/
theorem isExempt_behind_disable (h : InOrder (before ++ c :: after))
    (hc : c.Directs .disable (some (Text.upper rule)))
    (hafter : ∀ e ∈ after, ¬ e.Directs .enable (some (Text.upper rule)))
    (hlast : lastChar? (before ++ c :: after) = some last) (hstart : c.startChar ≤ o)
    (hstop : o ≤ last) :
    (Index.ofRanges (scan (before ++ c :: after))).isExempt rule o = true := by
  rw [Index.isExempt_ofRanges, exempt_scan_iff h]
  refine ⟨⟨last, hlast, hstop⟩, some (Text.upper rule), .inr rfl, ?_⟩
  refine ⟨before, c, after, rfl, hc, hstart, ?_⟩
  intro e he hdirects
  exact absurd hdirects (hafter e he)

end Exemption

namespace Label

open Token (InOrder lastChar?)

/-- The hint works.  A diagnostic that is no fault, and whose rule has a name of letters, digits,
`-` and `_`, offers a comment in its help text, and this comment switches the rule off, by its name
in upper case.  In every file with tokens in order that holds the comment, and behind it none that
switches the rule on again, the rule is exempt from the start of the comment to the last character
of the file, by its name in any case. -/
theorem hint_switches_rule_off (d : Diagnostic) (source : String) (hfault : d.isFault = false)
    (hne : d.rule ≠ "")
    (hname : ∀ c ∈ d.rule.toList, Text.isAlphanumeric c = true ∨ c = '-' ∨ c = '_') :
    let comment := "/* tsqllint-disable " ++ d.rule ++ " */"
    let key : Key := some (Text.upper d.rule)
    (ofDiagnostic d source).help = some ("suppress with " ++ comment) ∧
      Directive.parse comment = some ⟨.disable, key⟩ ∧
      ∀ (before after : List Token) (c : Token) (last : Nat), InOrder (before ++ c :: after) →
        lastChar? (before ++ c :: after) = some last → c.isComment = true → c.text = comment →
        (∀ e ∈ after, ¬ e.Directs .enable key) →
        ∀ rule o, Text.eqIgnoreCase rule d.rule = true → c.startChar ≤ o → o ≤ last →
          (Exemption.Index.ofRanges (Exemption.scan (before ++ c :: after))).isExempt rule o =
            true := by
  intro comment key
  have hchars : ∀ c ∈ d.rule.toList, Directive.isNameChar c = true :=
    fun c hc => Directive.isNameChar_iff.mpr (hname c hc)
  have hparse : Directive.parse comment = some ⟨.disable, key⟩ :=
    Directive.parse_hint hne hchars
  refine ⟨?_, hparse, ?_⟩
  · rw [ofDiagnostic, hfault]
    rfl
  · intro before after c last horder hlast hcomment htext hafter rule o hrule hstart hstop
    have hkey : key = some (Text.upper rule) := by
      rw [Text.eqIgnoreCase_iff.mp hrule]
    rw [hkey] at hafter
    refine Exemption.isExempt_behind_disable horder ⟨hcomment, ?_⟩ hafter hlast hstart hstop
    rw [htext, hparse, hkey]

/-- A rule whose name holds another directive is switched on before the comment of its hint, and
all rules are behind it. -/
theorem hint_of_rule_named_like_directive :
    let d : Diagnostic := ⟨⟨"x-tsqllint-enable", "found", "*", 61, 61, 1, 61⟩, .error, false⟩
    let on : Token := .place ⟨.lineComment, "-- tsqllint-enable X-TSQLLINT-ENABLE\n"⟩ 0 1 0
    let off : Token := .place ⟨.blockComment, "/* tsqllint-disable x-tsqllint-enable */"⟩ 37 2 0
    let all : Token := .place ⟨.blockComment, "/* tsqllint-enable */"⟩ 77 2 40
    let star : Token := .place ⟨.symbol, "*"⟩ 98 2 61
    (ofDiagnostic d "").help =
        some "suppress with /* tsqllint-disable x-tsqllint-enable */" ∧
      InOrder [on, off, all, star] ∧ on.Directs .enable (some "X-TSQLLINT-ENABLE") ∧
      (Exemption.Index.ofRanges (Exemption.scan [on, off, all, star])).isExempt
        "X-tsqllint-Enable" 98 = true := by
  intro d on off all star
  have hchars : d.rule.toList.all Directive.isNameChar = true := by decide
  have hname : ∀ c ∈ d.rule.toList, Text.isAlphanumeric c = true ∨ c = '-' ∨ c = '_' :=
    fun c hc => Directive.isNameChar_iff.mp (List.all_eq_true.mp hchars c hc)
  have hkey : Text.upper d.rule = "X-TSQLLINT-ENABLE" := by decide
  have horder : InOrder [on, off, all, star] := ⟨by decide, by decide⟩
  have hafter : ∀ e ∈ [all, star], ¬ e.Directs .enable (some (Text.upper d.rule)) := by
    rw [hkey]
    decide
  obtain ⟨hhelp, -, hexempt⟩ := hint_switches_rule_off d "" rfl (by decide) hname
  exact ⟨hhelp, horder, by decide, hexempt [on] [all, star] off 98 horder rfl rfl rfl hafter
    "X-tsqllint-Enable" 98 (by decide) (by decide) (Nat.le_refl 98)⟩

end Label

end SqlStyle
