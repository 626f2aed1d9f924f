import SqlStyle.Proofs.Text
import SqlStyle.Rule.BuiltIn

/-!
# Which rules see the case of words

Words are recognised in any case, and everything else by its kind or by a text without letters.  So
a rule finds the same among lexemes whose words have all been put into upper case: what it asks of
one lexeme has the same answer, and the rules that go through the lexemes with a state of their own
go through the same states.  The one exception is the rule that is about the case of keywords.
-/

namespace SqlStyle

namespace Text

/-- Only letters have another case. -/
theorem toUpper_of_not_isAlpha {c : Char} (h : c.isAlpha = false) : c.toUpper = c := by
  refine Char.toUpper_eq_of_not_isLower fun hlower => ?_
  rw [Char.isAlpha, hlower, Bool.or_true] at h
  cases h

theorem toUpper_eq_iff {c d : Char} (h : d.isAlpha = false) : c.toUpper = d ↔ c = d := by
  constructor
  · rintro rfl
    rw [Char.isAlpha_toUpper_eq_isAlpha] at h
    exact (toUpper_of_not_isAlpha h).symm
  · rintro rfl
    exact toUpper_of_not_isAlpha h

/-- The characters begin with the one and end, behind it, with the other. -/
def Enclosed (first last : Char) (cs : List Char) : Prop :=
  cs.head? = some first ∧ cs.tail.getLast? = some last

instance (first last : Char) (cs : List Char) : Decidable (Enclosed first last cs) :=
  inferInstanceAs (Decidable (_ ∧ _))

theorem map_toUpper_eq_some_iff {o : Option Char} {d : Char} (h : d.isAlpha = false) :
    o.map Char.toUpper = some d ↔ o = some d := by
  cases o with
  | none => exact iff_of_false nofun nofun
  | some c => rw [Option.map_some, Option.some.injEq, Option.some.injEq, toUpper_eq_iff h]

theorem enclosed_map_toUpper {first last : Char} (hfirst : first.isAlpha = false)
    (hlast : last.isAlpha = false) (cs : List Char) :
    Enclosed first last (cs.map Char.toUpper) ↔ Enclosed first last cs := by
  rw [Enclosed, Enclosed, List.head?_map, ← List.map_tail, List.getLast?_map,
    map_toUpper_eq_some_iff hfirst, map_toUpper_eq_some_iff hlast]

end Text

namespace Lexeme

variable (l : Lexeme) (ls before after : List Lexeme) (s : String)

/-- The lexeme with its text in upper case, if it is a word. -/
def folded : Lexeme := if l.kind = .word then ⟨.word, Text.upper l.text⟩ else l

@[simp] theorem kind_folded : l.folded.kind = l.kind := by
  rw [folded]
  split
  · next h => exact h.symm
  · rfl

variable {l} in
/-- Words that differ in case only are the same in upper case. -/
theorem folded_eq_of_word {text : String} (hword : l.kind = .word)
    (htext : Text.upper text = Text.upper l.text) : folded { l with text := text } = l.folded := by
  rw [folded, folded, if_pos hword, if_pos hword, htext]

theorem upper_text_folded : Text.upper l.folded.text = Text.upper l.text := by
  rw [folded]
  split
  · exact Text.upper_upper l.text
  · rfl

@[simp] theorem isWord_folded : l.folded.isWord s = l.isWord s := by
  rw [isWord, isWord, kind_folded, Text.eqIgnoreCase, upper_text_folded, ← Text.eqIgnoreCase]

@[simp] theorem isName_folded : l.folded.isName = l.isName := by
  rw [isName, isName, kind_folded]

/-- Symbols are not changed, and a word is no symbol in any case. -/
@[simp] theorem isSymbol_folded : l.folded.isSymbol s = l.isSymbol s := by
  rw [isSymbol, isSymbol, kind_folded]
  by_cases h : l.kind = .word
  · rw [h]
    rfl
  · rw [folded, if_neg h]

theorem any_head?_map_folded {p : Lexeme → Bool} (hp : ∀ l : Lexeme, p l.folded = p l) :
    (ls.map folded).head?.any p = ls.head?.any p := by
  rw [List.head?_map, Option.any_map]
  simp only [hp]

@[simp] theorem nextIs_map_folded : nextIs s (ls.map folded) = nextIs s ls :=
  any_head?_map_folded ls fun l => l.isSymbol_folded s

@[simp] theorem isQualified_map_folded :
    isQualified (before.map folded) (after.map folded) = isQualified before after := by
  rw [isQualified, isQualified, nextIs_map_folded, nextIs_map_folded]

theorem unquoted_eq : l.unquoted =
    if Text.Enclosed '[' ']' l.text.toList ∨ Text.Enclosed '\x22' '\x22' l.text.toList then
      .ofList l.text.toList.tail.dropLast
    else l.text := by
  rw [unquoted]
  split
  · next inner h => simp [Text.Enclosed, h]
  · next inner h => simp [Text.Enclosed, h]
  · next hbracket hquote =>
      rw [if_neg]
      rintro (⟨hhead, -⟩ | ⟨hhead, -⟩)
      · obtain ⟨inner, h⟩ := List.head?_eq_some_iff.mp hhead
        exact hbracket inner h
      · obtain ⟨inner, h⟩ := List.head?_eq_some_iff.mp hhead
        exact hquote inner h

/-- Brackets and quotes are no letters, so they are taken off in any case. -/
theorem upper_unquoted_folded : Text.upper l.folded.unquoted = Text.upper l.unquoted := by
  rw [folded]
  split
  · have hbrackets : Text.Enclosed '[' ']' (l.text.toList.map Char.toUpper) ↔
        Text.Enclosed '[' ']' l.text.toList := Text.enclosed_map_toUpper rfl rfl _
    have hquotes : Text.Enclosed '\x22' '\x22' (l.text.toList.map Char.toUpper) ↔
        Text.Enclosed '\x22' '\x22' l.text.toList := Text.enclosed_map_toUpper rfl rfl _
    rw [unquoted_eq, unquoted_eq]
    simp only [Text.toList_upper, hbrackets, hquotes]
    split
    · rw [← String.toList_inj]
      simp [Function.comp_def]
    · exact Text.upper_upper l.text
  · rfl

end Lexeme

namespace Finding

/-- A walk that asks nothing of the case of words is the same among words in upper case. -/
theorem walk_map_folded {α : Type} {f : Nat → List Lexeme → Lexeme → List Lexeme → Option α}
    (hf : ∀ i before l after,
      f i (before.map Lexeme.folded) l.folded (after.map Lexeme.folded) = f i before l after)
    (i : Nat) (before ls : List Lexeme) :
    walk f i (before.map Lexeme.folded) (ls.map Lexeme.folded) = walk f i before ls := by
  induction ls generalizing i before with
  | nil => rfl
  | cons l after ih =>
      have hrest := ih (i + 1) (l :: before)
      rw [List.map_cons] at hrest
      rw [List.map_cons, walk, walk, hf, hrest]

theorem each_map_folded (message : String) {p : List Lexeme → Lexeme → List Lexeme → Bool}
    (hp : ∀ before l after,
      p (before.map Lexeme.folded) l.folded (after.map Lexeme.folded) = p before l after)
    (ls : List Lexeme) : each message p (ls.map Lexeme.folded) = each message p ls := by
  refine walk_map_folded (fun i before l after => ?_) 0 [] ls
  rw [hp]

end Finding

namespace SelectStar

open Lexeme (folded any_head?_map_folded)

variable (before after : List Lexeme)

theorem isItem_map_folded : isItem (before.map folded) = isItem before := by
  cases before with
  | nil => rfl
  | cons prev before =>
      have htop : (before.map folded).head?.any (·.isWord "TOP") =
          before.head?.any (·.isWord "TOP") :=
        any_head?_map_folded before fun l => l.isWord_folded "TOP"
      rw [List.map_cons, isItem, isItem, htop]
      simp only [Lexeme.isWord_folded, Lexeme.isSymbol_folded, Lexeme.kind_folded]

theorem star_map_folded (i : Nat) : star i (before.map folded) = star i before := by
  rw [star, star, isItem_map_folded, Lexeme.nextIs_map_folded, ← List.map_tail,
    any_head?_map_folded _ Lexeme.isName_folded]

theorem Parens.step_map_folded (s : Parens) (l : Lexeme) :
    s.step (before.map folded) l.folded = s.step before l := by
  have hexists : (before.map folded).head?.any (·.isWord "EXISTS") =
      before.head?.any (·.isWord "EXISTS") :=
    any_head?_map_folded before fun l => l.isWord_folded "EXISTS"
  rw [step, step, hexists, Lexeme.isSymbol_folded, Lexeme.isSymbol_folded]

theorem findingsFrom_map_folded (allowInExists : Bool) (s : Parens) (i : Nat) :
    findingsFrom allowInExists s i (before.map folded) (after.map folded) =
      findingsFrom allowInExists s i before after := by
  induction after generalizing s i before with
  | nil => rfl
  | cons l after ih =>
      have hrest := ih (l :: before) (s.step before l) (i + 1)
      rw [List.map_cons] at hrest
      rw [List.map_cons, findingsFrom, findingsFrom, Parens.step_map_folded, hrest,
        Lexeme.isSymbol_folded, star_map_folded]

end SelectStar

namespace LinkedServer

open Lexeme (folded)

theorem chain_map_folded (prev : Lexeme) (ls : List Lexeme) :
    chain prev.folded (ls.map folded) = chain prev ls := by
  induction ls generalizing prev with
  | nil => rfl
  | cons l rest ih =>
      rw [List.map_cons, chain, chain, ih, Lexeme.isSymbol_folded, Lexeme.isSymbol_folded,
        Lexeme.isName_folded]

theorem isFourPart_map_folded (l : Lexeme) (rest : List Lexeme) (n : Nat) :
    isFourPart (l.folded :: (rest.map folded).take n) = isFourPart (l :: rest.take n) := by
  rw [← List.map_take, ← List.map_cons, isFourPart, isFourPart, List.countP_map,
    List.getLast?_map, Option.any_map]
  simp only [Function.comp_def, Lexeme.isSymbol_folded, Lexeme.isName_folded]

theorem findingsFrom_map_folded (i : Nat) (ls : List Lexeme) :
    findingsFrom i (ls.map folded) = findingsFrom i ls := by
  fun_induction findingsFrom i ls with
  | case1 i => rw [List.map_nil, findingsFrom]
  | case2 i l rest hname n found hparts ih =>
      rw [List.map_drop] at ih
      rw [List.map_cons, findingsFrom, Lexeme.isName_folded, if_pos hname, chain_map_folded]
      dsimp only
      rw [isFourPart_map_folded, if_pos hparts, ih]
  | case3 i l rest hname n found hparts ih =>
      rw [List.map_drop] at ih
      rw [List.map_cons, findingsFrom, Lexeme.isName_folded, if_pos hname, chain_map_folded]
      dsimp only
      rw [isFourPart_map_folded, if_neg hparts, ih]
  | case4 i l rest hname ih =>
      rw [List.map_cons, findingsFrom, Lexeme.isName_folded, if_neg hname, ih]

end LinkedServer

namespace BuiltIn

open Lexeme (folded)

theorem namesView_map_folded (ls : List Lexeme) : namesView (ls.map folded) = namesView ls := by
  match ls with
  | [] | [_] => rfl
  | dot :: view :: rest =>
      simp only [List.map_cons, namesView, Lexeme.isSymbol_folded, Lexeme.isName_folded]

/-- Every rule but the one about keywords finds the same among words in upper case. -/
theorem findings_map_folded {b : BuiltIn} (hb : b.name ≠ "keyword-casing") (isTest : Bool)
    (ls : List Lexeme) : b.findings isTest (ls.map folded) = b.findings isTest ls := by
  cases b with
  | keywordCasing casing => exact absurd rfl hb
  | selectStar allowInExists =>
      exact SelectStar.findingsFrom_map_folded [] ls allowInExists .start 0
  | printStatement allowInTests =>
      have hprint : printFindings (ls.map folded) = printFindings ls := by
        refine Finding.each_map_folded _ (fun before l after => ?_) ls
        rw [Lexeme.isWord_folded, Lexeme.isQualified_map_folded]
      rw [findings, findings, hprint]
  | informationSchema =>
      refine Finding.walk_map_folded (fun i before l after => ?_) 0 [] ls
      rw [Lexeme.isName_folded, Text.eqIgnoreCase, Lexeme.upper_unquoted_folded,
        ← Text.eqIgnoreCase, namesView_map_folded]
  | disallowCursors =>
      refine Finding.each_map_folded _ (fun before l after => ?_) ls
      rw [Lexeme.isWord_folded, Lexeme.isQualified_map_folded]
  | linkedServer => exact LinkedServer.findingsFrom_map_folded 0 ls
  | upperLower =>
      refine Finding.each_map_folded _ (fun before l after => ?_) ls
      rw [Lexeme.isWord_folded, Lexeme.isWord_folded, Lexeme.nextIs_map_folded,
        Lexeme.isQualified_map_folded]

end BuiltIn

end SqlStyle
