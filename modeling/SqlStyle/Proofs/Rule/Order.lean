import SqlStyle.Rule.BuiltIn
import Mathlib

/-!
# Findings come in order

Every built-in rule answers with findings that lie within the lexemes it was given, and each starts
behind the one before.  Most rules find something about the lexeme they stand at.  A dotted name is
left behind as a whole before the next one is looked for.  A star may be reported with the two
lexemes before it, but no star stands among these.
-/

namespace SqlStyle

namespace Lexeme

/-- A symbol is not a name. -/
theorem isName_of_isSymbol {l : Lexeme} {s : String} (h : l.isSymbol s = true) :
    l.isName = false := by
  rw [isSymbol, Bool.and_eq_true] at h
  rw [isName, eq_of_beq h.1]
  rfl

/-- A symbol is no other symbol. -/
theorem isSymbol_of_ne {l : Lexeme} {s t : String} (h : l.isSymbol s = true) (hne : s ≠ t) :
    l.isSymbol t = false := by
  rw [isSymbol, Bool.and_eq_true] at h
  rw [isSymbol, eq_of_beq h.2, beq_false_of_ne hne, Bool.and_false]

end Lexeme

namespace Finding

/-- Findings at positions from `i` to below `n`, each starting behind the start of the one
before. -/
structure Ordered (i n : Nat) (fs : List Finding) : Prop where
  bounds : ∀ f ∈ fs, i ≤ f.first ∧ f.first ≤ f.last ∧ f.last < n
  starts : fs.Pairwise fun f g => f.first < g.first

namespace Ordered

variable {i j n : Nat} {f : Finding} {fs : List Finding}

theorem nil (i n : Nat) : Ordered i n [] where
  bounds _ hf := by cases hf
  starts := .nil

theorem mono (h : Ordered j n fs) (hij : i ≤ j) : Ordered i n fs where
  bounds f hf := ⟨hij.trans (h.bounds f hf).1, (h.bounds f hf).2⟩
  starts := h.starts

/-- A finding goes before others that start behind its start. -/
theorem cons (hi : i ≤ f.first) (hf : f.first ≤ f.last) (hn : f.last < n)
    (h : Ordered (f.first + 1) n fs) : Ordered i n (f :: fs) where
  bounds g hg := by
    rcases List.mem_cons.mp hg with rfl | hg
    · exact ⟨hi, hf, hn⟩
    · have hg := h.bounds g hg
      exact ⟨by omega, hg.2⟩
  starts := List.pairwise_cons.mpr ⟨fun g hg => (h.bounds g hg).1, h.starts⟩

end Ordered

/-- A walk that finds something about the lexeme it stands at, and possibly about those behind
it. -/
theorem ordered_walk {f : Nat → List Lexeme → Lexeme → List Lexeme → Option Finding}
    (hf : ∀ i before l after a, f i before l after = some a →
      a.first = i ∧ i ≤ a.last ∧ a.last ≤ i + after.length)
    (i : Nat) (before ls : List Lexeme) : Ordered i (i + ls.length) (walk f i before ls) := by
  induction ls generalizing i before with
  | nil => exact .nil _ _
  | cons l after ih =>
      specialize ih (i + 1) (l :: before)
      rw [Nat.add_assoc, Nat.add_comm 1] at ih
      rw [walk, List.length_cons]
      split
      · next a ha =>
          obtain ⟨hfirst, hle, hlast⟩ := hf _ _ _ _ _ ha
          refine .cons (by omega) (by omega) (by omega) ?_
          rw [hfirst]
          exact ih
      · exact ih.mono (Nat.le_succ i)

theorem ordered_each (message : String) (p : List Lexeme → Lexeme → List Lexeme → Bool)
    (ls : List Lexeme) : Ordered 0 ls.length (each message p ls) := by
  rw [each, ← Nat.zero_add ls.length]
  refine ordered_walk ?_ 0 [] ls
  intro i before l after a ha
  obtain ⟨-, ha⟩ := Option.ite_none_right_eq_some.mp ha
  cases ha
  exact ⟨rfl, Nat.le_refl _, Nat.le_add_right _ _⟩

end Finding

open Finding (Ordered)

namespace BuiltIn

/-- A view that is named takes up two more lexemes. -/
theorem two_le_of_namesView {after : List Lexeme} (h : namesView after = true) :
    2 ≤ after.length := by
  match after with
  | [] | [_] => cases h
  | _ :: _ :: rest => exact Nat.le_add_left 2 rest.length

theorem ordered_schemaFindings (ls : List Lexeme) :
    Ordered 0 ls.length (schemaFindings ls) := by
  rw [schemaFindings, ← Nat.zero_add ls.length]
  refine Finding.ordered_walk ?_ 0 [] ls
  intro i before l after a ha
  obtain ⟨-, ha⟩ := Option.ite_none_right_eq_some.mp ha
  cases ha
  refine ⟨rfl, ?_⟩
  cases hview : namesView after with
  | false => exact ⟨Nat.le_refl _, Nat.le_add_right _ _⟩
  | true => exact ⟨Nat.le_add_right _ _, Nat.add_le_add_left (two_le_of_namesView hview) i⟩

end BuiltIn

namespace LinkedServer

/-- Behind a dotted name, the rest of the lexemes is left. -/
theorem length_behind_chain (i : Nat) (l : Lexeme) (rest : List Lexeme) :
    i + chain l rest + 1 + (rest.drop (chain l rest)).length = i + (l :: rest).length := by
  have hchain := chain_le l rest
  rw [List.length_drop, List.length_cons]
  omega

/-- The search goes on behind a dotted name, whether it is reported or not. -/
theorem ordered_findingsFrom (i : Nat) (ls : List Lexeme) :
    Ordered i (i + ls.length) (findingsFrom i ls) := by
  fun_induction findingsFrom i ls with
  | case1 i => exact .nil _ _
  | case2 i l rest hname n found hfour ih =>
      rw [length_behind_chain] at ih
      have hn : n < (l :: rest).length := Nat.lt_succ_of_le (chain_le l rest)
      exact .cons (Nat.le_refl i) (Nat.le_add_right i n) (Nat.add_lt_add_left hn i)
        (ih.mono (Nat.succ_le_succ (Nat.le_add_right i n)))
  | case3 i l rest hname n found hfour ih =>
      rw [length_behind_chain] at ih
      exact ih.mono (by omega)
  | case4 i l rest hname ih =>
      rw [Nat.add_assoc, Nat.add_comm 1] at ih
      exact ih.mono (Nat.le_succ i)

end LinkedServer

namespace SelectStar

/-- How many of the lexemes before a position may belong to a star that is still to come: a name
and its point, or a name alone. -/
def reach : List Lexeme → Nat
  | prev :: before =>
      if prev.isSymbol "." then if before.head?.any (·.isName) then 2 else 0
      else if prev.isName then 1 else 0
  | [] => 0

theorem reach_of_isName {l : Lexeme} (before : List Lexeme) (h : l.isName = true) :
    reach (l :: before) = 1 := by
  have hdot : l.isSymbol "." = false := by
    cases hl : l.isSymbol "." with
    | false => rfl
    | true =>
        rw [Lexeme.isName_of_isSymbol hl] at h
        cases h
  simp [reach, h, hdot]

/-- No star belongs to a later one. -/
theorem reach_of_star {l : Lexeme} (before : List Lexeme) (h : l.isSymbol "*" = true) :
    reach (l :: before) = 0 := by
  simp [reach, Lexeme.isName_of_isSymbol h, Lexeme.isSymbol_of_ne h (t := ".") (by decide)]

/-- A step forward does not reach further back. -/
theorem reach_cons_le (l : Lexeme) (before : List Lexeme) :
    reach (l :: before) ≤ reach before + 1 := by
  rw [reach]
  split
  · split
    · next hname =>
        cases before with
        | nil => cases hname
        | cons prev before => rw [reach_of_isName before hname]
    · exact Nat.zero_le _
  · split <;> omega

/-- What is said about a star ends with the star and starts within reach. -/
theorem bounds_of_star {i : Nat} {before : List Lexeme} {f : Finding} (h : star i before = some f) :
    i - reach before ≤ f.first ∧ f.first ≤ i ∧ f.last = i := by
  rw [star] at h
  split at h
  · split at h
    · next hdot =>
        obtain ⟨hname, h⟩ := Option.ite_none_right_eq_some.mp h
        cases h
        cases before with
        | nil => cases hdot
        | cons prev before =>
            have hreach : reach (prev :: before) = 2 := by
              have hdot : prev.isSymbol "." = true := hdot
              have hname : before.head?.any (·.isName) = true := hname
              rw [reach, if_pos hdot, if_pos hname]
            rw [hreach]
            exact ⟨Nat.le_refl _, Nat.sub_le _ _, rfl⟩
    · cases h
      exact ⟨Nat.sub_le _ _, Nat.le_refl _, rfl⟩
  · cases h

/-- Stars are found from left to right, and what belongs to one stands behind the one before. -/
theorem ordered_findingsFrom (allowInExists : Bool) (s : Parens) (i : Nat)
    (before after : List Lexeme) :
    Ordered (i - reach before) (i + after.length)
      (findingsFrom allowInExists s i before after) := by
  induction after generalizing s i before with
  | nil => exact .nil _ _
  | cons l after ih =>
      specialize ih (s.step before l) (i + 1) (l :: before)
      rw [Nat.add_assoc, Nat.add_comm 1 after.length] at ih
      have hreach := reach_cons_le l before
      have hrest := ih.mono (i := i - reach before) (by omega)
      rw [findingsFrom, List.length_cons]
      split
      · next hstar =>
          rw [Bool.and_eq_true] at hstar
          cases hf : star i before with
          | none => exact hrest
          | some f =>
              obtain ⟨hfirst, hle, hlast⟩ := bounds_of_star hf
              rw [reach_of_star before hstar.1] at ih
              exact .cons hfirst (by omega) (by omega) (ih.mono (by omega))
      · exact hrest

end SelectStar

/-- The findings of every built-in rule lie within the lexemes and come in order. -/
theorem BuiltIn.ordered_findings (b : BuiltIn) (isTest : Bool) (ls : List Lexeme) :
    Ordered 0 ls.length (b.findings isTest ls) := by
  cases b with
  | keywordCasing casing => exact Finding.ordered_each _ _ ls
  | selectStar allowInExists =>
      have h := SelectStar.ordered_findingsFrom allowInExists .start 0 [] ls
      rwa [Nat.zero_add] at h
  | printStatement allowInTests =>
      rw [findings]
      split
      · exact .nil _ _
      · exact Finding.ordered_each _ _ ls
  | informationSchema => exact ordered_schemaFindings ls
  | disallowCursors => exact Finding.ordered_each _ _ ls
  | linkedServer =>
      have h := LinkedServer.ordered_findingsFrom 0 ls
      rwa [Nat.zero_add] at h
  | upperLower => exact Finding.ordered_each _ _ ls

end SqlStyle
