import SqlStyle.Proofs.Rule.Anchor
import SqlStyle.Proofs.Rule.SelectStar.Nesting

/-!
# Which stars are reported

The rule goes through the lexemes once, with those behind it at hand and a record of the
parentheses.  What it finds at a position depends on the position alone: on the two lexemes before
it, and on whether a parenthesis of `EXISTS` is open there.  So its findings are those of the
positions, one after the other.
-/

namespace SqlStyle.SelectStar

/-- A star at the position is an item of a select list. -/
def StarAt (ls : List Lexeme) (i : Nat) : Prop :=
  At ls i (·.isSymbol "*") ∧
    (Before ls 1 i (fun l => l.isWord "SELECT" || l.isWord "DISTINCT" || l.isWord "ALL") ∨
      Before ls 1 i (fun l => l.isSymbol "," || l.isSymbol ".") ∨
      Before ls 1 i (·.kind == .number) ∧ Before ls 2 i (·.isWord "TOP"))

instance (ls : List Lexeme) (i : Nat) : Decidable (StarAt ls i) :=
  inferInstanceAs (Decidable (_ ∧ _))

/-- What is said about a star at the position: behind a point it goes with the name before that,
and needs one. -/
def findingAt (ls : List Lexeme) (i : Nat) : Option Finding :=
  if Before ls 1 i (·.isSymbol ".") then
    if Before ls 2 i (·.isName) then
      some ⟨"Expected column names instead of alias.*", i - 2, i⟩
    else none
  else some ⟨"Expected column names instead of *", i, i⟩

/-- The violation of a star at the position: from the name before the point to the star, or the
star alone. -/
def violationAt (ts : List Token) (i : Nat) : Option Violation :=
  if Before (ts.map (·.toLexeme)) 1 i (·.isSymbol ".") then
    if Before (ts.map (·.toLexeme)) 2 i (·.isName) then
      Violation.spanning "select-star" "Expected column names instead of alias.*"
        ((ts.drop (i - 2)).take 3)
    else none
  else ts[i]?.map (.atToken "select-star" "Expected column names instead of *")

variable {before after : List Lexeme} {l : Lexeme} {i : Nat} {ts : List Token}

/-! ## Findings -/

/-- The lexemes before a position, nearest first, are those of the text. -/
theorem before_reverse (k : Nat) (p : Lexeme → Bool) :
    Before (before.reverse ++ after) (k + 1) before.length p ↔ before[k]?.any p = true := by
  rw [Before, At]
  by_cases h : k < before.length
  · have hindex : before.length - 1 - (before.length - (k + 1)) = k := by omega
    rw [List.getElem?_append_left (by rw [List.length_reverse]; omega),
      List.getElem?_reverse (by omega), hindex]
    exact and_iff_right h
  · rw [List.getElem?_eq_none (Nat.le_of_not_lt h)]
    exact iff_of_false (fun hlt => h hlt.1) Bool.false_ne_true

/-- A star behind some lexemes is looked at by its position. -/
theorem starAt_iff :
    StarAt (before.reverse ++ l :: after) before.length ↔
      l.isSymbol "*" = true ∧ isItem before = true := by
  have hat := at_length before.reverse l after (·.isSymbol "*")
  rw [List.length_reverse] at hat
  rw [StarAt, hat, before_reverse 0, before_reverse 0, before_reverse 0, before_reverse 1]
  refine and_congr_right fun _ => ?_
  cases before with
  | nil => simp [isItem]
  | cons prev before => simp [isItem, or_assoc, List.head?_eq_getElem?]

theorem star_eq (h : isItem before = true) :
    star before.length before = findingAt (before.reverse ++ l :: after) before.length := by
  have htail : before.tail.head? = before[1]? := by
    rw [List.head?_eq_getElem?, List.getElem?_tail]
  rw [star, if_pos h, findingAt, htail]
  simp only [before_reverse 0, before_reverse 1, Lexeme.nextIs, List.head?_eq_getElem?]

/-- What is found from a position on is what each position has. -/
theorem findingsFrom_eq (allowInExists : Bool) (before after : List Lexeme) :
    findingsFrom allowInExists (.behind before) before.length before after =
      ((List.range' before.length after.length).filter fun i =>
        StarAt (before.reverse ++ after) i ∧
          ¬ (allowInExists = true ∧ InExists (before.reverse ++ after) i)).filterMap
        (findingAt (before.reverse ++ after)) := by
  induction after generalizing before with
  | nil => rfl
  | cons l after ih =>
      have hrest := ih (l :: before)
      rw [List.reverse_cons, List.append_assoc, List.singleton_append, List.length_cons,
        Parens.behind] at hrest
      have hexists : InExists (before.reverse ++ l :: after) before.length ↔
          (Parens.behind before).exist.isEmpty = false := by
        rw [inExists_append (by rw [List.length_reverse]), ← Bool.not_eq_true,
          List.isEmpty_iff, Parens.exist_behind_eq_nil_iff, not_not]
      have hlook : (l.isSymbol "*" &&
            !(allowInExists && !(Parens.behind before).exist.isEmpty)) = true ↔
          l.isSymbol "*" = true ∧
            ¬ (allowInExists = true ∧ InExists (before.reverse ++ l :: after) before.length) := by
        rw [hexists, Bool.and_eq_true, Bool.not_eq_true', Bool.and_eq_false_imp,
          Bool.not_eq_false', not_and, Bool.not_eq_false]
      rw [findingsFrom, hrest, List.length_cons, List.range'_succ, List.filter_cons]
      by_cases hlooks : l.isSymbol "*" = true ∧
          ¬ (allowInExists = true ∧ InExists (before.reverse ++ l :: after) before.length)
      · rw [if_pos (hlook.mpr hlooks)]
        by_cases hitem : isItem before = true
        · rw [if_pos (decide_eq_true ⟨starAt_iff.mpr ⟨hlooks.1, hitem⟩, hlooks.2⟩),
            List.filterMap_cons, star_eq hitem]
          split
          · next hnone => rw [hnone]; rfl
          · next f hsome => rw [hsome]; rfl
        · rw [if_neg fun h => hitem (starAt_iff.mp (of_decide_eq_true h).1).2, star, if_neg hitem]
          rfl
      · rw [if_neg fun h => hlooks (hlook.mp h), if_neg]
        intro h
        obtain ⟨hstar, hallowed⟩ := of_decide_eq_true h
        exact hlooks ⟨(starAt_iff.mp hstar).1, hallowed⟩

theorem findings_eq (allowInExists : Bool) (ls : List Lexeme) :
    findings allowInExists ls =
      ((List.range ls.length).filter fun i =>
        StarAt ls i ∧ ¬ (allowInExists = true ∧ InExists ls i)).filterMap (findingAt ls) := by
  rw [List.range_eq_range']
  exact findingsFrom_eq allowInExists [] ls

/-! ## Violations -/

/-- A finding about a star becomes the violation of the star. -/
theorem violationAt_eq (h : i < ts.length) :
    ((findingAt (ts.map (·.toLexeme)) i).bind fun f =>
      Violation.spanning "select-star" f.message (f.tokens ts.toArray)) = violationAt ts i := by
  rw [findingAt, violationAt]
  split
  · split
    · next hname =>
        have hthree : i + 1 - (i - 2) = 3 := by
          have htwo := hname.1
          omega
        simp only [Option.bind_some, Finding.tokens, Array.toList_extract,
          List.extract_eq_take_drop, hthree]
    · rfl
  · have hone : i + 1 - i = 1 := Nat.add_sub_cancel_left i 1
    simp only [Option.bind_some, Finding.tokens, Array.toList_extract,
      List.extract_eq_take_drop, hone, List.drop_eq_getElem_cons h, List.take_succ_cons,
      List.take_zero, List.getElem?_eq_getElem h, Option.map_some]
    simp [Violation.spanning, Violation.atToken, Violation.joinTexts, String.join]

/-- Stars are reported by matched parentheses.  In every file, the violations are those of the
positions with a star that is an item of a select list, in order: behind `SELECT`, `DISTINCT`,
`ALL`, a comma, a point, or a number behind `TOP`.  A star behind a point is reported from the name
before the point on, and not at all if there is none.  If stars are allowed in `EXISTS`, those
positions are left out at which a parenthesis is open that `EXISTS` opened; whether it is open is
told by counting, and no parentheses have to match for this. -/
theorem stars_reported_by_parentheses (allowInExists : Bool) (ctx : FileContext) :
    let ts := ctx.significant
    let ls := ts.map (·.toLexeme)
    (BuiltIn.selectStar allowInExists).check ctx =
      ((List.range ts.length).filter fun i =>
        StarAt ls i ∧ ¬ (allowInExists = true ∧ InExists ls i)).filterMap (violationAt ts) := by
  intro ts ls
  have hfindings := findings_eq allowInExists ls
  rw [List.length_map] at hfindings
  rw [BuiltIn.check, BuiltIn.findings, hfindings, Finding.violations, List.filterMap_filterMap]
  refine List.filterMap_congr fun i hi => ?_
  exact violationAt_eq (List.mem_range.mp (List.mem_filter.mp hi).1)

end SqlStyle.SelectStar
