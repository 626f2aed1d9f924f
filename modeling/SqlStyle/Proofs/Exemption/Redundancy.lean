import SqlStyle.Proofs.Exemption.Scan

/-!
# Directives that change nothing

Of the comments it has read, a scan remembers for each key whether it is off, and since when.  It is
off from a comment that switches it off until one that switches it on, whatever is said about other
keys in between, and on before and behind.  So a comment that switches a key off where it is off
already, or on where it is on, leaves the scan as it is, and then also all that follows.  Nothing is
asked about the offsets of the tokens.
-/

namespace SqlStyle.Exemption

variable {k : Key} {ts us before rest : List Token} {t : Token} {n : Nat}

/-- The directive of a comment is redundant behind some tokens: it switches a key off that an
earlier comment has switched off, and no comment between the two has switched on; or it switches a
key on that no comment has switched off, since the start or since an earlier comment that has
switched it on. -/
inductive Redundant (k : Key) : List Token → Token → Prop
  | offAgain {front between : List Token} {d t : Token} (off : d.Directs .disable k)
      (stays : ∀ e ∈ between, ¬ e.Directs .enable k) (again : t.Directs .disable k) :
      Redundant k (front ++ d :: between) t
  | onAgain {front between : List Token} {e t : Token} (on : e.Directs .enable k)
      (stays : ∀ d ∈ between, ¬ d.Directs .disable k) (again : t.Directs .enable k) :
      Redundant k (front ++ e :: between) t
  | neverOff {before : List Token} {t : Token} (stays : ∀ d ∈ before, ¬ d.Directs .disable k)
      (again : t.Directs .enable k) : Redundant k before t

namespace Scan

/-! ## What is remembered of a key -/

/-- A key that is off stays off, since the same offset, until it is switched on. -/
theorem since_append_of_not_enable (h : (after ts).since k = some n)
    (hus : ∀ e ∈ us, ¬ e.Directs .enable k) : (after (ts ++ us)).since k = some n := by
  induction us using List.reverseRecOn with
  | nil => rwa [List.append_nil]
  | append_singleton us t ih =>
      have hsince := ih fun e he => hus e (List.mem_append_left [t] he)
      rw [← List.append_assoc]
      rcases directs_cases t k with hd | he | hn
      · rw [after_concat_of_directs hd, since_apply_disable, hsince]
        rfl
      · exact absurd he (hus t (List.mem_append_right us List.mem_cons_self))
      · rw [(after_concat_of_not_directs (ts ++ us) hn).1, hsince]

/-- A key that is on stays on until it is switched off. -/
theorem since_append_of_not_disable (h : (after ts).since k = none)
    (hus : ∀ d ∈ us, ¬ d.Directs .disable k) : (after (ts ++ us)).since k = none := by
  induction us using List.reverseRecOn with
  | nil => rwa [List.append_nil]
  | append_singleton us t ih =>
      have hsince := ih fun d hd => hus d (List.mem_append_left [t] hd)
      rw [← List.append_assoc]
      rcases directs_cases t k with hd | he | hn
      · exact absurd hd (hus t (List.mem_append_right us List.mem_cons_self))
      · rw [after_concat_of_directs he, since_apply_enable]
      · rw [(after_concat_of_not_directs (ts ++ us) hn).1, hsince]

/-! ## One redundant directive -/

theorem apply_disable_of_off {s : Scan} (h : s.since k = some n) (t : Token) :
    s.apply t ⟨.disable, k⟩ = s := by
  have hlookup : s.isOpen.lookup k = some n := h
  simp only [apply, hlookup]

theorem apply_enable_of_on {s : Scan} (h : s.since k = none) (t : Token) :
    s.apply t ⟨.enable, k⟩ = s := by
  have hlookup : s.isOpen.lookup k = none := h
  simp only [apply, hlookup]

/-- A redundant directive leaves the scan as it is. -/
theorem after_concat_of_redundant (h : Redundant k before t) :
    after (before ++ [t]) = after before := by
  cases h with
  | @offAgain front between d _ off stays again =>
      have hoff : (after (front ++ [d])).since k =
          some (((after front).since k).getD d.startChar) := by
        rw [after_concat_of_directs off, since_apply_disable]
      have hsince := since_append_of_not_enable hoff stays
      rw [List.append_assoc, List.singleton_append] at hsince
      rw [after_concat_of_directs again, apply_disable_of_off hsince]
  | @onAgain front between e _ on stays again =>
      have hon : (after (front ++ [e])).since k = none := by
        rw [after_concat_of_directs on, since_apply_enable]
      have hsince := since_append_of_not_disable hon stays
      rw [List.append_assoc, List.singleton_append] at hsince
      rw [after_concat_of_directs again, apply_enable_of_on hsince]
  | neverOff stays again =>
      have hstart : (after []).since k = none := rfl
      have hsince : (after before).since k = none := since_append_of_not_disable hstart stays
      rw [after_concat_of_directs again, apply_enable_of_on hsince]

/-- Where scans have come to the same, they go on to the same. -/
theorem after_append_congr {ts' : List Token} (h : after ts = after ts') (us : List Token) :
    after (ts ++ us) = after (ts' ++ us) := by
  rw [after_append, after_append, h]

end Scan

/-- Redundant directives are inert, for tokens in any order.  A comment that switches a key off
again, or on again, or on where it has never been off, may be given any text without a directive:
the ranges of the file stay the same, as a list. -/
theorem redundant_directive_is_inert (k : Key) (before rest : List Token) (t : Token)
    (h : Redundant k before t) (text : String) (hsilent : Directive.parse text = none) :
    scan (before ++ t.retext text :: rest) = scan (before ++ t :: rest) := by
  have hsilenced : Scan.after (before ++ [t.retext text]) = Scan.after before :=
    Scan.after_concat_of_no_directive fun a k => Token.not_directs_of_parse hsilent
  have hafter : Scan.after (before ++ t.retext text :: rest) = Scan.after (before ++ t :: rest) := by
    rw [List.append_cons, List.append_cons before t rest]
    exact Scan.after_append_congr (hsilenced.trans (Scan.after_concat_of_redundant h).symm) rest
  rw [scan_eq_finish, scan_eq_finish, hafter, Token.lastChar?_retext]

/-- A rule is switched off twice, and the comment between the two that switches all rules on does
not count. -/
theorem range_without_second_disable :
    let off : Token := .place ⟨.blockComment, "/* tsqllint-disable b */"⟩ 0 1 0
    let back : Token := .place ⟨.blockComment, "/* tsqllint-enable */"⟩ 24 1 24
    let again : Token := .place ⟨.blockComment, "/* tsqllint-disable B */"⟩ 45 1 45
    let on : Token := .place ⟨.blockComment, "/* tsqllint-enable B */"⟩ 69 1 69
    let note := "/* nothing */"
    Redundant (some "B") [off, back] again ∧ Redundant none [off] back ∧
      Directive.parse note = none ∧
      scan [off, back, again.retext note, on] = [⟨some "B", 0, 91⟩] ∧
      scan [off, back.retext note, again, on] = [⟨some "B", 0, 91⟩] := by
  intro off back again on note
  have hoff : off.Directs .disable (some "B") := by decide
  have hback : back.Directs .enable none := by decide
  have hnote : Directive.parse note = none := by decide
  have hagain : again.Directs .disable (some "B") := by decide
  have hredundant : Redundant (some "B") [off, back] again :=
    @Redundant.offAgain _ [] [back] _ _ hoff (by decide) hagain
  have hdangling : Redundant none [off] back := .neverOff (by decide) hback
  have hscan : scan [off, back, again, on] = [⟨some "B", 0, 91⟩] := by cbv
  exact ⟨hredundant, hdangling, hnote,
    (redundant_directive_is_inert _ [off, back] [on] again hredundant note hnote).trans hscan,
    (redundant_directive_is_inert _ [off] [again, on] back hdangling note hnote).trans hscan⟩

end SqlStyle.Exemption
