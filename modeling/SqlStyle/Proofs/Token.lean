import SqlStyle.Token
import Mathlib.Data.List.Chain
import Mathlib.Order.Defs.LinearOrder

/-!
# Tokens in the order of their text

The tokens of a script cover one stretch of text after the other.  Nothing is asked about gaps
between them, so what is left after dropping tokens is still in order.
-/

namespace SqlStyle.Token

/-- Each token ends where it starts or behind, and before the next one starts. -/
structure InOrder (ts : List Token) : Prop where
  start_le_stop : ∀ t ∈ ts, t.startChar ≤ t.stopChar
  stop_lt_next : ts.IsChain fun a b => a.stopChar < b.startChar

namespace InOrder

/-- In order, a token ends before every later one starts, not only before the next. -/
theorem pairwise {ts : List Token} (h : InOrder ts) :
    ts.Pairwise fun a b => a.stopChar < b.startChar := by
  obtain ⟨hle, hchain⟩ := h
  induction ts with
  | nil => exact .nil
  | cons a ts ih =>
      have htail := ih (fun t ht => hle t (List.mem_cons_of_mem a ht)) hchain.tail
      refine List.pairwise_cons.mpr ⟨?_, htail⟩
      intro c hc
      cases ts with
      | nil => cases hc
      | cons b ts =>
          have hab : a.stopChar < b.startChar := (List.isChain_cons_cons.mp hchain).1
          have hb : b.startChar ≤ b.stopChar :=
            hle b (List.mem_cons_of_mem a List.mem_cons_self)
          rcases List.mem_cons.mp hc with rfl | hc
          · exact hab
          · have hbc := (List.pairwise_cons.mp htail).1 c hc
            omega

/-- What is left after dropping tokens is still in order. -/
theorem sublist {ts us : List Token} (h : InOrder us) (hsub : ts.Sublist us) : InOrder ts :=
  ⟨fun t ht => h.start_le_stop t (hsub.subset ht), (h.pairwise.sublist hsub).isChain⟩

theorem left {ts us : List Token} (h : InOrder (ts ++ us)) : InOrder ts :=
  ⟨fun t ht => h.start_le_stop t (List.mem_append_left us ht), h.stop_lt_next.left_of_append⟩

/-- Every token before the last one ends before it. -/
theorem stop_lt_last {ts : List Token} {t : Token} (h : InOrder (ts ++ [t])) {a : Token}
    (ha : a ∈ ts) : a.stopChar < t.startChar :=
  (List.pairwise_append.mp h.pairwise).2.2 a ha t List.mem_cons_self

end InOrder

/-! ## The end of a file -/

theorem stop_le_of_lastChar? {ts : List Token} {n : Nat} (h : lastChar? ts = some n) {t : Token}
    (ht : t ∈ ts) : t.stopChar ≤ n :=
  (List.max?_eq_some_iff.mp h).2 t.stopChar (List.mem_map_of_mem ht)

theorem lastChar?_eq_none_iff {ts : List Token} : lastChar? ts = none ↔ ts = [] := by
  rw [lastChar?, List.max?_eq_none_iff, List.map_eq_nil_iff]

/-- A file with a token has a last character. -/
theorem exists_lastChar?_of_mem {ts : List Token} {t : Token} (ht : t ∈ ts) :
    ∃ n, lastChar? ts = some n := by
  rw [← Option.isSome_iff_exists, Option.isSome_iff_ne_none]
  intro h
  rw [lastChar?_eq_none_iff.mp h] at ht
  cases ht

/-! ## Another text in the same place -/

/-- The token with another text; its kind, channel and place stay. -/
def retext (t : Token) (text : String) : Token := { t with text := text }

@[simp] theorem retext_startChar (t : Token) (text : String) :
    (t.retext text).startChar = t.startChar := rfl

@[simp] theorem retext_stopChar (t : Token) (text : String) :
    (t.retext text).stopChar = t.stopChar := rfl

theorem lastChar?_retext (before after : List Token) (t : Token) (text : String) :
    lastChar? (before ++ t.retext text :: after) = lastChar? (before ++ t :: after) := by
  simp [lastChar?]

/-- The order of tokens is a matter of their places. -/
theorem InOrder.retext {before after : List Token} {t : Token} (h : InOrder (before ++ t :: after))
    (text : String) : InOrder (before ++ t.retext text :: after) := by
  obtain ⟨hle, hchain⟩ := h
  constructor
  · intro u hu
    rcases List.mem_append.mp hu with hu | hu
    · exact hle u (List.mem_append_left _ hu)
    · rcases List.mem_cons.mp hu with rfl | hu
      · exact hle t (List.mem_append_right _ List.mem_cons_self)
      · exact hle u (List.mem_append_right _ (List.mem_cons_of_mem _ hu))
  · let span (t : Token) : Nat × Nat := (t.startChar, t.stopChar)
    have hspans : (before ++ t.retext text :: after).map span =
        (before ++ t :: after).map span := by
      simp [span]
    have hiff (ts : List Token) : (ts.IsChain fun a b => a.stopChar < b.startChar) ↔
        (ts.map span).IsChain fun p q => p.2 < q.1 := by
      rw [List.isChain_map]
    rw [hiff, hspans, ← hiff]
    exact hchain

/-- Rules do not see the texts of comments. -/
theorem significant_retext {t : Token} (h : t.isComment = true) (before after : List Token)
    (text : String) :
    significant (before ++ t.retext text :: after) = significant (before ++ t :: after) := by
  have hchannel : t.channel = .comment := eq_of_beq h
  have hold : t.isSignificant = false := by
    rw [isSignificant, hchannel]
    rfl
  have hnew : (t.retext text).isSignificant = false := hold
  rw [significant, significant, List.filter_append, List.filter_append,
    List.filter_cons_of_neg (by simp [hnew]), List.filter_cons_of_neg (by simp [hold])]

end SqlStyle.Token
