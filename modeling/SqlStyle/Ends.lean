/-! # Ends of a text

A pattern is matched from its last piece to its first. Each piece turns the ends of the text that
the pieces behind it match into the ends that it matches together with them, so the work grows with
the length of the pattern times that of the text. -/

namespace SqlStyle

variable {α : Type}

/-- Some of the ends of a text: one truth for each end, that of the whole text first and that of
the empty end last. -/
abbrev Ends := List Bool

namespace Ends

/-- The ends for which `p` holds. -/
def tabulate (p : List α → Bool) : List α → Ends
  | [] => [p []]
  | c :: cs => p (c :: cs) :: tabulate p cs

/-- Whether the whole text is among the ends. -/
def hasAll (e : Ends) : Bool := e.headD false

/-- Only the empty end. -/
def empty (cs : List α) : Ends := tabulate List.isEmpty cs

/-- The ends that begin with an admitted item and go on with a given end. -/
def step (admits : α → Bool) : List α → Ends → Ends
  | c :: cs, _ :: e => (admits c && hasAll e) :: step admits cs e
  | _, _ => [false]

/-- The ends that begin with any number of admitted items and go on with a given end. -/
def span (admits : α → Bool) : List α → Ends → Ends
  | c :: cs, b :: e =>
      let later := span admits cs e
      (b || (admits c && hasAll later)) :: later
  | _, e => e

/-- The ends with a separator in them, right behind which a given end begins. -/
def below (isSeparator : α → Bool) : List α → Ends → Ends
  | c :: cs, _ :: e =>
      let later := below isSeparator cs e
      ((isSeparator c && hasAll e) || hasAll later) :: later
  | _, _ => [false]

def union (e f : Ends) : Ends := List.zipWith (· || ·) e f

@[simp] theorem hasAll_tabulate (p : List α → Bool) (cs : List α) :
    (tabulate p cs).hasAll = p cs := by
  cases cs <;> rfl

@[simp] theorem step_tabulate (admits : α → Bool) (p : List α → Bool) (cs : List α) :
    step admits cs (tabulate p cs)
      = tabulate (fun | c :: cs => admits c && p cs | [] => false) cs := by
  induction cs with
  | nil => rfl
  | cons c cs ih => simp [step, tabulate, ih]

@[simp] theorem union_tabulate (p q : List α → Bool) (cs : List α) :
    union (tabulate p cs) (tabulate q cs) = tabulate (fun cs => p cs || q cs) cs := by
  induction cs with
  | nil => rfl
  | cons c cs ih => simpa [union, tabulate] using ih

/-- An end is in the span of others if admitted items stand between it and one of them. -/
theorem hasAll_span_tabulate (admits : α → Bool) (p : List α → Bool) (cs : List α) :
    (span admits cs (tabulate p cs)).hasAll = true
      ↔ ∃ as bs, cs = as ++ bs ∧ as.all admits = true ∧ p bs = true := by
  induction cs with
  | nil =>
      constructor
      · intro h
        exact ⟨[], [], rfl, rfl, h⟩
      · rintro ⟨as, bs, h, -, hp⟩
        obtain ⟨rfl, rfl⟩ := List.append_eq_nil_iff.1 h.symm
        exact hp
  | cons c cs ih =>
      simp only [span, tabulate, hasAll, List.headD_cons, Bool.or_eq_true, Bool.and_eq_true] at ih ⊢
      rw [ih]
      constructor
      · rintro (h | ⟨hc, as, bs, rfl, has, hp⟩)
        · exact ⟨[], c :: cs, rfl, rfl, h⟩
        · exact ⟨c :: as, bs, rfl, by simp [hc, has], hp⟩
      · rintro ⟨as, bs, h, has, hp⟩
        cases as with
        | nil => exact .inl (by rwa [show c :: cs = bs from h])
        | cons a as =>
            obtain ⟨rfl, rfl⟩ := List.cons.inj h
            obtain ⟨ha, has⟩ := Bool.and_eq_true_iff.1 has
            exact .inr ⟨ha, as, bs, rfl, has, hp⟩

/-- An end lies below others if a separator stands right before one of them in it. -/
theorem hasAll_below_tabulate (isSeparator : α → Bool) (p : List α → Bool) (cs : List α) :
    (below isSeparator cs (tabulate p cs)).hasAll = true
      ↔ ∃ as s bs, cs = as ++ s :: bs ∧ isSeparator s = true ∧ p bs = true := by
  induction cs with
  | nil => simp [below, hasAll]
  | cons c cs ih =>
      have head := hasAll_tabulate p cs
      simp only [below, tabulate, hasAll, List.headD_cons, Bool.or_eq_true,
        Bool.and_eq_true] at ih head ⊢
      rw [ih, head]
      constructor
      · rintro (⟨hs, hp⟩ | ⟨as, s, bs, rfl, hs, hp⟩)
        · exact ⟨[], c, cs, rfl, hs, hp⟩
        · exact ⟨c :: as, s, bs, rfl, hs, hp⟩
      · rintro ⟨as, s, bs, h, hs, hp⟩
        cases as with
        | nil =>
            obtain ⟨rfl, rfl⟩ := List.cons.inj h
            exact .inl ⟨hs, hp⟩
        | cons a as =>
            obtain ⟨rfl, rfl⟩ := List.cons.inj h
            exact .inr ⟨as, s, bs, rfl, hs, hp⟩

end Ends

end SqlStyle
