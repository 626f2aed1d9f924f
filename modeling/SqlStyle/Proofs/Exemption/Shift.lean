import SqlStyle.Proofs.Exemption.Scan

/-!
# Ranges of a file under a header

White space and comments without directives are put before a file, and the file moves on by a
number of characters and lines.  A scan looks at offsets only to keep them, and at the end of the
file to take the greatest; the header lies before all of them.  So the ranges move on as well, and
nothing else happens to them.
-/

namespace SqlStyle

/-! ## Tokens -/

namespace Token

/-- The token further on in a file, by characters and by lines. -/
def shift (k m : Nat) (t : Token) : Token :=
  { t with startChar := t.startChar + k, stopChar := t.stopChar + k, line := t.line + m }

@[simp] theorem shift_toLexeme (k m : Nat) (t : Token) :
    (t.shift k m).toLexeme = t.toLexeme := rfl

@[simp] theorem shift_startChar (k m : Nat) (t : Token) :
    (t.shift k m).startChar = t.startChar + k := rfl

@[simp] theorem shift_stopChar (k m : Nat) (t : Token) :
    (t.shift k m).stopChar = t.stopChar + k := rfl

/-- White space, or a comment without a directive. -/
def Idle (t : Token) : Prop :=
  t.channel = .hidden ∨ (t.isComment = true ∧ Directive.parse t.text = none)

instance (t : Token) : Decidable t.Idle :=
  inferInstanceAs (Decidable (t.channel = .hidden ∨ _))

variable {header ts : List Token} {t : Token}

theorem Idle.isSignificant_eq (h : t.Idle) : t.isSignificant = false := by
  rw [isSignificant]
  rcases h with h | ⟨h, -⟩
  · rw [h]
    rfl
  · rw [eq_of_beq h]
    rfl

theorem Idle.not_directs (h : t.Idle) (a : Action) (key : Key) : ¬ t.Directs a key := by
  rcases h with h | ⟨-, h⟩
  · rintro ⟨hc, -⟩
    rw [isComment, h] at hc
    cases hc
  · exact not_directs_of_parse h

/-- Rules see of the whole what they see of the file, further on. -/
theorem significant_header (h : ∀ t ∈ header, t.Idle) (k m : Nat) :
    significant (header ++ ts.map (·.shift k m)) = (significant ts).map (·.shift k m) := by
  have hnil : significant header = [] := by
    rw [significant, List.filter_eq_nil_iff]
    intro t ht
    rw [(h t ht).isSignificant_eq]
    exact Bool.false_ne_true
  rw [significant, List.filter_append, List.filter_map]
  exact congrArg (· ++ _) hnil

/-- A header that ends before the file begins does not end it. -/
theorem lastChar?_header {k n : Nat} (h : ∀ t ∈ header, t.stopChar < k)
    (hlast : lastChar? ts = some n) (m : Nat) :
    lastChar? (header ++ ts.map (·.shift k m)) = some (n + k) := by
  obtain ⟨hmem, hle⟩ := List.max?_eq_some_iff.mp hlast
  obtain ⟨t, ht, rfl⟩ := List.mem_map.mp hmem
  rw [lastChar?, List.max?_eq_some_iff, List.map_append, List.map_map]
  constructor
  · exact List.mem_append_right _ (List.mem_map_of_mem (f := stopChar ∘ shift k m) ht)
  · intro o ho
    rcases List.mem_append.mp ho with ho | ho
    · obtain ⟨u, hu, rfl⟩ := List.mem_map.mp ho
      have hlt := h u hu
      omega
    · obtain ⟨u, hu, rfl⟩ := List.mem_map.mp ho
      exact Nat.add_le_add_right (hle u.stopChar (List.mem_map_of_mem hu)) k

end Token

namespace Exemption

open Token (lastChar?)

/-! ## Ranges -/

/-- The range further on in a file. -/
def shift (k : Nat) (x : Exemption) : Exemption :=
  { x with startChar := x.startChar + k, stopChar := x.stopChar + k }

theorem covers_shift (k : Nat) (x : Exemption) (rule : String) (o : Nat) :
    (x.shift k).covers rule (o + k) = x.covers rule o := by
  simp only [covers, shift, Nat.add_le_add_iff_right]

/-- Ranges that have moved on exempt what has moved on with them. -/
theorem exempt_shift {xs : List Exemption} {k : Nat} {rule : String} {o : Nat} :
    Exempt (xs.map (·.shift k)) rule (o + k) ↔ Exempt xs rule o := by
  constructor
  · rintro ⟨y, hy, hcovers⟩
    obtain ⟨x, hx, rfl⟩ := List.mem_map.mp hy
    exact ⟨x, hx, covers_shift k x rule o ▸ hcovers⟩
  · rintro ⟨x, hx, hcovers⟩
    exact ⟨x.shift k, List.mem_map_of_mem hx, (covers_shift k x rule o).trans hcovers⟩

/-! ## Scans -/

namespace Scan

/-- The scan of a file that has moved on. -/
def shift (k : Nat) (s : Scan) : Scan where
  isOpen := s.isOpen.map fun p => (p.1, p.2 + k)
  closed := s.closed.map (·.shift k)

theorem lookup_shift (xs : Open) (k : Nat) (key : Key) :
    (xs.map fun p => (p.1, p.2 + k)).lookup key = (xs.lookup key).map (· + k) := by
  induction xs with
  | nil => rfl
  | cons x xs ih =>
      rw [List.map_cons, List.lookup_cons, List.lookup_cons, ih]
      split <;> rfl

/-- A directive does to a scan that has moved on what it does to the scan. -/
theorem apply_shift (k m : Nat) (s : Scan) (t : Token) (d : Directive) :
    (s.shift k).apply (t.shift k m) d = (s.apply t d).shift k := by
  simp only [apply, shift, lookup_shift]
  cases d.action with
  | disable =>
      cases s.isOpen.lookup d.key with
      | none => simp
      | some since => rfl
  | enable =>
      cases s.isOpen.lookup d.key with
      | none => rfl
      | some since =>
          simp [List.filter_map, Function.comp_def, Exemption.shift]

theorem step_shift (k m : Nat) (s : Scan) (t : Token) :
    (s.shift k).step (t.shift k m) = (s.step t).shift k := by
  rw [step, step, Token.shift_toLexeme]
  cases Directive.parse t.text with
  | none => rfl
  | some d => exact apply_shift k m s t d

/-- A header leaves a scan at its start. -/
theorem after_header {header : List Token} (h : ∀ t ∈ header, t.Idle) : after header = start := by
  induction header using List.reverseRecOn with
  | nil => rfl
  | append_singleton header t ih =>
      have ht : t.Idle := h t (List.mem_append_right _ List.mem_cons_self)
      rw [after_concat_of_no_directive ht.not_directs]
      exact ih fun u hu => h u (List.mem_append_left _ hu)

/-- Over a file under a header, a scan goes as over the file, further on. -/
theorem after_header_append {header : List Token} (h : ∀ t ∈ header, t.Idle) (ts : List Token)
    (k m : Nat) : after (header ++ ts.map (·.shift k m)) = (after ts).shift k := by
  have hstart : after header = start.shift k := after_header h
  have hcomments : Token.comments (ts.map (·.shift k m)) =
      (Token.comments ts).map (·.shift k m) := List.filter_map
  rw [after_append, hstart, hcomments, List.foldl_map]
  exact List.foldl_hom (shift k) (step_shift k m)

theorem finish_start (last : Nat) : start.finish last = [] := by
  rw [finish, start, List.mergeSort_nil]
  rfl

/-- What is open at the end moves on with the end. -/
theorem finish_shift (k : Nat) (s : Scan) (last : Nat) :
    (s.shift k).finish (last + k) = (s.finish last).map (·.shift k) := by
  have hsort : (s.shift k).isOpen.mergeSort (fun a b => keyLe a.1 b.1) =
      (s.isOpen.mergeSort fun a b => keyLe a.1 b.1).map fun p => (p.1, p.2 + k) := by
    symm
    exact List.map_mergeSort fun _ _ _ _ => rfl
  rw [finish, finish, hsort, List.map_append, List.map_map, List.map_map]
  refine congrArg ((s.shift k).closed ++ ·) (List.map_congr_left ?_)
  rintro ⟨key, since⟩ -
  simp only [Function.comp, Exemption.shift, Nat.add_max_add_right]

end Scan

/-- The ranges of a file under a header are those of the file, further on. -/
theorem scan_header {header : List Token} {k : Nat} (h : ∀ t ∈ header, t.Idle ∧ t.stopChar < k)
    (ts : List Token) (m : Nat) :
    scan (header ++ ts.map (·.shift k m)) = (scan ts).map (·.shift k) := by
  rw [scan_eq_finish, scan_eq_finish,
    Scan.after_header_append (fun t ht => (h t ht).1)]
  cases hlast : lastChar? ts with
  | none =>
      -- a file without tokens has nothing open, wherever it ends
      have hstart : Scan.after ts = .start := by
        rw [Token.lastChar?_eq_none_iff.mp hlast]
        rfl
      rw [hstart, Scan.finish_start]
      exact Scan.finish_start _
  | some n =>
      rw [Token.lastChar?_header (fun t ht => (h t ht).2) hlast]
      exact Scan.finish_shift k (Scan.after ts) n

end Exemption

end SqlStyle
