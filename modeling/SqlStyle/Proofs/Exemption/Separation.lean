import SqlStyle.Proofs.Exemption.Scan

/-!
# Keys do not interfere

What a comment says about one key leaves the ranges of every other key alone.  So two files that
agree token by token on their places, and on what they say about a key, have the same ranges of
this key, whatever else they switch off and on.  In particular the ranges of a key are those of
the file in which all comments about other keys have fallen silent.
-/

namespace SqlStyle

namespace Token

/-- The tokens stand at the same offsets, and say the same about a key. -/
structure AlikeFor (k : Key) (t u : Token) : Prop where
  startChar_eq : t.startChar = u.startChar
  stopChar_eq : t.stopChar = u.stopChar
  directs_iff : ∀ a, t.Directs a k ↔ u.Directs a k

/-- The token `u` is `t`, unless `t` is a comment that directs a key other than `k`; then it has
another text, which is no directive, in the same place. -/
inductive Silenced (k : Key) : Token → Token → Prop
  | other {t : Token} {a : Action} {k' : Key} {text : String} (directs : t.Directs a k')
      (ne : k' ≠ k) (silent : Directive.parse text = none) : Silenced k t (t.retext text)
  | same {t : Token} (only : ∀ a k', t.Directs a k' → k' = k) : Silenced k t t

theorem AlikeFor.refl (k : Key) (t : Token) : AlikeFor k t t := ⟨rfl, rfl, fun _ => Iff.rfl⟩

/-- A comment about one key says nothing about another, and neither does one without a
directive. -/
theorem alikeFor_retext {t : Token} {a : Action} {k k' : Key} {text : String}
    (hd : t.Directs a k') (hne : k' ≠ k) (h : Directive.parse text = none) :
    AlikeFor k t (t.retext text) where
  startChar_eq := rfl
  stopChar_eq := rfl
  directs_iff a' := by
    have hnot : ¬ (t.retext text).Directs a' k := not_directs_of_parse h
    exact iff_of_false (fun hd' => hne (hd.key_eq hd')) hnot

namespace Silenced

variable {k : Key} {t u : Token}

theorem alikeFor (h : Silenced k t u) : AlikeFor k t u := by
  cases h with
  | other hd hne hnone => exact alikeFor_retext hd hne hnone
  | same _ => exact .refl k t

theorem key_eq (h : Silenced k t u) {a : Action} {k' : Key} (hd : u.Directs a k') : k' = k := by
  cases h with
  | other _ _ hnone => exact absurd hd (not_directs_of_parse hnone)
  | same honly => exact honly a k' hd

/-- Where all comments about other keys are silent, directives are about one key. -/
theorem forall_key_eq {ts us : List Token} (h : List.Forall₂ (Silenced k) ts us) :
    ∀ u ∈ us, ∀ a k', u.Directs a k' → k' = k := by
  induction h with
  | nil => exact List.forall_mem_nil _
  | cons htu _ ih => exact List.forall_mem_cons.mpr ⟨fun _ _ => htu.key_eq, ih⟩

end Silenced

end Token

namespace Exemption

open Token (AlikeFor Silenced lastChar?)

variable {k : Key} {ts us : List Token}

/-! ## Two files that agree on a key -/

theorem lastChar?_eq_of_alikeFor (h : List.Forall₂ (AlikeFor k) ts us) :
    lastChar? ts = lastChar? us := by
  have hstops : ts.map (·.stopChar) = us.map (·.stopChar) := by
    induction h with
    | nil => rfl
    | cons htu _ ih => rw [List.map_cons, List.map_cons, htu.stopChar_eq, ih]
  rw [lastChar?, lastChar?, hstops]

/-- Scans of files that agree on a key know the same of it.  The induction takes tokens off the
ends of the files, where what one more token does is known. -/
theorem Scan.after_reverse_eq_of_alikeFor (h : List.Forall₂ (AlikeFor k) ts us) :
    (after ts.reverse).since k = (after us.reverse).since k ∧
      (after ts.reverse).closedOf k = (after us.reverse).closedOf k := by
  induction h with
  | nil => exact ⟨rfl, rfl⟩
  | @cons t u ts us htu _ ih =>
      obtain ⟨hsince, hclosed⟩ := ih
      rw [List.reverse_cons, List.reverse_cons]
      rcases directs_cases t k with hd | he | hn
      · rw [after_concat_of_directs hd, after_concat_of_directs ((htu.directs_iff _).mp hd),
          since_apply_disable, since_apply_disable, closedOf_apply_disable,
          closedOf_apply_disable, hsince, htu.startChar_eq]
        exact ⟨rfl, hclosed⟩
      · rw [after_concat_of_directs he, after_concat_of_directs ((htu.directs_iff _).mp he),
          since_apply_enable, since_apply_enable, closedOf_apply_enable, closedOf_apply_enable,
          hsince, hclosed, htu.stopChar_eq]
        exact ⟨rfl, rfl⟩
      · have hn' : ∀ a, ¬ u.Directs a k := fun a hu => hn a ((htu.directs_iff a).mpr hu)
        obtain ⟨hst, hct⟩ := after_concat_of_not_directs ts.reverse hn
        obtain ⟨hsu, hcu⟩ := after_concat_of_not_directs us.reverse hn'
        exact ⟨hst.trans (hsince.trans hsu.symm), hct.trans (hclosed.trans hcu.symm)⟩

/-- Files that agree on a key have the same ranges of this key, in the same order. -/
theorem filter_key_scan_eq_of_alikeFor (h : List.Forall₂ (AlikeFor k) ts us) :
    (scan ts).filter (·.key == k) = (scan us).filter (·.key == k) := by
  have hscan := Scan.after_reverse_eq_of_alikeFor (List.forall₂_reverse_iff.mpr h)
  rw [List.reverse_reverse, List.reverse_reverse] at hscan
  rw [scan_eq_finish, scan_eq_finish, Scan.filter_key_finish (Scan.nodup_keys_after ts),
    Scan.filter_key_finish (Scan.nodup_keys_after us), hscan.1, hscan.2,
    lastChar?_eq_of_alikeFor h]

/-! ## Silence about other keys -/

/-- Ranges come from directives, so a file whose directives are all about one key has ranges of
no other. -/
theorem filter_key_scan_eq_self (h : ∀ u ∈ us, ∀ a k', u.Directs a k' → k' = k) :
    (scan us).filter (·.key == k) = scan us := by
  rw [List.filter_eq_self]
  intro x hx
  obtain ⟨d, hd, hdir, -⟩ := exists_directs_of_mem_scan hx
  rw [h d hd .disable x.key hdir]
  exact beq_self_eq_true k

/-- Keys do not interfere, for tokens in any order.  The ranges of a key are, as a list, those of
the file in which every comment that directs another key has been given a text without a
directive.  And a comment that switches one key on does nothing to the ranges of another: with or
without it, whatever stands around it, they are the same. -/
theorem scan_keys_apart (k : Key) :
    (∀ ts us, List.Forall₂ (Silenced k) ts us →
      (scan ts).filter (·.key == k) = scan us) ∧
    (∀ before after e k' text, e.Directs .enable k' → k' ≠ k → Directive.parse text = none →
      (scan (before ++ e :: after)).filter (·.key == k) =
        (scan (before ++ e.retext text :: after)).filter (·.key == k)) := by
  constructor
  · intro ts us h
    have halike : List.Forall₂ (AlikeFor k) ts us := h.imp fun _ _ => Silenced.alikeFor
    rw [filter_key_scan_eq_of_alikeFor halike, filter_key_scan_eq_self (Silenced.forall_key_eq h)]
  · intro before after e k' text he hne hnone
    have hsame (ts : List Token) : List.Forall₂ (AlikeFor k) ts ts :=
      List.forall₂_same.mpr fun t _ => .refl k t
    refine filter_key_scan_eq_of_alikeFor (List.rel_append (hsame before) ?_)
    exact .cons (Token.alikeFor_retext he hne hnone) (hsame after)

/-- A rule that is switched off stays so behind comments about all rules, and behind them a
comment of its own closes its range. -/
theorem range_behind_directives_for_all :
    let off : Token := .place ⟨.blockComment, "/* tsqllint-disable b */"⟩ 0 1 0
    let all : Token := .place ⟨.blockComment, "/* tsqllint-disable */"⟩ 24 1 24
    let back : Token := .place ⟨.blockComment, "/* tsqllint-enable */"⟩ 46 1 46
    let on : Token := .place ⟨.blockComment, "/* tsqllint-enable B */"⟩ 67 1 67
    let note := "/* nothing */"
    back.Directs .enable none ∧ Directive.parse note = none ∧
      List.Forall₂ (Silenced (some "B")) [off, all, back, on]
        [off, all.retext note, back.retext note, on] ∧
      (scan [off, all, back, on]).filter (·.key == some "B") = [⟨some "B", 0, 89⟩] ∧
      (scan [off, all, back.retext note, on]).filter (·.key == some "B") =
        [⟨some "B", 0, 89⟩] := by
  intro off all back on note
  have hall : all.Directs .disable none := by decide
  have hback : back.Directs .enable none := by decide
  have hnote : Directive.parse note = none := by decide
  have hoff : off.Directs .disable (some "B") := by decide
  have hon : on.Directs .enable (some "B") := by decide
  have hsilenced : List.Forall₂ (Silenced (some "B")) [off, all, back, on]
      [off, all.retext note, back.retext note, on] :=
    .cons (.same fun _ _ h => h.key_eq hoff) (.cons (.other hall nofun hnote)
      (.cons (.other hback nofun hnote) (.cons (.same fun _ _ h => h.key_eq hon) .nil)))
  have hscan : scan [off, all.retext note, back.retext note, on] = [⟨some "B", 0, 89⟩] := by cbv
  obtain ⟨hsame, hclose⟩ := scan_keys_apart (some "B")
  have hranges := (hsame _ _ hsilenced).trans hscan
  have hwithout := hclose [off, all] [on] back none note hback nofun hnote
  exact ⟨hback, hnote, hsilenced, hranges, hwithout.symm.trans hranges⟩

end Exemption

end SqlStyle
