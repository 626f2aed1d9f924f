import SqlStyle.Proofs.Project.Run
import SqlStyle.Proofs.RuleSet

/-!
# Rules that are asked for by name

A rule can be taken from the rules of a configuration or asked for by its name.  A rule that is
asked for is made from its table and the defaults; the preset has no say in it.  So the two agree
unless the rule has its options from the preset and these are not the defaults.  Only the strict
preset sets options of its own, for two rules, and a table that holds any option overrides them.
-/

namespace SqlStyle

/-! ## Rules with default options -/

namespace BuiltIn

variable {table : RuleConfig} {b : BuiltIn}

/-- A table without options gives a rule its defaults. -/
theorem configured_of_no_options (h : table.options = []) (b : BuiltIn) :
    b.configured table = b.configured {} := by
  cases b <;> simp [configured, casingOf, RuleConfig.boolean, RuleConfig.string, h]

/-- An exception for `EXISTS` shows in some file. -/
theorem check_selectStar_ne :
    ∃ ctx, (selectStar true).check ctx ≠ (selectStar false).check ctx :=
  ⟨.anonymous [.place ⟨.word, "EXISTS"⟩ 0 1 0, .place ⟨.symbol, "("⟩ 6 1 6,
    .place ⟨.word, "SELECT"⟩ 7 1 7, .place ⟨.symbol, "*"⟩ 13 1 13], by decide +kernel⟩

/-- An exception for test scripts shows in some file. -/
theorem check_printStatement_ne :
    ∃ ctx, (printStatement true).check ctx ≠ (printStatement false).check ctx :=
  ⟨⟨"tests/a.sql", [.place ⟨.word, "PRINT"⟩ 0 1 0]⟩, by decide +kernel⟩

end BuiltIn

namespace RuleSet

open BuiltIn (selectStar printStatement)

variable {c : Config} {preset : Preset} {bs : List BuiltIn} {b d : BuiltIn}

/-- The options of a preset's rules are the defaults, two rules of the strict one apart. -/
theorem configured_default_of_mem (hd : d ∈ preset.rules) :
    d.configured {} = d ∨
      preset = .strict ∧ (d = selectStar false ∨ d = printStatement false) := by
  revert d
  cases preset <;> decide

/-- The rule of a name is made from its table, or from the defaults if there is none. -/
theorem select_name (c : Config) (b : BuiltIn) :
    select [b.name] c = [b.configured ((c.rules.lookup b.name).getD {})] := by
  rw [select, List.filterMap_cons, BuiltIn.ofName?_name, List.filterMap_nil]

/-- The rules of a configuration come from its preset or from tables that add them. -/
theorem mem_of_resolve (h : resolve c = .ok bs) (hb : b ∈ bs) :
    ∃ preset, presetOf c = .ok preset ∧
      ((∃ d ∈ preset.rules, refine c d = b) ∨ b ∈ added c preset) := by
  rw [resolve_eq] at h
  obtain ⟨preset, hpreset, rfl⟩ := map_eq_ok_iff.mp h
  rcases List.mem_append.mp hb with hb | hb
  · exact ⟨preset, hpreset, .inl (List.mem_map.mp hb)⟩
  · exact ⟨preset, hpreset, .inr hb⟩

/-! ## Tables without options -/

/-- No table sets an option of the rule. -/
def NoOptions (c : Config) (rule : String) : Prop :=
  ∀ table, c.rules.lookup rule = some table → table.options = []

theorem refine_of_noOptions (h : NoOptions c d.name) : refine c d = d := by
  rw [refine]
  split
  · next table htable =>
      rw [h table htable]
      rfl
  · rfl

/-- A table with options makes a rule of the preset anew. -/
theorem refine_of_options (h : ¬ NoOptions c d.name) :
    refine c d = d.configured ((c.rules.lookup d.name).getD {}) := by
  rw [refine]
  split
  · next table htable =>
      rw [htable, Option.getD_some, if_neg]
      intro hempty
      refine h fun table' htable' => ?_
      cases htable.symm.trans htable'
      exact List.isEmpty_iff.mp hempty
  · next hnone =>
      refine absurd (fun table htable => ?_) h
      cases hnone.symm.trans htable

theorem configured_of_noOptions (h : NoOptions c b.name) :
    b.configured ((c.rules.lookup b.name).getD {}) = b.configured {} := by
  cases htable : c.rules.lookup b.name with
  | none => rfl
  | some table => exact BuiltIn.configured_of_no_options (h table htable) b

/-! ## Rules of the strict preset -/

/-- The rule has its options from the strict preset: the preset sets one for it, and no table
does. -/
structure StrictByPreset (c : Config) (b : BuiltIn) : Prop where
  strict : ∃ s, c.preset = some s ∧ Text.lower s = "strict"
  hasOption : b.name = "select-star" ∨ b.name = "print-statement"
  noOptions : NoOptions c b.name

theorem eq_of_mem_strict : ∀ d ∈ Preset.strict.rules,
    d.name = "select-star" ∨ d.name = "print-statement" →
      d = selectStar false ∨ d = printStatement false := by
  decide

/-- Such a rule has no exceptions, and the rule of its name has them. -/
theorem StrictByPreset.eq_or_eq (hc : (c.rules.map Prod.fst).Nodup) (hbs : resolve c = .ok bs)
    (hb : b ∈ bs) (h : StrictByPreset c b) :
    b = selectStar false ∨ b = printStatement false := by
  obtain ⟨preset, hpreset, hmem⟩ := mem_of_resolve hbs hb
  obtain ⟨hstrict, hoption, hnone⟩ := h
  have hpreset' : presetOf c = .ok .strict := presetOf_eq_ok_iff.mpr (.inr hstrict)
  cases hpreset'.symm.trans hpreset
  rcases hmem with ⟨d, hd, rfl⟩ | hadded
  · rw [name_refine] at hoption hnone
    rw [refine_of_noOptions hnone]
    exact eq_of_mem_strict d hd hoption
  · -- the strict preset has every rule, so none is added to it
    obtain ⟨table, -, -, hout, -⟩ := (mem_added_iff hc).mp hadded
    refine absurd ?_ hout
    rcases hoption with hname | hname
    · rw [hname]
      decide
    · rw [hname]
      decide

/-- Every other rule of a configuration is what its table and the defaults make it. -/
theorem configured_eq_self (hc : (c.rules.map Prod.fst).Nodup) (hbs : resolve c = .ok bs)
    (hb : b ∈ bs) (h : ¬ StrictByPreset c b) :
    b.configured ((c.rules.lookup b.name).getD {}) = b := by
  obtain ⟨preset, hpreset, ⟨d, hd, rfl⟩ | hadded⟩ := mem_of_resolve hbs hb
  · rw [name_refine]
    by_cases hnone : NoOptions c d.name
    · rw [refine_of_noOptions hnone] at h ⊢
      rw [configured_of_noOptions hnone]
      rcases configured_default_of_mem hd with hdefault | ⟨rfl, heq⟩
      · exact hdefault
      · -- the two rules with options of their own are those left out
        rcases presetOf_eq_ok_iff.mp hpreset with ⟨-, hpreset⟩ | hstrict
        · cases hpreset
        · refine absurd ⟨hstrict, ?_, hnone⟩ h
          rcases heq with rfl | rfl
          · exact .inl rfl
          · exact .inr rfl
    · rw [refine_of_options hnone, BuiltIn.configured_configured]
  · obtain ⟨table, htable, -, -, hself⟩ := (mem_added_iff hc).mp hadded
    rw [htable]
    exact hself

/-- A rule that is asked for by name agrees with the rule of the configuration, unless this has its
option from the strict preset.  For every rule of a configuration, its name gives exactly one rule,
with the same name and severity.  Both find the same in every file exactly if the rule is not one
of the two that the strict preset makes stricter, or a table sets an option for it.  In the other
case the rule of the configuration makes no exception, and the one that is asked for makes it. -/
theorem select_agrees_unless_strict (c : Config) (hc : (c.rules.map Prod.fst).Nodup)
    (bs : List BuiltIn) (hbs : resolve c = .ok bs) (b : BuiltIn) (hb : b ∈ bs) :
    ∃ b', select [b.name] c = [b'] ∧ b'.name = b.name ∧ b'.severity = b.severity ∧
      ((∀ ctx, b'.check ctx = b.check ctx) ↔ ¬ StrictByPreset c b) ∧
      (StrictByPreset c b →
        b = selectStar false ∧ b' = selectStar true ∨
          b = printStatement false ∧ b' = printStatement true) := by
  refine ⟨_, select_name c b, BuiltIn.name_configured _ b, BuiltIn.severity_configured _ b, ?_⟩
  by_cases hstrict : StrictByPreset c b
  · rw [configured_of_noOptions hstrict.noOptions]
    rcases hstrict.eq_or_eq hc hbs hb with rfl | rfl
    · obtain ⟨ctx, hne⟩ := BuiltIn.check_selectStar_ne
      exact ⟨iff_of_false (fun h => hne (h ctx)) (not_not.mpr hstrict), fun _ => .inl ⟨rfl, rfl⟩⟩
    · obtain ⟨ctx, hne⟩ := BuiltIn.check_printStatement_ne
      exact ⟨iff_of_false (fun h => hne (h ctx)) (not_not.mpr hstrict), fun _ => .inr ⟨rfl, rfl⟩⟩
  · rw [configured_eq_self hc hbs hb hstrict]
    exact ⟨iff_of_true (fun _ => rfl) hstrict, fun h => absurd h hstrict⟩

/-- In the strict preset, a table that sets the option makes the rule of the preset and the one
that is asked for the same. -/
theorem select_agrees_on_strict_star_with_table :
    let c : Config := { preset := some "strict", rules := [
      ("select-star", { options := [("allow_in_exists", .boolean false)] })] }
    (c.rules.map Prod.fst).Nodup ∧ ∃ bs b', resolve c = .ok bs ∧ selectStar false ∈ bs ∧
      select ["select-star"] c = [b'] ∧
      ∀ ctx, b'.check ctx = (selectStar false).check ctx := by
  intro c
  have hc : (c.rules.map Prod.fst).Nodup := by decide
  have hbs : resolve c = .ok (Preset.strict.rules.map (refine c) ++ added c .strict) := by
    rw [resolve_eq]
    rfl
  have hb : selectStar false ∈ Preset.strict.rules.map (refine c) ++ added c .strict :=
    List.mem_append_left _ (List.mem_map.mpr ⟨selectStar false, by decide, rfl⟩)
  obtain ⟨b', hselect, -, -, hagree, -⟩ := select_agrees_unless_strict c hc _ hbs _ hb
  refine ⟨hc, _, b', hbs, hb, hselect, hagree.mpr fun hstrict => ?_⟩
  cases hstrict.noOptions _ rfl

/-- The strict preset makes no exception for `EXISTS`, and the rule that is asked for makes it. -/
theorem select_misses_strict_star :
    ¬ ∀ c : Config, (c.rules.map Prod.fst).Nodup → ∀ bs, resolve c = .ok bs → ∀ b ∈ bs,
      ∃ b', select [b.name] c = [b'] ∧ b'.name = b.name ∧ b'.severity = b.severity ∧
        ∀ ctx, b'.check ctx = b.check ctx := by
  intro h
  have hbs : resolve { preset := some "strict" } =
      .ok (Preset.strict.rules.map (refine { preset := some "strict" }) ++
        added { preset := some "strict" } .strict) := by
    rw [resolve_eq]
    rfl
  obtain ⟨b', hselect, -, -, hcheck⟩ := h { preset := some "strict" } List.nodup_nil _ hbs
    (selectStar false) (List.mem_append_left _ (by decide))
  have hb' : b' = selectStar true := by
    cases hselect
    rfl
  obtain ⟨ctx, hne⟩ := BuiltIn.check_selectStar_ne
  rw [hb'] at hcheck
  exact hne (hcheck ctx)

end RuleSet

end SqlStyle
