import SqlStyle.Proofs.RuleSet.Select

/-!
# What a table changes about a rule of the preset

A table gives values to options of its rule.  One would have the other options stay as the preset
has them.  But a rule whose table holds any option is made anew, and then the options without a
value in the table are the defaults.  The two differ for no rule whose options are the defaults in
the preset; they differ for two rules of the strict preset, if their table holds options and a valid
value for theirs is not among them.
-/

namespace SqlStyle

/-! ## Options in a table -/

namespace RuleConfig

/-- The value of an option, if the table gives it one and it is a boolean. -/
def boolean? (table : RuleConfig) (key : String) : Option Bool :=
  (table.options.lookup key).bind Toml.Value.boolean?

/-- The casing that the table gives, if it is one that is known. -/
def casing? (table : RuleConfig) : Option Casing :=
  ((table.options.lookup "casing").bind Toml.Value.string?).bind fun s => (Casing.parse s).toOption

end RuleConfig

namespace BuiltIn

variable {table : RuleConfig} {b : BuiltIn}

/-- The rule with the options to which a table gives a valid value, and its own options else. -/
def overlaid (table : RuleConfig) : BuiltIn → BuiltIn
  | keywordCasing casing => keywordCasing (table.casing?.getD casing)
  | selectStar allow => selectStar ((table.boolean? "allow_in_exists").getD allow)
  | printStatement allow => printStatement ((table.boolean? "allow_in_tests").getD allow)
  | b => b

/-- A casing that is not known counts for nothing. -/
theorem casingOf_eq (table : RuleConfig) : casingOf table = table.casing?.getD .upper := by
  rw [casingOf, RuleConfig.string, RuleConfig.casing?]
  cases (table.options.lookup "casing").bind Toml.Value.string? with
  | none => rfl
  | some s =>
      rw [Option.getD_some, Option.bind_some]
      cases Casing.parse s with
      | ok casing => rfl
      | error e => rfl

/-- A rule that is made anew has its defaults under the options of the table. -/
theorem configured_eq_overlaid (table : RuleConfig) (b : BuiltIn) :
    b.configured table = (b.configured {}).overlaid table := by
  cases b with
  | keywordCasing casing => exact congrArg keywordCasing (casingOf_eq table)
  | selectStar allow => rfl
  | printStatement allow => rfl
  | informationSchema => rfl
  | disallowCursors => rfl
  | linkedServer => rfl
  | upperLower => rfl

theorem overlaid_of_no_options (h : table.options = []) (b : BuiltIn) : b.overlaid table = b := by
  cases b <;> simp [overlaid, RuleConfig.boolean?, RuleConfig.casing?, h]

end BuiltIn

namespace RuleSet

open BuiltIn (selectStar printStatement)

variable {c : Config} {preset : Preset} {b d : BuiltIn}

/-! ## The rule of a name -/

theorem severity_refine (c : Config) (b : BuiltIn) : (refine c b).severity = b.severity := by
  rw [refine]
  split
  · split
    · rfl
    · exact BuiltIn.severity_configured _ _
  · rfl

theorem filter_name_rules (hd : d ∈ preset.rules) :
    preset.rules.filter (·.name == d.name) = [d] := by
  revert d
  cases preset <;> decide

/-- No table adds a rule that the preset has. -/
theorem name_notMem_of_mem_added (h : b ∈ added c preset) : b.name ∉ preset.names := by
  obtain ⟨x, hx, hb⟩ := List.mem_filterMap.mp h
  rw [(BuiltIn.ofName?_eq_some_iff.mp hb).1]
  exact (mem_extras_iff.mp hx).2.2

/-- A configuration has one rule for each rule of its preset. -/
theorem filter_name_resolved (hd : d ∈ preset.rules) :
    (preset.rules.map (refine c) ++ added c preset).filter (·.name == d.name) = [refine c d] := by
  have hadded : (added c preset).filter (·.name == d.name) = [] := by
    rw [List.filter_eq_nil_iff]
    intro b hb hname
    refine name_notMem_of_mem_added hb ?_
    rw [eq_of_beq hname]
    exact List.mem_map_of_mem hd
  have hname : (fun b : BuiltIn => b.name == d.name) ∘ refine c = fun b => b.name == d.name := by
    funext b
    rw [Function.comp_apply, name_refine]
  rw [List.filter_append, hadded, List.append_nil, List.filter_map, hname, filter_name_rules hd]
  rfl

/-! ## Tables that relax a rule -/

/-- The options that the strict preset sets: a rule of the preset, the rule that it is by default,
and the name of the option. -/
inductive StrictOption : BuiltIn → BuiltIn → String → Prop
  | star : StrictOption (selectStar false) (selectStar true) "allow_in_exists"
  | print : StrictOption (printStatement false) (printStatement true) "allow_in_tests"

/-- A table makes a rule of the strict preset lax: it holds options, and none of them is a valid
value for the one that the preset sets. -/
structure Relaxed (c : Config) (preset : Preset) (d lax : BuiltIn) : Prop where
  strict : preset = .strict
  unset : ∃ key table, StrictOption d lax key ∧ c.rules.lookup d.name = some table ∧
    table.options ≠ [] ∧ table.boolean? key = none

namespace StrictOption

variable {lax : BuiltIn} {key : String} {table : RuleConfig}

/-- A value in the table counts, whether it is put over the preset or over the default. -/
theorem configured_of_set (h : StrictOption d lax key) {allow : Bool}
    (hset : table.boolean? key = some allow) : d.configured table = d.overlaid table := by
  rw [BuiltIn.configured_eq_overlaid]
  cases h with
  | star => simp only [BuiltIn.configured, BuiltIn.overlaid, hset, Option.getD_some]
  | print => simp only [BuiltIn.configured, BuiltIn.overlaid, hset, Option.getD_some]

/-- Without a value in the table, the rule that is made anew is the default, and the rule of the
preset would stay. -/
theorem configured_of_unset (h : StrictOption d lax key) (hunset : table.boolean? key = none) :
    d.configured table = lax ∧ d.overlaid table = d := by
  rw [BuiltIn.configured_eq_overlaid]
  cases h with
  | star =>
      simp only [BuiltIn.overlaid, hunset, Option.getD_none, and_true]
      rfl
  | print =>
      simp only [BuiltIn.overlaid, hunset, Option.getD_none, and_true]
      rfl

theorem exists_check_ne (h : StrictOption d lax key) : ∃ ctx, lax.check ctx ≠ d.check ctx := by
  cases h with
  | star => exact BuiltIn.check_selectStar_ne
  | print => exact BuiltIn.check_printStatement_ne

/-- The rules of a preset have default options, unless it is the strict one and sets them. -/
theorem default_or_exists (hd : d ∈ preset.rules) :
    d.configured {} = d ∨ preset = .strict ∧ ∃ lax key, StrictOption d lax key := by
  rcases configured_default_of_mem hd with hdefault | ⟨hstrict, rfl | rfl⟩
  · exact .inl hdefault
  · exact .inr ⟨hstrict, _, _, .star⟩
  · exact .inr ⟨hstrict, _, _, .print⟩

end StrictOption

/-- A table with options makes a rule of the preset anew. -/
theorem refine_of_lookup {table : RuleConfig} (htable : c.rules.lookup d.name = some table)
    (hoptions : table.options ≠ []) : refine c d = d.configured table := by
  rw [refine_of_options fun hnone => hoptions (hnone table htable), htable, Option.getD_some]

/-- Where a table does not relax a rule, it puts its options over those of the preset. -/
theorem refine_of_not_relaxed (hd : d ∈ preset.rules) (h : ∀ lax, ¬ Relaxed c preset d lax) :
    refine c d = d.overlaid ((c.rules.lookup d.name).getD {}) := by
  cases htable : c.rules.lookup d.name with
  | none =>
      have hnone : NoOptions c d.name := fun table htable' => nomatch htable.symm.trans htable'
      rw [refine_of_noOptions hnone]
      exact (BuiltIn.overlaid_of_no_options rfl d).symm
  | some table =>
      rw [Option.getD_some]
      by_cases hoptions : table.options = []
      · have hnone : NoOptions c d.name := fun table' htable' => by
          cases htable.symm.trans htable'
          exact hoptions
        rw [refine_of_noOptions hnone, BuiltIn.overlaid_of_no_options hoptions]
      · rw [refine_of_lookup htable hoptions]
        rcases StrictOption.default_or_exists hd with hdefault | ⟨hstrict, lax, key, hoption⟩
        · rw [BuiltIn.configured_eq_overlaid, hdefault]
        · cases hvalue : table.boolean? key with
          | some allow => exact hoption.configured_of_set hvalue
          | none => exact absurd ⟨hstrict, key, table, hoption, htable, hoptions, hvalue⟩ (h lax)

/-- A rule that a table relaxes is the default, and not what the preset and the table say. -/
theorem refine_of_relaxed {lax : BuiltIn} (h : Relaxed c preset d lax) :
    refine c d = lax ∧
      ∃ ctx, lax.check ctx ≠ (d.overlaid ((c.rules.lookup d.name).getD {})).check ctx := by
  obtain ⟨-, key, table, hoption, htable, hoptions, hunset⟩ := h
  obtain ⟨hlax, hstays⟩ := hoption.configured_of_unset hunset
  rw [refine_of_lookup htable hoptions, htable, Option.getD_some, hstays]
  exact ⟨hlax, hoption.exists_check_ne⟩

/-- A table changes the options it sets, unless it relaxes a rule of the strict preset.  Under a
configuration with a valid preset, every rule of the preset is there once, with its severity.  It
has the options to which its table gives a valid value, and the options of the preset else, whatever
other keys the table holds.  Two rules of the strict preset are the exception: if their table holds
options, but no boolean for the option that the preset sets, then this option is the default, and in
some file that shows. -/
theorem table_sets_options_unless_relaxed (c : Config) (preset : Preset)
    (hpreset : presetOf c = .ok preset) (d : BuiltIn) (hd : d ∈ preset.rules) :
    ∃ bs b, resolve c = .ok bs ∧ bs.filter (·.name == d.name) = [b] ∧ b.severity = d.severity ∧
      ((∀ lax, ¬ Relaxed c preset d lax) →
        b = d.overlaid ((c.rules.lookup d.name).getD {})) ∧
      ∀ lax, Relaxed c preset d lax → b = lax ∧
        ∃ ctx, b.check ctx ≠ (d.overlaid ((c.rules.lookup d.name).getD {})).check ctx := by
  have hbs : resolve c = .ok (preset.rules.map (refine c) ++ added c preset) := by
    rw [resolve_eq, hpreset]
    rfl
  refine ⟨_, refine c d, hbs, filter_name_resolved hd, severity_refine c d,
    refine_of_not_relaxed hd, fun lax hlax => ?_⟩
  obtain ⟨hrefine, hcheck⟩ := refine_of_relaxed hlax
  rw [hrefine]
  exact ⟨rfl, hcheck⟩

/-- A boolean in the table counts in the strict preset, and the key beside it does not. -/
theorem star_of_strict_with_boolean :
    let c : Config := { preset := some "Strict", rules := [("select-star",
      { options := [("note", .string "legacy"), ("allow_in_exists", .boolean true)] })] }
    presetOf c = .ok .strict ∧ selectStar false ∈ Preset.strict.rules ∧
      (∀ lax, ¬ Relaxed c .strict (selectStar false) lax) ∧
      ∃ bs, resolve c = .ok bs ∧ bs.filter (·.name == "select-star") = [selectStar true] := by
  intro c
  have hpreset : presetOf c = .ok .strict := rfl
  have hmem : selectStar false ∈ Preset.strict.rules := by decide
  have hset : ∀ lax, ¬ Relaxed c .strict (selectStar false) lax := by
    rintro lax ⟨-, key, table, hoption, htable, -, hunset⟩
    cases hoption
    cases htable
    cases hunset
  obtain ⟨bs, b, hbs, hfilter, -, hb, -⟩ :=
    table_sets_options_unless_relaxed c .strict hpreset (selectStar false) hmem
  rw [hb hset] at hfilter
  exact ⟨hpreset, hmem, hset, bs, hbs, hfilter⟩

/-- A misspelt option in a table of the strict preset brings the exception for `EXISTS` back. -/
theorem misspelt_option_relaxes_star :
    ¬ ∀ (c : Config) (preset : Preset), presetOf c = .ok preset → ∀ d ∈ preset.rules,
      ∃ bs b, resolve c = .ok bs ∧ bs.filter (·.name == d.name) = [b] ∧
        ∀ ctx, b.check ctx = (d.overlaid ((c.rules.lookup d.name).getD {})).check ctx := by
  intro h
  let c : Config := { preset := some "strict", rules := [("select-star",
    { options := [("allow_in_exist", .boolean false)] })] }
  have hmem : selectStar false ∈ Preset.strict.rules := by decide
  have hrelaxed : Relaxed c .strict (selectStar false) (selectStar true) :=
    ⟨rfl, _, _, .star, rfl, List.cons_ne_nil _ _, rfl⟩
  have hresolve : resolve c = .ok (Preset.strict.rules.map (refine c) ++ added c .strict) := by
    rw [resolve_eq]
    rfl
  obtain ⟨bs, b, hbs, hfilter, hcheck⟩ := h c .strict rfl (selectStar false) hmem
  cases hresolve.symm.trans hbs
  obtain ⟨hrefine, ctx, hne⟩ := refine_of_relaxed hrelaxed
  have hb := (filter_name_resolved hmem).symm.trans hfilter
  rw [hrefine, List.singleton_inj] at hb
  rw [hb] at hne
  exact hne (hcheck ctx)

end RuleSet

end SqlStyle
