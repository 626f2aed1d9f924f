import SqlStyle.Proofs.Project.Run
import SqlStyle.Proofs.RuleSet
import SqlStyle.Proofs.Text.Bytes

/-!
# The rules that are active under a configuration

Which rules run is decided in two places: the preset and the tables that switch rules on make the
list of rules, and a project passes over those that tables switch off.  Together they take the rules
of the preset that are not switched off and, by name, the others that are switched on.  Tables are
looked up by name or sorted by name, so the order in which a configuration holds them does not show.
-/

namespace SqlStyle

namespace RuleSet

variable {c : Config} {p : Preset} {rule : String} {rules : List (String × RuleConfig)}

/-! ## Added rules -/

theorem pairwise_le_extras (c : Config) (bs : List BuiltIn) :
    (extras c bs).Pairwise fun x y => x.1 ≤ y.1 := by
  have hsorted : (extras c bs).Pairwise fun x y => decide (x.1 ≤ y.1) = true := by
    refine List.pairwise_mergeSort ?_ ?_ _
    · intro x y z hxy hyz
      exact decide_eq_true ((of_decide_eq_true hxy).trans (of_decide_eq_true hyz))
    · intro x y
      simpa using le_total x.1 y.1
  exact hsorted.imp of_decide_eq_true

/-- A name has one table, so no name comes twice. -/
theorem nodup_keys_extras (hc : (c.rules.map Prod.fst).Nodup) (bs : List BuiltIn) :
    ((extras c bs).map Prod.fst).Nodup := by
  rw [extras, ((List.mergeSort_perm _ _).map Prod.fst).nodup_iff]
  exact hc.sublist (List.filter_sublist.map Prod.fst)

/-- Added rules come in the order of their names. -/
theorem pairwise_lt_added (hc : (c.rules.map Prod.fst).Nodup) (p : Preset) :
    ((added c p).map (·.name)).Pairwise (· < ·) := by
  have hlt : (extras c (p.rules.map (refine c))).Pairwise fun x y => x.1 < y.1 :=
    ((pairwise_le_extras c _).and (List.pairwise_map.mp (nodup_keys_extras hc _))).imp
      fun hxy => lt_of_le_of_ne hxy.1 hxy.2
  rw [added, List.pairwise_map, List.pairwise_filterMap]
  refine hlt.imp fun hxy b hb d hd => ?_
  rwa [(BuiltIn.ofName?_eq_some_iff.mp hb).1, (BuiltIn.ofName?_eq_some_iff.mp hd).1]

theorem mem_names_added_iff (hc : (c.rules.map Prod.fst).Nodup) :
    rule ∈ (added c p).map (·.name) ↔
      rule ∈ BuiltIn.names ∧ rule ∉ p.names ∧ c.switch? rule = some true := by
  simp only [List.mem_map (l := added c p), mem_added_iff hc, BuiltIn.mem_names_iff,
    Config.switch?, Option.bind_eq_some_iff]
  constructor
  · rintro ⟨b, ⟨table, htable, hon, hout, -⟩, rfl⟩
    exact ⟨⟨b, rfl⟩, hout, table, htable, hon⟩
  · rintro ⟨⟨b, rfl⟩, hout, table, htable, hon⟩
    refine ⟨b.configured table, ⟨table, ?_⟩, BuiltIn.name_configured _ _⟩
    rw [BuiltIn.name_configured, BuiltIn.configured_configured]
    exact ⟨htable, hon, hout, rfl⟩

theorem pairwise_lt_names : BuiltIn.names.Pairwise (· < ·) := by
  have hle : BuiltIn.names.Pairwise (· ≤ ·) :=
    List.pairwise_mergeSort' (· ≤ ·) (BuiltIn.all.map (·.name))
  have hne : BuiltIn.names.Nodup := by
    rw [BuiltIn.names, (List.mergeSort_perm _ _).nodup_iff]
    decide
  exact (hle.and hne).imp fun hxy => lt_of_le_of_ne hxy.1 hxy.2

/-- The added rules are the built-in ones outside the preset that are switched on. -/
theorem names_added (hc : (c.rules.map Prod.fst).Nodup) (p : Preset) :
    (added c p).map (·.name) =
      BuiltIn.names.filter fun rule =>
        rule ∉ p.names ∧ c.switch? rule = some true := by
  refine (pairwise_lt_added hc p).eq_of_mem_iff (pairwise_lt_names.filter _) fun rule => ?_
  rw [mem_names_added_iff hc, List.mem_filter, decide_eq_true_eq]

/-! ## The order of the tables -/

theorem switch?_of_perm (hc : (c.rules.map Prod.fst).Nodup) (h : rules.Perm c.rules)
    (rule : String) : { c with rules }.switch? rule = c.switch? rule := by
  rw [Config.switch?, Config.switch?, lookup_eq_of_perm hc h]

theorem refine_of_perm (hc : (c.rules.map Prod.fst).Nodup) (h : rules.Perm c.rules)
    (b : BuiltIn) : refine { c with rules } b = refine c b := by
  rw [refine, refine, lookup_eq_of_perm hc h]

/-- Sorting by name leaves one order, since no name comes twice. -/
theorem extras_of_perm (hc : (c.rules.map Prod.fst).Nodup) (h : rules.Perm c.rules)
    (bs : List BuiltIn) : extras { c with rules } bs = extras c bs := by
  have hperm : (extras { c with rules } bs).Perm (extras c bs) :=
    (List.mergeSort_perm _ _).trans
      ((h.filter _).trans (List.mergeSort_perm _ _).symm)
  refine hperm.eq_of_pairwise ?_ (pairwise_le_extras _ bs) (pairwise_le_extras c bs)
  intro x y hx hy hxy hyx
  exact List.inj_on_of_nodup_map (nodup_keys_extras hc bs) (hperm.mem_iff.mp hx) hy
    (le_antisymm hxy hyx)

theorem resolve_of_perm (hc : (c.rules.map Prod.fst).Nodup) (h : rules.Perm c.rules) :
    resolve { c with rules } = resolve c := by
  have hrefine : refine { c with rules } = refine c := funext (refine_of_perm hc h)
  have hadded : added { c with rules } = added c := by
    funext p
    rw [added, added, hrefine, extras_of_perm hc h]
  rw [resolve_eq, resolve_eq, hrefine, hadded]
  rfl

end RuleSet

/-! ## Active rules -/

namespace Project

variable {root : String} {rules : List Rule} {excludes includes : List String} {c : Config}
  {fails : Bool} {p : Project}

/-- A project is made with the rules and the configuration it is given. -/
theorem activeRules_of_make (h : make root rules excludes includes c fails = .ok p) :
    p.activeRules = rules.filter fun r => c.switch? r.name ≠ some false := by
  obtain ⟨globs, -, h⟩ := bind_eq_ok_iff.mp h
  obtain ⟨globs', -, h⟩ := bind_eq_ok_iff.mp h
  cases h
  refine List.filter_congr fun r _ => ?_
  rw [Bool.eq_iff_iff, Config.isEnabled_iff, decide_eq_true_eq]
  rfl

end Project

namespace RuleSet

variable {c : Config} {preset : Preset}

/-- The names of the rules of a preset that are not switched off, and of the built-in ones outside
it that are switched on. -/
def activeNames (c : Config) (preset : Preset) : List String :=
  preset.names.filter (c.switch? · ≠ some false) ++
    BuiltIn.names.filter fun rule => rule ∉ preset.names ∧ c.switch? rule = some true

theorem nodup_activeNames (c : Config) (preset : Preset) : (activeNames c preset).Nodup := by
  rw [activeNames, List.nodup_append']
  refine ⟨preset.nodup_names.filter _, (pairwise_lt_names.imp ne_of_lt).filter _, ?_⟩
  intro rule hrule hadded
  exact (of_decide_eq_true (List.mem_filter.mp hadded).2).1 (List.mem_filter.mp hrule).1

theorem mem_activeNames_iff {rule : String} (hrule : rule ∈ BuiltIn.names) :
    rule ∈ activeNames c preset ↔
      c.switch? rule = some true ∨ rule ∈ preset.names ∧ c.switch? rule ≠ some false := by
  rw [activeNames, List.mem_append, List.mem_filter, List.mem_filter, decide_eq_true_eq,
    decide_eq_true_eq]
  constructor
  · rintro (hkept | ⟨-, -, hon⟩)
    · exact .inr hkept
    · exact .inl hon
  · rintro (hon | hkept)
    · by_cases hin : rule ∈ preset.names
      · exact .inl ⟨hin, by rw [hon]; nofun⟩
      · exact .inr ⟨hrule, hin, hon⟩
    · exact .inl hkept

/-- Of the rules of a configuration, a project takes those that are not switched off. -/
theorem names_filter_rules (hc : (c.rules.map Prod.fst).Nodup) (preset : Preset) :
    (((preset.rules.map (refine c) ++ added c preset).map (·.toRule)).filter
        fun r => c.switch? r.name ≠ some false).map (·.name) = activeNames c preset := by
  have hkept : (added c preset).map (·.name) =
      ((added c preset).map (·.name)).filter (c.switch? · ≠ some false) := by
    refine (List.filter_eq_self.mpr fun rule hrule => ?_).symm
    rw [((mem_names_added_iff hc).mp hrule).2.2]
    rfl
  have hpreset : (preset.rules.map (refine c)).map (·.name) = preset.names := by
    rw [List.map_map]
    exact List.map_congr_left fun b _ => name_refine c b
  calc
    _ = ((preset.rules.map (refine c) ++ added c preset).map (·.name)).filter
          (c.switch? · ≠ some false) := by
      rw [List.filter_map, List.filter_map, List.map_map]
      rfl
    _ = _ := by
      rw [List.map_append, List.filter_append, hpreset, ← hkept, names_added hc, activeNames]

/-- The rules that are active.  A configuration has rules unless it names a preset that, in lower
case, is none of the three.  A project made with its rules runs those of the preset that no table
switches off, in the order of the preset, and then the built-in rules outside the preset that a
table switches on, in the order of the bytes of their names.  No name comes twice, and a built-in
rule is active exactly if it is switched on, or it is in the preset and not switched off.  In which
order the tables stand changes neither the rules nor their options. -/
theorem active_rules_of_config (c : Config) (hc : (c.rules.map Prod.fst).Nodup) :
    (∀ e, resolve c = .error e ↔
      c.preset = some e.text ∧ Text.lower e.text ∉ ["recommended", "strict", "minimal"]) ∧
    (∀ bs root excludes includes fails p, resolve c = .ok bs →
      Project.make root (bs.map (·.toRule)) excludes includes c fails = .ok p →
      ∃ preset : Preset, (c.preset = none → preset = .recommended) ∧
        (∀ s, c.preset = some s → Text.lower s = preset.name) ∧
        p.activeRules.map (·.name) =
          preset.names.filter (c.switch? · ≠ some false) ++
            BuiltIn.names.filter (fun rule =>
              rule ∉ preset.names ∧ c.switch? rule = some true) ∧
        (p.activeRules.map (·.name)).Nodup ∧
        ∀ rule ∈ BuiltIn.names, rule ∈ p.activeRules.map (·.name) ↔
          c.switch? rule = some true ∨ rule ∈ preset.names ∧ c.switch? rule ≠ some false) ∧
    BuiltIn.names.Pairwise (fun a b => Text.bytes a < Text.bytes b) ∧
    ∀ rules, rules.Perm c.rules → resolve { c with rules } = resolve c ∧
      ∀ bs root excludes includes fails p p',
        Project.make root bs excludes includes c fails = .ok p →
        Project.make root bs excludes includes { c with rules } fails = .ok p' →
        p'.activeRules = p.activeRules := by
  refine ⟨fun e => ?_, ?_, pairwise_lt_names.imp Text.bytes_lt_bytes, ?_⟩
  · rw [resolve_eq, map_eq_error_iff, presetOf_eq_error_iff]
  · intro bs root excludes includes fails p hbs hp
    rw [resolve_eq] at hbs
    obtain ⟨preset, hpreset, rfl⟩ := map_eq_ok_iff.mp hbs
    have hnames : p.activeRules.map (·.name) = activeNames c preset := by
      rw [Project.activeRules_of_make hp, names_filter_rules hc]
    refine ⟨preset, ?_, ?_, hnames, ?_, ?_⟩
    · intro hnone
      rcases presetOf_eq_ok_iff.mp hpreset with ⟨-, h⟩ | ⟨s, hs, -⟩
      · exact h
      · rw [hnone] at hs
        cases hs
    · intro s hs
      rcases presetOf_eq_ok_iff.mp hpreset with ⟨hnone, -⟩ | ⟨s', hs', h⟩
      · rw [hnone] at hs
        cases hs
      · rw [hs] at hs'
        cases hs'
        exact h
    · rw [hnames]
      exact nodup_activeNames c preset
    · intro rule hrule
      rw [hnames]
      exact mem_activeNames_iff hrule
  · intro rules hrules
    refine ⟨resolve_of_perm hc hrules, ?_⟩
    intro bs root excludes includes fails p p' hp hp'
    rw [Project.activeRules_of_make hp, Project.activeRules_of_make hp']
    simp only [switch?_of_perm hc hrules]

/-- One rule is switched off, two are added by name, and a name in another case means nothing. -/
theorem active_rules_beside_minimal :
    let c : Config := { preset := some "Minimal", linter := { excludes := [] }, rules := [
      ("upper-lower", { enabled := some true }), ("Print-Statement", { enabled := some true }),
      ("keyword-casing", { enabled := some false }),
      ("disallow-cursors", { enabled := some true })] }
    (c.rules.map Prod.fst).Nodup ∧ ∃ bs p, resolve c = .ok bs ∧
      Project.make "/" (bs.map (·.toRule)) [] [] c false = .ok p ∧
      p.activeRules.map (·.name) = ["disallow-cursors", "upper-lower"] := by
  intro c
  have hc : (c.rules.map Prod.fst).Nodup := by decide
  obtain ⟨hfails, hactive, -⟩ := active_rules_of_config c hc
  cases hbs : resolve c with
  | error e =>
      obtain ⟨htext, hunknown⟩ := (hfails e).mp hbs
      rw [← Option.some.inj htext] at hunknown
      exact absurd hunknown (by decide)
  | ok bs =>
      obtain ⟨preset, -, hpreset, hnames, -⟩ := hactive bs "/" [] [] false _ hbs rfl
      have hminimal : preset = .minimal := by
        have hname := hpreset "Minimal" rfl
        cases preset with
        | minimal => rfl
        | recommended => exact absurd hname (by decide)
        | strict => exact absurd hname (by decide)
      have hsorted : BuiltIn.names = ["disallow-cursors", "information-schema", "keyword-casing",
          "linked-server", "print-statement", "select-star", "upper-lower"] := by
        simp [BuiltIn.names, BuiltIn.all, BuiltIn.name, List.mergeSort,
          List.MergeSort.Internal.splitInTwo]
      rw [hminimal, hsorted] at hnames
      exact ⟨hc, bs, _, rfl, rfl, hnames.trans (by decide)⟩

end RuleSet

end SqlStyle
