import SqlStyle.Proofs.Text
import SqlStyle.RuleSet

/-!
# Rules and their tables

A configuration holds one table for each name, so its tables are a map: what a name leads to does
not depend on the order in which they stand.  The rules of a configuration are those of its preset,
each made anew if its table holds options, and behind them the rules that tables add.  Making a rule
anew changes neither its name nor its severity, and making it again from the same table changes
nothing.
-/

namespace SqlStyle

/-! ## Tables by name -/

section Lookup

variable {α β : Type} [BEq α] [LawfulBEq α] {xs ys : List (α × β)} {k : α}

/-- Where each key occurs once, a key leads to what is entered under it. -/
theorem lookup_eq_some_iff_mem (h : (xs.map Prod.fst).Nodup) {v : β} :
    xs.lookup k = some v ↔ (k, v) ∈ xs := by
  rw [List.lookup_eq_some_iff]
  constructor
  · rintro ⟨before, after, rfl, -⟩
    exact List.mem_append_right _ List.mem_cons_self
  · intro hmem
    obtain ⟨before, after, rfl⟩ := List.append_of_mem hmem
    refine ⟨before, after, rfl, fun x hx => ?_⟩
    rw [List.map_append, List.map_cons] at h
    have hne := (List.pairwise_append.mp h).2.2 x.1 (List.mem_map_of_mem hx) k List.mem_cons_self
    exact bne_iff_ne.mpr hne.symm

theorem lookup_eq_of_perm (h : (xs.map Prod.fst).Nodup) (hperm : ys.Perm xs) :
    ys.lookup k = xs.lookup k := by
  have hys : (ys.map Prod.fst).Nodup := (hperm.map Prod.fst).nodup_iff.mpr h
  ext v
  rw [lookup_eq_some_iff_mem h, lookup_eq_some_iff_mem hys, hperm.mem_iff]

end Lookup

/-- What the table of a rule says about whether it runs. -/
def Config.switch? (c : Config) (rule : String) : Option Bool :=
  (c.rules.lookup rule).bind (·.enabled)

/-! ## Built-in rules by name -/

namespace BuiltIn

variable {b d : BuiltIn} {table : RuleConfig} {rule : String}

@[simp] theorem name_configured (table : RuleConfig) (b : BuiltIn) :
    (b.configured table).name = b.name := by
  cases b <;> rfl

@[simp] theorem severity_configured (table : RuleConfig) (b : BuiltIn) :
    (b.configured table).severity = b.severity := by
  cases b <;> rfl

/-- The options of a table replace those a rule had. -/
@[simp] theorem configured_configured (table table' : RuleConfig) (b : BuiltIn) :
    (b.configured table').configured table = b.configured table := by
  cases b <;> rfl

/-- Every rule can be made by its name. -/
theorem ofName?_name (b : BuiltIn) (table : RuleConfig) :
    ofName? b.name table = some (b.configured table) := by
  cases b <;> rfl

/-- The rule of a name has that name and the options of the table. -/
theorem ofName?_eq_some_iff :
    ofName? rule table = some b ↔ b.name = rule ∧ b.configured table = b := by
  constructor
  · intro h
    obtain ⟨d, hd, rfl⟩ := Option.map_eq_some_iff.mp h
    refine ⟨?_, configured_configured _ _ _⟩
    have hname := List.find?_some hd
    rw [name_configured, eq_of_beq hname]
  · rintro ⟨rfl, hb⟩
    rw [ofName?_name, hb]

theorem mem_names_iff : rule ∈ names ↔ ∃ b : BuiltIn, b.name = rule := by
  rw [names, List.mem_mergeSort, List.mem_map]
  constructor
  · rintro ⟨b, -, hb⟩
    exact ⟨b, hb⟩
  · rintro ⟨b, rfl⟩
    cases b <;> simp [all, name]

end BuiltIn

/-! ## Presets -/

namespace Preset

/-- The names of a preset's rules, in the order in which they run. -/
def names (p : Preset) : List String := p.rules.map (·.name)

theorem nodup_names (p : Preset) : p.names.Nodup := by
  cases p <;> decide

theorem parse_eq_ok_iff {s : String} {p : Preset} : parse s = .ok p ↔ Text.lower s = p.name := by
  rw [parse]
  constructor
  · intro h
    split at h
    · next q hq =>
        cases h
        have hname := List.find?_some hq
        exact (eq_of_beq hname).symm
    · cases h
  · intro h
    rw [h]
    cases p <;> rfl

theorem parse_eq_error_iff {s : String} {e : Unknown} :
    parse s = .error e ↔ e.text = s ∧ Text.lower s ∉ ["recommended", "strict", "minimal"] := by
  have hnames : ["recommended", "strict", "minimal"] =
      [recommended, strict, minimal].map name := rfl
  rw [parse, hnames]
  split
  · next p hp =>
      have hname := List.find?_some hp
      refine iff_of_false nofun fun h => h.2 ?_
      exact List.mem_map.mpr ⟨p, List.mem_of_find?_eq_some hp, eq_of_beq hname⟩
  · next hnone =>
      have hout : Text.lower s ∉ [recommended, strict, minimal].map name := by
        intro hmem
        obtain ⟨p, hp, hname⟩ := List.mem_map.mp hmem
        exact List.find?_eq_none.mp hnone p hp (beq_iff_eq.mpr hname)
      rw [and_iff_left hout]
      exact ⟨fun h => by cases h; rfl, fun h => by cases h; rfl⟩

end Preset

namespace RuleSet

variable {c : Config} {p : Preset} {b : BuiltIn} {bs : List BuiltIn}

/-- The preset that a configuration names, in any case; without a name, the recommended one. -/
def presetOf (c : Config) : Except Preset.Unknown Preset :=
  match c.preset with
  | some name => Preset.parse name
  | none => .ok .recommended

/-- The rules that tables add to those of a preset. -/
def added (c : Config) (p : Preset) : List BuiltIn :=
  (extras c (p.rules.map (refine c))).filterMap fun x => BuiltIn.ofName? x.1 x.2

theorem presetOf_eq_ok_iff :
    presetOf c = .ok p ↔
      (c.preset = none ∧ p = .recommended) ∨ ∃ s, c.preset = some s ∧ Text.lower s = p.name := by
  rw [presetOf]
  cases c.preset with
  | none => simp [eq_comm]
  | some s => simp [Preset.parse_eq_ok_iff]

theorem presetOf_eq_error_iff {e : Preset.Unknown} :
    presetOf c = .error e ↔
      c.preset = some e.text ∧ Text.lower e.text ∉ ["recommended", "strict", "minimal"] := by
  rw [presetOf]
  cases c.preset with
  | none => simp
  | some s =>
      rw [Preset.parse_eq_error_iff, Option.some.injEq, eq_comm (a := s)]
      refine and_congr_right fun hs => ?_
      rw [hs]

theorem resolve_eq (c : Config) :
    resolve c = (presetOf c).map fun p => p.rules.map (refine c) ++ added c p := by
  rw [resolve, presetOf]
  cases c.preset with
  | none => rfl
  | some name =>
      cases Preset.parse name with
      | error e => rfl
      | ok p => rfl

@[simp] theorem name_refine (c : Config) (b : BuiltIn) : (refine c b).name = b.name := by
  rw [refine]
  split
  · split
    · rfl
    · exact BuiltIn.name_configured _ _
  · rfl

/-- A table adds a rule if it switches it on and the preset does not have it. -/
theorem mem_extras_iff {x : String × RuleConfig} :
    x ∈ extras c (p.rules.map (refine c)) ↔
      x ∈ c.rules ∧ x.2.enabled = some true ∧ x.1 ∉ p.names := by
  rw [extras, List.mem_mergeSort, List.mem_filter]
  simp [Preset.names]

theorem mem_added_iff (hc : (c.rules.map Prod.fst).Nodup) :
    b ∈ added c p ↔ ∃ table, c.rules.lookup b.name = some table ∧ table.enabled = some true ∧
      b.name ∉ p.names ∧ b.configured table = b := by
  rw [added, List.mem_filterMap]
  simp only [mem_extras_iff, BuiltIn.ofName?_eq_some_iff, lookup_eq_some_iff_mem hc]
  constructor
  · rintro ⟨⟨-, table⟩, ⟨hmem, hon, hout⟩, rfl, hb⟩
    exact ⟨table, hmem, hon, hout, hb⟩
  · rintro ⟨table, hmem, hon, hout, hb⟩
    exact ⟨(b.name, table), ⟨hmem, hon, hout⟩, rfl, hb⟩

end RuleSet

end SqlStyle
