import SqlStyle.Directive
import SqlStyle.Proofs.Text

/-!
# The grammar of directives

A comment is searched place by place: at each one the word, the keyword and the rule name are cut
off in turn, and where a cut fails the search goes on with the next character.  The grammar says
what is accepted without the search.  A directive stands at a position if the word and a keyword
do, in any case, and neither is part of a longer word.  The search finds the directive of the first
such position, and nothing if there is none.
-/

namespace SqlStyle

/-- A word is dropped exactly if the text begins with it up to the case of ASCII letters. -/
theorem Text.dropWord?_eq_some_iff {word cs rest : List Char} :
    dropWord? word cs = some rest ↔
      ∃ front, cs = front ++ rest ∧ front.map Char.toUpper = word.map Char.toUpper := by
  induction word generalizing cs with
  | nil =>
      rw [dropWord?]
      constructor
      · intro h
        exact ⟨[], Option.some.inj h, rfl⟩
      · rintro ⟨front, rfl, hfront⟩
        rw [List.map_eq_nil_iff.mp hfront]
        rfl
  | cons w word ih =>
      cases cs with
      | nil =>
          refine iff_of_false nofun ?_
          rintro ⟨front, hcs, hfront⟩
          rw [(List.append_eq_nil_iff.mp hcs.symm).1] at hfront
          cases hfront
      | cons c cs =>
          rw [dropWord?, sameLetter]
          constructor
          · intro h
            obtain ⟨hletter, h⟩ := Option.ite_none_right_eq_some.mp h
            obtain ⟨front, rfl, hfront⟩ := ih.mp h
            refine ⟨c :: front, rfl, ?_⟩
            rw [List.map_cons, List.map_cons, hfront, eq_of_beq hletter]
          · rintro ⟨front, hcs, hfront⟩
            cases front with
            | nil => cases hfront
            | cons c' front =>
                obtain ⟨rfl, rfl⟩ := List.cons.inj hcs
                obtain ⟨hletter, hfront⟩ := List.cons.inj hfront
                rw [if_pos (beq_iff_eq.mpr hletter.symm)]
                exact ih.mpr ⟨front, rfl, hfront⟩

namespace Directive

variable {b cs tail : List Char} {p : Nat} {a : Action} {d : Directive} {k : Key}

/-! ## Comments without their markers -/

/-- The second text is the first, a comment, without its markers. -/
inductive IsBody : List Char → List Char → Prop
  | block (b : List Char) : IsBody (['/', '*'] ++ b ++ ['*', '/']) b
  | unclosed {b : List Char} (h : ¬ ['*', '/'] <:+ b) : IsBody (['/', '*'] ++ b) b
  | line (b : List Char) : IsBody (['-', '-'] ++ b) b
  | bare {b : List Char} (hblock : ¬ ['/', '*'] <+: b) (hline : ¬ ['-', '-'] <+: b) : IsBody b b

theorem dropTail_append (cs tail : List Char) : dropTail tail (cs ++ tail) = cs := by
  rw [dropTail, if_pos (List.isSuffixOf_iff_suffix.mpr (List.suffix_append cs tail)),
    List.length_append, Nat.add_sub_cancel, List.take_left']
  rfl

theorem dropTail_of_not_suffix (h : ¬ tail <:+ cs) : dropTail tail cs = cs := by
  rw [dropTail, if_neg fun hsuffix => h (List.isSuffixOf_iff_suffix.mp hsuffix)]

/-- Every comment has one body. -/
theorem isBody_iff : IsBody cs b ↔ b = body cs := by
  constructor
  · intro h
    cases h with
    | block => exact (dropTail_append b ['*', '/']).symm
    | unclosed h => exact (dropTail_of_not_suffix h).symm
    | line => rfl
    | bare hblock hline =>
        rw [body.eq_def]
        split
        · next inner => exact absurd (List.prefix_append ['/', '*'] inner) hblock
        · next inner => exact absurd (List.prefix_append ['-', '-'] inner) hline
        · rfl
  · rintro rfl
    rw [body.eq_def]
    split
    · next inner =>
        by_cases h : ['*', '/'] <:+ inner
        · obtain ⟨b, rfl⟩ := h
          rw [dropTail_append]
          exact .block b
        · rw [dropTail_of_not_suffix h]
          exact .unclosed h
    · next inner => exact .line inner
    · next hblock hline =>
        refine .bare ?_ ?_
        · rintro ⟨inner, rfl⟩
          exact hblock inner rfl
        · rintro ⟨inner, rfl⟩
          exact hline inner rfl

/-! ## Rule names -/

/-- The longest run of characters that pass a test at the front of a text, and what is left. -/
structure Run (test : Char → Bool) (cs run rest : List Char) : Prop where
  append_eq : run ++ rest = cs
  pass : ∀ c ∈ run, test c = true
  ends : ∀ c ∈ rest.head?, test c = false

theorem run_iff {test : Char → Bool} {run rest : List Char} :
    Run test cs run rest ↔ run = cs.takeWhile test ∧ rest = cs.dropWhile test := by
  constructor
  · rintro ⟨rfl, hpass, hends⟩
    rw [List.takeWhile_append_of_pos hpass, List.dropWhile_append_of_pos hpass]
    cases rest with
    | nil => exact ⟨(List.append_nil run).symm, rfl⟩
    | cons c rest =>
        have hc : test c = false := hends c rfl
        rw [List.takeWhile_cons, List.dropWhile_cons, hc]
        exact ⟨(List.append_nil run).symm, rfl⟩
  · rintro ⟨rfl, rfl⟩
    refine ⟨List.takeWhile_append_dropWhile, fun c hc => List.mem_takeWhile_imp hc, ?_⟩
    intro c hc
    rw [← List.find?_not_eq_head?_dropWhile] at hc
    simpa using List.find?_some hc

/-- The text behind a keyword names one rule, by what stands behind its blanks, or no rule and so
all of them. -/
def NamesKey (tail : List Char) (k : Key) : Prop :=
  ∃ blanks cs name rest, Run Text.isBlank tail blanks cs ∧ Run isNameChar cs name rest ∧
    k = if name = [] then none else some (Text.upper (.ofList name))

theorem namesKey_iff : NamesKey tail k ↔ k = keyOf tail := by
  have hkey : keyOf tail = if (tail.dropWhile Text.isBlank).takeWhile isNameChar = [] then none
      else some (Text.upper (.ofList ((tail.dropWhile Text.isBlank).takeWhile isNameChar))) := by
    rw [keyOf]
    split
    · next h => rw [if_pos h]
    · next h => rw [if_neg h]
  rw [hkey]
  constructor
  · rintro ⟨blanks, cs, name, rest, hblanks, hname, rfl⟩
    rw [(run_iff.mp hname).1, (run_iff.mp hblanks).2]
  · intro h
    exact ⟨_, _, _, _, run_iff.mpr ⟨rfl, rfl⟩, run_iff.mpr ⟨rfl, rfl⟩, h⟩

/-! ## Directives at a position -/

/-- A directive stands at a position of a text, with the given text behind its keyword: there are
the word and the keyword in any ASCII case, no character of a word stands right before them, and no
character of a rule name carries them on. -/
structure StandsAt (b : List Char) (p : Nat) (a : Action) (tail : List Char) : Prop where
  words : ∃ front, b.drop p = front ++ tail ∧
    Text.eqIgnoreCase (.ofList front) ("tsqllint-" ++ a.keyword) = true
  ends : ∀ c ∈ tail.head?, isNameChar c = false
  starts : ∀ c ∈ (b.take p).getLast?, isJoined c = false

/-- The directive at a position of a text, if there is one. -/
def at? (b : List Char) (p : Nat) : Option Directive :=
  behind? (b.take p).getLast? (b.drop p)

/-- One word behind another is the two as one word. -/
theorem dropWord?_append_eq_some_iff {word word' : List Char} :
    Text.dropWord? (word ++ word') cs = some tail ↔
      ∃ rest, Text.dropWord? word cs = some rest ∧ Text.dropWord? word' rest = some tail := by
  fun_induction Text.dropWord? word cs with
  | case1 cs => simp
  | case2 w word c cs hletter ih => rw [List.cons_append, Text.dropWord?, if_pos hletter, ih]
  | case3 w word c cs hletter => simp [Text.dropWord?, hletter]
  | case4 w word => simp [Text.dropWord?]

theorem afterAction?_eq_some_iff :
    afterAction? a cs = some tail ↔
      Text.dropWord? a.keyword.toList cs = some tail ∧ ∀ c ∈ tail.head?, isNameChar c = false := by
  have hends (rest : List Char) : ¬ rest.head?.any isNameChar = true ↔
      ∀ c ∈ rest.head?, isNameChar c = false := by
    cases rest <;> simp
  rw [afterAction?]
  split
  · next rest hrest =>
      rw [hrest, Option.ite_none_left_eq_some, hends]
      constructor
      · rintro ⟨hends, ⟨⟩⟩
        exact ⟨rfl, hends⟩
      · rintro ⟨⟨⟩, hends⟩
        exact ⟨hends, rfl⟩
  · next hnone =>
      rw [hnone]
      exact iff_of_false nofun fun h => nomatch h.1

/-- The keywords begin with different letters, so no text goes on with both. -/
theorem afterAction?_disable_of_enable (h : afterAction? .enable cs = some tail) :
    afterAction? .disable cs = none := by
  rw [Option.eq_none_iff_forall_ne_some]
  intro tail' h'
  obtain ⟨front, rfl, hfront⟩ := Text.dropWord?_eq_some_iff.mp (afterAction?_eq_some_iff.mp h).1
  obtain ⟨front', hcs, hfront'⟩ := Text.dropWord?_eq_some_iff.mp (afterAction?_eq_some_iff.mp h').1
  have hletter := congrArg (fun cs => (cs.map Char.toUpper).head?) hcs
  simp only [List.map_append, hfront, hfront'] at hletter
  cases hletter

/-- What stands at the front of a text is the word, a keyword, and the name of a rule. -/
theorem here?_eq_some_iff :
    here? cs = some d ↔ ∃ rest tail, Text.dropWord? "tsqllint-".toList cs = some rest ∧
      afterAction? d.action rest = some tail ∧ d.key = keyOf tail := by
  rw [here?]
  split
  · next hnone =>
      refine iff_of_false nofun ?_
      rintro ⟨rest, tail, hrest, -⟩
      cases hnone.symm.trans hrest
  · next rest hrest =>
      constructor
      · intro h
        split at h
        · next tail hdisable =>
            cases h
            exact ⟨rest, tail, hrest, hdisable, rfl⟩
        · split at h
          · next tail henable =>
              cases h
              exact ⟨rest, tail, hrest, henable, rfl⟩
          · cases h
      · obtain ⟨a, k⟩ := d
        rintro ⟨rest', tail, hrest', haction, rfl⟩
        cases hrest.symm.trans hrest'
        cases a with
        | disable =>
            have hdisable : afterAction? .disable rest = some tail := haction
            rw [hdisable]
        | enable =>
            have henable : afterAction? .enable rest = some tail := haction
            rw [afterAction?_disable_of_enable henable, henable]

theorem behind?_eq_some_iff {before : Option Char} :
    behind? before cs = some d ↔ (∀ c ∈ before, isJoined c = false) ∧ here? cs = some d := by
  rw [behind?, Option.ite_none_left_eq_some]
  refine and_congr_left fun _ => ?_
  cases before <;> simp

/-- The word and the keyword are one word, up to ASCII case. -/
theorem exists_dropWord?_iff :
    (∃ rest, Text.dropWord? "tsqllint-".toList cs = some rest ∧
        Text.dropWord? a.keyword.toList rest = some tail) ↔
      ∃ front, cs = front ++ tail ∧
        Text.eqIgnoreCase (.ofList front) ("tsqllint-" ++ a.keyword) = true := by
  rw [← dropWord?_append_eq_some_iff, Text.dropWord?_eq_some_iff]
  refine exists_congr fun front => and_congr_right fun _ => ?_
  rw [Text.eqIgnoreCase_iff, ← String.toList_inj, Text.toList_upper, Text.toList_upper,
    String.toList_append, String.toList_ofList (l := front)]

/-- The directive at a position is what the grammar has there. -/
theorem at?_eq_some_iff :
    at? b p = some d ↔ ∃ tail, StandsAt b p d.action tail ∧ NamesKey tail d.key := by
  rw [at?, behind?_eq_some_iff, here?_eq_some_iff]
  constructor
  · rintro ⟨hstarts, rest, tail, hrest, haction, hkey⟩
    obtain ⟨htail, hends⟩ := afterAction?_eq_some_iff.mp haction
    exact ⟨tail, ⟨exists_dropWord?_iff.mp ⟨rest, hrest, htail⟩, hends, hstarts⟩,
      namesKey_iff.mpr hkey⟩
  · rintro ⟨tail, ⟨hwords, hends, hstarts⟩, hkey⟩
    obtain ⟨rest, hrest, htail⟩ := exists_dropWord?_iff.mpr hwords
    exact ⟨hstarts, rest, tail, hrest, afterAction?_eq_some_iff.mpr ⟨htail, hends⟩,
      namesKey_iff.mp hkey⟩

theorem at?_eq_none_iff : at? b p = none ↔ ∀ a tail, ¬ StandsAt b p a tail := by
  rw [Option.eq_none_iff_forall_ne_some]
  constructor
  · intro h a tail hstands
    exact h ⟨a, keyOf tail⟩ (at?_eq_some_iff.mpr ⟨tail, hstands, namesKey_iff.mpr rfl⟩)
  · intro h d hd
    obtain ⟨tail, hstands, -⟩ := at?_eq_some_iff.mp hd
    exact h d.action tail hstands

/-! ## The search -/

/-- Behind some text, the search finds the directive of the first position that has one. -/
theorem find?_eq_some_iff (front cs : List Char) (d : Directive) :
    find? front.getLast? cs = some d ↔ ∃ p, front.length ≤ p ∧ at? (front ++ cs) p = some d ∧
      ∀ q, front.length ≤ q → q < p → at? (front ++ cs) q = none := by
  induction cs generalizing front with
  | nil =>
      refine iff_of_false nofun ?_
      rintro ⟨p, hp, hat, -⟩
      rw [List.append_nil, at?, List.drop_of_length_le hp, behind?_eq_some_iff] at hat
      cases hat.2
  | cons c cs ih =>
      have hhere : at? (front ++ c :: cs) front.length = behind? front.getLast? (c :: cs) := by
        rw [at?, List.take_left, List.drop_left]
      have hrest := ih (front ++ [c])
      rw [List.getLast?_concat, List.append_assoc, List.singleton_append, List.length_append,
        List.length_singleton] at hrest
      rw [find?, ← hhere]
      split
      · next d' hd' =>
          constructor
          · rintro ⟨⟩
            exact ⟨front.length, Nat.le_refl _, hd', fun q hq hlt => absurd hlt (Nat.not_lt.mpr hq)⟩
          · rintro ⟨p, hp, hat, hfirst⟩
            rcases hp.eq_or_lt with rfl | hlt
            · exact hd'.symm.trans hat
            · cases hd'.symm.trans (hfirst front.length (Nat.le_refl _) hlt)
      · next hnone =>
          rw [hrest]
          refine exists_congr fun p => ?_
          constructor
          · rintro ⟨hp, hat, hfirst⟩
            refine ⟨Nat.le_of_succ_le hp, hat, fun q hq hlt => ?_⟩
            rcases hq.eq_or_lt with rfl | hq
            · exact hnone
            · exact hfirst q hq hlt
          · rintro ⟨hp, hat, hfirst⟩
            refine ⟨?_, hat, fun q hq hlt => hfirst q (Nat.le_of_succ_le hq) hlt⟩
            rcases hp.eq_or_lt with rfl | hlt
            · cases hnone.symm.trans hat
            · exact hlt

theorem find?_eq_none_iff : find? none cs = none ↔ ∀ p, at? cs p = none := by
  constructor
  · intro h
    by_contra hsome
    rw [not_forall] at hsome
    -- the least position that has a directive is the one that is found
    obtain ⟨d, hd⟩ := Option.ne_none_iff_exists'.mp (Nat.find_spec hsome)
    have hfound := (find?_eq_some_iff [] cs d).mpr ⟨Nat.find hsome, Nat.zero_le _, hd,
      fun q _ hq => not_not.mp (Nat.find_min hsome hq)⟩
    cases h.symm.trans hfound
  · intro h
    rw [Option.eq_none_iff_forall_ne_some]
    intro d hd
    obtain ⟨p, -, hat, -⟩ := (find?_eq_some_iff [] cs d).mp hd
    cases (h p).symm.trans hat

/-- Comments are read by the grammar of directives.  Every comment has one body, which is what is
left without its markers.  The comment holds no directive exactly if none stands at any position of
the body.  It holds a directive exactly if this is the one of the first position that has any: its
action is that of the keyword there, and its key is the longest run of name characters behind the
blanks that follow, in upper case, or all rules if this run is empty. -/
theorem parse_accepts_grammar (comment : String) :
    ∃ b, (∀ b', IsBody comment.toList b' ↔ b' = b) ∧
      (parse comment = none ↔ ∀ p a tail, ¬ StandsAt b p a tail) ∧
      ∀ d, parse comment = some d ↔ ∃ p tail, StandsAt b p d.action tail ∧
        (∀ q < p, ∀ a' tail', ¬ StandsAt b q a' tail') ∧ NamesKey tail d.key := by
  refine ⟨body comment.toList, fun b' => isBody_iff, ?_, fun d => ?_⟩
  · rw [parse, find?_eq_none_iff]
    exact forall_congr' fun p => at?_eq_none_iff
  · rw [parse]
    constructor
    · intro h
      obtain ⟨p, -, hat, hfirst⟩ := (find?_eq_some_iff [] _ d).mp h
      obtain ⟨tail, hstands, hkey⟩ := at?_eq_some_iff.mp hat
      exact ⟨p, tail, hstands, fun q hq => at?_eq_none_iff.mp (hfirst q (Nat.zero_le q) hq), hkey⟩
    · rintro ⟨p, tail, hstands, hfirst, hkey⟩
      exact (find?_eq_some_iff [] _ d).mpr ⟨p, Nat.zero_le p,
        at?_eq_some_iff.mpr ⟨tail, hstands, hkey⟩,
        fun q _ hq => at?_eq_none_iff.mpr (hfirst q hq)⟩

example : parse "/* xtsqllint-disable tsqllint-é TSQLLint-Enable  a_b! */" =
    some ⟨.enable, some "A_B"⟩ := by decide

end Directive

end SqlStyle
