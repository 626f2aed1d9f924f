import SqlStyle.Diagnostic.Label
import SqlStyle.Proofs.Text.Bytes

/-!
# Labels select the characters of a diagnostic

A diagnostic knows its characters by their positions, and a label is drawn over bytes.  The
characters before the diagnostic, its own and those behind it cut the source in three, and the
encoding of a text that is put together is put together from the encodings of its parts.  So the
offset of the label is the length of the first part in bytes, and its length is that of the second.
Where the text ends too early, the parts are shorter or empty, and nothing else changes.  Only a
diagnostic that stops at the last offset of all has no offset behind it.
-/

namespace SqlStyle

namespace Text

variable (s : String) (n first last : Nat)

/-- The first characters of a text. -/
def upTo : String := .ofList (s.toList.take n)

/-- The characters behind the first ones. -/
def behind : String := .ofList (s.toList.drop n)

/-- The characters from one position to another, both included, as far as the text has them. -/
def stretch : String := .ofList ((s.toList.drop first).take (last + 1 - first))

theorem upTo_append_behind : upTo s n ++ behind s n = s := by
  rw [upTo, behind, ← String.ofList_append, List.take_append_drop, String.ofList_toList]

variable {first last} in
theorem upTo_append_stretch (h : first ≤ last) :
    upTo s first ++ stretch s first last = upTo s (last + 1) := by
  have hsum : first + (last + 1 - first) = last + 1 := by omega
  rw [upTo, stretch, upTo, ← String.ofList_append, ← List.take_add, hsum]

/-- A stretch stops at the last character of the text, if it gets there. -/
theorem stretch_min : stretch s first (min last (s.length - 1)) = stretch s first last := by
  rw [stretch, stretch, List.take_eq_take_iff.mpr]
  rw [List.length_drop, String.length_toList]
  omega

theorem bytes_append (s t : String) : bytes (s ++ t) = bytes s ++ bytes t := by
  rw [bytes_eq_flatMap, bytes_eq_flatMap, bytes_eq_flatMap, String.toList_append,
    List.flatMap_append]

end Text

open Text (bytes upTo behind stretch)

namespace ByteSpan

/-- The bytes of a source that a span selects are the encoding of a text: they lie within the
source, and begin and end between characters. -/
structure Selects (span : ByteSpan) (source text : String) : Prop where
  within : span.offset + span.length ≤ (bytes source).length
  bytes_eq : ((bytes source).drop span.offset).take span.length = bytes text
  starts : String.Pos.Raw.IsValid source ⟨span.offset⟩
  stops : String.Pos.Raw.IsValid source ⟨span.offset + span.length⟩

/-- The first part of a text ends between characters, wherever the text is cut. -/
theorem isValid_length_bytes (s t : String) :
    String.Pos.Raw.IsValid (s ++ t) ⟨(bytes s).length⟩ :=
  String.Pos.Raw.isValid_iff_exists_append.mpr ⟨s, t, rfl, rfl⟩

/-- Of three texts put together, the middle one is selected by the lengths of the first two. -/
theorem selects_append (s t u : String) :
    Selects ⟨(bytes s).length, (bytes t).length⟩ (s ++ t ++ u) t where
  within := by
    rw [Text.bytes_append, Text.bytes_append, List.length_append, List.length_append]
    exact Nat.le_add_right _ _
  bytes_eq := by
    rw [Text.bytes_append, Text.bytes_append, List.append_assoc, List.drop_left, List.take_left]
  starts := by
    rw [String.append_assoc]
    exact isValid_length_bytes s (t ++ u)
  stops := by
    have h := isValid_length_bytes (s ++ t) u
    rwa [Text.bytes_append, List.length_append] at h

end ByteSpan

/-- Sizes of characters add up to the length of their encoding. -/
theorem byteOffset_eq_length (s : String) (n : Nat) :
    byteOffset s.toList n = (bytes (upTo s n)).length := by
  rw [byteOffset, Text.bytes_eq_flatMap, upTo, String.toList_ofList]
  induction s.toList.take n with
  | nil => rfl
  | cons c cs ih =>
      rw [total_cons, List.flatMap_cons, List.length_append, String.length_utf8EncodeChar, ih]

namespace Label

/-- A label begins behind the characters before its diagnostic, and is as long as the diagnostic's
own. -/
theorem spanOf_eq {d : Diagnostic} (h : d.startChar ≤ d.stopChar) (hlast : d.stopChar + 1 < offsets)
    (source : String) :
    spanOf d source = ⟨(bytes (upTo source d.startChar)).length,
      (bytes (stretch source d.startChar d.stopChar)).length⟩ := by
  rw [spanOf, Nat.mod_eq_of_lt hlast, byteOffset_eq_length, byteOffset_eq_length,
    ← Text.upTo_append_stretch source h, Text.bytes_append, List.length_append,
    Nat.add_sub_cancel_left]

/-- Labels select the right bytes.  In every source, the label of a diagnostic that does not stop
before it starts, nor at the last offset there is, lies within the bytes of the source.  These bytes
are the encoding of the characters from the start of the diagnostic to its stop, or to the last
character if the source ends before; there are none if it ends before the start.  So the label
begins and ends between characters. -/
theorem label_selects_characters (d : Diagnostic) (source : String) (hfault : d.isFault = false)
    (hle : d.startChar ≤ d.stopChar) (hlast : d.stopChar + 1 < offsets) :
    (ofDiagnostic d source).span.Selects source
      (stretch source d.startChar (min d.stopChar (source.length - 1))) := by
  have hspan : (ofDiagnostic d source).span = spanOf d source := by
    rw [ofDiagnostic, hfault]
    rfl
  have hcut : upTo source d.startChar ++ stretch source d.startChar d.stopChar ++
      behind source (d.stopChar + 1) = source := by
    rw [Text.upTo_append_stretch source hle, Text.upTo_append_behind]
  have hselects := ByteSpan.selects_append (upTo source d.startChar)
    (stretch source d.startChar d.stopChar) (behind source (d.stopChar + 1))
  rw [hcut] at hselects
  rw [hspan, spanOf_eq hle hlast, Text.stretch_min]
  exact hselects

/-- Behind a character of two bytes, a diagnostic over characters of three and four bytes goes on
behind the end, up to the last offset but one. -/
theorem label_selects_to_the_end :
    let d : Diagnostic := ⟨⟨"select-star", "Expected column names instead of *", "€😀", 1,
      18446744073709551614, 1, 1⟩, .warning, false⟩
    d.isFault = false ∧ d.startChar ≤ d.stopChar ∧ d.stopChar + 1 < offsets ∧
      (ofDiagnostic d "é€😀").span = ⟨2, 7⟩ ∧ (ofDiagnostic d "é€😀").span.Selects "é€😀" "€😀" := by
  intro d
  have hlast : d.stopChar + 1 < offsets := by decide
  have hselects := label_selects_characters d "é€😀" rfl (by decide) hlast
  have hstretch : stretch "é€😀" 1 (min d.stopChar ("é€😀".length - 1)) = "€😀" := by decide
  rw [hstretch] at hselects
  exact ⟨rfl, by decide, hlast, by decide +kernel, hselects⟩

/-- A diagnostic that stops at the last offset has an empty label, also if there are characters to
select. -/
theorem label_empty_at_last_offset :
    ¬ ∀ (d : Diagnostic) (source : String), d.isFault = false → d.startChar ≤ d.stopChar →
      (ofDiagnostic d source).span.Selects source
        (stretch source d.startChar (min d.stopChar (source.length - 1))) := by
  intro h
  let d : Diagnostic := ⟨⟨"select-star", "Expected column names instead of *", "*", 0,
    18446744073709551615, 1, 0⟩, .warning, false⟩
  have hspan : (ofDiagnostic d "*").span = ⟨0, 0⟩ := by decide
  have hstretch : stretch "*" 0 (min d.stopChar ("*".length - 1)) = "*" := by decide
  have hbytes := (h d "*" rfl (by decide)).bytes_eq
  rw [hspan, hstretch, List.take_zero] at hbytes
  exact absurd hbytes.symm (by decide)

end Label

end SqlStyle
