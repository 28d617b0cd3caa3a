import JustLang.Proofs.SourceLine
import Mathlib.Order.Bounds.Basic

namespace JustLang

namespace Text

variable {s t : Text}

-- The UTF-8 encoding.
def bytes (s : Text) : List UInt8 := s.flatMap String.utf8EncodeChar

theorem bytes_cons (c : Char) (s : Text) :
    bytes (c :: s) = String.utf8EncodeChar c ++ bytes s := List.flatMap_cons

theorem bytes_append (s t : Text) : bytes (s ++ t) = bytes s ++ bytes t := List.flatMap_append

theorem length_bytes (s : Text) : s.bytes.length = s.byteSize := by
  induction s with
  | nil => rfl
  | cons c s ih =>
      rw [bytes_cons, List.length_append, String.length_utf8EncodeChar, ih, byteSize_cons]

theorem bytes_inj (h : s.bytes = t.bytes) : s = t := by
  have harray : (String.ofList s).toByteArray = (String.ofList t).toByteArray := by
    rw [String.toByteArray_ofList, String.toByteArray_ofList]
    exact congrArg List.toByteArray h
  exact String.ofList_injective (String.toByteArray_inj.mp harray)

def newlineByte : UInt8 := 10

theorem bytes_newline : bytes ['\n'] = [newlineByte] := rfl

theorem newlineByte_eq_ofNat_iff {n : Nat} : newlineByte = UInt8.ofNat n ↔ n % 256 = 10 := by
  rw [← UInt8.toNat_inj, UInt8.toNat_ofNat', eq_comm]
  rfl

-- Every byte of a character that has more than one is above the ASCII range.
theorem newlineByte_notMem_utf8EncodeChar {c : Char} (hc : c ≠ '\n') :
    newlineByte ∉ String.utf8EncodeChar c := by
  have hval : c.val.toNat ≠ 10 := fun h => hc (Char.ext (UInt32.toNat_inj.mp h))
  intro hmem
  unfold String.utf8EncodeChar at hmem
  simp only at hmem
  split_ifs at hmem <;>
    simp only [List.mem_cons, List.not_mem_nil, or_false, newlineByte_eq_ofNat_iff] at hmem <;>
    omega

theorem count_bytes (s : Text) : s.bytes.count newlineByte = s.count '\n' := by
  induction s with
  | nil => rfl
  | cons c s ih =>
      rw [bytes_cons, List.count_append, ih, List.count_cons, Nat.add_comm]
      by_cases hc : c = '\n'
      · subst hc
        rfl
      · have hnone := List.count_eq_zero.mpr (newlineByte_notMem_utf8EncodeChar hc)
        rw [hnone, if_neg (by simpa using hc)]

theorem newlineByte_notMem_bytes (h : '\n' ∉ s) : newlineByte ∉ s.bytes := by
  rw [← List.count_eq_zero, count_bytes]
  exact List.count_eq_zero.mpr h

end Text

open Text (newlineByte)

-- Where the line with the byte at the given offset begins: nowhere between the two is a newline.
structure LineStart (source : List UInt8) (offset start : Nat) : Prop where
  le : start ≤ offset
  first : start = 0 ∨ source[start - 1]? = some newlineByte
  newline_notMem : newlineByte ∉ (source.take offset).drop start

-- Where it ends: behind the first newline at the offset or after it, or with the source.
inductive LineStop (source : List UInt8) (offset : Nat) : Nat → Prop where
  | newline {i : Nat} : IsLeast {i | offset ≤ i ∧ source[i]? = some newlineByte} i →
      LineStop source offset (i + 1)
  | last : (∀ i, offset ≤ i → source[i]? ≠ some newlineByte) →
      LineStop source offset source.length

section Bounds

variable {source : List UInt8} {offset i j : Nat}

theorem LineStart.not_lt (hi : LineStart source offset i) (hj : LineStart source offset j) :
    ¬ i < j := by
  intro hlt
  have hnewline : source[j - 1]? = some newlineByte :=
    hj.first.resolve_left (Nat.ne_of_gt (Nat.zero_lt_of_lt hlt))
  have hoffset : j - 1 < offset := by
    have hle := hj.le
    omega
  have hget : ((source.take offset).drop i)[j - 1 - i]? = some newlineByte := by
    rw [List.getElem?_drop, List.getElem?_take_of_lt (by omega), Nat.add_sub_of_le (by omega),
      hnewline]
  exact hi.newline_notMem (List.mem_of_getElem? hget)

theorem LineStart.unique (hi : LineStart source offset i) (hj : LineStart source offset j) :
    i = j := by
  have hij := hi.not_lt hj
  have hji := hj.not_lt hi
  omega

theorem LineStop.unique (hi : LineStop source offset i) (hj : LineStop source offset j) :
    i = j := by
  cases hi with
  | newline hi =>
      cases hj with
      | newline hj => rw [hi.unique hj]
      | last hj => exact absurd hi.1.2 (hj _ hi.1.1)
  | last hi =>
      cases hj with
      | newline hj => exact absurd hj.1.2 (hi _ hj.1.1)
      | last _ => rfl

end Bounds

namespace SourceLine

variable {s above body below : Text} {number offset : Nat} {line other : SourceLine}

-- The line of the byte at the given offset, which may be the one behind the last.
structure LineAt (s : Text) (offset : Nat) (line : SourceLine) : Prop where
  offset_le : line.offset ≤ offset
  start : LineStart s.bytes offset (offset - line.offset)
  number_eq : line.number = 1 + (s.bytes.take offset).count newlineByte
  text : ∃ stop, LineStop s.bytes offset stop ∧
    line.text.bytes = (s.bytes.take stop).drop (offset - line.offset)

theorem LineAt.unique (h : LineAt s offset line) (hother : LineAt s offset other) :
    line = other := by
  obtain ⟨stop, hstop, htext⟩ := h.text
  obtain ⟨stop', hstop', htext'⟩ := hother.text
  have hstart := h.start.unique hother.start
  have hoffset : line.offset = other.offset := by
    have hle := h.offset_le
    have hle' := hother.offset_le
    omega
  have hnumber : line.number = other.number := h.number_eq.trans hother.number_eq.symm
  have hbytes : line.text.bytes = other.text.bytes := by
    rw [htext, htext', hstart, hstop.unique hstop']
  cases line
  cases other
  simp only [mk.injEq]
  exact ⟨hnumber, Text.bytes_inj hbytes, hoffset⟩

-- A source taken apart around a line. The body of the line is what stands before its newline.
structure Splits (s : Text) (number offset : Nat) (line : SourceLine)
    (above body below : Text) : Prop where
  source_eq : s = above ++ (line.text ++ below)
  above_eq : above = [] ∨ ∃ t, above = t ++ ['\n']
  text_eq : line.text = body ∧ below = [] ∨ line.text = body ++ ['\n']
  newline_notMem : '\n' ∉ body
  offset_le : line.offset ≤ body.byteSize
  offset_eq : offset = above.byteSize + line.offset
  number_eq : line.number = number + above.count '\n'

theorem exists_splits_of_search? (h : search? number offset s = some line) :
    ∃ above body below, Splits s number offset line above body below := by
  induction s using Text.line_induction generalizing number offset with
  | last s hs =>
      rw [search?_of_newline_notMem hs] at h
      obtain ⟨hle, hline⟩ := Option.ite_none_right_eq_some.mp h
      cases hline
      exact ⟨[], s, [], by simp, .inl rfl, .inl ⟨rfl, rfl⟩, hs, hle, by simp, by simp⟩
  | line s t hs ih =>
      rw [search?_append_newline hs] at h
      by_cases hle : offset ≤ s.byteSize
      · rw [if_pos hle] at h
        cases h
        exact ⟨[], s, t, by simp, .inl rfl, .inr rfl, hs, hle, by simp, by simp⟩
      · rw [if_neg hle] at h
        obtain ⟨above, body, below, hsplits⟩ := ih h
        have habove : ∃ u, s ++ '\n' :: above = u ++ ['\n'] := by
          rcases hsplits.above_eq with rfl | ⟨u, rfl⟩
          · exact ⟨s, rfl⟩
          · exact ⟨s ++ '\n' :: u, by simp⟩
        have hoffset := hsplits.offset_eq
        refine ⟨s ++ '\n' :: above, body, below, ?_, .inr habove, hsplits.text_eq,
          hsplits.newline_notMem, hsplits.offset_le, ?_, ?_⟩
        · rw [List.append_assoc, List.cons_append, ← hsplits.source_eq]
        · rw [Text.byteSize_append_newline]
          omega
        · rw [hsplits.number_eq, Text.count_append_newline hs]
          omega

theorem search?_eq_none_iff : search? number offset s = none ↔ s.byteSize < offset := by
  induction s using Text.line_induction generalizing number offset with
  | last s hs =>
      rw [search?_of_newline_notMem hs]
      by_cases hle : offset ≤ s.byteSize
      · rw [if_pos hle]
        simpa using hle
      · rw [if_neg hle]
        simpa using hle
  | line s t hs ih =>
      rw [search?_append_newline hs, Text.byteSize_append_newline]
      by_cases hle : offset ≤ s.byteSize
      · rw [if_pos hle]
        simp only [reduceCtorEq, false_iff]
        omega
      · rw [if_neg hle, ih]
        omega

section Splits

variable (h : Splits s number offset line above body below)
include h

theorem Splits.start_eq : offset - line.offset = above.bytes.length := by
  have hoffset := h.offset_eq
  rw [Text.length_bytes]
  omega

theorem Splits.bytes_eq : s.bytes = above.bytes ++ (line.text.bytes ++ below.bytes) := by
  rw [h.source_eq, Text.bytes_append, Text.bytes_append]

theorem Splits.body_isPrefix : body <+: line.text := by
  rcases h.text_eq with ⟨htext, -⟩ | htext
  · exact ⟨[], by rw [List.append_nil, htext]⟩
  · exact ⟨['\n'], htext.symm⟩

theorem Splits.offset_le_byteSize : line.offset ≤ line.text.byteSize := by
  obtain ⟨rest, hrest⟩ := h.body_isPrefix
  have hle := h.offset_le
  rw [← hrest, Text.byteSize_append]
  omega

theorem Splits.exists_bytes_eq : ∃ rest, s.bytes = above.bytes ++ (body.bytes ++ rest) := by
  obtain ⟨rest, hrest⟩ := h.body_isPrefix
  exact ⟨Text.bytes rest ++ below.bytes, by
    rw [h.bytes_eq, ← hrest, Text.bytes_append, List.append_assoc]⟩

theorem Splits.take_bytes : s.bytes.take offset = above.bytes ++ body.bytes.take line.offset := by
  obtain ⟨rest, hbytes⟩ := h.exists_bytes_eq
  have hle : line.offset ≤ body.bytes.length := by
    rw [Text.length_bytes]
    exact h.offset_le
  rw [hbytes, h.offset_eq, ← Text.length_bytes, List.take_length_add_append,
    List.take_append_of_le_length hle]

theorem Splits.newlineByte_notMem_take : newlineByte ∉ body.bytes.take line.offset := fun hmem =>
  Text.newlineByte_notMem_bytes h.newline_notMem (List.mem_of_mem_take hmem)

theorem Splits.lineStart : LineStart s.bytes offset (offset - line.offset) := by
  refine ⟨Nat.sub_le _ _, ?_, ?_⟩
  · rw [h.start_eq]
    rcases h.above_eq with habove | ⟨t, habove⟩
    · exact .inl (by rw [habove]; rfl)
    · have hnewline : above.bytes = t.bytes ++ [newlineByte] := by
        rw [habove, Text.bytes_append, Text.bytes_newline]
      exact .inr (by simp [h.bytes_eq, hnewline])
  · rw [h.start_eq, h.take_bytes, List.drop_left]
    exact h.newlineByte_notMem_take

theorem Splits.count_take_bytes : (s.bytes.take offset).count newlineByte = above.count '\n' := by
  rw [h.take_bytes, List.count_append, List.count_eq_zero.mpr h.newlineByte_notMem_take,
    Text.count_bytes, Nat.add_zero]

-- No byte at the offset or after it is a newline before the body ends.
theorem Splits.length_le_of_newline {i : Nat} (hi : offset ≤ i)
    (hnewline : s.bytes[i]? = some newlineByte) :
    above.bytes.length + body.bytes.length ≤ i := by
  by_contra hlt
  have habove : above.bytes.length ≤ i := by
    have hoffset := h.offset_eq
    rw [Text.length_bytes]
    omega
  have hget : body.bytes[i - above.bytes.length]? = some newlineByte := by
    obtain ⟨rest, hbytes⟩ := h.exists_bytes_eq
    rwa [hbytes, List.getElem?_append_right habove,
      List.getElem?_append_left (by omega)] at hnewline
  exact Text.newlineByte_notMem_bytes h.newline_notMem (List.mem_of_getElem? hget)

theorem Splits.lineStop_of_last (htext : line.text = body) (hbelow : below = []) :
    LineStop s.bytes offset (above.bytes.length + line.text.bytes.length) := by
  have hlength : s.bytes.length = above.bytes.length + line.text.bytes.length := by
    rw [h.bytes_eq, hbelow, List.length_append, List.length_append]
    rfl
  rw [← hlength]
  refine .last fun i hi hnewline => ?_
  have hle := h.length_le_of_newline hi hnewline
  rw [← htext, ← hlength] at hle
  rw [List.getElem?_eq_none hle] at hnewline
  cases hnewline

theorem Splits.lineStop_of_newline (htext : line.text = body ++ ['\n']) :
    LineStop s.bytes offset (above.bytes.length + line.text.bytes.length) := by
  have hbytes : s.bytes = above.bytes ++ (body.bytes ++ newlineByte :: below.bytes) := by
    rw [h.bytes_eq, htext, Text.bytes_append, Text.bytes_newline, List.append_assoc]
    rfl
  have hlength : above.bytes.length + line.text.bytes.length =
      above.bytes.length + body.bytes.length + 1 := by
    rw [htext, Text.bytes_append, List.length_append]
    rfl
  have hoffset : offset ≤ above.bytes.length + body.bytes.length := by
    have heq := h.offset_eq
    have hle := h.offset_le
    rw [Text.length_bytes, Text.length_bytes]
    omega
  have hnewline : s.bytes[above.bytes.length + body.bytes.length]? = some newlineByte := by
    rw [hbytes]
    simp
  rw [hlength]
  refine .newline ⟨⟨hoffset, hnewline⟩, ?_⟩
  rintro i ⟨hi, hget⟩
  exact h.length_le_of_newline hi hget

theorem Splits.bytes_text_eq :
    line.text.bytes = (s.bytes.take (above.bytes.length + line.text.bytes.length)).drop
      (offset - line.offset) := by
  rw [h.start_eq, h.bytes_eq, List.take_length_add_append, List.drop_left, List.take_left]

theorem Splits.exists_lineStop : ∃ stop, LineStop s.bytes offset stop ∧
    line.text.bytes = (s.bytes.take stop).drop (offset - line.offset) := by
  rcases h.text_eq with ⟨htext, hbelow⟩ | htext
  · exact ⟨_, h.lineStop_of_last htext hbelow, h.bytes_text_eq⟩
  · exact ⟨_, h.lineStop_of_newline htext, h.bytes_text_eq⟩

end Splits

theorem Splits.lineAt (h : Splits s 1 offset line above body below) : LineAt s offset line := by
  refine ⟨?_, h.lineStart, ?_, h.exists_lineStop⟩
  · rw [h.offset_eq]
    exact Nat.le_add_left _ _
  · rw [h.number_eq, h.count_take_bytes]

theorem exists_splits_of_at? (h : at? s offset = some line) :
    ∃ above body below, Splits s 1 offset line above body below := by
  rw [at?_eq_search?] at h
  exact exists_splits_of_search? h

theorem lineAt_of_at? (h : at? s offset = some line) : LineAt s offset line := by
  obtain ⟨above, body, below, hsplits⟩ := exists_splits_of_at? h
  exact hsplits.lineAt

theorem at?_eq_none_iff : at? s offset = none ↔ s.byteSize < offset := by
  rw [at?_eq_search?]
  exact search?_eq_none_iff

theorem exists_at?_of_le (h : offset ≤ s.byteSize) : ∃ line, at? s offset = some line := by
  cases hline : at? s offset with
  | none => exact absurd (at?_eq_none_iff.mp hline) (Nat.not_lt.mpr h)
  | some line => exact ⟨line, rfl⟩

theorem at?_eq_some_iff :
    at? s offset = some line ↔ offset ≤ s.byteSize ∧ LineAt s offset line := by
  constructor
  · intro h
    refine ⟨Nat.le_of_not_lt fun hlt => ?_, lineAt_of_at? h⟩
    rw [at?_eq_none_iff.mpr hlt] at h
    cases h
  · rintro ⟨hle, hline⟩
    obtain ⟨found, hfound⟩ := exists_at?_of_le hle
    rw [hfound, (lineAt_of_at? hfound).unique hline]

-- Every byte of a source lies on one line, and the place behind the last byte on the last line.
theorem at?_exact (s : Text) (offset : Nat) :
    (at? s offset = none ↔ s.bytes.length < offset) ∧
    ∀ line, at? s offset = some line ↔ offset ≤ s.bytes.length ∧ LineAt s offset line := by
  rw [Text.length_bytes]
  exact ⟨at?_eq_none_iff, fun line => at?_eq_some_iff⟩

-- The second byte of a character, and the end behind a newline.
example : at? "a\né\n".toList 3 = some ⟨2, "é\n".toList, 1⟩ ∧
    at? "a\né\n".toList 5 = some ⟨3, [], 0⟩ := by decide

end SourceLine

end JustLang
