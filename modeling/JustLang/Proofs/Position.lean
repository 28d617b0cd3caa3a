import JustLang.Position
import Mathlib.Data.List.Induction
import Mathlib.Data.List.TakeWhile

namespace JustLang

namespace Text

-- The number of characters after the last newline.
def column (s : Text) : Nat := (s.reverse.takeWhile (· ≠ '\n')).length

@[simp] theorem column_nil : column [] = 0 := rfl

theorem column_append_singleton (s : Text) (c : Char) :
    column (s ++ [c]) = if c = '\n' then 0 else column s + 1 := by
  by_cases hc : c = '\n' <;> simp [column, hc]

theorem slice?_append (before s after : Text) :
    (before ++ s ++ after).slice? before.byteSize (before.byteSize + s.byteSize) = some s := by
  have hstart : (before ++ s ++ after).charIndex? before.byteSize = some before.length := by
    rw [List.append_assoc]
    exact charIndex?_byteSize before (s ++ after)
  have hstop : (before ++ s ++ after).charIndex? (before.byteSize + s.byteSize) =
      some (before.length + s.length) := by
    have h := charIndex?_byteSize (before ++ s) after
    rwa [byteSize_append, List.length_append] at h
  simp only [slice?, hstart, hstop, Nat.le_add_right, ite_true]
  rw [← List.length_append, List.take_left, List.drop_left]

theorem slice?_zero_append (s after : Text) : (s ++ after).slice? 0 s.byteSize = some s := by
  have h := slice?_append [] s after
  rwa [List.nil_append, byteSize_nil, Nat.zero_add] at h

theorem slice?_append_byteSize (before s : Text) :
    (before ++ s).slice? before.byteSize (before ++ s).byteSize = some s := by
  have h := slice?_append before s []
  rwa [List.append_nil, ← byteSize_append] at h

-- A slice is cut out between two characters.
theorem slice?_eq_some_iff {s t : Text} {start stop : Nat} :
    s.slice? start stop = some t ↔
      ∃ before after, s = before ++ t ++ after ∧ before.byteSize = start ∧
        before.byteSize + t.byteSize = stop := by
  constructor
  · intro h
    unfold slice? at h
    split at h
    · next i j hi hj =>
        obtain ⟨hle, hcut⟩ := Option.ite_none_right_eq_some.mp h
        obtain rfl := Option.some.inj hcut
        obtain ⟨before, rest, hs, rfl, rfl⟩ := charIndex?_eq_some_iff.mp hi
        obtain ⟨upto, after, hs', rfl, rfl⟩ := charIndex?_eq_some_iff.mp hj
        obtain ⟨t, rfl⟩ : before <+: upto :=
          List.prefix_of_prefix_length_le ⟨rest, hs.symm⟩ ⟨after, hs'.symm⟩ hle
        rw [hs', List.take_left, List.drop_left]
        exact ⟨before, after, rfl, rfl, (byteSize_append before t).symm⟩
    · cases h
  · rintro ⟨before, after, rfl, rfl, rfl⟩
    exact slice?_append before t after

theorem count_add_column_le_length (s : Text) : s.count '\n' + s.column ≤ s.length := by
  induction s using List.reverseRecOn with
  | nil => simp
  | append_singleton s c ih =>
      rw [column_append_singleton, List.count_append, List.length_append]
      by_cases hc : c = '\n'
      · simp only [hc, ite_true, List.count_singleton_self, List.length_singleton]
        omega
      · have hcount : [c].count '\n' = 0 := by simp [hc]
        simp only [hc, ite_false, hcount, List.length_singleton]
        omega

theorem newline_notMem_of_spaces {s : Text} (h : ∀ c ∈ s, c = ' ') : '\n' ∉ s := by
  intro hm
  exact absurd (h _ hm) (by decide)

theorem byteSize_of_spaces {s : Text} (h : ∀ c ∈ s, c = ' ') : s.byteSize = s.length := by
  induction s with
  | nil => rfl
  | cons c s ih =>
      have hc : c.utf8Size = 1 := by
        rw [h c List.mem_cons_self]
        rfl
      rw [byteSize_cons, hc, ih fun d hd => h d (List.mem_cons_of_mem _ hd), List.length_cons,
        Nat.add_comm]

theorem eq_space_of_mem_leadingSpaces {s : Text} {c : Char} (h : c ∈ s.leadingSpaces) :
    c = ' ' := by
  simpa using List.mem_takeWhile_imp h

theorem byteSize_leadingSpaces (s : Text) : s.leadingSpaces.byteSize = s.indentation :=
  byteSize_of_spaces fun _ hc => eq_space_of_mem_leadingSpaces hc

-- No character is less than a byte.
theorem length_le_byteSize (s : Text) : s.length ≤ s.byteSize := by
  induction s with
  | nil => simp
  | cons c s ih =>
      have hc := c.utf8Size_pos
      simp only [List.length_cons, byteSize_cons]
      omega

end Text

namespace Cursor

-- The place behind one more character, whatever character it is.
def next (cursor : Cursor) (c : Char) : Cursor :=
  if c = '\n' then ⟨cursor.offset + c.utf8Size, cursor.line + 1, 0⟩
  else ⟨cursor.offset + c.utf8Size, cursor.line, cursor.column + 1⟩

-- The place behind a text, counted character by character.
def after (cursor : Cursor) (s : Text) : Cursor := s.foldl next cursor

@[simp] theorem after_nil (cursor : Cursor) : cursor.after [] = cursor := rfl

@[simp] theorem after_cons (cursor : Cursor) (c : Char) (s : Text) :
    cursor.after (c :: s) = (cursor.next c).after s := rfl

@[simp] theorem after_append (cursor : Cursor) (s t : Text) :
    cursor.after (s ++ t) = (cursor.after s).after t := List.foldl_append

theorem offset_after (cursor : Cursor) (s : Text) :
    (cursor.after s).offset = cursor.offset + s.byteSize := by
  induction s generalizing cursor with
  | nil => rfl
  | cons c s ih =>
      have hc : (cursor.next c).offset = cursor.offset + c.utf8Size := by
        unfold next
        split <;> rfl
      simp only [after_cons, ih, hc, Text.byteSize_cons]
      omega

theorem line_after (cursor : Cursor) (s : Text) :
    (cursor.after s).line = cursor.line + s.count '\n' := by
  induction s generalizing cursor with
  | nil => rfl
  | cons c s ih =>
      rw [after_cons, ih, List.count_cons, next]
      by_cases hc : c = '\n'
      · simp only [hc, ite_true, beq_self_eq_true]
        omega
      · simp only [hc, ite_false, beq_iff_eq, Nat.add_zero]

-- A newline begins a line, and any other character only moves along it.
theorem after_start (s : Text) : start.after s = ⟨s.byteSize, s.count '\n', s.column⟩ := by
  induction s using List.reverseRecOn with
  | nil => rfl
  | append_singleton s c ih =>
      rw [after_append, ih, Text.column_append_singleton, Text.byteSize_append, List.count_append]
      by_cases hc : c = '\n'
      · simp [next, hc]
      · simp [next, hc]

theorem offset_lt_after (cursor : Cursor) {s : Text} (h : s ≠ []) :
    cursor.offset < (cursor.after s).offset := by
  have hlength := Text.length_le_byteSize s
  have hpos := List.length_pos_iff.mpr h
  rw [offset_after]
  omega

-- A cursor that only moves along its line is where the count says, if no newline is passed.
theorem advance_eq_after (cursor : Cursor) {s : Text} (h : '\n' ∉ s) :
    cursor.advance s = cursor.after s := by
  induction s generalizing cursor with
  | nil => rfl
  | cons c s ih =>
      obtain ⟨hc, hs⟩ := not_or.mp (mt List.mem_cons.mpr h)
      rw [after_cons, ← ih _ hs, next, if_neg (Ne.symm hc)]
      simp only [advance, Text.byteSize_cons, List.length_cons, mk.injEq, true_and]
      omega

theorem advanceLine_eq_after (cursor : Cursor) : cursor.advanceLine = cursor.after ['\n'] := rfl

end Cursor

end JustLang
