import JustLang.SourceLine
import JustLang.Proofs.Position

namespace JustLang

namespace Text

variable {s : Text}

-- A text is one line, or a line that its newline ends with a text below it.
theorem line_induction {motive : Text → Prop}
    (last : ∀ s, '\n' ∉ s → motive s)
    (line : ∀ s t, '\n' ∉ s → motive t → motive (s ++ '\n' :: t)) (s : Text) : motive s := by
  by_cases h : '\n' ∈ s
  · obtain ⟨first, below, hs, hfirst⟩ := List.eq_append_cons_of_mem h
    have hlt : below.length < s.length := by
      rw [hs, List.length_append, List.length_cons]
      omega
    rw [hs]
    exact line first below hfirst (line_induction last line below)
  · exact last s h
termination_by s.length

theorem lines_of_newline_notMem (h : '\n' ∉ s) (hne : s ≠ []) : lines s = [s] := by
  induction s with
  | nil => exact absurd rfl hne
  | cons c s ih =>
      obtain ⟨hc, hs⟩ := not_or.mp (mt List.mem_cons.mpr h)
      simp only [lines, if_neg (Ne.symm hc)]
      cases s with
      | nil => rfl
      | cons d s => rw [ih hs (List.cons_ne_nil d s)]

theorem lines_append_newline (h : '\n' ∉ s) (t : Text) :
    lines (s ++ '\n' :: t) = (s ++ ['\n']) :: lines t := by
  induction s with
  | nil => rfl
  | cons c s ih =>
      obtain ⟨hc, hs⟩ := not_or.mp (mt List.mem_cons.mpr h)
      simp only [List.cons_append, lines, if_neg (Ne.symm hc), ih hs]

theorem beforeLastLine_append_lastLine (s : Text) : s.beforeLastLine ++ s.lastLine = s := by
  rw [beforeLastLine, lastLine, ← List.reverse_append, List.takeWhile_append_dropWhile,
    List.reverse_reverse]

theorem length_lastLine (s : Text) : s.lastLine.length = s.column := List.length_reverse

theorem newline_notMem_lastLine (s : Text) : '\n' ∉ s.lastLine := by
  intro h
  simpa using List.mem_takeWhile_imp (List.mem_reverse.mp h)

theorem lastLine_of_newline_notMem (h : '\n' ∉ s) : s.lastLine = s := by
  have hall : ∀ c ∈ s.reverse, (c ≠ '\n' : Bool) := by
    intro c hc
    exact decide_eq_true (ne_of_mem_of_not_mem (List.mem_reverse.mp hc) h)
  rw [lastLine, List.takeWhile_eq_self_iff.mpr hall, List.reverse_reverse]

theorem lastLine_append_newline (s t : Text) : (s ++ '\n' :: t).lastLine = t.lastLine := by
  have hreverse : (s ++ '\n' :: t).reverse = t.reverse ++ '\n' :: s.reverse := by simp
  rw [lastLine, hreverse, takeWhile_append_cons (by decide)]
  rfl

theorem byteSize_append_newline (s t : Text) :
    (s ++ '\n' :: t).byteSize = s.byteSize + 1 + t.byteSize := by
  rw [byteSize_append, byteSize_cons, Nat.add_assoc]
  rfl

theorem count_append_newline (h : '\n' ∉ s) (t : Text) :
    (s ++ '\n' :: t).count '\n' = t.count '\n' + 1 := by
  rw [List.count_append, List.count_eq_zero.mpr h, List.count_cons_self, Nat.zero_add]

-- What is left of the line on which a text begins, with the newline that ends it.
def restOfLine (s : Text) : Text := s.lines.headD []

theorem restOfLine_of_newline_notMem (h : '\n' ∉ s) : s.restOfLine = s := by
  by_cases hne : s = []
  · rw [hne]
    rfl
  · rw [restOfLine, lines_of_newline_notMem h hne]
    rfl

theorem restOfLine_append_newline (h : '\n' ∉ s) (t : Text) :
    (s ++ '\n' :: t).restOfLine = s ++ ['\n'] := by
  rw [restOfLine, lines_append_newline h]
  rfl

theorem restOfLine_cons {c : Char} (hc : c ≠ '\n') (s : Text) :
    restOfLine (c :: s) = c :: s.restOfLine := by
  simp only [restOfLine, lines, if_neg hc]
  cases s.lines with
  | nil => rfl
  | cons line rest => rfl

-- The newline, if there is one, is at the end.
theorem exists_restOfLine_eq (s : Text) :
    ∃ body, '\n' ∉ body ∧ (s.restOfLine = body ∨ s.restOfLine = body ++ ['\n']) := by
  induction s using line_induction with
  | last s hs => exact ⟨s, hs, .inl (restOfLine_of_newline_notMem hs)⟩
  | line s t hs _ => exact ⟨s, hs, .inr (restOfLine_append_newline hs t)⟩

end Text

namespace SourceLine

variable {s : Text}

theorem find?_of_newline_notMem (h : '\n' ∉ s) (number offset : Nat) :
    find? number offset s.lines =
      if offset < s.byteSize then some ⟨number, s, offset⟩ else none := by
  by_cases hne : s = []
  · rw [hne]
    rfl
  · rw [Text.lines_of_newline_notMem h hne]
    rfl

theorem find?_append_newline (h : '\n' ∉ s) (t : Text) (number offset : Nat) :
    find? number offset (s ++ '\n' :: t).lines =
      if offset ≤ s.byteSize then some ⟨number, s ++ ['\n'], offset⟩
      else find? (number + 1) (offset - (s.byteSize + 1)) t.lines := by
  have hsize : (s ++ ['\n']).byteSize = s.byteSize + 1 := Text.byteSize_append s ['\n']
  rw [Text.lines_append_newline h]
  simp only [find?, hsize, Nat.lt_succ_iff]

-- Both ways to find a line, in a text whose first line has the given number.
def search? (number offset : Nat) (s : Text) : Option SourceLine :=
  (find? number offset s.lines).or
    (if offset = s.byteSize then
      some ⟨number + s.count '\n', s.lastLine, s.lastLine.byteSize⟩
    else none)

theorem at?_eq_search? (s : Text) (offset : Nat) : at? s offset = search? 1 offset s := by
  have hsize := congrArg Text.byteSize s.beforeLastLine_append_lastLine
  rw [Text.byteSize_append] at hsize
  rw [at?, search?, atEnd?]
  by_cases h : offset = s.byteSize
  · have hoffset : offset - s.beforeLastLine.byteSize = s.lastLine.byteSize := by omega
    rw [if_pos h, if_pos h, hoffset, Nat.add_comm]
  · rw [if_neg h, if_neg h]

-- The two meet at the end of the last line.
theorem search?_of_newline_notMem (h : '\n' ∉ s) (number offset : Nat) :
    search? number offset s =
      if offset ≤ s.byteSize then some ⟨number, s, offset⟩ else none := by
  rw [search?, find?_of_newline_notMem h, List.count_eq_zero.mpr h,
    Text.lastLine_of_newline_notMem h, Nat.add_zero]
  rcases Nat.lt_trichotomy offset s.byteSize with hlt | heq | hgt
  · rw [if_pos hlt, if_pos hlt.le, Option.some_or]
  · rw [if_neg heq.not_lt, if_pos heq, if_pos heq.le, heq, Option.none_or]
  · rw [if_neg hgt.asymm, if_neg hgt.ne', if_neg hgt.not_ge, Option.none_or]

theorem search?_append_newline (h : '\n' ∉ s) (t : Text) (number offset : Nat) :
    search? number offset (s ++ '\n' :: t) =
      if offset ≤ s.byteSize then some ⟨number, s ++ ['\n'], offset⟩
      else search? (number + 1) (offset - (s.byteSize + 1)) t := by
  have hcount : number + (s ++ '\n' :: t).count '\n' = number + 1 + t.count '\n' := by
    rw [Text.count_append_newline h]
    omega
  rw [search?, find?_append_newline h, Text.byteSize_append_newline, hcount,
    Text.lastLine_append_newline]
  by_cases hle : offset ≤ s.byteSize
  · rw [if_pos hle, if_pos hle, Option.some_or]
  · have hend : offset = s.byteSize + 1 + t.byteSize ↔
        offset - (s.byteSize + 1) = t.byteSize := by omega
    rw [if_neg hle, if_neg hle, search?, if_congr hend rfl rfl]

-- A place between two characters, found on its line.
theorem search?_byteSize_append (s t : Text) (number : Nat) :
    search? number s.byteSize (s ++ t) =
      some ⟨number + s.count '\n', s.lastLine ++ t.restOfLine, s.lastLine.byteSize⟩ := by
  induction s using Text.line_induction generalizing number with
  | last s hs =>
      rw [List.count_eq_zero.mpr hs, Text.lastLine_of_newline_notMem hs]
      by_cases ht : '\n' ∈ t
      · obtain ⟨first, below, rfl, hfirst⟩ := List.eq_append_cons_of_mem ht
        have hline : '\n' ∉ s ++ first := by simp [hs, hfirst]
        rw [← List.append_assoc, search?_append_newline hline,
          Text.restOfLine_append_newline hfirst, if_pos (by rw [Text.byteSize_append]; omega),
          List.append_assoc]
        rfl
      · have hline : '\n' ∉ s ++ t := by simp [hs, ht]
        rw [search?_of_newline_notMem hline, Text.restOfLine_of_newline_notMem ht,
          if_pos (by rw [Text.byteSize_append]; omega)]
        rfl
  | line s below hs ih =>
      have hcount : number + 1 + below.count '\n' = number + (s ++ '\n' :: below).count '\n' := by
        rw [Text.count_append_newline hs]
        omega
      rw [List.append_assoc, List.cons_append, search?_append_newline hs,
        Text.byteSize_append_newline, if_neg (by omega), Nat.add_sub_cancel_left, ih, hcount,
        Text.lastLine_append_newline]

theorem at?_byteSize (s t : Text) :
    at? (s ++ t) s.byteSize =
      some ⟨s.count '\n' + 1, s.lastLine ++ t.restOfLine, s.lastLine.byteSize⟩ := by
  rw [at?_eq_search?, search?_byteSize_append, Nat.add_comm]

end SourceLine

end JustLang
