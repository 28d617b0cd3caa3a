import JustLang.Proofs.Lexer.Step
import JustLang.Proofs.Position

namespace JustLang.Lexer

variable {source read s gap : Text} {file? : Option String} {l next before last place : Lexer}
  {u : Token} {d : Diagnostic}

namespace Emits

-- The spaces before a token only move it along the line.
theorem cursor_after_gap (h : l.Emits gap u next) :
    l.cursor.after gap = l.cursor.advance gap :=
  (l.cursor.advance_eq_after (Text.newline_notMem_of_spaces h.spaces)).symm

theorem line_eq (h : l.Emits gap u next) : u.line = l.cursor.line := by
  rw [h.line, h.cursor_after_gap]
  rfl

theorem column_eq (h : l.Emits gap u next) : u.column = l.cursor.column + gap.length := by
  rw [h.column, h.cursor_after_gap]
  rfl

-- Behind a newline a line begins, and behind any other token its line goes on.
theorem cursor_next (h : l.Emits gap u next) :
    next.cursor.line = (if u.text = ['\n'] then u.line + 1 else u.line) ∧
      next.cursor.column = if u.text = ['\n'] then 0 else u.column + u.text.length := by
  have hcursor := h.reads.cursor
  rw [Cursor.after_append, h.cursor_after_gap] at hcursor
  rw [hcursor, h.line_eq, h.column_eq]
  by_cases hn : u.text = ['\n']
  · rw [if_pos hn, if_pos hn, hn]
    exact ⟨rfl, rfl⟩
  · have hnotMem : '\n' ∉ u.text := fun hm => hn (h.emitted.eq_of_newline_mem hm)
    rw [if_neg hn, if_neg hn, ← Cursor.advance_eq_after _ hnotMem]
    exact ⟨rfl, rfl⟩

end Emits

theorem exists_reads_next (l : Lexer) : ∃ s, l.Reads s l.next.2 := by
  rcases l.next_cases with ⟨u, next, hstep, hnext⟩ | ⟨result, -, hnext⟩
  · rw [hnext]
    exact ⟨_, (emits_of_token hstep).reads⟩
  · rw [hnext]
    exact ⟨_, l.reads_afterSpaces⟩

theorem exists_reads_pull (l : Lexer) : ∃ s, l.Reads s l.pull.2 := by
  rcases l.pull_cases with ⟨-, hpull⟩ | ⟨u, next, hstep, hpull⟩ | ⟨item, -, hpull⟩
  · rw [hpull]
    exact ⟨[], .refl l⟩
  · rw [hpull]
    exact ⟨_, (emits_of_token hstep).reads⟩
  · rw [hpull]
    exact ⟨_, l.reads_afterSpaces.exhaust⟩

theorem exists_reads_take (l : Lexer) (n : Nat) : ∃ s, l.Reads s (l.take n).2 := by
  induction n generalizing l with
  | zero => exact ⟨[], .refl l⟩
  | succ n ih =>
      obtain ⟨s, hs⟩ := l.exists_reads_pull
      rw [take]
      split
      · next later hpull =>
          rw [hpull] at hs
          exact ⟨s, hs⟩
      · next item later hpull =>
          rw [hpull] at hs
          obtain ⟨t, ht⟩ := ih later
          exact ⟨s ++ t, hs.trans ht⟩

theorem exists_reads_recover (l : Lexer) : ∃ s, l.Reads s l.recover.2 := by
  induction l using induction_on_step with
  | finish l last h =>
      obtain ⟨rfl, -⟩ := eq_of_finish h
      rw [recover_of_finish h]
      exact ⟨_, l.reads_afterSpaces.exhaust⟩
  | token l u next h ih =>
      obtain ⟨s, hs⟩ := ih
      rw [recover_of_token h]
      exact ⟨_, (emits_of_token h).reads.trans hs⟩
  | fault l d before h ih =>
      obtain ⟨s, hs⟩ := ih
      rw [recover_of_fault h]
      exact ⟨_, (emits_of_fault h).reads.trans hs⟩

theorem rest_recover (l : Lexer) : l.recover.2.rest = [] := by
  induction l using induction_on_step with
  | finish l last h =>
      rw [recover_of_finish h]
      exact (eq_of_finish h).2
  | token l u next h ih =>
      rw [recover_of_token h]
      exact ih
  | fault l d before h ih =>
      rw [recover_of_fault h]
      exact ih

-- Recovery leaves nothing unread.
theorem reads_recover (l : Lexer) : l.Reads l.rest l.recover.2 := by
  obtain ⟨s, hs⟩ := l.exists_reads_recover
  have hrest := hs.rest
  rw [l.rest_recover, List.append_nil] at hrest
  rwa [hrest]

theorem exists_reads_drain (l : Lexer) : ∃ s, l.Reads s l.drain.2 := by
  by_cases hl : l.exhausted = true
  · rw [drain_of_none (pull_of_exhausted hl)]
    exact ⟨[], .refl l⟩
  · have hl := Bool.eq_false_iff.mpr hl
    induction l using induction_on_step with
    | finish l last h =>
        obtain ⟨rfl, -⟩ := eq_of_finish h
        rw [drain_of_none (pull_of_finish hl h)]
        exact ⟨_, l.reads_afterSpaces.exhaust⟩
    | token l u next h ih =>
        have hnext := (exhausted_of_token h).trans hl
        obtain ⟨s, hs⟩ := ih (by simp [hnext]) hnext
        rw [drain_of_ok (pull_of_token hl h)]
        exact ⟨_, (emits_of_token h).reads.trans hs⟩
    | fault l d before h _ =>
        obtain ⟨rfl, -⟩ := eq_of_fault h
        rw [drain_of_error (pull_of_fault hl h)]
        exact ⟨_, l.reads_afterSpaces.exhaust⟩

-- The lexers at which reading from one looks at the text before it: after each space that is
-- passed, after each token, and after each piece of text that is skipped at a fault.
inductive Visits : Lexer → Lexer → Prop where
  | here {l : Lexer} : Visits l l
  | space {l place : Lexer} {s : Text} :
      l.rest = ' ' :: s → Visits (l.advance [' ']) place → Visits l place
  | token {l next place : Lexer} {u : Token} :
      l.step = .token u next → Visits next place → Visits l place
  | fault {l before place : Lexer} {d : Diagnostic} :
      l.step = .fault d before → Visits (before.skip d) place → Visits l place

theorem reads_space (h : l.rest = ' ' :: s) : l.Reads [' '] (l.advance [' ']) := by
  rw [l.advance_eq_pass (by decide)]
  exact reads_pass (h ▸ List.prefix_append [' '] s)

theorem exists_reads_of_visits (h : l.Visits place) : ∃ s, l.Reads s place := by
  induction h with
  | here => exact ⟨[], .refl _⟩
  | space hrest _ ih =>
      obtain ⟨s, hs⟩ := ih
      exact ⟨_, (reads_space hrest).trans hs⟩
  | token hstep _ ih =>
      obtain ⟨s, hs⟩ := ih
      exact ⟨_, (emits_of_token hstep).reads.trans hs⟩
  | fault hstep _ ih =>
      obtain ⟨s, hs⟩ := ih
      exact ⟨_, (emits_of_fault hstep).reads.trans hs⟩

-- The pieces that a lexer cuts off the text before it: one or two characters to look up, what the
-- machines and a word match, and what is passed over at a fault.
inductive Cut (s : Text) : Text → Prop where
  | characters {n : Nat} : n ≤ 2 → Cut s (s.take n)
  | numeral {found : Machine.Match Numeral.State} : Numeral.match? s = some found → Cut s found.text
  | literal {found : Machine.Match StringLiteral.State} :
      StringLiteral.match? s = some found → Cut s found.text
  | word {w : Lexeme} : Lexeme.word? s = some w → Cut s w.text
  | skipped {cause : Cause} : Cut s (cause.span s)

theorem Cut.isPrefix {piece : Text} (h : Cut s piece) : piece <+: s := by
  cases h with
  | characters _ => exact List.take_prefix _ _
  | numeral hf => exact Machine.matchFrom?_isPrefix hf
  | literal hf => exact Machine.matchFrom?_isPrefix hf
  | word hw => exact (Lexeme.word?_text hw).2
  | skipped => exact Cause.span_isPrefix _ _

theorem Reads.offset_le (h : l.Reads s next) : l.cursor.offset ≤ next.cursor.offset := by
  rw [h.cursor, Cursor.offset_after]
  omega

-- What the cursor of a lexer has to do with the source.
structure Placed (source : Text) (cursor : Cursor) : Prop where
  offset_le : cursor.offset ≤ source.byteSize
  counts : ∃ read, source.slice? 0 cursor.offset = some read ∧
    cursor.line = read.count '\n' ∧ cursor.column = read.column
  line_add_column_le : cursor.line + cursor.column ≤ cursor.offset

-- A piece of the text before a lexer ends between characters, and passing it makes no count
-- larger than the size of the source, so that a word that holds the size holds them all.
structure Cuttable (source : Text) (place : Lexer) (piece : Text) : Prop where
  slice : place.rest.slice? 0 piece.byteSize = some piece
  offset_le : place.cursor.offset + piece.byteSize ≤ source.byteSize
  line_le : place.cursor.line + piece.count '\n' ≤ source.byteSize
  column_le : place.cursor.column + piece.length ≤ source.byteSize

section Source

variable (h : (ofText source file?).Reads read l)
include h

theorem Reads.source_eq : source = read ++ l.rest := h.rest

theorem Reads.cursor_eq : l.cursor = ⟨read.byteSize, read.count '\n', read.column⟩ := by
  rw [h.cursor]
  exact Cursor.after_start read

theorem Reads.offset_add_byteSize : l.cursor.offset + l.rest.byteSize = source.byteSize := by
  rw [h.cursor_eq, h.source_eq, Text.byteSize_append]

theorem Reads.line_add_column_le : l.cursor.line + l.cursor.column ≤ l.cursor.offset := by
  have hcount := Text.count_add_column_le_length read
  have hlength := Text.length_le_byteSize read
  rw [h.cursor_eq]
  exact hcount.trans hlength

theorem Reads.slice?_rest :
    source.slice? l.cursor.offset source.byteSize = some l.rest := by
  rw [h.cursor_eq, h.source_eq]
  exact Text.slice?_append_byteSize read l.rest

theorem Reads.slice?_read (hs : l.Reads s next) :
    source.slice? l.cursor.offset next.cursor.offset = some s := by
  have hsource : source = read ++ s ++ next.rest := by
    rw [h.source_eq, hs.rest, List.append_assoc]
  rw [hs.cursor, Cursor.offset_after, h.cursor_eq, hsource]
  exact Text.slice?_append read s next.rest

theorem Reads.placed : Placed source l.cursor := by
  have hsize := h.offset_add_byteSize
  refine ⟨by omega, ⟨read, ?_, ?_, ?_⟩, h.line_add_column_le⟩
  · rw [h.cursor_eq, h.source_eq]
    exact Text.slice?_zero_append read l.rest
  · rw [h.cursor_eq]
  · rw [h.cursor_eq]

theorem Reads.cuttable {piece : Text} (hp : piece <+: l.rest) : Cuttable source l piece := by
  obtain ⟨rest, hrest⟩ := hp
  have hsize := h.offset_add_byteSize
  have hcursor := h.line_add_column_le
  have hpiece := Text.byteSize_append piece rest
  have hcount : piece.count '\n' ≤ piece.length := List.count_le_length
  have hlength := Text.length_le_byteSize piece
  rw [hrest] at hpiece
  refine ⟨?_, by omega, by omega, by omega⟩
  rw [← hrest]
  exact Text.slice?_zero_append piece rest

end Source

end JustLang.Lexer
