import JustLang.Proofs.Lexer.Agreement
import JustLang.Proofs.Position

namespace JustLang.Lexer

variable {l l' next before : Lexer} {u : Token} {d : Diagnostic} {p q s : Text} {c : Char}

-- The error is at the character behind the text. No lexeme begins there, and it is no space.
structure FaultAt (l : Lexer) (d : Diagnostic) (p : Text) (c : Char) (s : Text) : Prop where
  rest : l.rest = p ++ c :: s
  unread : Lexeme.read? (c :: s) = none
  ne_space : c ≠ ' '
  eq : d = ⟨Lexeme.fault c, ⟨l.cursor.after p, l.file⟩⟩

namespace FaultAt

theorem ne_newline (h : l.FaultAt d p c s) : c ≠ '\n' :=
  Lexeme.ne_newline_of_read?_eq_none h.unread

-- It is at the same place whatever is read before it.
theorem of_reads (hq : l.Reads q l') (h : l'.FaultAt d p c s) : l.FaultAt d (q ++ p) c s where
  rest := by rw [hq.rest, h.rest, List.append_assoc]
  unread := h.unread
  ne_space := h.ne_space
  eq := by rw [h.eq, hq.cursor, hq.file, Cursor.after_append]

theorem offset_le (h : l.FaultAt d p c s) : l.cursor.offset ≤ d.position.offset := by
  have hoffset := Cursor.offset_after l.cursor p
  have hle : l.cursor.offset ≤ (l.cursor.after p).offset := by omega
  rwa [h.eq]

end FaultAt

-- What is left of a line whose end is all that is before a lexer: the text, and the tokens that
-- recovery finds in it. Only the newline is still on the line, if there is one.
inductive LineEnd (line column : Nat) : Text → List Token → Prop where
  | last : LineEnd line column [] []
  | newline {s : Text} {rest : List Token} : (∀ t ∈ rest, line < t.line) →
      LineEnd line column ('\n' :: s) (⟨⟨.newline, ['\n']⟩, line, column⟩ :: rest)

-- What recovery makes of an error: the token that stands for the text at fault, and the tokens
-- behind it.
structure PassedAt (l : Lexer) (d : Diagnostic) (u : Token) (after : List Token) (p : Text)
    (c : Char) (s : Text) : Prop extends FaultAt l d p c s where
  token : u = ⟨Lexeme.skipped c s, d.position.line, d.position.column⟩
  line_end : c = '"' → ∃ tail, c :: s = (Lexeme.skipped c s).text ++ tail ∧
    LineEnd u.line (u.column + u.text.length) tail after

namespace PassedAt

variable {after : List Token}

theorem of_reads (hq : l.Reads q l') (h : l'.PassedAt d u after p c s) :
    l.PassedAt d u after (q ++ p) c s where
  toFaultAt := h.toFaultAt.of_reads hq
  token := h.token
  line_end := h.line_end

theorem kind_eq (h : l.PassedAt d u after p c s) : u.kind = .unrecognized := by
  rw [h.token]
  rfl

theorem line_eq (h : l.PassedAt d u after p c s) : u.line = d.position.line := by
  rw [h.token]

-- No error behind an open quote is on its line.
theorem line_lt (h : l.PassedAt d u after p c s) (hc : c = '"') {t : Token} (ht : t ∈ after)
    (hkind : t.kind = .unrecognized) : d.position.line < t.line := by
  obtain ⟨tail, -, hend⟩ := h.line_end hc
  rw [← h.line_eq]
  cases hend with
  | last => cases ht
  | newline hrest =>
      rcases List.mem_cons.mp ht with rfl | ht
      · cases hkind
      · exact hrest t ht

end PassedAt

section LineEnd

theorem line_le_of_mem_recover (l : Lexer) : ∀ t ∈ l.recover.1.tokens, l.cursor.line ≤ t.line := by
  induction l using recover_induction with
  | finish l _ => simp
  | emit l gap u next tokens he ih =>
      have hgap := Cursor.line_after l.cursor gap
      have htext := Cursor.line_after (l.cursor.after gap) u.text
      have hline := he.line
      have hnext := he.reads.cursor
      rw [Cursor.after_append] at hnext
      intro t ht
      rcases List.mem_cons.mp ht with rfl | ht
      · omega
      · have hle := ih t ht
        rw [hnext] at hle
        omega

theorem lineEnd_recover (h : l.rest = [] ∨ ∃ s, l.rest = '\n' :: s) :
    LineEnd l.cursor.line l.cursor.column l.rest l.recover.1.tokens := by
  have hspaces : l.afterSpaces = l := by
    have hnil : l.rest.leadingSpaces = [] := by
      rcases h with h | ⟨s, h⟩
      · rw [h]
        rfl
      · simp [h, Text.leadingSpaces]
    rw [afterSpaces_eq_pass, hnil, pass_nil]
  rcases h with h | ⟨s, h⟩
  · have hstep := step_of_rest_nil (hspaces ▸ h)
    rw [hspaces] at hstep
    rw [recover_of_finish hstep, h]
    exact .last
  · have hread : Lexeme.read? l.afterSpaces.rest = some ⟨.newline, ['\n']⟩ := by
      rw [hspaces, h]
      exact Lexeme.read?_newline s
    have hstep := step_of_read? hread
    rw [hspaces] at hstep
    rw [recover_of_token hstep, h]
    exact .newline fun t ht => line_le_of_mem_recover (l.pass ['\n']) t ht

end LineEnd

-- A step that finds a fault passes over the text at fault.
theorem passedAt_of_fault (h : l.step = .fault d before) :
    ∃ c s, l.PassedAt d (before.skipped d) (before.skip d).recover.1.tokens
      l.rest.leadingSpaces c s := by
  obtain ⟨rfl, c, s, hrest, hr, rfl⟩ := eq_of_fault h
  have hsplit := l.reads_afterSpaces.rest
  rw [hrest] at hsplit
  have hplace : (⟨Lexeme.fault c, l.afterSpaces.position⟩ : Diagnostic) =
      ⟨Lexeme.fault c, ⟨l.cursor.after l.rest.leadingSpaces, l.file⟩⟩ := by
    rw [← l.reads_afterSpaces.cursor, ← l.reads_afterSpaces.file]
    rfl
  have hfault := FaultAt.mk hsplit hr (ne_space_of_rest_afterSpaces hrest) hplace
  rw [skipped_eq_locate hrest]
  refine ⟨c, s, hfault, rfl, fun hc => ?_⟩
  subst hc
  obtain ⟨tail, htail, hend⟩ := Lexeme.exists_skipped_quote_append s
  have hnext : (l.afterSpaces.skip ⟨Lexeme.fault '"', l.afterSpaces.position⟩).rest = tail := by
    rw [skip_eq_pass hrest hr, rest_pass, hrest, htail, List.drop_left]
  -- the line goes on behind the text that is skipped
  have hline := lineEnd_recover (hnext ▸ hend)
  rw [hnext] at hline
  have hcolumn : (l.afterSpaces.skip ⟨Lexeme.fault '"', l.afterSpaces.position⟩).cursor.column =
      l.afterSpaces.cursor.column + (Lexeme.skipped '"' s).text.length := by
    rw [skip, skipped_eq_locate hrest]
    rfl
  rw [hcolumn] at hline
  exact ⟨tail, htail, hline⟩

-- The errors of recovery belong one by one, in their order, to the tokens of what could not be
-- read.
theorem exists_passedAt_of_getElem?_errors (l : Lexer) {i : Nat}
    (h : l.recover.1.errors[i]? = some d) :
    ∃ before u after p c s, l.recover.1.tokens = before ++ u :: after ∧
      before.countP (·.kind = .unrecognized) = i ∧ l.PassedAt d u after p c s := by
  induction l using induction_on_step generalizing i with
  | finish l last hstep =>
      rw [recover_of_finish hstep] at h
      cases h
  | token l t next hstep ih =>
      rw [recover_of_token hstep] at h ⊢
      obtain ⟨before, u, after, p, c, s, htokens, hcount, hpassed⟩ := ih h
      have hreads := (emits_of_token hstep).reads
      have hkind := kind_ne_of_token hstep
      refine ⟨t :: before, u, after, _, c, s, ?_, ?_, hpassed.of_reads hreads⟩
      · rw [htokens, List.cons_append]
      · simp [hkind, hcount]
  | fault l e stop hstep ih =>
      obtain ⟨c, s, hpassed⟩ := passedAt_of_fault hstep
      rw [recover_of_fault hstep] at h ⊢
      cases i with
      | zero =>
          obtain rfl : e = d := Option.some.inj h
          exact ⟨[], stop.skipped e, _, _, c, s, rfl, rfl, hpassed⟩
      | succ i =>
          obtain ⟨before, u, after, p, c', s', htokens, hcount, hlater⟩ := ih h
          have hreads := (emits_of_fault hstep).reads
          have hkind := hpassed.kind_eq
          refine ⟨stop.skipped e :: before, u, after, _, c', s', ?_, ?_, hlater.of_reads hreads⟩
          · rw [htokens, List.cons_append]
          · simp [hkind, hcount]

theorem exists_passedAt_of_mem_errors (h : d ∈ l.recover.1.errors) :
    ∃ u ∈ l.recover.1.tokens, ∃ after p c s, l.PassedAt d u after p c s := by
  obtain ⟨i, hi⟩ := List.mem_iff_getElem?.mp h
  obtain ⟨before, u, after, p, c, s, htokens, -, hpassed⟩ :=
    l.exists_passedAt_of_getElem?_errors hi
  have hu : u ∈ l.recover.1.tokens := by simp [htokens]
  exact ⟨u, hu, after, p, c, s, hpassed⟩

-- The errors that the ways of reading report from where a lexer stands.
inductive Reports (l : Lexer) (d : Diagnostic) : Prop where
  | next : l.next.1 = .error d → Reports l d
  | pull : l.pull.1 = some (.error d) → Reports l d
  | drain : l.drain.1 = .error d → Reports l d
  | recover : d ∈ l.recover.1.errors → Reports l d

theorem mem_errors_of_next (h : l.next.1 = .error d) : d ∈ l.recover.1.errors := by
  cases hstep : l.step with
  | finish last =>
      rw [next_of_finish hstep] at h
      cases h
  | token u next =>
      rw [next_of_token hstep] at h
      cases h
  | fault e before =>
      rw [next_of_fault hstep] at h
      obtain rfl : e = d := Except.error.inj h
      rw [recover_of_fault hstep]
      exact List.mem_cons_self

theorem mem_errors_of_drain (h : l.drain.1 = .error d) : d ∈ l.recover.1.errors := by
  by_cases hl : l.exhausted = true
  · rw [drain_of_none (pull_of_exhausted hl)] at h
    cases h
  · have hl := Bool.eq_false_iff.mpr hl
    obtain ⟨es, he⟩ := exists_errors_of_drain_error hl h
    rw [he]
    exact List.mem_cons_self

theorem mem_errors_of_pull (h : l.pull.1 = some (.error d)) : d ∈ l.recover.1.errors := by
  have hpull : l.pull = (some (.error d), l.pull.2) := Prod.ext h rfl
  exact mem_errors_of_drain (congrArg Prod.fst (drain_of_error hpull))

theorem exists_faultAt_of_reports (h : l.Reports d) : ∃ p c s, l.FaultAt d p c s := by
  have hmem : d ∈ l.recover.1.errors := by
    cases h with
    | next h => exact mem_errors_of_next h
    | pull h => exact mem_errors_of_pull h
    | drain h => exact mem_errors_of_drain h
    | recover h => exact h
  obtain ⟨u, -, after, p, c, s, hpassed⟩ := exists_passedAt_of_mem_errors hmem
  exact ⟨p, c, s, hpassed.toFaultAt⟩

end JustLang.Lexer
