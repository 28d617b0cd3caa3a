import JustLang.Proofs.Lexer.Fault

namespace JustLang

namespace Lexer

variable {l before : Lexer} {d e : Diagnostic}

theorem length_errors_recover (l : Lexer) :
    l.recover.1.errors.length = l.recover.1.tokens.countP (·.kind = .unrecognized) := by
  induction l using induction_on_step with
  | finish l last h =>
      rw [recover_of_finish h]
      rfl
  | token l u next h ih =>
      have hkind := kind_ne_of_token h
      rw [recover_of_token h]
      simp [hkind, ih]
  | fault l d before h ih =>
      obtain ⟨c, s, hpassed⟩ := passedAt_of_fault h
      have hkind := hpassed.kind_eq
      rw [recover_of_fault h]
      simp [hkind, ih]

-- What each fault has to do with the errors behind it holds of all errors in their order.
theorem pairwise_errors {R : Diagnostic → Diagnostic → Prop}
    (hstep : ∀ {l before : Lexer} {d e : Diagnostic},
      l.step = .fault d before → e ∈ (before.skip d).recover.1.errors → R d e) (l : Lexer) :
    l.recover.1.errors.Pairwise R := by
  induction l using induction_on_step with
  | finish l last h =>
      rw [recover_of_finish h]
      exact List.Pairwise.nil
  | token l u next h ih =>
      rw [recover_of_token h]
      exact ih
  | fault l d before h ih =>
      rw [recover_of_fault h]
      exact List.pairwise_cons.mpr ⟨fun e he => hstep h he, ih⟩

theorem offset_lt_of_fault (h : l.step = .fault d before)
    (he : e ∈ (before.skip d).recover.1.errors) : d.position.offset < e.position.offset := by
  obtain ⟨u, -, after, p, c, s, hlater⟩ := exists_passedAt_of_mem_errors he
  have hle := hlater.offset_le
  obtain ⟨rfl, c', s', hrest, hr, rfl⟩ := eq_of_fault h
  rw [skip_eq_pass hrest hr] at hle
  have hlt := l.afterSpaces.cursor.offset_lt_after (Lexeme.skipped_text_ne_nil c' s')
  exact hlt.trans_le hle

theorem line_lt_of_fault (h : l.step = .fault d before)
    (he : e ∈ (before.skip d).recover.1.errors) (hcause : d.cause = .unterminatedString) :
    d.position.line < e.position.line := by
  obtain ⟨c, s, hpassed⟩ := passedAt_of_fault h
  obtain ⟨u, hu, after, p, c', s', hlater⟩ := exists_passedAt_of_mem_errors he
  have hquote : c = '"' := by
    rw [hpassed.eq] at hcause
    exact Lexeme.fault_eq_unterminatedString_iff.mp hcause
  rw [← hlater.line_eq]
  exact hpassed.line_lt hquote hu hlater.kind_eq

end Lexer

namespace Text

-- The errors of recovery and the tokens that stand for what could not be read go together one by
-- one. A quote that is never closed takes the rest of its line, so that only the newline follows.
theorem recover_errors (source : Text) (file? : Option String) :
    (source.recover file?).errors.length =
      (source.recover file?).tokens.countP (·.kind = .unrecognized) ∧
    (∀ (i : Nat) d, (source.recover file?).errors[i]? = some d →
      ∃ before u after head tail,
        (source.recover file?).tokens = before ++ u :: after ∧
        u.kind = .unrecognized ∧ before.countP (·.kind = .unrecognized) = i ∧
        source = head ++ u.text ++ tail ∧
        u.line = head.count '\n' ∧ u.column = head.column ∧
        d.position = ⟨⟨head.byteSize, u.line, u.column⟩, file?.getD "shell"⟩ ∧
        ((∃ c, d.cause = .unrecognisedCharacter c ∧ u.text = [c]) ∨
          (d.cause = .unterminatedString ∧ u.text.head? = some '"' ∧ '\n' ∉ u.text ∧
            Lexer.LineEnd u.line (u.column + u.text.length) tail after))) ∧
    ((source.recover file?).errors.map (·.position.offset)).Pairwise (· < ·) ∧
    (source.recover file?).errors.Pairwise (fun d e =>
      d.cause = .unterminatedString → d.position.line < e.position.line) := by
  let l := Lexer.ofText source file?
  have hoffsets : (l.recover.1.errors.map (·.position.offset)).Pairwise (· < ·) :=
    List.pairwise_map.mpr (l.pairwise_errors Lexer.offset_lt_of_fault)
  refine ⟨l.length_errors_recover, fun i d hd => ?_, hoffsets,
    l.pairwise_errors Lexer.line_lt_of_fault⟩
  obtain ⟨before, u, after, p, c, s, htokens, hcount, hpassed⟩ :=
    l.exists_passedAt_of_getElem?_errors hd
  have hsource : source = p ++ c :: s := hpassed.rest
  have hcause : d.cause = Lexeme.fault c := congrArg Diagnostic.cause hpassed.eq
  have htext : u.text = (Lexeme.skipped c s).text := by rw [hpassed.token]
  have hplace : d.position = ⟨⟨p.byteSize, p.count '\n', p.column⟩, file?.getD "shell"⟩ := by
    have hcursor : l.cursor.after p = ⟨p.byteSize, p.count '\n', p.column⟩ := Cursor.after_start p
    rw [hpassed.eq, hcursor]
    rfl
  have hline : u.line = p.count '\n' := by rw [hpassed.token, hplace]
  have hcolumn : u.column = p.column := by rw [hpassed.token, hplace]
  have hposition : d.position = ⟨⟨p.byteSize, u.line, u.column⟩, file?.getD "shell"⟩ := by
    rw [hplace, hline, hcolumn]
  by_cases hc : c = '"'
  · obtain ⟨tail, htail, hend⟩ := hpassed.line_end hc
    have hnewline : '\n' ∉ u.text := htext ▸ Lexeme.newline_notMem_skipped hpassed.unread
    have hquote : u.text.head? = some '"' := by
      rw [htext, hc]
      rfl
    refine ⟨before, u, after, p, tail, htokens, hpassed.kind_eq, hcount, ?_, hline, hcolumn,
      hposition, .inr ⟨hcause.trans (if_pos hc), hquote, hnewline, hend⟩⟩
    rw [hsource, htext, htail, List.append_assoc]
  · have hone : u.text = [c] := by rw [htext, Lexeme.skipped_of_ne_quote hc]
    refine ⟨before, u, after, p, s, htokens, hpassed.kind_eq, hcount, ?_, hline, hcolumn,
      hposition, .inl ⟨c, hcause.trans (if_neg hc), hone⟩⟩
    rw [hsource, hone, List.append_assoc]
    rfl

end Text

end JustLang
