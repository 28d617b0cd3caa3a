import JustLang.Diagnostic.Report
import JustLang.Proofs.Lexer.Fault
import JustLang.Proofs.Session
import JustLang.Proofs.SourceLine

namespace JustLang

-- The character that an error of reading is about.
def Cause.offender? : Cause → Option Char
  | unrecognisedCharacter c => some c
  | unterminatedString => some '"'
  | duplicateLiteral .. | duplicateKind .. => none

theorem Lexeme.offender?_fault (c : Char) : (fault c).offender? = some c := by
  by_cases hc : c = '"'
  · subst hc
    rfl
  · rw [fault, if_neg hc]
    rfl

namespace Text

variable {s t : Text}

theorem trimEnd_isPrefix (s : Text) : s.trimEnd <+: s := by
  have hsuffix := List.dropWhile_suffix isBlank (l := s.reverse)
  have hprefix := List.reverse_prefix.mpr hsuffix
  rwa [List.reverse_reverse] at hprefix

-- A newline at the end is trimmed.
theorem newline_notMem_trimEnd (h : '\n' ∉ s) (ht : t = s ∨ t = s ++ ['\n']) :
    '\n' ∉ t.trimEnd := by
  have htrim : t.trimEnd = s.trimEnd := by
    rcases ht with rfl | rfl
    · rfl
    · refine trimEnd_append_blanks fun c hc => ?_
      rw [List.mem_singleton.mp hc]
      decide
  rw [htrim]
  exact fun hmem => h (s.trimEnd_isPrefix.subset hmem)

end Text

namespace Diagnostic

variable {d : Diagnostic} {source before after : Text} {c : Char}

section Caret

variable (hc : c ≠ ' ')
include hc

theorem leadingSpaces_append (before after : Text) :
    (before ++ c :: after).leadingSpaces = before.leadingSpaces :=
  Text.takeWhile_append_cons (decide_eq_false hc) before after

theorem indentation_le (before after : Text) :
    (before ++ c :: after).indentation ≤ before.length := by
  rw [Text.indentation, leadingSpaces_append hc]
  exact (List.takeWhile_prefix _).length_le

-- The character keeps its place on the line, less the indentation.
theorem caretIndent?_eq (before after : Text) (number : Nat) :
    caretIndent? ⟨number, before ++ c :: after, before.byteSize⟩ =
      some (before.length - (before ++ c :: after).indentation) := by
  have hindent : (before ++ c :: after).indentation = before.indentation :=
    congrArg List.length (leadingSpaces_append hc before after)
  have hbefore := before.leadingSpaces_append_dropSpaces
  have hbytes := Text.byteSize_append before.leadingSpaces before.dropSpaces
  have hlength := @List.length_append _ before.leadingSpaces before.dropSpaces
  have hslice := Text.slice?_append before.leadingSpaces before.dropSpaces (c :: after)
  rw [hbefore] at hbytes hlength hslice
  rw [← hbytes, before.byteSize_leadingSpaces] at hslice
  rw [before.byteSize_leadingSpaces] at hbytes
  have hmax : max before.byteSize before.indentation = before.byteSize :=
    Nat.max_eq_left (by omega)
  have hshown : before.dropSpaces.length = before.length - before.indentation :=
    Nat.eq_sub_of_add_eq' hlength.symm
  simp only [caretIndent?, hindent, hmax, hslice, Option.map_some, hshown]

theorem getElem?_shown (before after number : Text) :
    (number ++ (before ++ c :: after).drop (before ++ c :: after).indentation)[
      number.length + (before.length - (before ++ c :: after).indentation)]? = some c := by
  have hindent := indentation_le hc before after
  rw [List.getElem?_append_right (by omega), Nat.add_sub_cancel_left, List.getElem?_drop,
    Nat.add_sub_of_le hindent, List.getElem?_append_right (Nat.le_refl _), Nat.sub_self]
  rfl

end Caret

theorem idxOf_caret (number indent : Nat) :
    (margin number ++ ' ' :: List.replicate indent '-' ++ ['^']).idxOf '^' =
      (Text.ofNat number ++ " | ".toList).length + indent := by
  have hbefore : '^' ∉ margin number ++ ' ' :: List.replicate indent '-' := by
    simp [margin]
  rw [List.idxOf_append_of_notMem hbefore]
  simp [margin]
  omega

-- The five lines of a report, without the newlines that end them. They show the character on its
-- line, of which the indentation and the blanks at the end are left out.
structure Layout (d : Diagnostic) (text : Text) (c : Char)
    (header place gutter code caret : Text) : Prop where
  header_eq : header = "Error: ".toList ++ d.cause.name.toList ++
    d.cause.tip?.elim [] fun tip => " (".toList ++ tip ++ [')']
  place_eq : place = "-> ".toList ++ d.position.file.toList ++
    ':' :: Text.ofNat (d.position.line + 1) ++ ':' :: Text.ofNat (d.position.column + 1)
  gutter_eq : gutter =
    List.replicate ((Text.ofNat (d.position.line + 1)).length + 1) ' ' ++ ['|']
  code_eq : code = Text.ofNat (d.position.line + 1) ++ " | ".toList ++
    Text.trimEnd (text.drop text.indentation)
  caret_eq : caret =
    gutter ++ ' ' :: List.replicate (d.position.column - text.indentation) '-' ++ ['^']
  newline_notMem : ∀ line ∈ [header, place, gutter, code, caret], '\n' ∉ line
  indentation_le : text.indentation ≤ d.position.column
  -- The caret is under the character.
  idxOf_caret : caret.idxOf '^' = (Text.ofNat (d.position.line + 1) ++ " | ".toList).length +
    (d.position.column - text.indentation)
  getElem?_caret : (Text.ofNat (d.position.line + 1) ++ " | ".toList ++
    text.drop text.indentation)[caret.idxOf '^']? = some c

theorem newline_notMem_header (h : d.cause = Lexeme.fault c) :
    '\n' ∉ "Error: ".toList ++ d.cause.name.toList ++
      d.cause.tip?.elim [] fun tip => " (".toList ++ tip ++ [')'] := by
  rw [h, Lexeme.fault]
  by_cases hquote : c = '"'
  · rw [if_pos hquote]
    decide
  · rw [if_neg hquote]
    by_cases htab : c = '\t'
    · subst htab
      decide
    · by_cases hreturn : c = '\r'
      · subst hreturn
        decide
      · simp only [Cause.tip?, if_neg htab, if_neg hreturn, Option.elim_none, Cause.name]
        decide

theorem newline_notMem_place (h : '\n' ∉ d.position.file.toList) :
    '\n' ∉ "-> ".toList ++ d.position.file.toList ++
      ':' :: Text.ofNat (d.position.line + 1) ++ ':' :: Text.ofNat (d.position.column + 1) := by
  have hline : '\n' ∉ Text.ofNat (d.position.line + 1) := Text.notMem_ofNat (by decide) _
  have hcolumn : '\n' ∉ Text.ofNat (d.position.column + 1) := Text.notMem_ofNat (by decide) _
  simp [h, hline, hcolumn]

theorem exists_layout (hcause : d.cause = Lexeme.fault c) (hc : c ≠ ' ')
    (hfile : '\n' ∉ d.position.file.toList) (hcolumn : before.length = d.position.column)
    {body : Text} (hbody : '\n' ∉ body)
    (htext : before ++ c :: after = body ∨ before ++ c :: after = body ++ ['\n']) :
    ∃ header place gutter code caret,
      d.Layout (before ++ c :: after) c header place gutter code caret := by
  have hindent := indentation_le hc before after
  have hnumber : '\n' ∉ Text.ofNat (d.position.line + 1) := Text.notMem_ofNat (by decide) _
  have hcode : '\n' ∉
      Text.trimEnd ((before ++ c :: after).drop (before ++ c :: after).indentation) := by
    have hlength : before.length ≤ body.length := by
      rcases htext with h | h
      · rw [← h, List.length_append]
        omega
      · have hlength := congrArg List.length h
        simp only [List.length_append, List.length_cons, List.length_nil] at hlength
        omega
    refine Text.newline_notMem_trimEnd (s := body.drop (before ++ c :: after).indentation)
      (fun hmem => hbody (List.mem_of_mem_drop hmem)) ?_
    rcases htext with h | h
    · exact .inl (congrArg _ h)
    · refine .inr ?_
      rw [← List.drop_append_of_le_length (hindent.trans hlength)]
      exact congrArg _ h
  refine ⟨_, _, _, _, _, rfl, rfl, rfl, rfl, rfl, ?_, ?_, ?_, ?_⟩
  · intro line hline
    simp only [List.mem_cons, List.not_mem_nil, or_false] at hline
    rcases hline with rfl | rfl | rfl | rfl | rfl
    · exact newline_notMem_header hcause
    · exact newline_notMem_place hfile
    · simp
    · simp [hnumber, hcode]
    · simp
  · exact hcolumn ▸ hindent
  · exact idxOf_caret _ _
  · have hshown := getElem?_shown hc before after
      (Text.ofNat (d.position.line + 1) ++ " | ".toList)
    rw [hcolumn] at hshown
    rw [← hshown]
    exact congrArg _ (idxOf_caret _ _)

theorem report?_of_line {number : Nat}
    (hline : SourceLine.at? source d.position.offset =
      some ⟨number, before ++ c :: after, before.byteSize⟩) (hc : c ≠ ' ') :
    d.report? source = some (d.heading ++ d.place ++
      snippet ⟨number, before ++ c :: after, before.byteSize⟩
        (before.length - (before ++ c :: after).indentation)) := by
  simp only [report?, hline, caretIndent?_eq hc, Option.map_some]

theorem heading_eq (d : Diagnostic) :
    d.heading = Text.asLine ("Error: ".toList ++ d.cause.name.toList ++
      d.cause.tip?.elim [] fun tip => " (".toList ++ tip ++ [')']) := by
  rw [heading]
  cases d.cause.tip? <;> rfl

theorem place_eq (d : Diagnostic) :
    d.place = Text.asLine ("-> ".toList ++ d.position.file.toList ++
      ':' :: Text.ofNat (d.position.line + 1) ++ ':' :: Text.ofNat (d.position.column + 1)) := rfl

theorem report?_of_layout {header place gutter code caret : Text}
    (hline : SourceLine.at? source d.position.offset =
      some ⟨d.position.line + 1, before ++ c :: after, before.byteSize⟩)
    (hc : c ≠ ' ') (hcolumn : before.length = d.position.column)
    (hl : d.Layout (before ++ c :: after) c header place gutter code caret) :
    d.report? source = some ([header, place, gutter, code, caret].flatMap Text.asLine) := by
  have hheading : d.heading = header.asLine := by
    rw [hl.header_eq, heading_eq]
  have hplace : d.place = place.asLine := by
    rw [hl.place_eq, place_eq]
  have hmargin : margin (d.position.line + 1) = gutter := hl.gutter_eq.symm
  have hdrop := (before ++ c :: after).drop_leadingSpaces
  rw [report?_of_line hline hc]
  simp only [snippet, hheading, hplace, hmargin, hl.code_eq, hl.caret_eq, hcolumn, ← hdrop]
  simp [Text.indentation]

theorem heading_ne_nil (d : Diagnostic) : d.heading ≠ [] :=
  List.append_ne_nil_of_right_ne_nil _ (List.cons_ne_nil _ _)

-- An error of reading is never inside of a character.
theorem exists_report?_of_faultAt {file? : Option String}
    (h : (Lexer.ofText source file?).FaultAt d before c after) :
    ∃ report, d.report? source = some report ∧ report ≠ [] := by
  have hsource : source = before ++ c :: after := h.rest
  have hoffset : d.position.offset = before.byteSize := by
    have hcursor : (Lexer.ofText source file?).cursor.after before = _ :=
      Cursor.after_start before
    rw [h.eq, hcursor]
  have hline : SourceLine.at? source d.position.offset = some ⟨before.count '\n' + 1,
      before.lastLine ++ c :: after.restOfLine, before.lastLine.byteSize⟩ := by
    rw [hoffset, hsource, SourceLine.at?_byteSize, Text.restOfLine_cons h.ne_newline]
  refine ⟨_, report?_of_line hline h.ne_space, ?_⟩
  simp [d.heading_ne_nil]

end Diagnostic

namespace Session

-- Every error of a reader is shown on its line, as far along as its column says. With the column
-- bounded like this, the dashes with their caret are no wider than sixteen bits can say.
theorem report_of_session (source : Text) (file? : Option String) (requests : List Request)
    (l : Lexer) (d : Diagnostic) (hl : l ∈ (ofText source file?).lexers requests)
    (hd : l.Reports d) (hfile : '\n' ∉ (file?.getD "shell").toList)
    (hcolumn : d.position.column ≤ 65534) :
    ∃ before c after header place gutter code caret,
      SourceLine.at? source d.position.offset =
        some ⟨d.position.line + 1, before ++ c :: after, before.byteSize⟩ ∧
      before.length = d.position.column ∧ d.cause.offender? = some c ∧
      d.position.file = file?.getD "shell" ∧
      d.report? source = some ([header, place, gutter, code, caret].flatMap Text.asLine) ∧
      d.Layout (before ++ c :: after) c header place gutter code caret ∧
      caret.length ≤ gutter.length + 1 + 65535 := by
  obtain ⟨read, hread⟩ := exists_reads_of_mem_lexers hl
  obtain ⟨p, c, s, hlater⟩ := Lexer.exists_faultAt_of_reports hd
  have hfault := hlater.of_reads hread
  generalize read ++ p = q at hfault
  have hsource : source = q ++ c :: s := hfault.rest
  have hcause : d.cause = Lexeme.fault c := congrArg Diagnostic.cause hfault.eq
  have hposition : d.position =
      ⟨⟨q.byteSize, q.count '\n', q.column⟩, file?.getD "shell"⟩ := by
    have hcursor : (Lexer.ofText source file?).cursor.after q = _ := Cursor.after_start q
    rw [hfault.eq, hcursor]
    rfl
  have hbefore : q.lastLine.length = d.position.column := by rw [Text.length_lastLine, hposition]
  have hline : SourceLine.at? source d.position.offset =
      some ⟨d.position.line + 1, q.lastLine ++ c :: s.restOfLine, q.lastLine.byteSize⟩ := by
    rw [hposition, hsource, SourceLine.at?_byteSize, Text.restOfLine_cons hfault.ne_newline]
  -- only the end of the line is a newline
  obtain ⟨rest, hrest, hend⟩ := s.exists_restOfLine_eq
  have hbody : '\n' ∉ q.lastLine ++ c :: rest := by
    simp [q.newline_notMem_lastLine, hrest, hfault.ne_newline.symm]
  have htext : q.lastLine ++ c :: s.restOfLine = q.lastLine ++ c :: rest ∨
      q.lastLine ++ c :: s.restOfLine = q.lastLine ++ c :: rest ++ ['\n'] := by
    rcases hend with h | h
    · exact .inl (by rw [h])
    · exact .inr (by rw [h, List.append_assoc, List.cons_append])
  obtain ⟨header, place, gutter, code, caret, hlayout⟩ :=
    Diagnostic.exists_layout hcause hfault.ne_space (by rwa [hposition]) hbefore hbody htext
  refine ⟨q.lastLine, c, s.restOfLine, header, place, gutter, code, caret, hline, hbefore, ?_, ?_,
    Diagnostic.report?_of_layout hline hfault.ne_space hbefore hlayout, hlayout, ?_⟩
  · rw [hcause, Lexeme.offender?_fault]
  · rw [hposition]
  · rw [hlayout.caret_eq]
    simp only [List.length_append, List.length_cons, List.length_replicate, List.length_nil]
    omega

theorem report_of_session_at_open_quote :
    (⟨.unterminatedString, ⟨⟨17, 1, 6⟩, "shell"⟩⟩ : Diagnostic) ∈
      (Text.recover "let s = 1\n  é = \"aé".toList none).errors ∧
    '\n' ∉ "shell".toList ∧ 6 ≤ 65534 ∧
    ∃ before c after header place gutter code caret,
      SourceLine.at? "let s = 1\n  é = \"aé".toList 17 =
        some ⟨2, before ++ c :: after, before.byteSize⟩ ∧
      before.length = 6 ∧ some '"' = some c ∧
      Diagnostic.report? ⟨.unterminatedString, ⟨⟨17, 1, 6⟩, "shell"⟩⟩
          "let s = 1\n  é = \"aé".toList =
        some ([header, place, gutter, code, caret].flatMap Text.asLine) ∧
      Diagnostic.Layout ⟨.unterminatedString, ⟨⟨17, 1, 6⟩, "shell"⟩⟩ (before ++ c :: after) c
        header place gutter code caret := by
  have herror : (⟨.unterminatedString, ⟨⟨17, 1, 6⟩, "shell"⟩⟩ : Diagnostic) ∈
      (Text.recover "let s = 1\n  é = \"aé".toList none).errors := by decide +kernel
  obtain ⟨before, c, after, header, place, gutter, code, caret, hline, hbefore, hc, -, hreport,
    hlayout, -⟩ := report_of_session "let s = 1\n  é = \"aé".toList none [] _ _
      List.mem_cons_self (.recover herror) (by decide) (by decide)
  exact ⟨herror, by decide, by decide, before, c, after, header, place, gutter, code, caret, hline,
    hbefore, hc, hreport, hlayout⟩

example :
    Diagnostic.report? ⟨.unterminatedString, ⟨⟨17, 1, 6⟩, "shell"⟩⟩ "let s = 1\n  é = \"aé".toList =
      some ("Error: UnterminatedString (Add a closing `\"` before the end of the line)\n".toList ++
        "-> shell:2:7\n  |\n2 | é = \"aé\n  | ----^\n".toList) := by decide +kernel

end Session

end JustLang
