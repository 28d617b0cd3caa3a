import JustLang.Proofs.Diagnostic.Report
import JustLang.Proofs.SourceLine.Bytes

namespace JustLang

namespace Text

variable {s t u : Text} {offset : Nat}

-- The offset is that of a character or of the end.
def IsBoundary (s : Text) (offset : Nat) : Prop :=
  ∃ before after, s = before ++ after ∧ before.byteSize = offset

theorem isPrefix_of_byteSize_le (hs : s <+: u) (ht : t <+: u) (hle : s.byteSize ≤ t.byteSize) :
    s <+: t := by
  rcases List.prefix_or_prefix_of_prefix hs ht with h | ⟨rest, rfl⟩
  · exact h
  · have hlength := length_le_byteSize rest
    rw [byteSize_append] at hle
    have hrest : rest = [] := List.length_eq_zero_iff.mp (by omega)
    rw [hrest, List.append_nil]

theorem isBoundary_append_iff (above below : Text) (hle : offset ≤ s.byteSize) :
    (above ++ (s ++ below)).IsBoundary (above.byteSize + offset) ↔ s.IsBoundary offset := by
  constructor
  · rintro ⟨before, after, heq, hsize⟩
    obtain ⟨shown, rfl⟩ : above <+: before :=
      isPrefix_of_byteSize_le ⟨s ++ below, heq⟩ ⟨after, rfl⟩ (by omega)
    rw [byteSize_append] at hsize
    rw [List.append_assoc, List.append_cancel_left_eq] at heq
    obtain ⟨rest, hrest⟩ : shown <+: s :=
      isPrefix_of_byteSize_le ⟨after, heq.symm⟩ ⟨below, rfl⟩ (by omega)
    exact ⟨shown, rest, hrest.symm, by omega⟩
  · rintro ⟨before, after, rfl, rfl⟩
    exact ⟨above ++ before, after ++ below, by simp, byteSize_append above before⟩

theorem eq_of_isPrefix_of_byteSize (hs : s <+: u) (ht : t <+: u) (h : s.byteSize = t.byteSize) :
    s = t := by
  have hst := isPrefix_of_byteSize_le hs ht h.le
  have hts := isPrefix_of_byteSize_le ht hs h.ge
  exact hst.eq_of_length_le hts.length_le

-- What is trimmed is as many blanks as there are at the end.
theorem exists_trimEnd_append (s : Text) :
    ∃ blanks, s = s.trimEnd ++ blanks ∧ (∀ c ∈ blanks, isBlank c = true) ∧
      ∀ c ∈ s.trimEnd.getLast?, isBlank c = false := by
  refine ⟨(s.reverse.takeWhile isBlank).reverse, ?_, ?_, ?_⟩
  · rw [trimEnd, ← List.reverse_append, List.takeWhile_append_dropWhile, List.reverse_reverse]
  · intro c hc
    exact List.mem_takeWhile_imp (List.mem_reverse.mp hc)
  · intro c hc
    rw [trimEnd, List.getLast?_reverse, Option.mem_def] at hc
    have hhead := List.head?_dropWhile_not isBlank s.reverse
    rw [hc] at hhead
    simpa using hhead

end Text

namespace Diagnostic

variable {d : Diagnostic} {source report : Text} {line : SourceLine} {indent : Nat}

-- The dashes stand for the characters between the indentation and the offset.
theorem exists_shown_of_caretIndent? (h : caretIndent? line = some indent) :
    ∃ shown after, line.text = line.text.leadingSpaces ++ shown ++ after ∧
      line.text.indentation + Text.byteSize shown = max line.text.indentation line.offset ∧
      shown.length = indent := by
  obtain ⟨shown, hslice, rfl⟩ := Option.map_eq_some_iff.mp h
  obtain ⟨spaces, after, htext, hspaces, hsize⟩ := Text.slice?_eq_some_iff.mp hslice
  have hbegins : spaces <+: line.text := by
    rw [htext, List.append_assoc]
    exact List.prefix_append _ _
  obtain rfl : spaces = line.text.leadingSpaces :=
    Text.eq_of_isPrefix_of_byteSize hbegins (List.takeWhile_prefix _)
      (hspaces.trans line.text.byteSize_leadingSpaces.symm)
  refine ⟨shown, after, htext, ?_, rfl⟩
  rw [Nat.max_comm, ← hsize, hspaces]

-- What is shown ends at the offset, unless the offset lies within the indentation.
theorem caretIndent?_eq_none_iff :
    caretIndent? line = none ↔
      line.text.indentation < line.offset ∧ ¬ line.text.IsBoundary line.offset := by
  have hspaces := line.text.leadingSpaces_append_dropSpaces
  have hsize := line.text.byteSize_leadingSpaces
  by_cases hle : line.offset ≤ line.text.indentation
  · have hslice := Text.slice?_append line.text.leadingSpaces [] line.text.dropSpaces
    rw [List.append_nil, hspaces, hsize, Text.byteSize_nil, Nat.add_zero] at hslice
    simp [caretIndent?, hslice, hle]
  · refine ⟨fun h => ⟨Nat.lt_of_not_le hle, ?_⟩, ?_⟩
    · rintro ⟨before, after, htext, hbefore⟩
      obtain ⟨shown, rfl⟩ : line.text.leadingSpaces <+: before :=
        Text.isPrefix_of_byteSize_le ⟨_, hspaces⟩ ⟨after, htext.symm⟩
          (by rw [hsize, hbefore]; exact Nat.le_of_not_le hle)
      have hslice := Text.slice?_append line.text.leadingSpaces shown after
      rw [Text.byteSize_append] at hbefore
      rw [← htext, hbefore, hsize] at hslice
      rw [caretIndent?, Nat.max_eq_left (Nat.le_of_not_le hle), hslice] at h
      cases h
    · rintro ⟨-, hinside⟩
      refine Option.eq_none_iff_forall_ne_some.mpr fun indent h => ?_
      obtain ⟨shown, after, htext, hshown, -⟩ := exists_shown_of_caretIndent? h
      refine hinside ⟨line.text.leadingSpaces ++ shown, after, htext, ?_⟩
      rw [Text.byteSize_append, hsize]
      exact hshown.trans (Nat.max_eq_right (Nat.le_of_not_le hle))

theorem idxOf_bar (number : Nat) (s : Text) :
    (Text.ofNat number ++ ' ' :: '|' :: s).idxOf '|' = (Text.ofNat number).length + 1 := by
  have hnumber : '|' ∉ Text.ofNat number := Text.notMem_ofNat (by decide) _
  rw [List.idxOf_append_of_notMem hnumber]
  rfl

theorem idxOf_bar_margin (number : Nat) (s : Text) :
    (margin number ++ s).idxOf '|' = (Text.ofNat number).length + 1 := by
  have hspaces : '|' ∉ List.replicate ((Text.ofNat number).length + 1) ' ' := by simp
  rw [margin, List.append_assoc, List.idxOf_append_of_notMem hspaces, List.length_replicate]
  rfl

-- The three lines that show a line of a source, without the newlines that end them.
structure Excerpt (line : SourceLine) (gutter code caret : Text) : Prop where
  gutter_eq : gutter = List.replicate ((Text.ofNat line.number).length + 1) ' ' ++ ['|']
  -- The line without its indentation and the blanks at its end.
  code_eq : ∃ kept blanks, line.text = line.text.leadingSpaces ++ kept ++ blanks ∧
    (∀ c ∈ blanks, Text.isBlank c = true) ∧ (∀ c ∈ kept.getLast?, Text.isBlank c = false) ∧
    code = Text.ofNat line.number ++ " | ".toList ++ kept
  -- A dash for each character between the indentation and the offset, none if there is nothing
  -- between them.
  caret_eq : ∃ shown after, line.text = line.text.leadingSpaces ++ shown ++ after ∧
    line.text.indentation + shown.byteSize = max line.text.indentation line.offset ∧
    caret = gutter ++ ' ' :: List.replicate shown.length '-' ++ ['^']
  bars : gutter.idxOf '|' = code.idxOf '|' ∧ caret.idxOf '|' = code.idxOf '|'

theorem exists_excerpt (h : caretIndent? line = some indent) :
    ∃ gutter code caret, Excerpt line gutter code caret ∧
      snippet line indent = [gutter, code, caret].flatMap Text.asLine := by
  obtain ⟨shown, after, hshown, hsize, rfl⟩ := exists_shown_of_caretIndent? h
  have hmargin : margin line.number =
      List.replicate ((Text.ofNat line.number).length + 1) ' ' ++ ['|'] := rfl
  obtain ⟨blanks, hblanks, hblank, hlast⟩ := line.text.dropSpaces.exists_trimEnd_append
  have hspaces := line.text.leadingSpaces_append_dropSpaces
  have hgutter : (margin line.number).idxOf '|' = (Text.ofNat line.number).length + 1 := by
    have hbar := idxOf_bar_margin line.number []
    rwa [List.append_nil] at hbar
  have hcode : (Text.ofNat line.number ++ " | ".toList ++ line.text.dropSpaces.trimEnd).idxOf '|' =
      (Text.ofNat line.number).length + 1 := by
    rw [List.append_assoc]
    exact idxOf_bar line.number _
  have hcaret : (margin line.number ++ ' ' :: List.replicate shown.length '-' ++ ['^']).idxOf '|' =
      (Text.ofNat line.number).length + 1 := by
    rw [List.append_assoc]
    exact idxOf_bar_margin line.number _
  refine ⟨_, _, _, ⟨hmargin, ⟨_, blanks, ?_, hblank, hlast, rfl⟩,
    ⟨shown, after, hshown, hsize, rfl⟩, hgutter.trans hcode.symm, hcaret.trans hcode.symm⟩, ?_⟩
  · rw [List.append_assoc, ← hblanks, hspaces]
  · simp only [snippet, List.flatMap_cons, List.flatMap_nil, List.append_nil, List.append_assoc]

-- An offset is inside a character of the source if and only if it is on its line.
theorem isBoundary_iff_of_at? {offset : Nat} (h : SourceLine.at? source offset = some line) :
    source.IsBoundary offset ↔ line.text.IsBoundary line.offset := by
  obtain ⟨above, body, below, hsplits⟩ := SourceLine.exists_splits_of_at? h
  rw [hsplits.source_eq, hsplits.offset_eq]
  exact Text.isBoundary_append_iff above below hsplits.offset_le_byteSize

theorem report?_of_at?_eq_none (h : SourceLine.at? source d.position.offset = none) :
    d.report? source = some (d.heading ++ d.place ++ d.message.asLine) := by
  rw [report?, h]

theorem report?_of_at?_eq_some (h : SourceLine.at? source d.position.offset = some line) :
    d.report? source =
      (caretIndent? line).map fun indent => d.heading ++ d.place ++ snippet line indent := by
  rw [report?, h]

theorem report?_eq_none_iff :
    d.report? source = none ↔ d.position.offset ≤ source.byteSize ∧
      ∃ line, SourceLine.LineAt source d.position.offset line ∧
        d.position.offset - line.offset + line.text.indentation < d.position.offset ∧
        ¬ source.IsBoundary d.position.offset := by
  cases hline : SourceLine.at? source d.position.offset with
  | none =>
      rw [report?_of_at?_eq_none hline]
      have hlt := SourceLine.at?_eq_none_iff.mp hline
      simp only [reduceCtorEq, false_iff, not_and]
      intro hle
      omega
  | some line =>
      obtain ⟨hle, hat⟩ := SourceLine.at?_eq_some_iff.mp hline
      have hoffset := hat.offset_le
      rw [report?_of_at?_eq_some hline, Option.map_eq_none_iff, caretIndent?_eq_none_iff,
        ← isBoundary_iff_of_at? hline]
      constructor
      · rintro ⟨hlt, hinside⟩
        exact ⟨hle, line, hat, by omega, hinside⟩
      · rintro ⟨-, other, hother, hlt, hinside⟩
        rw [← hat.unique hother] at hlt
        exact ⟨by omega, hinside⟩

-- Widths are not bounded here. Those of a caret up to column 65535 fit in sixteen bits.
theorem report?_exact (d : Diagnostic) (source : Text) :
    (d.report? source = none ↔ d.position.offset ≤ source.byteSize ∧
      ∃ line, SourceLine.LineAt source d.position.offset line ∧
        d.position.offset - line.offset + line.text.indentation < d.position.offset ∧
        ¬ source.IsBoundary d.position.offset) ∧
    ∀ report, d.report? source = some report →
      ∃ header place,
        header = "Error: ".toList ++ d.cause.name.toList ++
          (d.cause.tip?.elim [] fun tip => " (".toList ++ tip ++ [')']) ∧
        place = "-> ".toList ++ d.position.file.toList ++
          ':' :: Text.ofNat (d.position.line + 1) ++ ':' :: Text.ofNat (d.position.column + 1) ∧
        (source.byteSize < d.position.offset →
          report = [header, place, d.message].flatMap Text.asLine) ∧
        (d.position.offset ≤ source.byteSize →
          ∃ line gutter code caret, SourceLine.LineAt source d.position.offset line ∧
            Excerpt line gutter code caret ∧
            report = [header, place, gutter, code, caret].flatMap Text.asLine) := by
  refine ⟨report?_eq_none_iff, fun report hreport => ⟨_, _, rfl, rfl, ?_, ?_⟩⟩
  · intro hlt
    rw [report?_of_at?_eq_none (SourceLine.at?_eq_none_iff.mpr hlt), heading_eq] at hreport
    rw [← Option.some.inj hreport]
    simp only [place_eq, List.flatMap_cons, List.flatMap_nil, List.append_nil, List.append_assoc]
  · intro hle
    obtain ⟨line, hline⟩ := SourceLine.exists_at?_of_le hle
    rw [report?_of_at?_eq_some hline] at hreport
    obtain ⟨indent, hindent, rfl⟩ := Option.map_eq_some_iff.mp hreport
    obtain ⟨gutter, code, caret, hexcerpt, hsnippet⟩ := exists_excerpt hindent
    refine ⟨line, gutter, code, caret, SourceLine.lineAt_of_at? hline, hexcerpt, ?_⟩
    rw [hsnippet, heading_eq]
    simp only [place_eq, List.flatMap_cons, List.flatMap_nil, List.append_nil, List.append_assoc]

theorem report?_exact_around_accent :
    report? ⟨.unterminatedString, ⟨⟨5, 1, 3⟩, "a.just"⟩⟩ "a\n  é ~".toList = none ∧
    (∃ line, SourceLine.LineAt "a\n  é ~".toList 5 line ∧
      5 - line.offset + line.text.indentation < 5 ∧ ¬ Text.IsBoundary "a\n  é ~".toList 5) ∧
    ∃ report header place line gutter code caret,
      report? ⟨.unrecognisedCharacter '~', ⟨⟨7, 1, 4⟩, "a.just"⟩⟩ "a\n  é ~".toList = some report ∧
      SourceLine.LineAt "a\n  é ~".toList 7 line ∧ Excerpt line gutter code caret ∧
      report = [header, place, gutter, code, caret].flatMap Text.asLine := by
  have hnone : report? ⟨.unterminatedString, ⟨⟨5, 1, 3⟩, "a.just"⟩⟩ "a\n  é ~".toList = none := by
    decide +kernel
  have hsome :
      (report? ⟨.unrecognisedCharacter '~', ⟨⟨7, 1, 4⟩, "a.just"⟩⟩ "a\n  é ~".toList).isSome := by
    decide +kernel
  obtain ⟨report, hreport⟩ := Option.isSome_iff_exists.mp hsome
  obtain ⟨header, place, -, -, -, hshown⟩ := (report?_exact _ _).2 report hreport
  obtain ⟨line, gutter, code, caret, hline, hexcerpt, heq⟩ := hshown (by decide)
  exact ⟨hnone, ((report?_exact _ _).1.mp hnone).2, report, header, place, line, gutter, code,
    caret, hreport, hline, hexcerpt, heq⟩

end Diagnostic

end JustLang
