import JustLang.Proofs.Lexeme.Newline
import JustLang.Proofs.Position

namespace JustLang.Lexer

variable {l l' l'' before next last : Lexer} {s t gap : Text} {c : Char} {d : Diagnostic}
  {u : Token} {w : Lexeme}

section Moves

-- The lexer behind a piece of the unread text, its place counted character by character.
def pass (l : Lexer) (s : Text) : Lexer :=
  { l with rest := l.rest.drop s.length, cursor := l.cursor.after s }

theorem rest_pass (l : Lexer) (s : Text) : (l.pass s).rest = l.rest.drop s.length := rfl

theorem pass_nil (l : Lexer) : l.pass [] = l := rfl

theorem pass_pass (l : Lexer) (s t : Text) : (l.pass s).pass t = l.pass (s ++ t) := by
  simp only [pass, List.drop_drop, Cursor.after_append, List.length_append]

theorem advance_eq_pass (l : Lexer) (h : '\n' ∉ s) : l.advance s = l.pass s := by
  rw [advance, pass, l.cursor.advance_eq_after h]

theorem advanceLine_eq_pass (l : Lexer) : l.advanceLine = l.pass ['\n'] := by
  rw [advanceLine, Cursor.advanceLine_eq_after]
  rfl

theorem skipSpaces_eq_pass (l : Lexer) (s : Text) : l.skipSpaces s = l.pass s.leadingSpaces := by
  induction s generalizing l with
  | nil => rfl
  | cons c s ih =>
      by_cases hc : c = ' '
      · have hspaces : Text.leadingSpaces (c :: s) = [' '] ++ Text.leadingSpaces s := by
          simp [Text.leadingSpaces, hc]
        rw [skipSpaces, if_pos hc, ih, l.advance_eq_pass (by decide), pass_pass, hspaces]
      · have hspaces : Text.leadingSpaces (c :: s) = [] := by simp [Text.leadingSpaces, hc]
        rw [skipSpaces, if_neg hc, hspaces, pass_nil]

theorem afterSpaces_eq_pass (l : Lexer) : l.afterSpaces = l.pass l.rest.leadingSpaces :=
  l.skipSpaces_eq_pass l.rest

theorem exhausted_afterSpaces (l : Lexer) : l.afterSpaces.exhausted = l.exhausted := by
  rw [afterSpaces_eq_pass]
  rfl

end Moves

-- The second lexer stands behind a text that the first one was about to read.
structure Reads (l : Lexer) (s : Text) (l' : Lexer) : Prop where
  rest : l.rest = s ++ l'.rest
  cursor : l'.cursor = l.cursor.after s
  file : l'.file = l.file

theorem Reads.refl (l : Lexer) : l.Reads [] l := ⟨rfl, rfl, rfl⟩

theorem Reads.trans (h : l.Reads s l') (h' : l'.Reads t l'') : l.Reads (s ++ t) l'' where
  rest := by rw [h.rest, h'.rest, List.append_assoc]
  cursor := by rw [h'.cursor, h.cursor, Cursor.after_append]
  file := h'.file.trans h.file

theorem Reads.exhaust (h : l.Reads s l') : l.Reads s l'.exhaust := ⟨h.rest, h.cursor, h.file⟩

theorem reads_pass (h : s <+: l.rest) : l.Reads s (l.pass s) where
  rest := by
    obtain ⟨rest, hrest⟩ := h
    rw [rest_pass, ← hrest, List.drop_left]
  cursor := rfl
  file := rfl

theorem leadingSpaces_isPrefix (l : Lexer) : l.rest.leadingSpaces <+: l.rest :=
  List.takeWhile_prefix _

theorem reads_afterSpaces (l : Lexer) : l.Reads l.rest.leadingSpaces l.afterSpaces := by
  rw [afterSpaces_eq_pass]
  exact reads_pass l.leadingSpaces_isPrefix

-- Behind its spaces a text has no more of them.
theorem ne_space_of_rest_afterSpaces (h : l.afterSpaces.rest = c :: s) : c ≠ ' ' := by
  have hc := List.head?_dropWhile_not (· = ' ') l.rest
  rw [rest_afterSpaces, Text.dropSpaces] at h
  rw [h] at hc
  simpa using hc

theorem afterSpaces_afterSpaces (l : Lexer) : l.afterSpaces.afterSpaces = l.afterSpaces := by
  have h : l.afterSpaces.rest.leadingSpaces = [] := by
    cases hrest : l.afterSpaces.rest with
    | nil => rfl
    | cons c s =>
        have hc := ne_space_of_rest_afterSpaces hrest
        simp [Text.leadingSpaces, hc]
  rw [l.afterSpaces.afterSpaces_eq_pass, h, pass_nil]

section Scan

theorem accept_eq_token (l : Lexer) (h : '\n' ∉ w.text) :
    l.accept w = .token (l.locate w) (l.pass w.text) := by
  rw [accept, l.advance_eq_pass h]

-- A lexeme may only be passed along the line because none but the newline has one in it.
theorem scan_of_read? (hrest : l.rest = c :: s) (h : Lexeme.read? (c :: s) = some w) :
    l.scan c = .token (l.locate w) (l.pass w.text) := by
  rw [scan, Lexeme.numeral?_eq_read?, hrest]
  cases hn : Numeral.read? (c :: s) with
  | some v =>
      rw [Lexeme.read?_eq_some_iff.mpr (.inl hn)] at h
      obtain rfl : v = w := Option.some.inj h
      exact l.accept_eq_token
        (Numeral.newline_notMem_of_mem_numerals (Numeral.longestPrefix_of_read? hn).mem)
  | none =>
      by_cases hquote : c = '"'
      · subst hquote
        have hplain := Lexeme.newline_notMem_of_read? h (by decide)
        rw [Lexeme.read?_quote] at h
        simp only [if_true, h]
        exact l.accept_eq_token hplain
      · by_cases hnewline : c = '\n'
        · subst hnewline
          rw [Lexeme.read?_newline] at h
          obtain rfl := Option.some.inj h
          simp only [if_neg hquote, if_true, advanceLine_eq_pass]
        · have hplain := Lexeme.newline_notMem_of_read? h hnewline
          rw [Lexeme.read?_of_ne_quote hn hquote] at h
          simp only [if_neg hquote, if_neg hnewline, h]
          exact l.accept_eq_token hplain

theorem scan_of_read?_eq_none (hrest : l.rest = c :: s) (h : Lexeme.read? (c :: s) = none) :
    l.scan c = l.reject (Lexeme.fault c) := by
  have hnewline := Lexeme.ne_newline_of_read?_eq_none h
  have hn : Numeral.read? (c :: s) = none := (Option.or_eq_none_iff.mp h).1
  rw [scan, Lexeme.numeral?_eq_read?, hrest, hn, Lexeme.fault]
  by_cases hquote : c = '"'
  · subst hquote
    rw [Lexeme.read?_quote] at h
    simp only [if_true, h]
  · rw [Lexeme.read?_of_ne_quote hn hquote] at h
    simp only [if_neg hquote, if_neg hnewline, h]

end Scan

section Step

theorem step_of_rest_nil (h : l.afterSpaces.rest = []) : l.step = .finish l.afterSpaces := by
  rcases l.step_eq_finish_or_scan with ⟨-, hs⟩ | ⟨c, s, hrest, -⟩
  · exact hs
  · rw [h] at hrest
    cases hrest

theorem step_of_rest_cons (h : l.afterSpaces.rest = c :: s) : l.step = l.afterSpaces.scan c := by
  rcases l.step_eq_finish_or_scan with ⟨hrest, -⟩ | ⟨c', s', hrest, hs⟩
  · rw [h] at hrest
    cases hrest
  · rw [h] at hrest
    cases hrest
    exact hs

theorem step_of_read? (h : Lexeme.read? l.afterSpaces.rest = some w) :
    l.step = .token (l.afterSpaces.locate w) (l.afterSpaces.pass w.text) := by
  cases hrest : l.afterSpaces.rest with
  | nil =>
      rw [hrest] at h
      cases h
  | cons c s =>
      rw [step_of_rest_cons hrest]
      exact scan_of_read? hrest (hrest ▸ h)

theorem step_of_read?_eq_none (hrest : l.afterSpaces.rest = c :: s)
    (h : Lexeme.read? (c :: s) = none) :
    l.step = .fault ⟨Lexeme.fault c, l.afterSpaces.position⟩ l.afterSpaces := by
  rw [step_of_rest_cons hrest]
  exact scan_of_read?_eq_none hrest h

theorem step_of_numeral (h : Numeral.read? l.afterSpaces.rest = some w) :
    l.step = .token (l.afterSpaces.locate w) (l.afterSpaces.advance w.text) := by
  cases hrest : l.afterSpaces.rest with
  | nil =>
      rw [hrest] at h
      cases h
  | cons c s =>
      rw [step_of_rest_cons hrest, scan, Lexeme.numeral?_eq_read?, h]
      rfl

-- Everything that a step can find, with the lexers that it leads to.
theorem step_cases (l : Lexer) :
    (l.afterSpaces.rest = [] ∧ l.step = .finish l.afterSpaces) ∨
    (∃ w, Lexeme.read? l.afterSpaces.rest = some w ∧
      l.step = .token (l.afterSpaces.locate w) (l.afterSpaces.pass w.text)) ∨
    (∃ c s, l.afterSpaces.rest = c :: s ∧ Lexeme.read? (c :: s) = none ∧
      l.step = .fault ⟨Lexeme.fault c, l.afterSpaces.position⟩ l.afterSpaces) := by
  cases hrest : l.afterSpaces.rest with
  | nil => exact .inl ⟨rfl, step_of_rest_nil hrest⟩
  | cons c s =>
      cases hr : Lexeme.read? (c :: s) with
      | none => exact .inr (.inr ⟨c, s, rfl, hr, step_of_read?_eq_none hrest hr⟩)
      | some w => exact .inr (.inl ⟨w, rfl, step_of_read? (hrest ▸ hr)⟩)

theorem eq_of_finish (h : l.step = .finish last) : last = l.afterSpaces ∧ last.rest = [] := by
  rcases l.step_cases with ⟨hrest, hs⟩ | ⟨w, -, hs⟩ | ⟨c, s, -, -, hs⟩
  · rw [hs] at h
    cases h
    exact ⟨rfl, hrest⟩
  · rw [hs] at h
    cases h
  · rw [hs] at h
    cases h

theorem eq_of_token (h : l.step = .token u next) :
    Lexeme.read? l.afterSpaces.rest = some u.toLexeme ∧
      u = l.afterSpaces.locate u.toLexeme ∧ next = l.afterSpaces.pass u.text := by
  rcases l.step_cases with ⟨-, hs⟩ | ⟨w, hr, hs⟩ | ⟨c, s, -, -, hs⟩
  · rw [hs] at h
    cases h
  · rw [hs] at h
    cases h
    exact ⟨hr, rfl, rfl⟩
  · rw [hs] at h
    cases h

theorem kind_ne_of_token (h : l.step = .token u next) : u.kind ≠ .unrecognized :=
  (Lexeme.hasKind_of_read? (eq_of_token h).1).kind_ne.2

theorem exhausted_of_token (h : l.step = .token u next) : next.exhausted = l.exhausted := by
  obtain ⟨-, -, rfl⟩ := eq_of_token h
  exact l.exhausted_afterSpaces

theorem eq_of_fault (h : l.step = .fault d before) :
    before = l.afterSpaces ∧ ∃ c s, l.afterSpaces.rest = c :: s ∧
      Lexeme.read? (c :: s) = none ∧ d = ⟨Lexeme.fault c, l.afterSpaces.position⟩ := by
  rcases l.step_cases with ⟨-, hs⟩ | ⟨w, -, hs⟩ | ⟨c, s, hrest, hr, hs⟩
  · rw [hs] at h
    cases h
  · rw [hs] at h
    cases h
  · rw [hs] at h
    cases h
    exact ⟨rfl, c, s, hrest, hr, rfl⟩

end Step

section Skip

theorem skipped_eq_locate {p : Position} (hrest : l.rest = c :: s) :
    l.skipped ⟨Lexeme.fault c, p⟩ = l.locate (Lexeme.skipped c s) := by
  rw [skipped, hrest]
  rfl

-- No newline is skipped either.
theorem skip_eq_pass {p : Position} (hrest : l.rest = c :: s)
    (h : Lexeme.read? (c :: s) = none) :
    l.skip ⟨Lexeme.fault c, p⟩ = l.pass (Lexeme.skipped c s).text := by
  rw [skip, skipped_eq_locate hrest]
  exact l.advance_eq_pass (Lexeme.newline_notMem_skipped h)

end Skip

theorem step_afterSpaces (l : Lexer) : l.afterSpaces.step = l.step := by
  have hspaces := l.afterSpaces_afterSpaces
  cases hrest : l.afterSpaces.rest with
  | nil => rw [step_of_rest_nil hrest, step_of_rest_nil (by rwa [hspaces]), hspaces]
  | cons c s => rw [step_of_rest_cons hrest, step_of_rest_cons (by rwa [hspaces]), hspaces]

-- The same step with other lexers after it.
def Step.map (f : Lexer → Lexer) : Step → Step
  | .finish last => .finish (f last)
  | .token t next => .token t (f next)
  | .fault d before => .fault d (f before)

theorem step_exhaust (l : Lexer) : l.exhaust.step = l.step.map exhaust := by
  have hspaces : l.exhaust.afterSpaces = l.afterSpaces.exhaust := by
    rw [afterSpaces_eq_pass, afterSpaces_eq_pass]
    rfl
  have hrest : l.exhaust.afterSpaces.rest = l.afterSpaces.rest := by
    rw [hspaces]
    rfl
  rcases l.step_cases with ⟨hnil, hs⟩ | ⟨w, hr, hs⟩ | ⟨c, s, hcons, hr, hs⟩
  · rw [hs, step_of_rest_nil (hrest.trans hnil), hspaces]
    rfl
  · rw [hs, step_of_read? (hrest ▸ hr), hspaces]
    rfl
  · rw [hs, step_of_read?_eq_none (hrest.trans hcons) hr, hspaces]
    rfl

-- Reading ends after finitely many steps, since each takes some text.
theorem induction_on_step {motive : Lexer → Prop}
    (finish : ∀ l last, l.step = .finish last → motive l)
    (token : ∀ l u next, l.step = .token u next → motive next → motive l)
    (fault : ∀ l d before, l.step = .fault d before → motive (before.skip d) → motive l)
    (l : Lexer) : motive l := by
  match h : l.step with
  | .finish last => exact finish l last h
  | .token u next =>
      have hlt := length_rest_of_token h
      exact token l u next h (induction_on_step finish token fault next)
  | .fault d before =>
      have hlt := length_rest_skip_of_fault h
      exact fault l d before h (induction_on_step finish token fault (before.skip d))
termination_by l.rest.length

-- Behind spaces there is a token at its place, and the next lexer stands behind it.
structure Emits (l : Lexer) (gap : Text) (u : Token) (next : Lexer) : Prop where
  spaces : ∀ c ∈ gap, c = ' '
  reads : l.Reads (gap ++ u.text) next
  line : u.line = (l.cursor.after gap).line
  column : u.column = (l.cursor.after gap).column
  emitted : u.Emitted

theorem emits_locate (hw : w.text <+: l.afterSpaces.rest) (he : w.Emitted) :
    l.Emits l.rest.leadingSpaces (l.afterSpaces.locate w) (l.afterSpaces.pass w.text) where
  spaces _ hc := Text.eq_space_of_mem_leadingSpaces hc
  reads := l.reads_afterSpaces.trans (reads_pass hw)
  line := congrArg Cursor.line l.reads_afterSpaces.cursor
  column := congrArg Cursor.column l.reads_afterSpaces.cursor
  emitted := he

theorem emits_of_token (h : l.step = .token u next) : l.Emits l.rest.leadingSpaces u next := by
  obtain ⟨hr, hu, rfl⟩ := eq_of_token h
  have he := emits_locate (Lexeme.read?_text hr).2 (Lexeme.emitted_of_read? hr)
  rwa [← hu] at he

theorem emits_of_fault (h : l.step = .fault d before) :
    l.Emits l.rest.leadingSpaces (before.skipped d) (before.skip d) := by
  obtain ⟨rfl, c, s, hrest, hr, rfl⟩ := eq_of_fault h
  rw [skipped_eq_locate hrest, skip_eq_pass hrest hr]
  exact emits_locate (hrest ▸ Lexeme.skipped_isPrefix c s) (Lexeme.emitted_skipped hr)

section Equations

theorem next_of_finish (h : l.step = .finish last) :
    l.next = (.ok (.endOfInput last.cursor.line last.cursor.column), last) := by
  simp [Lexer.next, h]

theorem next_of_token (h : l.step = .token u next) : l.next = (.ok u, next) := by
  simp [Lexer.next, h]

theorem next_of_fault (h : l.step = .fault d before) :
    l.next = (.error d, before) := by
  simp [Lexer.next, h]

theorem pull_of_exhausted (h : l.exhausted = true) : l.pull = (none, l) := by
  simp [pull, h]

theorem pull_of_finish (hl : l.exhausted = false) (h : l.step = .finish last) :
    l.pull = (none, last.exhaust) := by
  simp [pull, hl, h]

theorem pull_of_token (hl : l.exhausted = false) (h : l.step = .token u next) :
    l.pull = (some (.ok u), next) := by
  simp [pull, hl, h]

theorem pull_of_fault (hl : l.exhausted = false) (h : l.step = .fault d before) :
    l.pull = (some (.error d), before.exhaust) := by
  simp [pull, hl, h]

-- A call for the next token hands it out, or reports the end of the input or a fault where the
-- spaces end.
theorem next_eq_cases (l : Lexer) :
    (∃ u next, l.step = .token u next ∧ l.next = (.ok u, next)) ∨
    (l.afterSpaces.rest = [] ∧
      l.next = (.ok (.endOfInput l.afterSpaces.cursor.line l.afterSpaces.cursor.column),
        l.afterSpaces)) ∨
    (∃ d, d.position = l.afterSpaces.position ∧ l.next = (.error d, l.afterSpaces)) := by
  cases h : l.step with
  | finish last =>
      obtain ⟨rfl, hrest⟩ := eq_of_finish h
      exact .inr (.inl ⟨hrest, next_of_finish h⟩)
  | token u next => exact .inl ⟨u, next, rfl, next_of_token h⟩
  | fault d before =>
      obtain ⟨rfl, c, s, -, -, rfl⟩ := eq_of_fault h
      exact .inr (.inr ⟨_, rfl, next_of_fault h⟩)

theorem next_cases (l : Lexer) :
    (∃ u next, l.step = .token u next ∧ l.next = (.ok u, next)) ∨
    (∃ result, (∀ u, result = .ok u → u.kind = .endOfInput) ∧
      l.next = (result, l.afterSpaces)) := by
  rcases l.next_eq_cases with h | ⟨-, hnext⟩ | ⟨d, -, hnext⟩
  · exact .inl h
  · refine .inr ⟨_, ?_, hnext⟩
    intro u hu
    rw [← Except.ok.inj hu]
    rfl
  · refine .inr ⟨_, ?_, hnext⟩
    intro u hu
    cases hu

-- A call for the next item does so too, and ends the sequence where there is no token.
theorem pull_cases (l : Lexer) :
    (l.exhausted = true ∧ l.pull = (none, l)) ∨
    (∃ u next, l.step = .token u next ∧ l.pull = (some (.ok u), next)) ∨
    (∃ item, (∀ u, item ≠ some (.ok u)) ∧ l.pull = (item, l.afterSpaces.exhaust)) := by
  by_cases hl : l.exhausted = true
  · exact .inl ⟨hl, pull_of_exhausted hl⟩
  · have hl := Bool.eq_false_iff.mpr hl
    cases h : l.step with
    | finish last =>
        obtain ⟨rfl, -⟩ := eq_of_finish h
        exact .inr (.inr ⟨none, by simp, pull_of_finish hl h⟩)
    | token u next => exact .inr (.inl ⟨u, next, rfl, pull_of_token hl h⟩)
    | fault d before =>
        obtain ⟨rfl, -⟩ := eq_of_fault h
        exact .inr (.inr ⟨some (.error d), by simp, pull_of_fault hl h⟩)

theorem drain_of_none (h : l.pull = (none, last)) : l.drain = (.ok [], last) := by
  rw [drain]
  split <;> simp_all

theorem drain_of_error (h : l.pull = (some (.error d), last)) : l.drain = (.error d, last) := by
  rw [drain]
  split <;> simp_all

theorem drain_of_ok (h : l.pull = (some (.ok u), next)) :
    l.drain = (next.drain.1.map (u :: ·), next.drain.2) := by
  rw [drain]
  split <;> simp_all

theorem recover_of_finish (h : l.step = .finish last) : l.recover = (⟨[], []⟩, last.exhaust) := by
  rw [recover]
  split <;> simp_all

theorem recover_of_token (h : l.step = .token u next) :
    l.recover = (⟨u :: next.recover.1.tokens, next.recover.1.errors⟩, next.recover.2) := by
  rw [recover]
  split <;> simp_all

theorem recover_of_fault (h : l.step = .fault d before) :
    l.recover =
      (⟨before.skipped d :: (before.skip d).recover.1.tokens,
          d :: (before.skip d).recover.1.errors⟩, (before.skip d).recover.2) := by
  rw [recover]
  split <;> simp_all

end Equations

-- Recovery takes no notice of whether the sequence of tokens has ended.
theorem recover_exhaust (l : Lexer) : l.exhaust.recover = l.recover := by
  have hstep := l.step_exhaust
  induction l using induction_on_step with
  | finish l last h =>
      rw [h] at hstep
      rw [recover_of_finish hstep, recover_of_finish h]
      rfl
  | token l u next h ih =>
      rw [h] at hstep
      rw [recover_of_token hstep, recover_of_token h, ih next.step_exhaust]
  | fault l d before h ih =>
      rw [h] at hstep
      have hskip : before.exhaust.skip d = (before.skip d).exhaust := rfl
      rw [recover_of_fault hstep, recover_of_fault h, hskip, ih (before.skip d).step_exhaust]
      rfl

-- Nor of the spaces before it.
theorem recover_afterSpaces (l : Lexer) : l.afterSpaces.recover = l.recover := by
  have hstep := l.step_afterSpaces
  cases h : l.step with
  | finish last =>
      rw [h] at hstep
      rw [recover_of_finish hstep, recover_of_finish h]
  | token u next =>
      rw [h] at hstep
      rw [recover_of_token hstep, recover_of_token h]
  | fault d before =>
      rw [h] at hstep
      rw [recover_of_fault hstep, recover_of_fault h]

-- The tokens that recovery returns are emitted one after the other, whether or not they could be
-- read.
theorem recover_induction {motive : Lexer → List Token → Prop}
    (finish : ∀ l, l.afterSpaces.rest = [] → motive l [])
    (emit : ∀ l gap u next tokens, l.Emits gap u next → motive next tokens →
      motive l (u :: tokens)) (l : Lexer) : motive l l.recover.1.tokens := by
  induction l using induction_on_step with
  | finish l last h =>
      rw [recover_of_finish h]
      obtain ⟨rfl, hrest⟩ := eq_of_finish h
      exact finish l hrest
  | token l u next h ih =>
      rw [recover_of_token h]
      exact emit l _ u next _ (emits_of_token h) ih
  | fault l d before h ih =>
      rw [recover_of_fault h]
      exact emit l _ (before.skipped d) (before.skip d) _ (emits_of_fault h) ih

end JustLang.Lexer
