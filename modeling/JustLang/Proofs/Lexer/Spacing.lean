import JustLang.Proofs.Lexeme.Spacing
import JustLang.Proofs.Lexer.Place

namespace JustLang

-- A piece of text behind so many spaces.
structure Spaced where
  gap : Nat
  text : Text

namespace Text

def spaces (n : Nat) : Text := List.replicate n ' '

def ofSpaced (piece : Spaced) : Text := spaces piece.gap ++ piece.text

-- The pieces in their order, with spaces at the end.
def spell (pieces : List Spaced) (last : Nat) : Text := pieces.flatMap ofSpaced ++ spaces last

variable {s : Text} {piece : Spaced} {pieces : List Spaced} {n last : Nat}

theorem spell_cons (piece : Spaced) (pieces : List Spaced) (last : Nat) :
    spell (piece :: pieces) last = spaces piece.gap ++ (piece.text ++ spell pieces last) := by
  simp only [spell, ofSpaced, List.flatMap_cons, List.append_assoc]

theorem eq_space_of_mem_spaces {c : Char} (h : c ∈ spaces n) : c = ' ' := List.eq_of_mem_replicate h

theorem leadingSpaces_spaces_append (n : Nat) (h : s.head? ≠ some ' ') :
    (spaces n ++ s).leadingSpaces = spaces n := by
  have hall : ∀ c ∈ spaces n, decide (c = ' ') = true := by
    intro c hc
    exact decide_eq_true (eq_space_of_mem_spaces hc)
  have hnil : s.takeWhile (· = ' ') = [] := by
    cases s with
    | nil => rfl
    | cons c s => simpa using h
  rw [leadingSpaces, List.takeWhile_append_of_pos hall, hnil, List.append_nil]

theorem beforeSpace_spaces (n : Nat) : (spaces n).beforeSpace = [] := by
  cases n <;> rfl

theorem beforeSpace_spaces_append (hn : 0 < n) (s : Text) : (spaces n ++ s).beforeSpace = [] := by
  obtain ⟨m, rfl⟩ := Nat.exists_eq_succ_of_ne_zero (Nat.ne_of_gt hn)
  rfl

-- Behind a piece there is a space or the end, if the next piece does not follow directly.
theorem beforeSpace_spell (h : ∀ piece ∈ pieces.head?, 0 < piece.gap) (last : Nat) :
    (spell pieces last).beforeSpace = [] := by
  cases pieces with
  | nil => exact beforeSpace_spaces last
  | cons piece pieces =>
      rw [spell_cons]
      exact beforeSpace_spaces_append (h piece rfl) _

end Text

namespace Lexer

open Text (spaces spell ofSpaced)

variable {l next : Lexer} {u : Token} {w : Lexeme} {t : Text} {n : Nat}

theorem rest_of_spaced (hrest : l.rest = spaces n ++ t) (ht : t.head? ≠ some ' ') :
    l.rest.leadingSpaces = spaces n ∧ l.afterSpaces.rest = t := by
  have hspaces : l.rest.leadingSpaces = spaces n := by
    rw [hrest]
    exact Text.leadingSpaces_spaces_append n ht
  have hreads := l.reads_afterSpaces.rest
  rw [hspaces, hrest, List.append_cancel_left_eq] at hreads
  exact ⟨hspaces, hreads.symm⟩

theorem step_of_spaces (h : l.rest = spaces n) : ∃ last, l.step = .finish last := by
  rw [← List.append_nil (spaces n)] at h
  obtain ⟨-, hrest⟩ := rest_of_spaced h (by simp)
  exact ⟨l.afterSpaces, step_of_rest_nil hrest⟩

-- A lexeme that is read whole behind spaces is the next token.
theorem step_of_spaced (hrest : l.rest = spaces n ++ (w.text ++ t))
    (h : Lexeme.read? (w.text ++ t) = some w) :
    ∃ u next, l.step = .token u next ∧ u.toLexeme = w ∧ l.Emits (spaces n) u next ∧
      next.rest = t := by
  have hlongest := Lexeme.longestPrefix_of_read? h
  obtain ⟨hspaces, hafter⟩ := rest_of_spaced hrest
    (Lexeme.head?_append_ne_space hlongest.mem hlongest.ne_nil t)
  have hstep := step_of_read? (hafter ▸ h)
  have hemits := emits_of_token hstep
  rw [hspaces] at hemits
  refine ⟨_, _, hstep, rfl, hemits, ?_⟩
  rw [rest_pass, hafter, List.drop_left]

-- Nor can a text be cut in another way before the token that is read from it.
theorem emits_of_spaced (hstep : l.step = .token u next)
    (hrest : l.rest = spaces n ++ (u.text ++ t)) :
    l.Emits (spaces n) u next ∧ next.rest = t ∧
      Lexeme.read? (u.text ++ t) = some u.toLexeme := by
  have hemits := emits_of_token hstep
  obtain ⟨hread, -, hnext⟩ := eq_of_token hstep
  have hlongest := Lexeme.longestPrefix_of_read? hread
  obtain ⟨hspaces, hafter⟩ := rest_of_spaced hrest
    (Lexeme.head?_append_ne_space hlongest.mem hlongest.ne_nil t)
  rw [hspaces] at hemits
  rw [hafter] at hread
  refine ⟨hemits, ?_, hread⟩
  rw [hnext, rest_pass, hafter, List.drop_left]

-- The token is the piece, where it stands in the text that begins at the cursor.
structure Locates (cursor : Cursor) (before : List Spaced) (piece : Spaced) (t : Token) : Prop where
  text : t.text = piece.text
  kind : Lexeme.HasKind t.text t.kind
  line : t.line = (cursor.after (before.flatMap ofSpaced ++ spaces piece.gap)).line
  column : t.column = (cursor.after (before.flatMap ofSpaced ++ spaces piece.gap)).column

theorem drain_spell {pieces : List Spaced} {last : Nat} (hl : l.exhausted = false)
    (hrest : l.rest = spell pieces last) (hlexemes : ∀ piece ∈ pieces, piece.text ∈ Lexeme.lexemes)
    (hgaps : ∀ piece ∈ pieces.tail, 0 < piece.gap) :
    ∃ tokens, l.drain.1 = .ok tokens ∧ tokens.length = pieces.length ∧
      ∀ before piece after, pieces = before ++ piece :: after →
        ∃ t, tokens[before.length]? = some t ∧ Locates l.cursor before piece t := by
  induction pieces generalizing l with
  | nil =>
      obtain ⟨last, hstep⟩ := step_of_spaces hrest
      rw [drain_of_none (pull_of_finish hl hstep)]
      exact ⟨[], rfl, rfl, by simp⟩
  | cons first pieces ih =>
      obtain ⟨hfirst, hlater⟩ := List.forall_mem_cons.mp hlexemes
      have hgap : ∀ piece ∈ pieces.head?, 0 < piece.gap := by
        intro piece hpiece
        exact hgaps piece (List.mem_of_mem_head? hpiece)
      obtain ⟨kind, hread⟩ :=
        Lexeme.exists_read?_append hfirst (Text.beforeSpace_spell hgap last)
      rw [Text.spell_cons] at hrest
      obtain ⟨u, next, hstep, hu, hemits, hnext⟩ :=
        step_of_spaced (w := ⟨kind, first.text⟩) hrest hread
      obtain ⟨tokens, hdrain, hlength, hlocates⟩ :=
        ih ((exhausted_of_token hstep).trans hl) hnext hlater
          fun piece hpiece => hgaps piece (List.mem_of_mem_tail hpiece)
      have htext : u.text = first.text := by rw [hu]
      rw [drain_of_ok (pull_of_token hl hstep), hdrain]
      refine ⟨u :: tokens, rfl, by simp [hlength], ?_⟩
      intro before piece after hsplit
      cases before with
      | nil =>
          obtain ⟨rfl, -⟩ := List.cons.inj hsplit
          refine ⟨u, rfl, htext, ?_, hemits.line, hemits.column⟩
          have hkind := Lexeme.hasKind_of_read? hread
          rwa [← hu] at hkind
      | cons other before =>
          obtain ⟨rfl, htail⟩ := List.cons.inj hsplit
          obtain ⟨t, ht, hlocated⟩ := hlocates before piece after htail
          have hcursor : next.cursor = l.cursor.after (ofSpaced first) := by
            rw [hemits.reads.cursor, htext]
            rfl
          refine ⟨t, by simpa using ht, hlocated.text, hlocated.kind, ?_, ?_⟩
          · rw [hlocated.line, hcursor, ← Cursor.after_append, List.flatMap_cons,
              List.append_assoc]
          · rw [hlocated.column, hcursor, ← Cursor.after_append, List.flatMap_cons,
              List.append_assoc]

end Lexer

namespace Text

-- Lexemes that are written with spaces between them are read as they are, wherever they are
-- written. Before the first and behind the last there need be no space.
theorem tokens_spell (pieces : List Spaced) (last : Nat) (file? : Option String)
    (hlexemes : ∀ piece ∈ pieces, piece.text ∈ Lexeme.lexemes)
    (hgaps : ∀ piece ∈ pieces.tail, 1 ≤ piece.gap) :
    ∃ tokens, (spell pieces last).tokens file? = .ok tokens ∧ tokens.length = pieces.length ∧
      ∀ before piece after, pieces = before ++ piece :: after →
        ∃ t, tokens[before.length]? = some t ∧ t.text = piece.text ∧
          (∀ kind, Lexeme.HasKind piece.text kind ↔ kind = t.kind) ∧
          t.line = (before.flatMap ofSpaced ++ spaces piece.gap).count '\n' ∧
          t.column = column (before.flatMap ofSpaced ++ spaces piece.gap) := by
  obtain ⟨tokens, hdrain, hlength, hlocates⟩ :=
    Lexer.drain_spell (l := Lexer.ofText (spell pieces last) file?) rfl rfl hlexemes hgaps
  refine ⟨tokens, hdrain, hlength, ?_⟩
  intro before piece after hsplit
  obtain ⟨t, ht, hlocated⟩ := hlocates before piece after hsplit
  have hcursor : (Lexer.ofText (spell pieces last) file?).cursor = Cursor.start := rfl
  have hline := hlocated.line
  have hcolumn := hlocated.column
  rw [hcursor, Cursor.after_start] at hline hcolumn
  refine ⟨t, ht, hlocated.text, ?_, hline, hcolumn⟩
  intro kind
  rw [← hlocated.text]
  constructor
  · intro hkind
    exact hkind.unique hlocated.kind
  · rintro rfl
    exact hlocated.kind

theorem tokens_spell_at_two_lines :
    (∀ piece ∈ [Spaced.mk 0 "let".toList, ⟨2, "1.5e-3".toList⟩, ⟨1, ['\n']⟩, ⟨1, "\"a b\"".toList⟩],
      piece.text ∈ Lexeme.lexemes) ∧
    (∀ piece ∈ [Spaced.mk 2 "1.5e-3".toList, ⟨1, ['\n']⟩, ⟨1, "\"a b\"".toList⟩],
      1 ≤ piece.gap) ∧
    ∃ tokens, Text.tokens "let  1.5e-3 \n \"a b\"  ".toList none = .ok tokens ∧ tokens.length = 4 ∧
      ∃ t, tokens[3]? = some t ∧ t.text = "\"a b\"".toList ∧ t.line = 1 ∧ t.column = 1 := by
  have hlexemes : ∀ piece ∈ [Spaced.mk 0 "let".toList, ⟨2, "1.5e-3".toList⟩, ⟨1, ['\n']⟩,
      ⟨1, "\"a b\"".toList⟩], piece.text ∈ Lexeme.lexemes := by
    have hread : ∀ w ∈ [Lexeme.mk .letKeyword "let".toList, ⟨.decimal, "1.5e-3".toList⟩,
        ⟨.newline, ['\n']⟩, ⟨.string, "\"a b\"".toList⟩], Lexeme.read? w.text = some w := by
      decide +kernel
    simp only [List.forall_mem_cons] at hread ⊢
    obtain ⟨hlet, hdecimal, hnewline, hstring, -⟩ := hread
    exact ⟨(Lexeme.longestPrefix_of_read? hlet).mem, (Lexeme.longestPrefix_of_read? hdecimal).mem,
      (Lexeme.longestPrefix_of_read? hnewline).mem, (Lexeme.longestPrefix_of_read? hstring).mem,
      by simp⟩
  have hgaps : ∀ piece ∈ [Spaced.mk 2 "1.5e-3".toList, ⟨1, ['\n']⟩, ⟨1, "\"a b\"".toList⟩],
      1 ≤ piece.gap := by
    simp
  obtain ⟨tokens, htokens, hlength, hplaces⟩ := tokens_spell
    [⟨0, "let".toList⟩, ⟨2, "1.5e-3".toList⟩, ⟨1, ['\n']⟩, ⟨1, "\"a b\"".toList⟩] 2 none
    hlexemes hgaps
  obtain ⟨t, ht, htext, -, hline, hcolumn⟩ := hplaces
    [⟨0, "let".toList⟩, ⟨2, "1.5e-3".toList⟩, ⟨1, ['\n']⟩] ⟨1, "\"a b\"".toList⟩ [] rfl
  exact ⟨hlexemes, hgaps, tokens, htokens, hlength, t, ht, htext, hline, hcolumn⟩

end Text

end JustLang
