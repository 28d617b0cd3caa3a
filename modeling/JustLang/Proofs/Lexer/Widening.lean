import JustLang.Proofs.Lexer.Agreement
import JustLang.Proofs.Lexer.Spacing
import JustLang.Proofs.Lexer.Tiling

namespace JustLang

-- A token of a source, the spaces before it, and the spaces that are added to them.
structure Widened where
  gap : Nat
  added : Nat
  token : Token

namespace Widened

variable {before tokens : List Widened} {w : Widened} {line : Nat}

def original (w : Widened) : Spaced := ⟨w.gap, w.token.text⟩

def widened (w : Widened) : Spaced := ⟨w.gap + w.added, w.token.text⟩

-- The spaces that are added before those of the tokens that stand on the line.
def addedOn (line : Nat) (tokens : List Widened) : Nat :=
  ((tokens.filter (·.token.line = line)).map added).sum

-- The token where it stands with the added spaces, given the tokens before it.
def move (before : List Widened) (w : Widened) : Token :=
  { w.token with column := w.token.column + addedOn w.token.line (before ++ [w]) }

def moveAll (before : List Widened) : List Widened → List Token
  | [] => []
  | w :: tokens => w.move before :: moveAll (before ++ [w]) tokens

theorem addedOn_append_singleton (line : Nat) (before : List Widened) (w : Widened) :
    addedOn line (before ++ [w]) =
      addedOn line before + if w.token.line = line then w.added else 0 := by
  by_cases h : w.token.line = line <;> simp [addedOn, h]

theorem addedOn_eq_zero (h : ∀ w ∈ before, w.token.line < line) : addedOn line before = 0 := by
  have hnil : before.filter (·.token.line = line) = [] := by
    apply List.filter_eq_nil_iff.mpr
    intro w hw
    simpa using Nat.ne_of_lt (h w hw)
  rw [addedOn, hnil]
  rfl

end Widened

namespace Text

variable {s t t' : Text}

theorem beforeSpace_append_isPrefix (s : Text) (h : t'.beforeSpace <+: t) :
    (s ++ t').beforeSpace <+: s ++ t := by
  rw [beforeSpace, List.takeWhile_append]
  split
  · exact (List.prefix_append_right_inj s).mpr h
  · exact (List.takeWhile_prefix _).trans (List.prefix_append s t)

-- Up to the first space that is added nothing has changed.
theorem beforeSpace_spell_widened (tokens : List Widened) (last more : Nat) :
    (spell (tokens.map Widened.widened) (last + more)).beforeSpace <+:
      spell (tokens.map Widened.original) last := by
  induction tokens with
  | nil =>
      have hnil : (spell [] (last + more)).beforeSpace = [] := beforeSpace_spaces (last + more)
      rw [List.map_nil, hnil]
      exact List.nil_prefix
  | cons w tokens ih =>
      rw [List.map_cons, List.map_cons, spell_cons, spell_cons]
      by_cases hgap : 0 < w.widened.gap
      · rw [beforeSpace_spaces_append hgap]
        exact List.nil_prefix
      · have hwidened : w.widened.gap = 0 := by omega
        have horiginal : w.original.gap = 0 := by
          simp only [Widened.widened, Widened.original] at hwidened ⊢
          omega
        rw [hwidened, horiginal]
        exact beforeSpace_append_isPrefix w.token.text ih

end Text

namespace Lexer

open Text (spaces spell)
open Widened (addedOn)

variable {l l' next next' : Lexer} {u u' : Token} {us : List Token} {t : Text}
  {n last more : Nat} {before tokens : List Widened} {w : Widened}

theorem exists_step_of_drain (hl : l.exhausted = false) (h : l.drain.1 = .ok (u :: us)) :
    ∃ next, l.step = .token u next ∧ next.drain.1 = .ok us := by
  cases hstep : l.step with
  | finish last =>
      rw [drain_of_none (pull_of_finish hl hstep)] at h
      cases h
  | token v next =>
      rw [drain_of_ok (pull_of_token hl hstep)] at h
      cases hnext : next.drain.1 with
      | error d =>
          rw [hnext] at h
          cases h
      | ok vs =>
          rw [hnext] at h
          cases h
          exact ⟨next, rfl, hnext⟩
  | fault d before =>
      rw [drain_of_error (pull_of_fault hl hstep)] at h
      cases h

-- The tokens before the two lexers are the same, and the second stands further along its line by
-- what has been added to them on it.
structure Apart (before : List Widened) (l l' : Lexer) : Prop where
  line : l'.cursor.line = l.cursor.line
  column : l'.cursor.column = l.cursor.column + addedOn l.cursor.line before
  line_le : ∀ w ∈ before, w.token.line ≤ l.cursor.line

-- A newline takes both lexers to the start of a line to which nothing has been added.
theorem Apart.of_emits (h : Apart before l l') (hemits : l.Emits (spaces w.gap) w.token next)
    (hemits' : l'.Emits (spaces (w.gap + w.added)) u' next')
    (hu' : u'.toLexeme = w.token.toLexeme) :
    u' = w.move before ∧ Apart (before ++ [w]) next next' := by
  have hline := hemits.line_eq
  have hline' : u'.line = w.token.line := by rw [hemits'.line_eq, h.line, hline]
  have hadded := Widened.addedOn_append_singleton w.token.line before w
  rw [if_pos rfl, hline] at hadded
  have hcolumn : u'.column = w.token.column + addedOn w.token.line (before ++ [w]) := by
    have hright := hemits.column_eq
    have hleft := hemits'.column_eq
    simp only [spaces, List.length_replicate] at hright hleft
    rw [hleft, h.column, hright, hline, hadded]
    omega
  have htext : u'.text = w.token.text := congrArg Lexeme.text hu'
  constructor
  · calc u' = ⟨u'.toLexeme, u'.line, u'.column⟩ := rfl
      _ = w.move before := by
        rw [hu', hline', hcolumn]
        rfl
  · have hle : ∀ v ∈ before ++ [w], v.token.line ≤ w.token.line := by
      intro v hv
      rcases List.mem_append.mp hv with hv | hv
      · rw [hline]
        exact h.line_le v hv
      · rw [List.mem_singleton.mp hv]
    obtain ⟨hnext, hstart⟩ := hemits.cursor_next
    obtain ⟨hnext', hstart'⟩ := hemits'.cursor_next
    rw [htext, hline'] at hnext'
    rw [htext, hcolumn] at hstart'
    by_cases hn : w.token.text = ['\n']
    · simp only [if_pos hn] at hnext hnext' hstart hstart'
      have hzero : addedOn (w.token.line + 1) (before ++ [w]) = 0 := by
        apply Widened.addedOn_eq_zero
        intro v hv
        exact Nat.lt_succ_of_le (hle v hv)
      refine ⟨by omega, by rw [hstart', hstart, hnext, hzero], ?_⟩
      intro v hv
      rw [hnext]
      exact (hle v hv).trans (Nat.le_succ _)
    · simp only [if_neg hn] at hnext hnext' hstart hstart'
      refine ⟨by omega, ?_, ?_⟩
      · rw [hstart', hstart, hnext]
        omega
      · intro v hv
        rw [hnext]
        exact hle v hv

-- The second lexer reads the text of the first with spaces added.
theorem drain_widened (hl : l.exhausted = false) (hl' : l'.exhausted = false)
    (hdrain : l.drain.1 = .ok (tokens.map Widened.token))
    (hrest : l.rest = spell (tokens.map Widened.original) last)
    (hrest' : l'.rest = spell (tokens.map Widened.widened) (last + more))
    (hapart : Apart before l l') : l'.drain.1 = .ok (Widened.moveAll before tokens) := by
  induction tokens generalizing l l' before with
  | nil =>
      obtain ⟨last, hstep⟩ := step_of_spaces hrest'
      rw [drain_of_none (pull_of_finish hl' hstep)]
      rfl
  | cons w tokens ih =>
      obtain ⟨next, hstep, hlater⟩ := exists_step_of_drain hl hdrain
      rw [List.map_cons, Text.spell_cons] at hrest hrest'
      obtain ⟨hemits, hnext, hread⟩ := emits_of_spaced hstep hrest
      have hread' := Lexeme.read?_append_of_beforeSpace hread
        (Text.beforeSpace_spell_widened tokens last more)
      obtain ⟨u', next', hstep', hu', hemits', hnext'⟩ := step_of_spaced hrest' hread'
      obtain ⟨rfl, hapart'⟩ := hapart.of_emits hemits hemits' hu'
      have hlater' := ih ((exhausted_of_token hstep).trans hl)
        ((exhausted_of_token hstep').trans hl') hlater hnext hnext' hapart'
      rw [drain_of_ok (pull_of_token hl' hstep'), hlater']
      rfl

theorem exists_original (hl : l.exhausted = false) (h : l.drain.1 = .ok us) :
    ∃ (tokens : List Widened) (last : Nat), tokens.map Widened.token = us ∧
      l.rest = spell (tokens.map Widened.original) last := by
  obtain ⟨tiles, rest, htiles, htokens⟩ := l.exists_tiles
  obtain rfl : tiles.map Tile.token = us := by rw [htokens, recover_of_drain_ok hl h]
  refine ⟨tiles.map fun tile => ⟨tile.gap.length, 0, tile.token⟩, rest.length, ?_, ?_⟩
  · rw [List.map_map]
    rfl
  · have htile : ∀ tile ∈ tiles, Tile.text tile =
        Text.ofSpaced ⟨tile.gap.length, tile.token.text⟩ := by
      intro tile htile
      have hgap := List.eq_replicate_of_mem (htiles.of_mem tile htile).1
      rw [Tile.text, Text.ofSpaced, spaces, ← hgap]
    have hlast := List.eq_replicate_of_mem htiles.last_spaces
    rw [htiles.rest_eq, spell, spaces, ← hlast, List.map_map, List.flatMap_map]
    exact congrArg (· ++ rest) (List.flatMap_congr htile)

end Lexer

namespace Text

-- However many spaces are added to those between the tokens of a source, the tokens stay the same.
-- Each moves along its line by the spaces that are added before it there.
theorem tokens_spell_widened (source : Text) (file? : Option String) (us : List Token)
    (h : source.tokens file? = .ok us) :
    (∃ (tokens : List Widened) (last : Nat), tokens.map Widened.token = us ∧
      source = spell (tokens.map Widened.original) last) ∧
    ∀ (tokens : List Widened) (last more : Nat), tokens.map Widened.token = us →
      source = spell (tokens.map Widened.original) last →
      (spell (tokens.map Widened.widened) (last + more)).tokens file? =
        .ok (Widened.moveAll [] tokens) := by
  refine ⟨Lexer.exists_original (l := Lexer.ofText source file?) rfl h, ?_⟩
  intro tokens last more htokens hsource
  have hdrain : (Lexer.ofText source file?).drain.1 = .ok (tokens.map Widened.token) := by
    rw [htokens]
    exact h
  let wide := Lexer.ofText (spell (tokens.map Widened.widened) (last + more)) file?
  have hwide : wide.exhausted = false := rfl
  have hapart : Lexer.Apart [] (Lexer.ofText source file?) wide := ⟨rfl, rfl, by simp⟩
  exact Lexer.drain_widened rfl hwide hdrain hsource rfl hapart

-- The exponent is not completed, and no space makes it so.
theorem tokens_spell_widened_at_exponent :
    tokens "1e+.5".toList none = .ok [⟨⟨.integer, ['1']⟩, 0, 0⟩,
      ⟨⟨.identifier, "e+".toList⟩, 0, 1⟩, ⟨⟨.decimal, ".5".toList⟩, 0, 3⟩] ∧
    tokens " 1e+  .5 ".toList none = .ok [⟨⟨.integer, ['1']⟩, 0, 1⟩,
      ⟨⟨.identifier, "e+".toList⟩, 0, 2⟩, ⟨⟨.decimal, ".5".toList⟩, 0, 6⟩] := by
  have h : tokens "1e+.5".toList none = .ok [⟨⟨.integer, ['1']⟩, 0, 0⟩,
      ⟨⟨.identifier, "e+".toList⟩, 0, 1⟩, ⟨⟨.decimal, ".5".toList⟩, 0, 3⟩] := by decide +kernel
  have hwidened := (tokens_spell_widened "1e+.5".toList none _ h).2
    [⟨0, 1, ⟨⟨.integer, ['1']⟩, 0, 0⟩⟩, ⟨0, 0, ⟨⟨.identifier, "e+".toList⟩, 0, 1⟩⟩,
      ⟨0, 2, ⟨⟨.decimal, ".5".toList⟩, 0, 3⟩⟩] 0 1 rfl rfl
  exact ⟨h, hwidened⟩

end Text

end JustLang
