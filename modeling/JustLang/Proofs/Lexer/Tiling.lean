import JustLang.Proofs.Lexer.Place

namespace JustLang

-- A token with the spaces before it.
structure Tile where
  gap : Text
  token : Token

def Tile.text (tile : Tile) : Text := tile.gap ++ tile.token.text

@[simp] theorem Tile.text_mk (gap : Text) (u : Token) : Tile.text ⟨gap, u⟩ = gap ++ u.text := rfl

-- The text that tokens spell when they are set at their columns, from the given one on. There is
-- none if a token would have to stand further back.
def Token.rebuild? (column : Nat) : List Token → Option Text
  | [] => some []
  | t :: tokens =>
      if t.column < column then none
      else
        let reached := if t.kind = .newline then 0 else t.column + t.text.length
        (rebuild? reached tokens).map (List.replicate (t.column - column) ' ' ++ t.text ++ ·)

theorem count_newline_of_spaces {s : Text} (h : ∀ c ∈ s, c = ' ') : s.count '\n' = 0 :=
  List.count_eq_zero.mpr (Text.newline_notMem_of_spaces h)

theorem Lexeme.Emitted.count_newline {w : Lexeme} (h : w.Emitted) :
    w.text.count '\n' = if w.kind = .newline then 1 else 0 := by
  by_cases hk : w.kind = .newline
  · rw [if_pos hk, h.newline_iff.mp hk]
    rfl
  · rw [if_neg hk]
    exact List.count_eq_zero.mpr fun hm => hk (h.newline_iff.mpr (h.eq_of_newline_mem hm))

theorem Token.rebuild?_cons {t : Token} {column : Nat} (tokens : List Token)
    (h : column ≤ t.column) :
    Token.rebuild? column (t :: tokens) =
      (Token.rebuild? (if t.kind = .newline then 0 else t.column + t.text.length) tokens).map
        (List.replicate (t.column - column) ' ' ++ t.text ++ ·) := by
  simp only [rebuild?, Nat.not_lt.mpr h, if_false]

namespace Lexer

variable {l next : Lexer} {gap last : Text} {u : Token} {tiles : List Tile}

-- The column behind a token is the start of a line or follows from the token, so a token spells the
-- spaces before it and itself.
theorem Emits.rebuild?_cons (h : l.Emits gap u next) (tokens : List Token) :
    Token.rebuild? l.cursor.column (u :: tokens) =
      (Token.rebuild? next.cursor.column tokens).map (gap ++ u.text ++ ·) := by
  have hcolumn := h.column_eq
  have hreached : next.cursor.column =
      if u.kind = .newline then 0 else u.column + u.text.length := by
    rw [h.cursor_next.2]
    exact if_congr h.emitted.newline_iff.symm rfl rfl
  have hreplicate : List.replicate (u.column - l.cursor.column) ' ' = gap := by
    rw [hcolumn, Nat.add_sub_cancel_left]
    exact (List.eq_replicate_of_mem h.spaces).symm
  have hle : l.cursor.column ≤ u.column := by omega
  rw [Token.rebuild?_cons tokens hle, hreplicate, hreached]

-- The tiles that a lexer has before it, up to the spaces at the end.
inductive Tiles : Lexer → List Tile → Text → Prop where
  | last {l : Lexer} : (∀ c ∈ l.rest, c = ' ') → Tiles l [] l.rest
  | cons {l next : Lexer} {gap last : Text} {u : Token} {tiles : List Tile} :
      l.Emits gap u next → Tiles next tiles last → Tiles l (⟨gap, u⟩ :: tiles) last

theorem exists_tiles (l : Lexer) :
    ∃ tiles last, l.Tiles tiles last ∧ tiles.map Tile.token = l.recover.1.tokens := by
  induction l using recover_induction with
  | finish l hrest =>
      refine ⟨[], l.rest, .last ?_, rfl⟩
      intro c hc
      rw [l.reads_afterSpaces.rest, hrest, List.append_nil] at hc
      exact Text.eq_space_of_mem_leadingSpaces hc
  | emit l gap u next tokens he ih =>
      obtain ⟨tiles, last, ht, rfl⟩ := ih
      exact ⟨⟨gap, u⟩ :: tiles, last, .cons he ht, rfl⟩

namespace Tiles

theorem rest_eq (h : l.Tiles tiles last) : l.rest = tiles.flatMap Tile.text ++ last := by
  induction h with
  | last _ => rfl
  | cons he _ ih =>
      simp only [he.reads.rest, ih, List.flatMap_cons, Tile.text_mk, List.append_assoc]

theorem last_spaces (h : l.Tiles tiles last) : ∀ c ∈ last, c = ' ' := by
  induction h with
  | last hs => exact hs
  | cons _ _ ih => exact ih

theorem of_mem (h : l.Tiles tiles last) :
    ∀ tile ∈ tiles, (∀ c ∈ tile.gap, c = ' ') ∧ tile.token.Emitted := by
  induction h with
  | last _ => simp
  | cons he _ ih =>
      intro tile htile
      rcases List.mem_cons.mp htile with rfl | htile
      · exact ⟨he.spaces, he.emitted⟩
      · exact ih tile htile

-- Each token stands where the text before it ends.
theorem place (h : l.Tiles tiles last) {before after : List Tile} {tile : Tile}
    (hsplit : tiles = before ++ tile :: after) :
    tile.token.line = (l.cursor.after (before.flatMap Tile.text ++ tile.gap)).line ∧
      tile.token.column = (l.cursor.after (before.flatMap Tile.text ++ tile.gap)).column := by
  induction h generalizing before with
  | last _ => simp at hsplit
  | cons he _ ih =>
      cases before with
      | nil =>
          obtain ⟨rfl, -⟩ := List.cons.inj hsplit
          exact ⟨he.line, he.column⟩
      | cons first before =>
          obtain ⟨rfl, htail⟩ := List.cons.inj hsplit
          have hplace := ih htail
          rw [he.reads.cursor, ← Cursor.after_append] at hplace
          rwa [List.flatMap_cons, Tile.text_mk, List.append_assoc]

theorem countP_newline (h : l.Tiles tiles last) :
    (tiles.map Tile.token).countP (·.kind = .newline) = l.rest.count '\n' := by
  induction h with
  | last hs => rw [List.map_nil, List.countP_nil, count_newline_of_spaces hs]
  | @cons l next gap last u tiles he _ ih =>
      rw [he.reads.rest, List.count_append, List.count_append, count_newline_of_spaces he.spaces,
        he.emitted.count_newline, List.map_cons, List.countP_cons, ih]
      simp only [decide_eq_true_eq]
      omega

theorem rebuild? (h : l.Tiles tiles last) :
    Token.rebuild? l.cursor.column (tiles.map Tile.token) = some (tiles.flatMap Tile.text) := by
  induction h with
  | last _ => rfl
  | cons he _ ih =>
      rw [List.map_cons, he.rebuild?_cons, ih, Option.map_some, List.flatMap_cons, Tile.text_mk]

end Tiles

theorem emitted_of_mem_recover (h : u ∈ l.recover.1.tokens) : u.Emitted := by
  obtain ⟨tiles, last, htiles, htokens⟩ := l.exists_tiles
  rw [← htokens] at h
  obtain ⟨tile, htile, rfl⟩ := List.mem_map.mp h
  exact (htiles.of_mem tile htile).2

end Lexer

namespace Text

-- The source is its tokens with spaces between them, each where it says that it is, and the
-- columns alone tell how many spaces there are.
theorem recover_tiles (source : Text) (file? : Option String) :
    ∃ (tiles : List Tile) (last : Text),
      tiles.map Tile.token = (source.recover file?).tokens ∧
      source = tiles.flatMap Tile.text ++ last ∧
      (∀ c ∈ last, c = ' ') ∧
      (∀ tile ∈ tiles, (∀ c ∈ tile.gap, c = ' ') ∧ tile.token.text ≠ [] ∧
        tile.token.kind ≠ .endOfInput ∧
        (tile.token.kind = .newline ↔ tile.token.text = ['\n']) ∧
        ('\n' ∈ tile.token.text → tile.token.text = ['\n'])) ∧
      (source.recover file?).tokens.countP (·.kind = .newline) = source.count '\n' ∧
      (∀ before tile after, tiles = before ++ tile :: after →
        tile.token.line = (before.flatMap Tile.text ++ tile.gap).count '\n' ∧
        tile.token.column = column (before.flatMap Tile.text ++ tile.gap)) ∧
      Token.rebuild? 0 (source.recover file?).tokens = some (tiles.flatMap Tile.text) := by
  obtain ⟨tiles, last, h, htokens⟩ := Lexer.exists_tiles (Lexer.ofText source file?)
  have htokens : tiles.map Tile.token = (source.recover file?).tokens := htokens
  refine ⟨tiles, last, htokens, h.rest_eq, h.last_spaces, ?_, ?_, ?_, ?_⟩
  · intro tile htile
    obtain ⟨hgap, he⟩ := h.of_mem tile htile
    exact ⟨hgap, he.ne_nil, he.ne_endOfInput, he.newline_iff, he.eq_of_newline_mem⟩
  · rw [← htokens]
    exact h.countP_newline
  · intro before tile after hsplit
    have hplace := h.place hsplit
    rwa [show (Lexer.ofText source file?).cursor = Cursor.start from rfl,
      Cursor.after_start] at hplace
  · rw [← htokens]
    exact h.rebuild?

end Text

end JustLang
