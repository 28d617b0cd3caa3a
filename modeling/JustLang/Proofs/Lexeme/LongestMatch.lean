import JustLang.Proofs.Lexeme.Readers
import JustLang.Proofs.Numeral
import JustLang.Proofs.StringLiteral

namespace JustLang.Lexeme

open Text (LongestPrefix)
open Vocabulary (punctuation arrow)

variable {s t : Text} {c : Char} {w : Lexeme} {kind : Kind}

def lexemes : Language Char :=
  Numeral.numerals + StringLiteral.literals + registered + words

-- What a text is as a lexeme of its own.
inductive HasKind : Text → Kind → Prop where
  | integer {s : Text} : s ∈ Numeral.digits → HasKind s .integer
  | decimal {s : Text} : s ∈ Numeral.numerals → s ∉ Numeral.digits → HasKind s .decimal
  | string {s : Text} : s ∈ StringLiteral.literals → HasKind s .string
  | registered {s : Text} {kind : Kind} : (kind, s) ∈ punctuation → HasKind s kind
  | keyword {s : Text} {kind : Kind} :
      s ∈ words → (kind, s) ∈ Vocabulary.keywords.entries → HasKind s kind
  | identifier {s : Text} :
      s ∈ words → (∀ kind, (kind, s) ∉ Vocabulary.keywords.entries) → HasKind s .identifier

-- A numeral may begin with a point, and an arrow with a symbol that words may begin with, so
-- numerals are tried before operators and operators before words.
def read? (s : Text) : Option Lexeme :=
  (Numeral.read? s).or ((StringLiteral.read? s).or ((symbol? s).or (word? s)))

-- What is read comes from the first reader that finds something.
theorem read?_eq_some_iff :
    read? s = some w ↔
      Numeral.read? s = some w ∨
        (Numeral.read? s = none ∧
          (StringLiteral.read? s = some w ∨
            (StringLiteral.read? s = none ∧
              (symbol? s = some w ∨ (symbol? s = none ∧ word? s = some w))))) := by
  simp only [read?, Option.or_eq_some_iff]

section Guards

theorem numeral?_eq_read? (s : Text) : numeral? s = Numeral.read? s := by
  rw [numeral?]
  split
  · rfl
  · next h => rw [Numeral.read?_eq_none_of_not_canBegin h]

-- Behind a quote no reader but that of string literals would find anything.
theorem read?_quote (s : Text) : read? ('"' :: s) = StringLiteral.read? ('"' :: s) := by
  have hn : Numeral.read? ('"' :: s) = none := Numeral.read?_cons_eq_none (by decide)
  have hs : symbol? ('"' :: s) = none := by
    refine Option.eq_none_iff_forall_ne_some.mpr fun w hw => ?_
    obtain ⟨hne, hbegins⟩ := symbol?_text hw
    obtain ⟨c, t, hcons⟩ := List.exists_cons_of_ne_nil hne
    have hmem := mem_punctuation_of_symbol? hw
    rw [hcons] at hbegins hmem
    obtain ⟨rfl, -⟩ := List.cons_prefix_cons.mp hbegins
    exact Vocabulary.head?_ne_quote_of_mem_punctuation hmem rfl
  have hw : word? ('"' :: s) = none := rfl
  rw [read?, hn, hs, hw, Option.none_or, Option.none_or, Option.or_none]

theorem read?_of_ne_quote (hn : Numeral.read? (c :: s) = none) (hc : c ≠ '"') :
    read? (c :: s) = (symbol? (c :: s)).or (word? (c :: s)) := by
  rw [read?, hn, StringLiteral.read?_cons_eq_none hc, Option.none_or, Option.none_or]

end Guards

-- Where a numeral begins, only a point alone is a lexeme of another sort.
theorem numeral_or_eq_nil (ht : c :: t ∈ Numeral.numerals) (hs : c :: s ∈ lexemes) :
    c :: s ∈ Numeral.numerals ∨ s = [] := by
  have hc := Numeral.head_of_mem_numerals ht
  rcases hs with ((hs | hs) | ⟨kind, hs⟩) | hs
  · exact .inl hs
  · obtain rfl := StringLiteral.head_of_mem_literals hs
    exact absurd hc (by decide)
  · rcases Vocabulary.length_of_mem_punctuation hs with hlen | ⟨harrow, -⟩
    · exact .inr (List.length_eq_zero_iff.mp (by simpa using hlen))
    · obtain ⟨rfl, -⟩ := List.cons.inj harrow
      exact absurd hc (by decide)
  · have hw := head_of_mem_words hs
    exact absurd hc (Alphabet.not_isDigit_or_point_of_beginsWord hw)

-- Where a string literal begins, nothing else does.
theorem mem_literals_of_mem_lexemes (ht : c :: t ∈ StringLiteral.literals)
    (hs : c :: s ∈ lexemes) : c :: s ∈ StringLiteral.literals := by
  obtain rfl := StringLiteral.head_of_mem_literals ht
  rcases hs with ((hs | hs) | ⟨kind, hs⟩) | hs
  · exact absurd (Numeral.head_of_mem_numerals hs) (by decide)
  · exact hs
  · exact absurd rfl (Vocabulary.head?_ne_quote_of_mem_punctuation hs)
  · exact absurd (head_of_mem_words hs) (by decide)

-- Of the operators and delimiters only the arrow begins like a word, and no word begins with it.
theorem notMem_words_of_registered (ht : t ∈ registered) (hts : t <+: s) : s ∉ words := by
  intro hs
  obtain ⟨kind, ht⟩ := ht
  cases t with
  | nil => rcases Vocabulary.length_of_mem_punctuation ht with h | ⟨h, -⟩ <;> cases h
  | cons c t =>
      obtain ⟨rest, rfl⟩ := hts
      have harrow := Vocabulary.eq_arrow_of_mem_punctuation ht (head_of_mem_words hs)
      exact ((Language.mem_sub _ _ _).mp hs).2 (harrow ▸ List.prefix_append _ _)

-- The readers are tried in turn, and yet the lexeme found is the longest in any of the languages.
theorem longestPrefix_of_read? (h : read? s = some w) : LongestPrefix lexemes s w.text := by
  rcases read?_eq_some_iff.mp h with h | ⟨hn, h | ⟨hl, h | ⟨hs, h⟩⟩⟩
  · have ht := Numeral.longestPrefix_of_read? h
    refine ht.mono_of_head (.inl (.inl (.inl ht.mem))) ?_
    intro c t u hw
    exact numeral_or_eq_nil (hw ▸ ht.mem)
  · have ht := StringLiteral.longestPrefix_of_read? h
    refine ht.mono_of_head (.inl (.inl (.inr ht.mem))) ?_
    intro c t u hw hu
    exact .inl (mem_literals_of_mem_lexemes (hw ▸ ht.mem) hu)
  · have ht := longestPrefix_of_symbol? h
    refine ht.mono (.inl (.inr ht.mem)) ?_
    rintro u hu (((hmem | hmem) | hmem) | hmem)
    · exact absurd hmem (Numeral.notMem_of_read?_eq_none hn hu)
    · exact absurd hmem (StringLiteral.notMem_of_read?_eq_none hl hu)
    · exact .inl hmem
    · refine .inr (Nat.le_of_not_lt fun hlt => ?_)
      have htu := List.prefix_of_prefix_length_le ht.isPrefix hu (Nat.le_of_lt hlt)
      exact notMem_words_of_registered ht.mem htu hmem
  · have hno (u : Text) (hu : u <+: s) := notMem_of_symbol?_eq_none hs hu
    have ht := longestPrefix_of_word? h (fun ha => hno arrow ha ⟨.rightArrow, by decide⟩)
    refine ht.mono (.inr ht.mem) ?_
    rintro u hu (((hmem | hmem) | hmem) | hmem)
    · exact absurd hmem (Numeral.notMem_of_read?_eq_none hn hu)
    · exact absurd hmem (StringLiteral.notMem_of_read?_eq_none hl hu)
    · exact absurd hmem (hno u hu)
    · exact .inl hmem

theorem read?_text (h : read? s = some w) : w.text ≠ [] ∧ w.text <+: s :=
  ⟨(longestPrefix_of_read? h).ne_nil, (longestPrefix_of_read? h).isPrefix⟩

theorem notMem_of_read?_eq_none (h : read? s = none) (ht : t <+: s) : t ∉ lexemes := by
  simp only [read?, Option.or_eq_none_iff] at h
  obtain ⟨hn, hl, hs, hw⟩ := h
  rintro (((hmem | hmem) | hmem) | hmem)
  · exact Numeral.notMem_of_read?_eq_none hn ht hmem
  · exact StringLiteral.notMem_of_read?_eq_none hl ht hmem
  · exact notMem_of_symbol?_eq_none hs ht hmem
  · exact notMem_of_word?_eq_none hw ht hmem

theorem hasKind_of_read? (h : read? s = some w) : HasKind w.text w.kind := by
  rcases read?_eq_some_iff.mp h with h | ⟨hn, h | ⟨hl, h | ⟨hs, h⟩⟩⟩
  · rcases Numeral.kind_of_read? h with ⟨hd, hk⟩ | ⟨hd, hk⟩
    · exact hk ▸ .integer hd
    · exact hk ▸ .decimal (Numeral.longestPrefix_of_read? h).mem hd
  · exact StringLiteral.kind_of_read? h ▸ .string (StringLiteral.longestPrefix_of_read? h).mem
  · exact .registered (mem_punctuation_of_symbol? h)
  · have harrow (ha : arrow <+: s) :=
      notMem_of_symbol?_eq_none hs ha ⟨.rightArrow, by decide⟩
    have hmem := (longestPrefix_of_word? h harrow).mem
    rcases kind_of_word? h with hk | ⟨hk, hno⟩
    · exact .keyword hmem hk
    · exact hk ▸ .identifier hmem hno

theorem HasKind.mem_lexemes (h : HasKind s kind) : s ∈ lexemes := by
  cases h with
  | integer hs => exact .inl (.inl (.inl (.inl (.inl hs))))
  | decimal hs _ => exact .inl (.inl (.inl hs))
  | string hs => exact .inl (.inl (.inr hs))
  | registered hs => exact .inl (.inr ⟨_, hs⟩)
  | keyword hs _ => exact .inr hs
  | identifier hs _ => exact .inr hs

theorem read?_of_mem_words (h : s ∈ words) :
    read? s = some ⟨(Vocabulary.keywords.kind? s).getD .identifier, s⟩ := by
  cases s with
  | nil => exact absurd h nil_notMem_words
  | cons c s =>
      have hc := head_of_mem_words h
      have hn : Numeral.read? (c :: s) = none :=
        Numeral.read?_cons_eq_none (Alphabet.not_isDigit_or_point_of_beginsWord hc)
      have hl : StringLiteral.read? (c :: s) = none := by
        refine StringLiteral.read?_cons_eq_none ?_
        intro hq
        subst hq
        exact absurd hc (by decide)
      have hs : symbol? (c :: s) = none := by
        refine Option.eq_none_iff_forall_ne_some.mpr fun w hw => ?_
        have ht := longestPrefix_of_symbol? hw
        exact notMem_words_of_registered ht.mem ht.isPrefix h
      have hall := Text.mem_kstar_single.mp
        (Text.cons_mem_single_mul.mp ((Language.mem_sub _ _ _).mp h).1).2
      have hword : s.takeWhile Alphabet.continuesWord = s := List.takeWhile_eq_self_iff.mpr hall
      simp [read?, hn, hl, hs, word?, hc, hword]

-- A lexeme that stands alone is read whole, and as what it is.
theorem read?_of_hasKind (h : HasKind s kind) : read? s = some ⟨kind, s⟩ := by
  cases h with
  | integer hs =>
      obtain ⟨kind, hr⟩ := Numeral.read?_of_mem_numerals (.inl (.inl hs))
      rcases Numeral.kind_of_read? hr with ⟨-, rfl⟩ | ⟨hno, -⟩
      · exact read?_eq_some_iff.mpr (.inl hr)
      · exact absurd hs hno
  | decimal hs hno =>
      obtain ⟨kind, hr⟩ := Numeral.read?_of_mem_numerals hs
      rcases Numeral.kind_of_read? hr with ⟨hd, -⟩ | ⟨-, rfl⟩
      · exact absurd hd hno
      · exact read?_eq_some_iff.mpr (.inl hr)
  | string hs =>
      have hn : Numeral.read? s = none := by
        cases s with
        | nil => exact absurd hs StringLiteral.nil_notMem_literals
        | cons c s =>
            obtain rfl := StringLiteral.head_of_mem_literals hs
            exact Numeral.read?_cons_eq_none (by decide)
      exact read?_eq_some_iff.mpr (.inr ⟨hn, .inl (StringLiteral.read?_of_mem_literals hs)⟩)
  | registered hs =>
      have hall : ∀ e ∈ punctuation, read? e.2 = some ⟨e.1, e.2⟩ := by decide +kernel
      exact hall _ hs
  | keyword hs hk =>
      rw [read?_of_mem_words hs, Lexicon.kind?_eq_some_iff.mpr hk]
      rfl
  | identifier hs hno =>
      rw [read?_of_mem_words hs, Lexicon.kind?_eq_none_iff.mpr hno]
      rfl

-- No text is a lexeme in two ways.
theorem HasKind.unique {other : Kind} (h : HasKind s kind) (h' : HasKind s other) :
    kind = other := by
  have hr := read?_of_hasKind h
  rw [read?_of_hasKind h'] at hr
  cases hr
  rfl

-- What is read is known from the language alone.
theorem read?_of_longestPrefix (ht : LongestPrefix lexemes s w.text)
    (hk : HasKind w.text w.kind) : read? s = some w := by
  cases hr : read? s with
  | none => exact absurd ht.mem (notMem_of_read?_eq_none hr ht.isPrefix)
  | some v =>
      obtain ⟨kind, text⟩ := v
      obtain rfl : text = w.text := (longestPrefix_of_read? hr).unique ht
      obtain rfl : kind = w.kind := (hasKind_of_read? hr).unique hk
      rfl

end JustLang.Lexeme
