namespace JustLang

-- Sources, lexemes and everything printed.
abbrev Text := List Char

namespace Text

-- The length of the UTF-8 encoding.
def byteSize : Text → Nat
  | [] => 0
  | c :: s => c.utf8Size + byteSize s

@[simp] theorem byteSize_nil : byteSize [] = 0 := rfl

@[simp] theorem byteSize_cons (c : Char) (s : Text) :
    byteSize (c :: s) = c.utf8Size + byteSize s := rfl

@[simp] theorem byteSize_append (s t : Text) : byteSize (s ++ t) = byteSize s + byteSize t := by
  induction s with
  | nil => simp
  | cons c s ih => simp [ih, Nat.add_assoc]

-- The number of characters before a byte offset, if the offset is the start of a character or
-- the end of the text.
def charIndex? : Text → Nat → Option Nat
  | _, 0 => some 0
  | [], _ + 1 => none
  | c :: s, n + 1 =>
      if c.utf8Size ≤ n + 1 then (charIndex? s (n + 1 - c.utf8Size)).map (· + 1) else none

theorem charIndex?_byteSize (s t : Text) : charIndex? (s ++ t) (byteSize s) = some s.length := by
  induction s with
  | nil => cases t <;> rfl
  | cons c s ih =>
      obtain ⟨n, hn⟩ := Nat.exists_eq_succ_of_ne_zero
        (show c.utf8Size + byteSize s ≠ 0 by have := c.utf8Size_pos; omega)
      simp only [List.cons_append, byteSize_cons, hn, charIndex?]
      rw [if_pos (by omega), show n + 1 - c.utf8Size = byteSize s by omega, ih]
      rfl

-- Only the places between characters have an index.
theorem charIndex?_eq_some_iff {s : Text} {offset index : Nat} :
    charIndex? s offset = some index ↔
      ∃ before after, s = before ++ after ∧ byteSize before = offset ∧ before.length = index := by
  constructor
  · intro h
    induction s generalizing offset index with
    | nil =>
        cases offset with
        | zero => exact ⟨[], [], rfl, rfl, Option.some.inj h⟩
        | succ n => cases h
    | cons c s ih =>
        cases offset with
        | zero => exact ⟨[], c :: s, rfl, rfl, Option.some.inj h⟩
        | succ n =>
            simp only [charIndex?] at h
            split at h
            · next hc =>
                obtain ⟨k, hk, rfl⟩ := Option.map_eq_some_iff.mp h
                obtain ⟨before, after, rfl, hsize, rfl⟩ := ih hk
                exact ⟨c :: before, after, rfl, by simp only [byteSize_cons]; omega, rfl⟩
            · cases h
  · rintro ⟨before, after, rfl, rfl, rfl⟩
    exact charIndex?_byteSize before after

-- The text between two byte offsets, if both lie between characters and in their order.
def slice? (s : Text) (start stop : Nat) : Option Text :=
  match s.charIndex? start, s.charIndex? stop with
  | some i, some j => if i ≤ j then some ((s.take j).drop i) else none
  | _, _ => none

-- The lines of a text, each with the newline that ends it. What follows the last newline is a line
-- if it is not empty.
def lines : Text → List Text
  | [] => []
  | c :: s =>
      if c = '\n' then [c] :: lines s
      else match lines s with
        | [] => [[c]]
        | line :: rest => (c :: line) :: rest

-- The text up to the last newline and with it, and what follows.
def beforeLastLine (s : Text) : Text := (s.reverse.dropWhile (· ≠ '\n')).reverse

def lastLine (s : Text) : Text := (s.reverse.takeWhile (· ≠ '\n')).reverse

-- A natural number in decimal.
def ofNat (n : Nat) : Text := Nat.toDigits 10 n

theorem ofNat_inj {m n : Nat} (h : ofNat m = ofNat n) : m = n := by
  have hdigits := congrArg (Nat.ofDigitChars 10 · 0) h
  simpa [ofNat] using hdigits

theorem notMem_ofNat {c : Char} (hc : ¬ c.isDigit) (n : Nat) : c ∉ ofNat n := by
  intro hmem
  exact hc (Nat.isDigit_of_mem_toDigits (by decide) (by decide) hmem)

-- The text as a line of its own.
def asLine (s : Text) : Text := s ++ ['\n']

-- The spaces that a text begins with, and what follows them. Only U+0020 is a space.
def leadingSpaces (s : Text) : Text := s.takeWhile (· = ' ')

def dropSpaces (s : Text) : Text := s.dropWhile (· = ' ')

-- Spaces take a byte each, so that this is also where the rest of the text begins.
def indentation (s : Text) : Nat := s.leadingSpaces.length

theorem leadingSpaces_append_dropSpaces (s : Text) : leadingSpaces s ++ dropSpaces s = s :=
  List.takeWhile_append_dropWhile

theorem drop_leadingSpaces (s : Text) : s.drop s.leadingSpaces.length = s.dropSpaces := by
  have h := leadingSpaces_append_dropSpaces s
  calc s.drop s.leadingSpaces.length
      = (s.leadingSpaces ++ s.dropSpaces).drop s.leadingSpaces.length := by rw [h]
    _ = s.dropSpaces := List.drop_left

theorem length_dropSpaces_le (s : Text) : (dropSpaces s).length ≤ s.length :=
  (List.dropWhile_sublist _).length_le

-- Nothing behind a character at which a scan stops has to do with what the scan takes.
theorem takeWhile_append_cons {p : Char → Bool} {c : Char} (hc : p c = false) (s t : Text) :
    (s ++ c :: t).takeWhile p = s.takeWhile p := by
  induction s with
  | nil => simp [hc]
  | cons d s ih => simp only [List.cons_append, List.takeWhile_cons, ih]

end Text

end JustLang
