import JustLang.Diagnostic
import JustLang.Lexeme

namespace JustLang

-- A lexer holds the unread text and the place where it begins.
structure Lexer where
  rest : Text
  cursor : Cursor
  file : String
  -- Whether the sequence of tokens has ended, at the end of the input or at a fault.
  exhausted : Bool
  deriving DecidableEq

-- What is passed over of the unread text to go on after an error: the rest of the line where a
-- string literal is left open, and one character otherwise.
def Cause.span (cause : Cause) (s : Text) : Text :=
  match cause with
  | .unterminatedString => s.takeWhile (· ≠ '\n')
  | _ => s.take 1

theorem Cause.span_isPrefix (cause : Cause) (s : Text) : cause.span s <+: s := by
  unfold span
  split
  · exact List.takeWhile_prefix _
  · exact List.take_prefix 1 s

namespace Lexer

-- Text that comes from no file is named as if typed at a prompt.
def ofText (source : Text) (file? : Option String) : Lexer :=
  ⟨source, Cursor.start, file?.getD "shell", false⟩

def position (l : Lexer) : Position := ⟨l.cursor, l.file⟩

def atEnd (l : Lexer) : Bool := l.rest.isEmpty

-- The next two unread characters.
def peek (l : Lexer) : Option Char × Option Char := (l.rest[0]?, l.rest[1]?)

-- Past a piece of the unread text, along the line.
def advance (l : Lexer) (s : Text) : Lexer :=
  { l with rest := l.rest.drop s.length, cursor := l.cursor.advance s }

-- Past one character of the unread text, to the start of the next line.
def advanceLine (l : Lexer) : Lexer :=
  { l with rest := l.rest.drop 1, cursor := l.cursor.advanceLine }

-- Past the spaces of a text that the lexer is about to read, one after the other.
def skipSpaces (l : Lexer) : Text → Lexer
  | [] => l
  | c :: s => if c = ' ' then (l.advance [' ']).skipSpaces s else l

def afterSpaces (l : Lexer) : Lexer := l.skipSpaces l.rest

def exhaust (l : Lexer) : Lexer := { l with exhausted := true }

-- The token that a lexeme makes at the place of the lexer.
def locate (l : Lexer) (w : Lexeme) : Token := ⟨w, l.cursor.line, l.cursor.column⟩

-- The token that stands for the text at fault, and the lexer behind it.
def skipped (l : Lexer) (d : Diagnostic) : Token :=
  l.locate ⟨.unrecognized, d.cause.span l.rest⟩

def skip (l : Lexer) (d : Diagnostic) : Lexer := l.advance (l.skipped d).text

inductive Step where
  | finish (last : Lexer)
  | token (t : Token) (next : Lexer)
  -- The lexer stays before the text at fault.
  | fault (d : Diagnostic) (before : Lexer)

def accept (l : Lexer) (w : Lexeme) : Step := .token (l.locate w) (l.advance w.text)

def reject (l : Lexer) (cause : Cause) : Step := .fault ⟨cause, l.position⟩ l

-- What the unread text begins with, given its first character. A quote begins a string literal or
-- nothing, and only a newline takes the cursor off its line.
def scan (l : Lexer) (c : Char) : Step :=
  match Lexeme.numeral? l.rest with
  | some w => l.accept w
  | none =>
      if c = '"' then
        match StringLiteral.read? l.rest with
        | some w => l.accept w
        | none => l.reject .unterminatedString
      else if c = '\n' then .token (l.locate ⟨.newline, ['\n']⟩) l.advanceLine
      else
        match (Lexeme.symbol? l.rest).or (Lexeme.word? l.rest) with
        | some w => l.accept w
        | none => l.reject (.unrecognisedCharacter c)

-- What follows the spaces at the head of the unread text.
def step (l : Lexer) : Step :=
  if l.atEnd then .finish l
  else
    let l := l.afterSpaces
    match l.rest with
    | [] => .finish l
    | c :: _ => l.scan c

theorem rest_advance (l : Lexer) (s : Text) : (l.advance s).rest = l.rest.drop s.length := rfl

theorem rest_skipSpaces (l : Lexer) : (l.skipSpaces l.rest).rest = l.rest.dropSpaces := by
  generalize hrest : l.rest = s
  induction s generalizing l with
  | nil => exact hrest
  | cons c s ih =>
      by_cases hc : c = ' '
      · have hnext : (l.advance [' ']).rest = s := by
          rw [rest_advance, hrest]
          rfl
        rw [skipSpaces, if_pos hc, ih _ hnext]
        simp [Text.dropSpaces, hc]
      · rw [skipSpaces, if_neg hc, hrest]
        simp [Text.dropSpaces, hc]

theorem rest_afterSpaces (l : Lexer) : l.afterSpaces.rest = l.rest.dropSpaces := l.rest_skipSpaces

theorem length_rest_afterSpaces_le (l : Lexer) : l.afterSpaces.rest.length ≤ l.rest.length := by
  rw [rest_afterSpaces]
  exact Text.length_dropSpaces_le _

theorem length_rest_advance_lt {l : Lexer} {s : Text} (hs : s ≠ []) (hl : l.rest ≠ []) :
    (l.advance s).rest.length < l.rest.length := by
  have hs := List.length_pos_iff.mpr hs
  have hl := List.length_pos_iff.mpr hl
  rw [rest_advance, List.length_drop]
  omega

-- Each way to go on takes some text: a lexeme has some, and so has what an error stands before.
theorem scan_cases {l : Lexer} {c : Char} {s : Text} (hrest : l.rest = c :: s) :
    (∃ w : Lexeme, w.text ≠ [] ∧ l.scan c = l.accept w) ∨
    l.scan c = .token (l.locate ⟨.newline, ['\n']⟩) l.advanceLine ∨
    (∃ cause : Cause, cause.span l.rest ≠ [] ∧ l.scan c = l.reject cause) := by
  unfold scan
  split
  · next w hw => exact .inl ⟨w, (Lexeme.numeral?_text hw).1, rfl⟩
  · split
    · next hc =>
        split
        · next w hw => exact .inl ⟨w, (StringLiteral.read?_text hw).1, rfl⟩
        · -- the span begins with the quote, not with the newline that ends it
          refine .inr (.inr ⟨_, ?_, rfl⟩)
          simp [Cause.span, hrest, hc]
    · split
      · exact .inr (.inl rfl)
      · split
        · next w hw =>
            rcases Option.or_eq_some_iff.mp hw with hw | ⟨-, hw⟩
            · exact .inl ⟨w, (Lexeme.symbol?_text hw).1, rfl⟩
            · exact .inl ⟨w, (Lexeme.word?_text hw).1, rfl⟩
        · refine .inr (.inr ⟨_, ?_, rfl⟩)
          simp [Cause.span, hrest]

theorem step_eq_finish_or_scan (l : Lexer) :
    (l.afterSpaces.rest = [] ∧ l.step = .finish l.afterSpaces) ∨
    ∃ c s, l.afterSpaces.rest = c :: s ∧ l.step = l.afterSpaces.scan c := by
  by_cases hend : l.atEnd
  · have hrest : l.rest = [] := List.isEmpty_iff.mp hend
    have hspaces : l.afterSpaces = l := by rw [afterSpaces, hrest, skipSpaces]
    exact .inl ⟨by rw [hspaces, hrest], by rw [step, if_pos hend, hspaces]⟩
  · cases hrest : l.afterSpaces.rest with
    | nil => exact .inl ⟨rfl, by simp only [step, if_neg hend, hrest]⟩
    | cons c s => exact .inr ⟨c, s, rfl, by simp only [step, if_neg hend, hrest]⟩

-- Reading goes on with less text, behind a fault as behind a token.
theorem length_rest_of_step (l : Lexer) :
    match l.step with
    | .finish _ => True
    | .token _ next => next.rest.length < l.rest.length
    | .fault d before => (before.skip d).rest.length < l.rest.length := by
  have hspaces := l.length_rest_afterSpaces_le
  rcases l.step_eq_finish_or_scan with ⟨-, hs⟩ | ⟨c, s, hrest, hs⟩
  · rw [hs]
    trivial
  · have hne : l.afterSpaces.rest ≠ [] := by simp [hrest]
    rcases scan_cases hrest with ⟨w, hw, hscan⟩ | hscan | ⟨cause, hspan, hscan⟩
    · rw [hs, hscan]
      exact Nat.lt_of_lt_of_le (length_rest_advance_lt hw hne) hspaces
    · rw [hs, hscan]
      exact Nat.lt_of_lt_of_le (length_rest_advance_lt (List.cons_ne_nil '\n' []) hne) hspaces
    · rw [hs, hscan]
      exact Nat.lt_of_lt_of_le (length_rest_advance_lt hspan hne) hspaces

theorem length_rest_of_token {l next : Lexer} {t : Token} (h : l.step = .token t next) :
    next.rest.length < l.rest.length := by
  have hlt := l.length_rest_of_step
  rwa [h] at hlt

theorem length_rest_skip_of_fault {l before : Lexer} {d : Diagnostic}
    (h : l.step = .fault d before) : (before.skip d).rest.length < l.rest.length := by
  have hlt := l.length_rest_of_step
  rwa [h] at hlt

-- The next token, which is the end of the input from then on when there is no more. A fault is
-- reported again by every later call.
def next (l : Lexer) : Except Diagnostic Token × Lexer :=
  match l.step with
  | .finish last => (.ok (.endOfInput last.cursor.line last.cursor.column), last)
  | .token t next => (.ok t, next)
  | .fault d before => (.error d, before)

-- The next item of the sequence of tokens, which ends before the end of the input and after the
-- first fault.
def pull (l : Lexer) : Option (Except Diagnostic Token) × Lexer :=
  if l.exhausted then (none, l)
  else match l.step with
    | .finish last => (none, last.exhaust)
    | .token t next => (some (.ok t), next)
    | .fault d before => (some (.error d), before.exhaust)

theorem length_rest_of_pull {l next : Lexer} {t : Token} (h : l.pull = (some (.ok t), next)) :
    next.rest.length < l.rest.length := by
  unfold pull at h
  split at h
  · cases h
  · split at h
    · cases h
    · next hs =>
        cases h
        exact length_rest_of_token hs
    · cases h

-- At most the given number of items.
def take (l : Lexer) : Nat → List (Except Diagnostic Token) × Lexer
  | 0 => ([], l)
  | n + 1 =>
      match l.pull with
      | (none, next) => ([], next)
      | (some item, next) =>
          let (items, last) := next.take n
          (item :: items, last)

-- All that is left of the sequence of tokens, or the fault that ends it.
def drain (l : Lexer) : Except Diagnostic (List Token) × Lexer :=
  match _ : l.pull with
  | (none, last) => (.ok [], last)
  | (some (.error d), last) => (.error d, last)
  | (some (.ok t), next) =>
      let (result, last) := next.drain
      (result.map (t :: ·), last)
termination_by l.rest.length
decreasing_by exact length_rest_of_pull ‹_›

-- Each error belongs to one unrecognised token, in the same order.
structure Recovery where
  tokens : List Token
  errors : List Diagnostic
  deriving DecidableEq

-- All tokens up to the end of the input, whether or not the sequence has ended before.
def recover (l : Lexer) : Recovery × Lexer :=
  match _ : l.step with
  | .finish last => (⟨[], []⟩, last.exhaust)
  | .token t next =>
      let (r, last) := next.recover
      (⟨t :: r.tokens, r.errors⟩, last)
  | .fault d before =>
      let (r, last) := (before.skip d).recover
      (⟨before.skipped d :: r.tokens, d :: r.errors⟩, last)
termination_by l.rest.length
decreasing_by
  · exact length_rest_of_token ‹_›
  · exact length_rest_skip_of_fault ‹_›

end Lexer

namespace Text

def tokens (source : Text) (file? : Option String) : Except Diagnostic (List Token) :=
  (Lexer.ofText source file?).drain.1

def recover (source : Text) (file? : Option String) : Lexer.Recovery :=
  (Lexer.ofText source file?).recover.1

end Text

end JustLang
