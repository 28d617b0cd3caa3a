import JustLang.Text

namespace JustLang

-- A machine is fed one character at a time, and matches what it has read whenever it arrives in an
-- accepting state.
structure Machine (σ : Type) where
  start : σ
  -- No next state means that the character cannot be read.
  step : σ → Char → Option σ
  accepting : σ → Bool
  -- Nothing is read beyond a state that is both accepting and final.
  final : σ → Bool

namespace Machine

variable {σ : Type}

structure Match (σ : Type) where
  text : Text
  state : σ
  deriving DecidableEq

-- The longest match that begins in the given state. The state itself is not asked whether it
-- accepts, so that no match is empty.
def matchFrom? (m : Machine σ) (state : σ) : Text → Option (Match σ)
  | [] => none
  | c :: s =>
      match m.step state c with
      | none => none
      | some next =>
          if m.accepting next && m.final next then some ⟨[c], next⟩
          else match m.matchFrom? next s with
            | some longer => some ⟨c :: longer.text, longer.state⟩
            | none => if m.accepting next then some ⟨[c], next⟩ else none

def match? (m : Machine σ) (s : Text) : Option (Match σ) := m.matchFrom? m.start s

-- The answer of a machine about a text. If there is no match, nothing of the text is taken and the
-- state is the one that the machine starts in.
structure Recognition (σ : Type) where
  recognized : Bool
  text : Text
  state : σ
  deriving DecidableEq

def recognize (m : Machine σ) (s : Text) : Recognition σ :=
  match m.match? s with
  | some found => ⟨true, found.text, found.state⟩
  | none => ⟨false, [], m.start⟩

-- The state after the whole text, if every character of it can be read.
def reach? (m : Machine σ) (state : σ) (s : Text) : Option σ := s.foldlM m.step state

-- The state after each character, up to the first that cannot be read.
def trace (m : Machine σ) (state : σ) : Text → List (Option σ)
  | [] => []
  | c :: s =>
      match m.step state c with
      | none => [none]
      | some next => some next :: m.trace next s

theorem matchFrom?_ne_nil {m : Machine σ} {state : σ} {s : Text} {found : Match σ}
    (h : m.matchFrom? state s = some found) : found.text ≠ [] := by
  cases s with
  | nil => simp [matchFrom?] at h
  | cons c s =>
      simp only [matchFrom?] at h
      split at h
      · cases h
      · split at h
        · simp [← Option.some.inj h]
        · split at h
          · simp [← Option.some.inj h]
          · split at h
            · simp [← Option.some.inj h]
            · cases h

theorem matchFrom?_isPrefix {m : Machine σ} {state : σ} {s : Text} {found : Match σ}
    (h : m.matchFrom? state s = some found) : found.text <+: s := by
  induction s generalizing state found with
  | nil => simp [matchFrom?] at h
  | cons c s ih =>
      simp only [matchFrom?] at h
      split at h
      · cases h
      · split at h
        · simp [← Option.some.inj h]
        · split at h
          · next longer hl =>
              simpa [← Option.some.inj h, List.cons_prefix_cons] using ih hl
          · split at h
            · simp [← Option.some.inj h]
            · cases h

end Machine

end JustLang
