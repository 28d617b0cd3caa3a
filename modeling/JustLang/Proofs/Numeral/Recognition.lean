import JustLang.Proofs.Lexer.Step
import JustLang.Proofs.Machine.Recognition

namespace JustLang.Numeral

open JustLang.Text (LongestPrefix)

variable {state next last : State} {c : Char} {s t : Text}

namespace State

-- Whether the exponent has begun.
def inExponent : State → Bool
  | start | integer | point | decimal => false
  | marker | sign | exponent => true

-- Whether the point has been read, and no exponent has begun.
def pastPoint : State → Bool
  | point | decimal => true
  | start | integer | marker | sign | exponent => false

end State

-- An exponent begins with its letter and does not end before the numeral.
theorem inExponent_of_step (h : step state c = some next) :
    next.inExponent = (state.inExponent || isMarker c) := by
  cases state <;> simp only [step] at h <;> split_ifs at h <;> cases h <;>
    simp_all [State.inExponent, isMarker_eq_false]

theorem inExponent_of_reach? (h : machine.reach? state s = some last) :
    last.inExponent = (state.inExponent || s.any isMarker) := by
  induction s generalizing state with
  | nil =>
      cases h
      simp
  | cons c s ih =>
      obtain ⟨next, hnext, h⟩ := Option.bind_eq_some_iff.mp h
      rw [ih h, inExponent_of_step hnext, List.any_cons, Bool.or_assoc]

theorem point_of_step (h : step state c = some next) (hnext : next.pastPoint) :
    state.pastPoint ∨ c = '.' := by
  cases state <;> simp only [step] at h <;> split_ifs at h <;> cases h <;>
    simp_all [State.pastPoint]

theorem point_of_reach? (h : machine.reach? state s = some last) (hlast : last.pastPoint) :
    state.pastPoint ∨ '.' ∈ s := by
  induction s generalizing state with
  | nil =>
      cases h
      exact .inl hlast
  | cons c s ih =>
      obtain ⟨next, hnext, h⟩ := Option.bind_eq_some_iff.mp h
      rcases ih h with hp | hmem
      · rcases point_of_step hnext hp with hstate | rfl
        · exact .inl hstate
        · exact .inr List.mem_cons_self
      · exact .inr (List.mem_cons_of_mem c hmem)

-- The numerals with an exponent.
def scientific : Language Char := (digits + pointed) * exponent

theorem mem_digits_iff : s ∈ digits ↔ s ≠ [] ∧ ∀ c ∈ s, c.isDigit := by
  cases s with
  | nil => simp [digits, digit]
  | cons c s => simp [digits, digit, Text.mem_kstar_single]

theorem isDigit_or_point_of_mem_pointed (h : s ∈ pointed) : ∀ c ∈ s, c.isDigit ∨ c = '.' := by
  obtain ⟨_, ⟨a, ha, _, ⟨p, hp, rfl⟩, rfl⟩, b, hb, rfl⟩ := Language.mem_mul.mp h
  intro c hc
  simp only [List.append_assoc, List.mem_append, List.mem_singleton] at hc
  rcases hc with hc | rfl | hc
  · exact .inl (Text.mem_kstar_single.mp ha c hc)
  · exact .inr (by simpa using hp)
  · exact .inl ((mem_digits_iff.mp hb).2 c hc)

-- Only the letter of an exponent is neither a digit, nor a point, nor a sign.
theorem mem_scientific_iff (h : s ∈ numerals) : s ∈ scientific ↔ ∃ c ∈ s, isMarker c := by
  constructor
  · intro hmem
    obtain ⟨a, -, _, hb, rfl⟩ := Language.mem_mul.mp hmem
    rw [exponent, mul_assoc] at hb
    obtain ⟨_, ⟨c, hc, rfl⟩, b, -, rfl⟩ := Language.mem_mul.mp hb
    exact ⟨c, by simp, hc⟩
  · intro hright
    obtain ⟨c, hc, hm⟩ := hright
    have hother (hplain : c.isDigit ∨ c = '.') : s ∈ scientific := by
      rw [isMarker_eq_false hplain] at hm
      cases hm
    rcases h with (h | h) | h
    · exact hother (.inl ((mem_digits_iff.mp h).2 c hc))
    · exact hother (isDigit_or_point_of_mem_pointed h c hc)
    · exact h

-- What the state at the end of a numeral tells of the numeral.
structure Shape (s : Text) (last : State) : Prop where
  integer_iff : last = .integer ↔ ∀ c ∈ s, c.isDigit
  decimal_iff : last = .decimal ↔ '.' ∈ s ∧ s ∉ scientific
  exponent_iff : last = .exponent ↔ s ∈ scientific
  kind?_eq : last.kind? = some (if last = .integer then .integer else .decimal)

theorem all_isDigit_iff (hreach : machine.reach? .start s = some last) (hne : s ≠ []) :
    (∀ c ∈ s, c.isDigit) ↔ last = .integer := by
  have hlast : machine.reach? .start s = some .integer ↔ s ∈ digits := by
    simp [reach?_eq_integer_iff]
  rw [mem_digits_iff, hreach, Option.some.injEq] at hlast
  constructor
  · intro hall
    exact hlast.mpr ⟨hne, hall⟩
  · intro hinteger
    exact (hlast.mp hinteger).2

theorem shape_of_reach? (hreach : machine.reach? .start s = some last) (hne : s ≠ [])
    (ha : machine.accepting last) : Shape s last := by
  have hmem : s ∈ machine.acceptedFrom .start := ⟨last, hreach, ha⟩
  rw [acceptedFrom_eq_remaining] at hmem
  have hinteger := all_isDigit_iff hreach hne
  have hexponent : last.inExponent ↔ s ∈ scientific := by
    rw [mem_scientific_iff hmem, inExponent_of_reach? hreach]
    simp [State.inExponent]
  have hpoint : last.pastPoint → '.' ∈ s := by
    intro hlast
    rcases point_of_reach? hreach hlast with h | h
    · cases h
    · exact h
  have hnumber : last = .integer ∨ last = .decimal ∨ last = .exponent := by
    cases last <;> simp_all [machine, State.kind?]
  refine ⟨hinteger.symm, ?_, ?_, ?_⟩
  · constructor
    · rintro rfl
      exact ⟨hpoint rfl, fun h => absurd (hexponent.mpr h) (by decide)⟩
    · intro hright
      obtain ⟨hmem, hno⟩ := hright
      rcases hnumber with rfl | rfl | rfl
      · exact absurd (hinteger.mpr rfl '.' hmem) (by decide)
      · rfl
      · exact absurd (hexponent.mp rfl) hno
  · rw [← hexponent]
    rcases hnumber with rfl | rfl | rfl <;> decide
  · rcases hnumber with rfl | rfl | rfl <;> rfl

-- A match ends in a state that has a kind, so the machine and the reader agree.
theorem recognize_cases (s : Text) :
    (recognize s = ⟨false, [], .start⟩ ∧ read? s = none) ∨
    ∃ text last kind, recognize s = ⟨true, text, last⟩ ∧ last.kind? = some kind ∧
      read? s = some ⟨kind, text⟩ ∧ Shape text last := by
  cases h : match? s with
  | none => exact .inl ⟨Machine.recognize_of_match?_eq_none h, by rw [read?, h]⟩
  | some found =>
      have hmatches := Machine.matches_of_matchFrom? h
      have hshape := shape_of_reach? hmatches.reach hmatches.ne_nil hmatches.accepting
      refine .inr ⟨found.text, found.state, _, Machine.recognize_of_match? h, hshape.kind?_eq,
        ?_, hshape⟩
      simp only [read?, h, hshape.kind?_eq, Option.map_some]

theorem recognized_iff : (recognize s).recognized ↔ ∃ t, t <+: s ∧ t ∈ numerals := by
  rcases recognize_cases s with ⟨hr, hnone⟩ | ⟨text, last, kind, hr, -, hread, -⟩
  · simp only [hr, Bool.false_eq_true, false_iff, not_exists, not_and]
    intro t ht
    exact notMem_of_read?_eq_none hnone ht
  · have hl := longestPrefix_of_read? hread
    simp only [hr, true_iff]
    exact ⟨text, hl.isPrefix, hl.mem⟩

-- A numeral is found exactly where two characters announce it. It is the longest one, and the state
-- that the machine ends in tells what it is made of. A lexer that stands before it goes on with it.
theorem recognize_longest_numeral (s : Text) :
    ((recognize s).recognized ↔ ∃ t, t <+: s ∧ t ∈ numerals) ∧
    ((recognize s).recognized ↔ canBegin s[0]? s[1]?) ∧
    ((recognize s).recognized →
      LongestPrefix numerals s (recognize s).text ∧
      Shape (recognize s).text (recognize s).state ∧
      ∃ kind, (recognize s).state.kind? = some kind ∧ read? s = some ⟨kind, (recognize s).text⟩ ∧
        ∀ l : Lexer, l.afterSpaces.rest = s →
          l.step = .token (l.afterSpaces.locate ⟨kind, (recognize s).text⟩)
            (l.afterSpaces.advance (recognize s).text)) ∧
    (¬ (recognize s).recognized → recognize s = ⟨false, [], .start⟩ ∧ read? s = none) := by
  refine ⟨recognized_iff, recognized_iff.trans exists_numeral_iff, ?_, ?_⟩
  · intro hrecognized
    rcases recognize_cases s with ⟨hr, -⟩ | ⟨text, last, kind, hr, hkind, hread, hshape⟩
    · rw [hr] at hrecognized
      cases hrecognized
    · rw [hr]
      refine ⟨longestPrefix_of_read? hread, hshape, kind, hkind, hread, fun l hl => ?_⟩
      exact Lexer.step_of_numeral (by rwa [hl])
  · intro hrecognized
    rcases recognize_cases s with h | ⟨text, last, kind, hr, -⟩
    · exact h
    · rw [hr] at hrecognized
      exact absurd rfl hrecognized

end JustLang.Numeral
