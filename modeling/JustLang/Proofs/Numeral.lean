import JustLang.Numeral
import JustLang.Proofs.Machine
import Mathlib.Tactic.Abel

namespace JustLang.Numeral

open Computability
open JustLang.Text (single LongestPrefix)

def digit : Language Char := single Char.isDigit

def digits : Language Char := digit * digit∗

def point : Language Char := single (· = '.')

-- Digits on either side of a point, with at least one after it.
def pointed : Language Char := digit∗ * point * digits

def exponent : Language Char := single isMarker * (1 + single isSign) * digits

def numerals : Language Char := digits + pointed + (digits + pointed) * exponent

-- What completes a numeral from a state.
def remaining : State → Language Char
  | .start => numerals
  | .integer => digit∗ * (1 + exponent + point * (digits * (1 + exponent)))
  | .point => digits * (1 + exponent)
  | .decimal => digit∗ * (1 + exponent)
  | .marker => (1 + single isSign) * digits
  | .sign => digits
  | .exponent => digit∗

-- A numeral begins with a digit or with a point.
theorem numerals_eq :
    numerals = digit * remaining .integer + point * remaining .point := by
  have hpointed : pointed = digit * (digit∗ * (point * digits)) + point * digits := by
    rw [pointed, mul_assoc]
    exact Text.kstar_mul digit (point * digits)
  simp only [numerals, remaining, hpointed, digits, mul_add, add_mul, mul_one, mul_assoc]
  abel

theorem nil_mem_remaining {state : State} : [] ∈ remaining state ↔ machine.accepting state := by
  cases state <;>
    simp [remaining, numerals_eq, machine, State.kind?, Language.mem_add, digits, digit, point,
      exponent, Language.nil_mem_kstar, -add_eq_sup]

theorem isMarker_eq_false {c : Char} (h : c.isDigit ∨ c = '.') : isMarker c = false := by
  simp only [isMarker, Bool.or_eq_false_iff, decide_eq_false_iff_not]
  constructor <;> rintro rfl <;> revert h <;> decide

theorem isSign_eq_false {c : Char} (h : c.isDigit) : isSign c = false := by
  simp only [isSign, Bool.or_eq_false_iff, decide_eq_false_iff_not]
  constructor <;> rintro rfl <;> revert h <;> decide

-- Reading a character leaves what completes the numeral from the next state. In each state the
-- classes of characters that it reads are disjoint, so only one of them goes on.
theorem cons_mem_remaining {state : State} {c : Char} {s : Text} :
    c :: s ∈ remaining state ↔ ∃ next, step state c = some next ∧ s ∈ remaining next := by
  cases state with
  | start =>
      simp only [remaining, numerals_eq, step, digit, point, Language.mem_add,
        Text.cons_mem_single_mul]
      by_cases hd : c.isDigit <;> by_cases hp : c = '.' <;> simp [hd, hp]
  | integer =>
      simp only [remaining, step, digit, point, exponent, Language.mem_add, mul_assoc,
        Text.cons_mem_single_mul, Text.cons_mem_kstar_single_mul]
      by_cases hd : c.isDigit
      · have hp : c ≠ '.' := by rintro rfl; revert hd; decide
        simp [hd, hp, isMarker_eq_false (.inl hd)]
      · by_cases hp : c = '.'
        · simp [hp, isMarker_eq_false (.inr rfl)]
        · by_cases hm : isMarker c <;> simp [hd, hp, hm]
  | point =>
      simp only [remaining, step, digits, digit, mul_assoc, Text.cons_mem_single_mul]
      by_cases hd : c.isDigit <;> simp [hd]
  | decimal =>
      simp only [remaining, step, digit, exponent, Language.mem_add, mul_assoc,
        Text.cons_mem_single_mul, Text.cons_mem_kstar_single_mul]
      by_cases hd : c.isDigit
      · simp [hd, isMarker_eq_false (.inl hd)]
      · by_cases hm : isMarker c <;> simp [hd, hm]
  | marker =>
      simp only [remaining, step, digits, digit, Language.mem_add, add_mul, one_mul,
        Text.cons_mem_single_mul]
      by_cases hd : c.isDigit
      · simp [hd, isSign_eq_false hd]
      · by_cases hs : isSign c <;> simp [hd, hs]
  | sign =>
      simp only [remaining, step, digits, digit, Text.cons_mem_single_mul]
      by_cases hd : c.isDigit <;> simp [hd]
  | exponent =>
      simp only [remaining, step, digit, Text.cons_mem_kstar_single]
      by_cases hd : c.isDigit <;> simp [hd]

theorem acceptedFrom_eq_remaining (state : State) :
    machine.acceptedFrom state = remaining state :=
  Machine.acceptedFrom_eq (fun _ => nil_mem_remaining) (fun _ _ _ => cons_mem_remaining) state

theorem step_eq_integer_iff {state : State} {c : Char} :
    step state c = some .integer ↔ (state = .start ∨ state = .integer) ∧ c.isDigit := by
  cases state <;> simp only [step] <;> split_ifs <;> simp_all

theorem step_ne_start {state : State} {c : Char} : step state c ≠ some .start := by
  cases state <;> simp only [step] <;> split_ifs <;> simp

-- Only digits lead to the state of an integer, from itself or from the start.
theorem reach?_eq_integer_iff {state : State} {s : Text} :
    machine.reach? state s = some .integer ↔
      (state = .integer ∧ s ∈ digit∗) ∨ (state = .start ∧ s ∈ digits) := by
  induction s generalizing state with
  | nil => simp [digits, digit, Language.nil_mem_kstar]
  | cons c s ih =>
      have hstep : machine.step state c = step state c := rfl
      simp only [Machine.reach?_cons, Option.bind_eq_some_iff, ih, hstep, digits, digit,
        Text.cons_mem_single_mul, Text.cons_mem_kstar_single]
      constructor
      · intro hleft
        obtain ⟨next, hnext, ⟨rfl, hs⟩ | ⟨rfl, -⟩⟩ := hleft
        · obtain ⟨rfl | rfl, hc⟩ := step_eq_integer_iff.mp hnext
          · exact .inr ⟨rfl, hc, hs⟩
          · exact .inl ⟨rfl, hc, hs⟩
        · exact absurd hnext step_ne_start
      · intro hright
        obtain ⟨rfl, hc, hs⟩ | ⟨rfl, hc, hs⟩ := hright
        · exact ⟨.integer, step_eq_integer_iff.mpr ⟨.inr rfl, hc⟩, .inl ⟨rfl, hs⟩⟩
        · exact ⟨.integer, step_eq_integer_iff.mpr ⟨.inl rfl, hc⟩, .inl ⟨rfl, hs⟩⟩

theorem cons_mem_numerals {c : Char} {s : Text} :
    c :: s ∈ numerals ↔
      (c.isDigit ∧ s ∈ remaining .integer) ∨ (c = '.' ∧ s ∈ remaining .point) := by
  simp only [numerals_eq, digit, point, Language.mem_add, Text.cons_mem_single_mul,
    decide_eq_true_eq]

theorem head_of_mem_numerals {c : Char} {s : Text} (h : c :: s ∈ numerals) :
    c.isDigit ∨ c = '.' := by
  rcases cons_mem_numerals.mp h with ⟨hc, -⟩ | ⟨hc, -⟩
  · exact .inl hc
  · exact .inr hc

theorem nil_notMem_numerals : [] ∉ numerals := by
  simp [numerals_eq, digit, point, Language.mem_add, -add_eq_sup]

theorem cons_mem_remaining_point {c : Char} {s : Text} :
    c :: s ∈ remaining .point ↔ c.isDigit ∧ s ∈ remaining .decimal := by
  simp [remaining, digits, digit, mul_assoc]

-- A numeral begins with a digit, or with a point and a digit, and nothing more is needed.
theorem exists_numeral_iff {s : Text} :
    (∃ t, t <+: s ∧ t ∈ numerals) ↔ canBegin s[0]? s[1]? := by
  constructor
  · intro hleft
    obtain ⟨t, ⟨rest, rfl⟩, hmem⟩ := hleft
    cases t with
    | nil => exact absurd hmem nil_notMem_numerals
    | cons c t =>
        rcases cons_mem_numerals.mp hmem with ⟨hc, -⟩ | ⟨rfl, ht⟩
        · simp [canBegin, hc]
        · -- a point alone is no numeral
          cases t with
          | nil => exact absurd (nil_mem_remaining.mp ht) (by decide)
          | cons d t => simp [canBegin, (cons_mem_remaining_point.mp ht).1]
  · intro hbegin
    cases s with
    | nil => cases hbegin
    | cons c s =>
        by_cases hc : c.isDigit
        · exact ⟨[c], List.prefix_append [c] s,
            cons_mem_numerals.mpr (.inl ⟨hc, nil_mem_remaining.mpr rfl⟩)⟩
        · cases s with
          | nil => simp [canBegin, hc] at hbegin
          | cons d s =>
              obtain ⟨rfl, hd⟩ : c = '.' ∧ d.isDigit := by simpa [canBegin, hc] using hbegin
              have hpoint : ['.', d] ∈ numerals := cons_mem_numerals.mpr
                (.inr ⟨rfl, cons_mem_remaining_point.mpr ⟨hd, nil_mem_remaining.mpr rfl⟩⟩)
              exact ⟨['.', d], List.prefix_append ['.', d] s, hpoint⟩

-- How many characters may follow the state before one that completes a numeral.
def State.rank : State → Nat
  | .integer | .decimal => 2
  | .start | .marker => 1
  | .point | .sign | .exponent => 0

theorem rank_of_step {state next : State} {c : Char} (h : step state c = some next)
    (hnext : ¬ machine.accepting next) : next.rank < state.rank := by
  cases state <;> simp only [step] at h <;> split_ifs at h <;> cases h <;>
    simp_all [machine, State.kind?, State.rank]

-- Behind any beginning of a numeral the next numeral ends within three characters: the letter of
-- an exponent, its sign and a digit.
theorem exists_nearer {s t : Text} (h : s ++ t ∈ numerals) (ht : t ≠ []) :
    ∃ u, u ≠ [] ∧ u <+: t ∧ u.length ≤ 3 ∧ s ++ u ∈ numerals := by
  have haccepted : machine.acceptedFrom .start = numerals := acceptedFrom_eq_remaining .start
  rw [← haccepted] at h ⊢
  obtain ⟨middle, hmiddle, hmem⟩ := Machine.append_mem_acceptedFrom.mp h
  obtain ⟨u, hne, hu, hlength, humem⟩ :=
    Machine.exists_accepted_of_rank (fun _ _ _ => rank_of_step) hmem ht
  have hrank : middle.rank ≤ 2 := by cases middle <;> decide
  exact ⟨u, hne, hu, by omega, Machine.append_mem_acceptedFrom.mpr ⟨middle, hmiddle, humem⟩⟩

-- A character that no state reads is in no numeral.
theorem notMem_of_mem_numerals {c : Char} {s : Text} (hc : ∀ state, step state c = none)
    (h : s ∈ numerals) : c ∉ s := by
  have hs : s ∈ machine.acceptedFrom .start := by rwa [acceptedFrom_eq_remaining]
  obtain ⟨last, hlast, -⟩ := hs
  exact Machine.notMem_of_reach? hc hlast

-- No numeral is spread over lines.
theorem newline_notMem_of_mem_numerals {s : Text} (h : s ∈ numerals) : '\n' ∉ s := by
  apply notMem_of_mem_numerals ?_ h
  intro state
  cases state <;> rfl

theorem space_notMem_of_mem_numerals {s : Text} (h : s ∈ numerals) : ' ' ∉ s := by
  apply notMem_of_mem_numerals ?_ h
  intro state
  cases state <;> rfl

section Read

variable {s t : Text} {w : Lexeme}

theorem machine_closed (state : State) (_ : machine.accepting state) (h : machine.final state)
    (c : Char) : machine.step state c = none := by
  cases h

theorem longestPrefix_of_read? (h : read? s = some w) : LongestPrefix numerals s w.text := by
  unfold read? at h
  split at h
  · cases h
  · next found hf =>
      obtain ⟨kind, -, rfl⟩ := Option.map_eq_some_iff.mp h
      have hl := Machine.longestPrefix_of_matchFrom? machine_closed hf
      rwa [acceptedFrom_eq_remaining] at hl

-- A match ends in a state that accepts, and so has a kind.
theorem notMem_of_read?_eq_none (h : read? s = none) (ht : t <+: s) : t ∉ numerals := by
  intro hmem
  have hne : t ≠ [] := by
    rintro rfl
    exact nil_notMem_numerals hmem
  unfold read? at h
  split at h
  · next hf =>
      have hn := Machine.notMem_of_matchFrom?_eq_none machine_closed hf ht hne
      rw [acceptedFrom_eq_remaining] at hn
      exact hn hmem
  · next found hf =>
      have ha := (Machine.matches_of_matchFrom? hf).accepting
      rw [Option.map_eq_none_iff] at h
      simp [machine, h] at ha

theorem kind_of_read? (h : read? s = some w) :
    (w.text ∈ digits ∧ w.kind = .integer) ∨ (w.text ∉ digits ∧ w.kind = .decimal) := by
  unfold read? at h
  split at h
  · cases h
  · next found hf =>
      obtain ⟨kind, hkind, rfl⟩ := Option.map_eq_some_iff.mp h
      have hreach := (Machine.matches_of_matchFrom? hf).reach
      have hdigits : machine.reach? .start found.text = some .integer ↔
          (State.start = .integer ∧ found.text ∈ digit∗) ∨
            (State.start = .start ∧ found.text ∈ digits) := reach?_eq_integer_iff
      rw [show machine.reach? .start found.text = some found.state from hreach] at hdigits
      cases hstate : found.state <;> rw [hstate] at hkind hdigits <;> cases hkind <;>
        simpa using hdigits

theorem read?_cons_eq_none {c : Char} (hc : ¬ (c.isDigit ∨ c = '.')) : read? (c :: s) = none := by
  cases h : read? (c :: s) with
  | none => rfl
  | some w =>
      obtain ⟨t, ht⟩ := (longestPrefix_of_read? h).head_mem
      exact absurd (head_of_mem_numerals ht) hc

-- Where no two characters announce a numeral, none would be found.
theorem read?_eq_none_of_not_canBegin (h : ¬ canBegin s[0]? s[1]?) : read? s = none := by
  refine Option.eq_none_iff_forall_ne_some.mpr fun w hw => ?_
  have ht := longestPrefix_of_read? hw
  exact h (exists_numeral_iff.mp ⟨w.text, ht.isPrefix, ht.mem⟩)

-- A numeral that stands alone is read whole.
theorem read?_of_mem_numerals (h : s ∈ numerals) : ∃ kind, read? s = some ⟨kind, s⟩ := by
  cases hr : read? s with
  | none => exact absurd h (notMem_of_read?_eq_none hr List.prefix_rfl)
  | some w =>
      obtain ⟨kind, text⟩ := w
      obtain rfl : text = s := (longestPrefix_of_read? hr).eq_of_mem h
      exact ⟨kind, rfl⟩

end Read

end JustLang.Numeral
