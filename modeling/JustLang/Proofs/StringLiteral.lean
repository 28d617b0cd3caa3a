import JustLang.StringLiteral
import JustLang.Proofs.Machine

namespace JustLang.StringLiteral

open Computability
open JustLang.Text (single LongestPrefix)

def quote : Language Char := single (· = '"')

def plain : Language Char := single (fun c => c ≠ '"' && c ≠ '\\' && c ≠ '\n')

-- A backslash with the character that it escapes.
def escaped : Language Char := single (· = '\\') * single (· ≠ '\n')

def unit : Language Char := plain + escaped

def literals : Language Char := quote * unit∗ * quote

-- What completes a literal from a state.
def remaining : State → Language Char
  | .start => literals
  | .body => unit∗ * quote
  | .escape => single (· ≠ '\n') * (unit∗ * quote)
  | .closed => 1

-- The body goes on with a unit, or the closing quote ends it.
theorem remaining_body :
    remaining .body =
      plain * remaining .body + single (· = '\\') * remaining .escape + quote := by
  calc remaining .body = (plain + escaped) * remaining .body + quote := Text.kstar_mul unit quote
    _ = plain * remaining .body + single (· = '\\') * remaining .escape + quote := by
      rw [add_mul, escaped, mul_assoc]
      rfl

theorem nil_mem_remaining {state : State} : [] ∈ remaining state ↔ machine.accepting state := by
  cases state <;> simp [remaining, machine, literals, quote]

theorem cons_mem_remaining {state : State} {c : Char} {s : Text} :
    c :: s ∈ remaining state ↔ ∃ next, step state c = some next ∧ s ∈ remaining next := by
  cases state with
  | start =>
      simp only [remaining, literals, quote, step, mul_assoc, Text.cons_mem_single_mul]
      by_cases hq : c = '"' <;> simp [hq]
  | body =>
      rw [remaining_body]
      simp only [step, plain, quote, Language.mem_add, Text.cons_mem_single_mul,
        Text.cons_mem_single]
      by_cases hn : c = '\n'
      · simp [hn]
      · by_cases hq : c = '"'
        · simp [hq, remaining]
        · by_cases hb : c = '\\' <;> simp [hn, hq, hb]
  | escape =>
      simp only [remaining, step, Text.cons_mem_single_mul]
      by_cases hn : c = '\n' <;> simp [hn]
  | closed => simp [remaining, step]

theorem acceptedFrom_eq_remaining (state : State) :
    machine.acceptedFrom state = remaining state :=
  Machine.acceptedFrom_eq (fun _ => nil_mem_remaining) (fun _ _ _ => cons_mem_remaining) state

theorem head_of_mem_literals {c : Char} {s : Text} (h : c :: s ∈ literals) : c = '"' := by
  simp only [literals, quote, mul_assoc, Text.cons_mem_single_mul, decide_eq_true_eq] at h
  exact h.1

theorem nil_notMem_literals : [] ∉ literals := by
  simp [literals, quote]

theorem newline_notMem_of_mem_literals {s : Text} (h : s ∈ literals) : '\n' ∉ s := by
  have hs : s ∈ machine.acceptedFrom .start := by rwa [acceptedFrom_eq_remaining]
  obtain ⟨last, hlast, -⟩ := hs
  refine Machine.notMem_of_reach? ?_ hlast
  intro state
  cases state <;> rfl

-- A literal ends with its closing quote, so none begins another.
theorem eq_of_isPrefix {s t : Text} (hs : s ∈ literals) (ht : t ∈ literals) (h : s <+: t) :
    s = t := by
  have hstop (state : State) (c : Char) (ha : machine.accepting state) :
      machine.step state c = none := by
    cases state <;> cases ha
    rfl
  have haccepted : machine.acceptedFrom .start = literals := acceptedFrom_eq_remaining .start
  rw [← haccepted] at hs ht
  exact Machine.eq_of_isPrefix_of_stop hstop hs ht h

section Read

variable {s t : Text} {w : Lexeme}

theorem machine_closed (state : State) (_ : machine.accepting state) (h : machine.final state)
    (c : Char) : machine.step state c = none := by
  cases state <;> cases h
  rfl

theorem longestPrefix_of_read? (h : read? s = some w) : LongestPrefix literals s w.text := by
  obtain ⟨found, hf, rfl⟩ := Option.map_eq_some_iff.mp h
  have hl := Machine.longestPrefix_of_matchFrom? machine_closed hf
  rwa [acceptedFrom_eq_remaining] at hl

theorem notMem_of_read?_eq_none (h : read? s = none) (ht : t <+: s) : t ∉ literals := by
  intro hmem
  have hne : t ≠ [] := by
    rintro rfl
    exact nil_notMem_literals hmem
  have hf := Option.map_eq_none_iff.mp h
  have hn := Machine.notMem_of_matchFrom?_eq_none machine_closed hf ht hne
  rw [acceptedFrom_eq_remaining] at hn
  exact hn hmem

theorem kind_of_read? (h : read? s = some w) : w.kind = .string := by
  obtain ⟨found, -, rfl⟩ := Option.map_eq_some_iff.mp h
  rfl

theorem read?_cons_eq_none {c : Char} (hc : c ≠ '"') : read? (c :: s) = none := by
  cases h : read? (c :: s) with
  | none => rfl
  | some w =>
      obtain ⟨t, ht⟩ := (longestPrefix_of_read? h).head_mem
      exact absurd (head_of_mem_literals ht) hc

theorem read?_of_mem_literals (h : s ∈ literals) : read? s = some ⟨.string, s⟩ := by
  cases hr : read? s with
  | none => exact absurd h (notMem_of_read?_eq_none hr List.prefix_rfl)
  | some w =>
      obtain ⟨kind, text⟩ := w
      obtain rfl : text = s := (longestPrefix_of_read? hr).eq_of_mem h
      obtain rfl : kind = .string := kind_of_read? hr
      rfl

end Read

end JustLang.StringLiteral
