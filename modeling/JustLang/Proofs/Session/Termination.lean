import JustLang.Proofs.Lexer.Recovery
import JustLang.Proofs.Session.Restart

namespace JustLang

namespace Lexer

variable {l next before place : Lexer} {u : Token} {d : Diagnostic} {n : Nat}

-- The loop of recovery, given up if it has not ended within so many rounds.
def recoverWithin? (l : Lexer) : Nat → Option (Recovery × Lexer)
  | 0 => none
  | n + 1 =>
      match l.step with
      | .finish last => some (⟨[], []⟩, last.exhaust)
      | .token u next =>
          (next.recoverWithin? n).map fun (r, last) => (⟨u :: r.tokens, r.errors⟩, last)
      | .fault d before =>
          ((before.skip d).recoverWithin? n).map fun (r, last) =>
            (⟨before.skipped d :: r.tokens, d :: r.errors⟩, last)

-- The lexer at which the loop stands after so many rounds.
inductive Rounds : Lexer → Nat → Lexer → Prop where
  | zero {l : Lexer} : Rounds l 0 l
  | token {l next place : Lexer} {u : Token} {n : Nat} :
      l.step = .token u next → Rounds next n place → Rounds l (n + 1) place
  | fault {l before place : Lexer} {d : Diagnostic} {n : Nat} :
      l.step = .fault d before → Rounds (before.skip d) n place → Rounds l (n + 1) place

-- A round is over for each character taken, at the latest.
theorem Rounds.add_length_le (h : l.Rounds n place) : n + place.rest.length ≤ l.rest.length := by
  induction h with
  | zero => omega
  | token hstep _ ih =>
      have hlt := length_rest_of_token hstep
      omega
  | fault hstep _ ih =>
      have hlt := length_rest_skip_of_fault hstep
      omega

theorem exists_rest_of_token (h : l.step = .token u next) :
    ∃ s, s ≠ [] ∧ l.rest = s ++ next.rest := by
  have hemits := emits_of_token h
  refine ⟨_, ?_, hemits.reads.rest⟩
  simp [hemits.emitted.ne_nil]

-- Recovery stays before the fault and takes the text at fault from there, of which there is some.
theorem rest_of_fault (h : l.step = .fault d before) :
    (before.skipped d).text ≠ [] ∧
      before.rest = (before.skipped d).text ++ (before.skip d).rest := by
  obtain ⟨rfl, c, s, hrest, hr, rfl⟩ := eq_of_fault h
  have hskipped : (Lexeme.skipped c s).text <+: l.afterSpaces.rest := by
    rw [hrest]
    exact Lexeme.skipped_isPrefix c s
  rw [skip_eq_pass hrest hr, skipped_eq_locate hrest]
  exact ⟨Lexeme.skipped_text_ne_nil c s, (reads_pass hskipped).rest⟩

-- One round for each token and one to see that there are no more.
theorem recoverWithin?_eq (l : Lexer) (n : Nat) :
    l.recoverWithin? n = if l.recover.1.tokens.length < n then some l.recover else none := by
  induction n generalizing l with
  | zero => rfl
  | succ n ih =>
      unfold recoverWithin?
      cases h : l.step with
      | finish last =>
          rw [recover_of_finish h]
          rfl
      | token u next =>
          rw [recover_of_token h]
          by_cases hn : next.recover.1.tokens.length < n <;> simp [ih, hn]
      | fault d before =>
          rw [recover_of_fault h]
          by_cases hn : (before.skip d).recover.1.tokens.length < n <;> simp [ih, hn]

theorem length_tokens_recover_le (l : Lexer) : l.recover.1.tokens.length ≤ l.rest.length := by
  induction l using induction_on_step with
  | finish l last h =>
      rw [recover_of_finish h]
      exact Nat.zero_le _
  | token l u next h ih =>
      have hlt := length_rest_of_token h
      rw [recover_of_token h, List.length_cons]
      omega
  | fault l d before h ih =>
      have hlt := length_rest_skip_of_fault h
      rw [recover_of_fault h, List.length_cons]
      omega

theorem length_errors_recover_le (l : Lexer) :
    l.recover.1.errors.length ≤ l.recover.1.tokens.length := by
  rw [length_errors_recover]
  exact List.countP_le_length

theorem exhausted_recover (l : Lexer) : l.recover.2.exhausted = true := by
  induction l using induction_on_step with
  | finish l last h =>
      rw [recover_of_finish h]
      rfl
  | token l u next h ih =>
      rw [recover_of_token h]
      exact ih
  | fault l d before h ih =>
      rw [recover_of_fault h]
      exact ih

-- Behind recovery there is nothing to find, whoever asks.
theorem ended_of_recover (l : Lexer) :
    l.recover.2.recover = (⟨[], []⟩, l.recover.2) ∧ l.recover.2.drain = (.ok [], l.recover.2) ∧
      l.recover.2.pull = (none, l.recover.2) := by
  have hrest := l.rest_recover
  have hspaces : l.recover.2.afterSpaces = l.recover.2 := by
    rw [afterSpaces_eq_pass, hrest]
    exact pass_nil _
  have hexhaust : l.recover.2.exhaust = l.recover.2 := by
    rw [exhaust, ← l.exhausted_recover]
  have hstep := step_of_rest_nil (hspaces ▸ hrest)
  rw [hspaces] at hstep
  have hpull := pull_of_exhausted l.exhausted_recover
  refine ⟨?_, drain_of_none hpull, hpull⟩
  rw [recover_of_finish hstep, hexhaust]

end Lexer

namespace Session

-- The loop of recovery ends from wherever a session has got to, and however the sequence of tokens
-- has ended before. Each round takes some text, after a fault as after a token.
theorem recover_ends (source : Text) (file? : Option String) (requests : List Request) :
    let l := ((ofText source file?).after requests).current
    (∀ n place, l.Rounds n place →
      n + place.rest.length ≤ l.rest.length ∧
      (∀ u next, place.step = .token u next → ∃ s, s ≠ [] ∧ place.rest = s ++ next.rest) ∧
      ∀ d before, place.step = .fault d before →
        (before.skipped d).text ≠ [] ∧
          before.rest = (before.skipped d).text ++ (before.skip d).rest) ∧
    (∀ n, l.recoverWithin? n =
      if l.recover.1.tokens.length < n then some l.recover else none) ∧
    l.recover.1.tokens.length ≤ l.rest.length ∧
    l.recover.1.errors.length ≤ l.recover.1.tokens.length ∧
    l.recover.2.cursor.offset = source.byteSize ∧ l.recover.2.rest = [] ∧
    l.recover.2.recover = (⟨[], []⟩, l.recover.2) ∧ l.recover.2.drain = (.ok [], l.recover.2) ∧
    l.recover.2.pull = (none, l.recover.2) := by
  intro l
  obtain ⟨read, hreads⟩ := exists_reads_after source file? requests
  have hsize := (hreads.trans l.reads_recover).offset_add_byteSize
  rw [l.rest_recover, Text.byteSize_nil] at hsize
  refine ⟨?_, l.recoverWithin?_eq, l.length_tokens_recover_le, l.length_errors_recover_le, hsize,
    l.rest_recover, l.ended_of_recover⟩
  intro n place hrounds
  exact ⟨hrounds.add_length_le, fun u next => Lexer.exists_rest_of_token,
    fun d before => Lexer.rest_of_fault⟩

end Session

end JustLang
