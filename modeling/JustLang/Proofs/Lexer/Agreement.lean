import JustLang.Proofs.Lexer.Step

namespace JustLang.Lexer

variable {l next : Lexer}

theorem take_of_exhausted (h : l.exhausted = true) (n : Nat) : (l.take n).1 = [] := by
  cases n with
  | zero => rfl
  | succ n => simp [take, pull_of_exhausted h]

theorem take_succ_of_some {item : Except Diagnostic Token} (h : l.pull = (some item, next))
    (n : Nat) : (l.take (n + 1)).1 = item :: (next.take n).1 := by
  simp [take, h]

-- Where the first fault is, the two ways of reading part.
theorem drain_of_errors {e : Diagnostic} {es : List Diagnostic} (hl : l.exhausted = false)
    (he : l.recover.1.errors = e :: es) :
    l.drain.1 = .error e ∧ l.drain.2.position = e.position ∧
      ∃ read u rest, l.recover.1.tokens = read ++ u :: rest ∧
        u.kind = .unrecognized ∧ (∀ t ∈ read, t.kind ≠ .unrecognized) ∧
        (∀ n, read.length < n → (l.take n).1 = read.map .ok ++ [.error e]) ∧
        l.drain.2.recover.1 = ⟨u :: rest, e :: es⟩ := by
  induction l using induction_on_step with
  | finish l last h =>
      rw [recover_of_finish h] at he
      cases he
  | token l u next h ih =>
      have hpull := pull_of_token hl h
      have hdrain := drain_of_ok hpull
      rw [recover_of_token h] at he ⊢
      obtain ⟨hresult, hposition, read, v, rest, htokens, hv, hread, htake, hresume⟩ :=
        ih ((exhausted_of_token h).trans hl) he
      rw [hdrain, hresult]
      refine ⟨rfl, hposition, u :: read, v, rest, by rw [htokens]; rfl, hv, ?_, ?_, hresume⟩
      · intro t ht
        rcases List.mem_cons.mp ht with rfl | ht
        · exact kind_ne_of_token h
        · exact hread t ht
      · intro n hn
        obtain ⟨n, rfl⟩ := Nat.exists_eq_succ_of_ne_zero (Nat.ne_zero_of_lt hn)
        rw [take_succ_of_some hpull, htake n (by simpa using hn)]
        rfl
  | fault l d before h ih =>
      have hpull := pull_of_fault hl h
      have hdrain := drain_of_error hpull
      have hrecover := recover_of_fault h
      rw [hrecover] at he
      obtain ⟨rfl, rfl⟩ := List.cons.inj he
      obtain ⟨rfl, c, s, -, -, rfl⟩ := eq_of_fault h
      rw [hdrain]
      refine ⟨rfl, rfl, [], _, _, by rw [hrecover]; rfl, rfl, by simp, ?_, ?_⟩
      · intro n hn
        obtain ⟨n, rfl⟩ := Nat.exists_eq_succ_of_ne_zero (Nat.ne_zero_of_lt hn)
        rw [take_succ_of_some hpull, take_of_exhausted rfl]
        rfl
      · rw [recover_exhaust, recover_afterSpaces, hrecover]

theorem drain_of_no_errors (hl : l.exhausted = false) (he : l.recover.1.errors = []) :
    l.drain = (.ok l.recover.1.tokens, l.recover.2) := by
  induction l using induction_on_step with
  | finish l last h => rw [drain_of_none (pull_of_finish hl h), recover_of_finish h]
  | token l u next h ih =>
      rw [recover_of_token h] at he ⊢
      rw [drain_of_ok (pull_of_token hl h), ih ((exhausted_of_token h).trans hl) he]
      rfl
  | fault l d before h ih =>
      rw [recover_of_fault h] at he
      cases he

theorem recover_of_drain_ok {tokens : List Token} (hl : l.exhausted = false)
    (h : l.drain.1 = .ok tokens) : l.recover.1 = ⟨tokens, []⟩ := by
  cases he : l.recover.1.errors with
  | nil =>
      rw [drain_of_no_errors hl he] at h
      rw [← Except.ok.inj h, ← he]
  | cons e es =>
      rw [(drain_of_errors hl he).1] at h
      cases h

-- A strict reader stops at the first error that a recovering one reports.
theorem exists_errors_of_drain_error {d : Diagnostic} (hl : l.exhausted = false)
    (h : l.drain.1 = .error d) : ∃ es, l.recover.1.errors = d :: es := by
  cases he : l.recover.1.errors with
  | nil =>
      rw [drain_of_no_errors hl he] at h
      cases h
  | cons e es =>
      rw [(drain_of_errors hl he).1] at h
      obtain rfl : e = d := Except.error.inj h
      exact ⟨es, rfl⟩

theorem drain_agrees_with_recover (l : Lexer) (hl : l.exhausted = false) :
    (l.recover.1.errors = [] →
      l.drain.1 = .ok l.recover.1.tokens ∧ l.drain.2 = l.recover.2) ∧
    (∀ e es, l.recover.1.errors = e :: es →
      l.drain.1 = .error e ∧ l.drain.2.position = e.position ∧
        ∃ read u rest, l.recover.1.tokens = read ++ u :: rest ∧
          u.kind = .unrecognized ∧ (∀ t ∈ read, t.kind ≠ .unrecognized) ∧
          (∀ n, read.length < n → (l.take n).1 = read.map .ok ++ [.error e]) ∧
          l.drain.2.recover.1 = ⟨u :: rest, e :: es⟩) ∧
    ((∃ tokens, l.drain.1 = .ok tokens) ↔ l.recover.1.errors = []) := by
  refine ⟨?_, fun e es he => drain_of_errors hl he, ?_⟩
  · intro he
    rw [drain_of_no_errors hl he]
    exact ⟨rfl, rfl⟩
  · cases he : l.recover.1.errors with
    | nil => exact iff_of_true ⟨_, by rw [drain_of_no_errors hl he]⟩ rfl
    | cons e es =>
        refine iff_of_false ?_ (List.cons_ne_nil e es)
        intro hdrain
        obtain ⟨tokens, hok⟩ := hdrain
        rw [(drain_of_errors hl he).1] at hok
        cases hok

theorem drain_agrees_with_recover_at_two_faults :
    (ofText "a ~ \"b".toList none).exhausted = false ∧
    (ofText "a ~ \"b".toList none).drain.1 =
      .error ⟨.unrecognisedCharacter '~', ⟨⟨2, 0, 2⟩, "shell"⟩⟩ ∧
    (ofText "a ~ \"b".toList none).drain.2.position = ⟨⟨2, 0, 2⟩, "shell"⟩ ∧
    (ofText "a ~ \"b".toList none).drain.2.recover.1.errors =
      [⟨.unrecognisedCharacter '~', ⟨⟨2, 0, 2⟩, "shell"⟩⟩,
        ⟨.unterminatedString, ⟨⟨4, 0, 4⟩, "shell"⟩⟩] := by
  have herrors : (ofText "a ~ \"b".toList none).recover.1.errors =
      [⟨.unrecognisedCharacter '~', ⟨⟨2, 0, 2⟩, "shell"⟩⟩,
        ⟨.unterminatedString, ⟨⟨4, 0, 4⟩, "shell"⟩⟩] := by decide +kernel
  have h := drain_agrees_with_recover (ofText "a ~ \"b".toList none) rfl
  obtain ⟨hresult, hposition, _, _, _, -, -, -, -, hresume⟩ := h.2.1 _ _ herrors
  exact ⟨rfl, hresult, hposition, by rw [hresume]⟩

end JustLang.Lexer
