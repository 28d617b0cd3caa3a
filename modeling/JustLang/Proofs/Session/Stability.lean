import JustLang.Proofs.Session.Restart

namespace JustLang

namespace Lexer

variable {l next : Lexer} {gap : Text} {u : Token} {d : Diagnostic}

-- The answer is settled behind the spaces, and moving over them changes nothing about it.
theorem next_afterSpaces (l : Lexer) : l.afterSpaces.next = l.next := by
  unfold Lexer.next
  rw [step_afterSpaces]

theorem next_eq_of_no_token (h : ∀ u, l.next.1 = .ok u → u.kind = .endOfInput) :
    l.next.2 = l.afterSpaces := by
  rcases l.next_cases with ⟨u, next, hstep, hnext⟩ | ⟨result, -, hnext⟩
  · rw [hnext] at h
    exact absurd (h u rfl) (emits_of_token hstep).emitted.ne_endOfInput
  · rw [hnext]

theorem position_of_next_error (h : l.next.1 = .error d) : l.next.2.position = d.position := by
  rcases l.next_eq_cases with ⟨u, next, -, hnext⟩ | ⟨-, hnext⟩ | ⟨e, hposition, hnext⟩
  · rw [hnext] at h
    cases h
  · rw [hnext] at h
    cases h
  · rw [hnext] at h ⊢
    obtain rfl : e = d := Except.error.inj h
    exact hposition.symm

theorem eq_endOfInput_of_next_ok (h : l.next.1 = .ok u) (hu : u.kind = .endOfInput) :
    l.next.2.rest = [] ∧ u = .endOfInput l.next.2.cursor.line l.next.2.cursor.column := by
  rcases l.next_eq_cases with ⟨v, next, hstep, hnext⟩ | ⟨hrest, hnext⟩ | ⟨e, -, hnext⟩
  · rw [hnext] at h
    obtain rfl : v = u := Except.ok.inj h
    exact absurd hu (emits_of_token hstep).emitted.ne_endOfInput
  · rw [hnext] at h ⊢
    exact ⟨hrest, (Except.ok.inj h).symm⟩
  · rw [hnext] at h
    cases h

theorem Emits.offset_lt (h : l.Emits gap u next) : l.cursor.offset < next.cursor.offset := by
  have hne : gap ++ u.text ≠ [] := by simp [h.emitted.ne_nil]
  rw [h.reads.cursor]
  exact l.cursor.offset_lt_after hne

theorem offset_lt_of_next_ok (h : l.next.1 = .ok u) (hu : u.kind ≠ .endOfInput) :
    l.cursor.offset < l.next.2.cursor.offset := by
  rcases l.next_cases with ⟨v, next, hstep, hnext⟩ | ⟨result, hresult, hnext⟩
  · rw [hnext]
    exact (emits_of_token hstep).offset_lt
  · rw [hnext] at h
    exact absurd (hresult u h) hu

end Lexer

namespace Session

variable {source : Text} {file? : Option String} {session : Session}

-- A request for a token moves the session over spaces. Made again from then on, however often, it
-- has the same answer each time and leaves all of the session as it is.
structure Settles (source : Text) (session : Session) : Prop where
  spaces : ∃ gap, (∀ c ∈ gap, c = ' ') ∧
    source.slice? session.current.cursor.offset (session.answer .next).2.current.cursor.offset =
      some gap ∧
    (session.answer .next).2.current.cursor.line = session.current.cursor.line ∧
    (session.answer .next).2.current.cursor.column = session.current.cursor.column + gap.length
  repeats : ∀ n, (session.answer .next).2.run (List.replicate n .next) =
    List.replicate n (session.answer .next)

theorem run_replicate_of_answer {request : Request} {response : Response}
    (h : session.answer request = (response, session)) (n : Nat) :
    session.run (List.replicate n request) = List.replicate n (response, session) := by
  induction n with
  | zero => rfl
  | succ n ih => simp only [List.replicate_succ, run, h, ih]

theorem settles_of_no_token {read : Text}
    (hreads : (Lexer.ofText source file?).Reads read session.current)
    (h : ∀ u, session.current.next.1 = .ok u → u.kind = .endOfInput) : Settles source session := by
  have hnext := Lexer.next_eq_of_no_token h
  have hmoved := session.current.reads_afterSpaces
  constructor
  · have hspaces : ∀ c ∈ session.current.rest.leadingSpaces, c = ' ' :=
      fun c hc => Text.eq_space_of_mem_leadingSpaces hc
    have hcursor := session.current.cursor.advance_eq_after (Text.newline_notMem_of_spaces hspaces)
    have hslice := hreads.slice?_read hmoved
    refine ⟨session.current.rest.leadingSpaces, hspaces, ?_, ?_, ?_⟩
    · simpa only [answer, hnext] using hslice
    · simp only [answer, hnext, hmoved.cursor, ← hcursor, Cursor.advance]
    · simp only [answer, hnext, hmoved.cursor, ← hcursor, Cursor.advance]
  · intro n
    have hagain : (session.answer .next).2.answer .next = session.answer .next := by
      simp only [answer, hnext, Lexer.next_afterSpaces]
    exact run_replicate_of_answer hagain n

-- Wherever a session has got to, a fault and the end of the input are reported again and again from
-- one and the same place, which is reached over spaces only. Every other token moves the cursor on.
theorem next_settles_or_advances (source : Text) (file? : Option String)
    (requests : List Request) :
    let session := (ofText source file?).after requests
    let l := session.current
    (∀ d, l.next.1 = .error d → l.next.2.position = d.position ∧ Settles source session) ∧
    (∀ u, l.next.1 = .ok u → u.kind = .endOfInput →
      l.next.2.cursor.offset = source.byteSize ∧ u.text = [] ∧
      u.line = l.next.2.cursor.line ∧ u.column = l.next.2.cursor.column ∧
      Settles source session) ∧
    ∀ u, l.next.1 = .ok u → u.kind ≠ .endOfInput → l.cursor.offset < l.next.2.cursor.offset := by
  intro session l
  obtain ⟨read, hreads⟩ := exists_reads_after source file? requests
  refine ⟨?_, ?_, fun u => Lexer.offset_lt_of_next_ok⟩
  · intro d hd
    refine ⟨Lexer.position_of_next_error hd, settles_of_no_token hreads ?_⟩
    intro u hu
    rw [hd] at hu
    cases hu
  · intro u hu hkind
    have hsettles : Settles source session := by
      apply settles_of_no_token hreads
      intro v hv
      rw [hu] at hv
      rwa [← Except.ok.inj hv]
    obtain ⟨hrest, heq⟩ := Lexer.eq_endOfInput_of_next_ok hu hkind
    obtain ⟨s, hs⟩ := l.exists_reads_next
    have hsize := (hreads.trans hs).offset_add_byteSize
    rw [hrest, Text.byteSize_nil] at hsize
    exact ⟨hsize, by rw [heq]; rfl, by rw [heq]; rfl, by rw [heq]; rfl, hsettles⟩

end Session

end JustLang
