import JustLang.Proofs.Lexer.Step

namespace JustLang.Lexer

theorem next_longest_lexeme (l : Lexer) :
    (l.rest.dropSpaces = [] → ∃ t, l.next.1 = .ok t ∧ t.kind = .endOfInput) ∧
    (l.rest.dropSpaces ≠ [] →
      ((∃ t, l.next.1 = .ok t) ↔
        ∃ s, s ≠ [] ∧ s <+: l.rest.dropSpaces ∧ s ∈ Lexeme.lexemes) ∧
      ∀ t, l.next.1 = .ok t →
        Text.LongestPrefix Lexeme.lexemes l.rest.dropSpaces t.text ∧
        ∀ kind, Lexeme.HasKind t.text kind ↔ kind = t.kind) := by
  rw [← rest_afterSpaces]
  rcases l.step_cases with ⟨hrest, hs⟩ | ⟨w, hr, hs⟩ | ⟨c, s, hrest, hr, hs⟩
  · rw [next_of_finish hs]
    exact ⟨fun _ => ⟨_, rfl, rfl⟩, fun hne => absurd hrest hne⟩
  · have ht := Lexeme.longestPrefix_of_read? hr
    have hk := Lexeme.hasKind_of_read? hr
    rw [next_of_token hs]
    refine ⟨?_, fun _ => ⟨?_, ?_⟩⟩
    · intro hrest
      rw [hrest] at ht
      exact absurd (List.prefix_nil.mp ht.isPrefix) ht.ne_nil
    · exact iff_of_true ⟨_, rfl⟩ ⟨w.text, ht.ne_nil, ht.isPrefix, ht.mem⟩
    · intro t htok
      obtain rfl : l.afterSpaces.locate w = t := Except.ok.inj htok
      refine ⟨ht, fun kind => ⟨fun hkind => ?_, ?_⟩⟩
      · exact hkind.unique hk
      · rintro rfl
        exact hk
  · rw [next_of_fault hs]
    refine ⟨fun hnil => ?_, fun _ => ⟨?_, ?_⟩⟩
    · rw [hrest] at hnil
      cases hnil
    · refine iff_of_false ?_ ?_
      · intro hok
        obtain ⟨t, ht⟩ := hok
        cases ht
      · intro hlexeme
        obtain ⟨s', -, hs', hmem⟩ := hlexeme
        exact Lexeme.notMem_of_read?_eq_none hr (hrest ▸ hs') hmem
    · intro t ht
      cases ht

end JustLang.Lexer
