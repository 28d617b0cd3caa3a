import JustLang.Machine.Rules
import JustLang.Proofs.Machine
import Mathlib.Order.Bounds.Defs

namespace JustLang.Machine

variable {σ : Type} {m : Machine σ} {s : Text} {k : Nat} {state last : σ}

-- The state after so many characters of a text, as long as each of them can be read.
def stateAfter? (m : Machine σ) (s : Text) : Nat → Option σ
  | 0 => some m.start
  | k + 1 => (m.stateAfter? s k).bind fun state => s[k]?.bind (m.step state)

-- The numbers of characters after which the machine accepts. It has stopped if a character before
-- the last led to a state that is both accepting and final; the start is not led to.
def matchLengths (m : Machine σ) (s : Text) : Set Nat :=
  {k | 1 ≤ k ∧ ∃ last, m.stateAfter? s k = some last ∧ m.accepting last ∧
    ∀ j middle, 1 ≤ j → j < k → m.stateAfter? s j = some middle →
      ¬ (m.accepting middle ∧ m.final middle)}

theorem stateAfter?_eq_some_iff :
    m.stateAfter? s k = some state ↔
      k ≤ s.length ∧ m.reach? m.start (s.take k) = some state := by
  induction k generalizing state with
  | zero => simp [stateAfter?]
  | succ k ih =>
      by_cases hk : k < s.length
      · rw [stateAfter?, List.take_add_one, List.getElem?_eq_getElem hk, reach?_append]
        simp [Option.bind_eq_some_iff, ih, Nat.le_of_lt hk, Nat.succ_le_of_lt hk]
      · rw [stateAfter?, List.getElem?_eq_none (Nat.le_of_not_lt hk)]
        have hlength : ¬ k + 1 ≤ s.length := hk
        simp [hlength]

-- The proper beginnings of the first so many characters are the first fewer of them.
theorem exists_eq_take_iff {t : Text} (hk : k ≤ s.length) :
    (∃ j, 1 ≤ j ∧ j < k ∧ t = s.take j) ↔ t <+: s.take k ∧ t ≠ [] ∧ t ≠ s.take k := by
  have hlength := List.length_take_of_le hk
  constructor
  · intro hleft
    obtain ⟨j, hpos, hlt, rfl⟩ := hleft
    have hlengthj := List.length_take_of_le (show j ≤ s.length by omega)
    refine ⟨(List.prefix_take_le_iff (by omega)).mpr (Nat.le_of_lt hlt), ?_, ?_⟩
    · exact List.length_pos_iff.mp (by omega)
    · intro heq
      have hcongr := congrArg List.length heq
      omega
  · intro hright
    obtain ⟨hp, hne, hproper⟩ := hright
    have hle := hp.length_le
    have hlengths : t.length ≠ (s.take k).length := fun heq => hproper (hp.eq_of_length heq)
    refine ⟨t.length, List.length_pos_iff.mpr hne, by omega, ?_⟩
    exact List.prefix_iff_eq_take.mp (hp.trans (List.take_prefix k s))

-- These are the lengths of the beginnings of the text that may be matched.
theorem mem_matchLengths_iff :
    k ∈ m.matchLengths s ↔ k ≤ s.length ∧ ∃ last, m.Matches m.start (s.take k) last := by
  constructor
  · intro hmem
    obtain ⟨hpos, last, hstate, ha, hopen⟩ := hmem
    obtain ⟨hle, hreach⟩ := stateAfter?_eq_some_iff.mp hstate
    have hlength := List.length_take_of_le hle
    refine ⟨hle, last, List.length_pos_iff.mp (by omega), hreach, ha, ?_⟩
    intro t middle ht hne hproper hmiddle haccepting hfinal
    obtain ⟨j, hj, hlt, rfl⟩ := (exists_eq_take_iff hle).mpr ⟨ht, hne, hproper⟩
    have hstate' : m.stateAfter? s j = some middle :=
      stateAfter?_eq_some_iff.mpr ⟨by omega, hmiddle⟩
    exact hopen j middle hj hlt hstate' ⟨haccepting, hfinal⟩
  · intro hright
    obtain ⟨hle, last, h⟩ := hright
    have hpos := List.length_pos_iff.mpr h.ne_nil
    rw [List.length_take_of_le hle] at hpos
    refine ⟨hpos, last, stateAfter?_eq_some_iff.mpr ⟨hle, h.reach⟩, h.accepting, ?_⟩
    intro j middle hj hlt hstate hstop
    obtain ⟨-, hmiddle⟩ := stateAfter?_eq_some_iff.mp hstate
    obtain ⟨hp, hne, hproper⟩ := (exists_eq_take_iff hle).mp ⟨j, hj, hlt, rfl⟩
    exact h.not_final (s.take j) middle hp hne hproper hmiddle hstop.1 hstop.2

-- A match is of the greatest of these lengths.
theorem isGreatest_matchLengths {found : Match σ} (h : m.match? s = some found) :
    IsGreatest (m.matchLengths s) found.text.length := by
  have hpre : found.text <+: s := matchFrom?_isPrefix h
  have htake := List.prefix_iff_eq_take.mp hpre
  constructor
  · refine mem_matchLengths_iff.mpr ⟨hpre.length_le, found.state, ?_⟩
    rw [← htake]
    exact matches_of_matchFrom? h
  · intro k hk
    obtain ⟨hle, last, hmatches⟩ := mem_matchLengths_iff.mp hk
    obtain ⟨longest, hlongest, hlength⟩ :=
      exists_matchFrom?_of_matches (List.take_prefix k s) hmatches
    rw [match?, hlongest] at h
    cases h
    rwa [List.length_take_of_le hle] at hlength

theorem matchLengths_eq_empty (h : m.match? s = none) : m.matchLengths s = ∅ := by
  refine Set.eq_empty_iff_forall_notMem.mpr fun k hk => ?_
  obtain ⟨-, last, hmatches⟩ := mem_matchLengths_iff.mp hk
  obtain ⟨longest, hlongest, -⟩ :=
    exists_matchFrom?_of_matches (List.take_prefix k s) hmatches
  rw [match?, hlongest] at h
  cases h

theorem recognize_of_match? {found : Match σ} (h : m.match? s = some found) :
    m.recognize s = ⟨true, found.text, found.state⟩ := by
  rw [recognize, h]

theorem recognize_of_match?_eq_none (h : m.match? s = none) :
    m.recognize s = ⟨false, [], m.start⟩ := by
  rw [recognize, h]

theorem recognize_of_not_recognized (h : ¬ (m.recognize s).recognized) :
    m.recognize s = ⟨false, [], m.start⟩ := by
  cases hmatch : m.match? s with
  | none => exact recognize_of_match?_eq_none hmatch
  | some found =>
      rw [recognize_of_match? hmatch] at h
      exact absurd rfl h

-- Whether a state is final is only asked if it accepts.
theorem matchFrom?_final {final : σ → Bool}
    (hfinal : ∀ state, m.accepting state → final state = m.final state) (state : σ) (s : Text) :
    matchFrom? { m with final := final } state s = m.matchFrom? state s := by
  induction s generalizing state with
  | nil => rfl
  | cons c s ih =>
      have hstop (next : σ) : (m.accepting next && final next) =
          (m.accepting next && m.final next) := by
        cases ha : m.accepting next with
        | false => rfl
        | true => rw [hfinal next ha]
      simp only [matchFrom?, hstop, ih]

-- The answer is about the longest beginning of the text that the machine accepts, if it has not
-- stopped before. The state that it starts in is never the end of a match, and a state that does
-- not accept never stops it.
theorem recognize_greatest (m : Machine σ) (s : Text) :
    ((m.matchLengths s = ∅ ∧ m.recognize s = ⟨false, [], m.start⟩) ∨
      ∃ k last, IsGreatest (m.matchLengths s) k ∧ m.stateAfter? s k = some last ∧
        m.recognize s = ⟨true, s.take k, last⟩ ∧
        s.charIndex? (Text.byteSize (s.take k)) = some k) ∧
    ((m.recognize s).recognized → (m.recognize s).text ≠ []) ∧
    ∀ final : σ → Bool, (∀ state, m.accepting state → final state = m.final state) →
      recognize { m with final := final } s = m.recognize s := by
  refine ⟨?_, ?_, ?_⟩
  · cases h : m.match? s with
    | none => exact .inl ⟨matchLengths_eq_empty h, recognize_of_match?_eq_none h⟩
    | some found =>
        have hpre : found.text <+: s := matchFrom?_isPrefix h
        have htake := List.prefix_iff_eq_take.mp hpre
        have hmatches : m.Matches m.start found.text found.state := matches_of_matchFrom? h
        refine .inr ⟨found.text.length, found.state, isGreatest_matchLengths h, ?_, ?_, ?_⟩
        · exact stateAfter?_eq_some_iff.mpr ⟨hpre.length_le, htake ▸ hmatches.reach⟩
        · rw [← htake]
          exact recognize_of_match? h
        · obtain ⟨rest, rfl⟩ := hpre
          rw [← htake]
          exact Text.charIndex?_byteSize found.text rest
  · intro hrecognized
    cases h : m.match? s with
    | none =>
        rw [recognize_of_match?_eq_none h] at hrecognized
        cases hrecognized
    | some found =>
        rw [recognize_of_match? h]
        exact matchFrom?_ne_nil h
  · intro final hfinal
    simp only [recognize, match?, matchFrom?_final hfinal]

-- Reading goes on from a start that is accepting and final, as if it were not.
theorem recognize_of_final_start :
    let m : Machine Nat := ofRules 0 [⟨0, some ['a'], 1⟩] [0, 1] [0]
    {k | 1 ≤ k ∧ ∃ last, m.stateAfter? ['a'] k = some last ∧ m.accepting last ∧
      ∀ j middle, j < k → m.stateAfter? ['a'] j = some middle →
        ¬ (m.accepting middle ∧ m.final middle)} = ∅ ∧
    m.recognize ['a'] ≠ ⟨false, [], m.start⟩ ∧ m.recognize ['a'] = ⟨true, ['a'], 1⟩ := by
  intro m
  refine ⟨?_, by decide, by decide⟩
  refine Set.eq_empty_iff_forall_notMem.mpr fun k hk => ?_
  obtain ⟨hpos, last, -, -, hopen⟩ := hk
  exact hopen 0 m.start hpos rfl (by decide)

end JustLang.Machine
