import JustLang.Machine
import JustLang.Proofs.Language

namespace JustLang.Machine

variable {σ : Type} {m : Machine σ} {state last : σ} {c : Char} {s t : Text}

@[simp] theorem reach?_nil : m.reach? state [] = some state := rfl

@[simp] theorem reach?_cons :
    m.reach? state (c :: s) = (m.step state c).bind (m.reach? · s) := rfl

theorem reach?_append : m.reach? state (s ++ t) = (m.reach? state s).bind (m.reach? · t) :=
  List.foldlM_append

theorem reach?_append_singleton :
    m.reach? state (s ++ [c]) = some last ↔
      ∃ middle, m.reach? state s = some middle ∧ m.step middle c = some last := by
  simp [reach?_append, Option.bind_eq_some_iff]

-- The machine accepts the text, and no shorter beginning of it ends where nothing more is read.
structure Matches (m : Machine σ) (state : σ) (s : Text) (last : σ) : Prop where
  ne_nil : s ≠ []
  reach : m.reach? state s = some last
  accepting : m.accepting last
  not_final : ∀ t middle, t <+: s → t ≠ [] → t ≠ s → m.reach? state t = some middle →
    m.accepting middle → ¬ m.final middle

theorem not_matches_nil : ¬ m.Matches state [] last := fun h => h.ne_nil rfl

-- A match ends with its first character or goes on from a state that lets it.
theorem matches_cons :
    m.Matches state (c :: s) last ↔
      ∃ next, m.step state c = some next ∧
        ((s = [] ∧ last = next ∧ m.accepting next) ∨
          (¬ (m.accepting next ∧ m.final next) ∧ m.Matches next s last)) := by
  constructor
  · intro h
    obtain ⟨next, hnext, hreach⟩ := Option.bind_eq_some_iff.mp h.reach
    refine ⟨next, hnext, ?_⟩
    cases s with
    | nil =>
        cases hreach
        exact .inl ⟨rfl, rfl, h.accepting⟩
    | cons d s =>
        refine .inr ⟨?_, List.cons_ne_nil _ _, hreach, h.accepting, ?_⟩
        · intro hstop
          obtain ⟨ha, hf⟩ := hstop
          exact h.not_final [c] next ⟨d :: s, rfl⟩ (by simp) (by simp) (by simp [hnext]) ha hf
        · intro t middle ht hne hproper hmiddle
          have hp : c :: t <+: c :: d :: s := List.cons_prefix_cons.mpr ⟨rfl, ht⟩
          exact h.not_final (c :: t) middle hp (by simp) (by simpa using hproper)
            (by simp [hnext, hmiddle])
  · intro hright
    obtain ⟨next, hnext, ⟨rfl, rfl, ha⟩ | ⟨hopen, h⟩⟩ := hright
    · refine ⟨by simp, by simp [hnext], ha, ?_⟩
      intro t middle ht hne hproper
      rcases List.prefix_cons_iff.mp ht with rfl | ⟨t, rfl, htail⟩
      · exact absurd rfl hne
      · rw [List.prefix_nil.mp htail] at hproper
        exact absurd rfl hproper
    · refine ⟨by simp, by simp [hnext, h.reach], h.accepting, ?_⟩
      intro t middle ht hne hproper hmiddle ha hf
      rcases List.prefix_cons_iff.mp ht with rfl | ⟨t, rfl, htail⟩
      · exact hne rfl
      · simp only [reach?_cons, hnext, Option.bind_some] at hmiddle
        cases t with
        | nil =>
            cases hmiddle
            exact hopen ⟨ha, hf⟩
        | cons d t =>
            exact h.not_final _ middle htail (by simp) (by simpa using hproper) hmiddle ha hf

theorem matches_of_matchFrom? {found : Match σ} (h : m.matchFrom? state s = some found) :
    m.Matches state found.text found.state := by
  induction s generalizing state found with
  | nil => cases h
  | cons c s ih =>
      simp only [matchFrom?] at h
      split at h
      · cases h
      · next next hnext =>
          split at h
          · next hstop =>
              cases h
              simp only [Bool.and_eq_true] at hstop
              exact matches_cons.mpr ⟨next, hnext, .inl ⟨rfl, rfl, hstop.1⟩⟩
          · next hopen =>
              simp only [Bool.and_eq_true] at hopen
              split at h
              · next longer hlonger =>
                  cases h
                  exact matches_cons.mpr ⟨next, hnext, .inr ⟨hopen, ih hlonger⟩⟩
              · split at h
                · next ha =>
                    cases h
                    exact matches_cons.mpr ⟨next, hnext, .inl ⟨rfl, rfl, ha⟩⟩
                · cases h

-- Whatever may be matched, something at least as long is.
theorem exists_matchFrom?_of_matches (hp : t <+: s) (ht : m.Matches state t last) :
    ∃ found, m.matchFrom? state s = some found ∧ t.length ≤ found.text.length := by
  induction s generalizing state t with
  | nil =>
      rw [List.prefix_nil.mp hp] at ht
      exact absurd ht not_matches_nil
  | cons c s ih =>
      rcases List.prefix_cons_iff.mp hp with rfl | ⟨t, rfl, htail⟩
      · exact absurd ht not_matches_nil
      · obtain ⟨next, hnext, ⟨rfl, rfl, ha⟩ | ⟨hopen, ht⟩⟩ := matches_cons.mp ht
        · simp only [matchFrom?, hnext, ha, Bool.true_and, ite_true]
          split
          · exact ⟨_, rfl, Nat.le_refl _⟩
          · split
            · exact ⟨_, rfl, by simp⟩
            · exact ⟨_, rfl, Nat.le_refl _⟩
        · obtain ⟨longer, hlonger, hle⟩ := ih htail ht
          simp only [matchFrom?, hnext, Bool.and_eq_true, hopen, if_false, hlonger]
          exact ⟨_, rfl, by simpa using hle⟩

-- The texts that lead from the state to one that accepts.
def acceptedFrom (m : Machine σ) (state : σ) : Language Char :=
  {s | ∃ last, m.reach? state s = some last ∧ m.accepting last}

@[simp] theorem nil_mem_acceptedFrom : [] ∈ m.acceptedFrom state ↔ m.accepting state := by
  constructor
  · intro hmem
    obtain ⟨last, hlast, ha⟩ := hmem
    cases hlast
    exact ha
  · intro ha
    exact ⟨state, rfl, ha⟩

theorem cons_mem_acceptedFrom :
    c :: s ∈ m.acceptedFrom state ↔
      ∃ next, m.step state c = some next ∧ s ∈ m.acceptedFrom next := by
  constructor
  · intro hmem
    obtain ⟨last, hlast, ha⟩ := hmem
    obtain ⟨next, hnext, hlast⟩ := Option.bind_eq_some_iff.mp hlast
    exact ⟨next, hnext, last, hlast, ha⟩
  · intro hright
    obtain ⟨next, hnext, last, hlast, ha⟩ := hright
    exact ⟨last, by simp [hnext, hlast], ha⟩

-- A family of languages that is read as the machine reads it is what the machine accepts.
theorem acceptedFrom_eq {remaining : σ → Language Char}
    (hnil : ∀ state, [] ∈ remaining state ↔ m.accepting state)
    (hcons : ∀ state c s, c :: s ∈ remaining state ↔
      ∃ next, m.step state c = some next ∧ s ∈ remaining next) (state : σ) :
    m.acceptedFrom state = remaining state := by
  ext s
  induction s generalizing state with
  | nil => rw [nil_mem_acceptedFrom, hnil]
  | cons c s ih =>
      rw [cons_mem_acceptedFrom, hcons]
      simp only [ih]

theorem append_mem_acceptedFrom :
    s ++ t ∈ m.acceptedFrom state ↔
      ∃ middle, m.reach? state s = some middle ∧ t ∈ m.acceptedFrom middle := by
  constructor
  · intro hmem
    obtain ⟨last, hlast, ha⟩ := hmem
    rw [reach?_append] at hlast
    obtain ⟨middle, hmiddle, hlast⟩ := Option.bind_eq_some_iff.mp hlast
    exact ⟨middle, hmiddle, last, hlast, ha⟩
  · intro hright
    obtain ⟨middle, hmiddle, last, hlast, ha⟩ := hright
    exact ⟨last, by rw [reach?_append, hmiddle, Option.bind_some, hlast], ha⟩

-- Where the states on the way to an accepting one have lower and lower ranks, the machine cannot
-- go on for long without accepting.
theorem exists_accepted_of_rank {rank : σ → Nat}
    (hrank : ∀ state c next, m.step state c = some next → ¬ m.accepting next →
      rank next < rank state)
    (hs : s ∈ m.acceptedFrom state) (hne : s ≠ []) :
    ∃ t, t ≠ [] ∧ t <+: s ∧ t.length ≤ rank state + 1 ∧ t ∈ m.acceptedFrom state := by
  induction s generalizing state with
  | nil => exact absurd rfl hne
  | cons c s ih =>
      obtain ⟨next, hnext, hs⟩ := cons_mem_acceptedFrom.mp hs
      by_cases ha : m.accepting next
      · refine ⟨[c], List.cons_ne_nil c [], List.prefix_append [c] s, by simp, ?_⟩
        exact cons_mem_acceptedFrom.mpr ⟨next, hnext, nil_mem_acceptedFrom.mpr ha⟩
      · have hs' : s ≠ [] := by
          rintro rfl
          exact ha (nil_mem_acceptedFrom.mp hs)
        obtain ⟨t, -, ht, hlength, hmem⟩ := ih hs hs'
        have hlt := hrank state c next hnext ha
        refine ⟨c :: t, List.cons_ne_nil c t, List.cons_prefix_cons.mpr ⟨rfl, ht⟩, ?_,
          cons_mem_acceptedFrom.mpr ⟨next, hnext, hmem⟩⟩
        rw [List.length_cons]
        omega

-- A character that no state can read is in no text that the machine goes through.
theorem notMem_of_reach? (hc : ∀ state, m.step state c = none)
    (h : m.reach? state s = some last) : c ∉ s := by
  induction s generalizing state with
  | nil => simp
  | cons d s ih =>
      obtain ⟨next, hnext, h⟩ := Option.bind_eq_some_iff.mp h
      rintro (_ | ⟨_, hm⟩)
      · rw [hc state] at hnext
        cases hnext
      · exact ih h hm

-- Where nothing is read beyond an accepting state, no text that the machine accepts begins another.
theorem eq_of_isPrefix_of_stop (hstop : ∀ state c, m.accepting state → m.step state c = none)
    (hs : s ∈ m.acceptedFrom state) (ht : t ∈ m.acceptedFrom state) (h : s <+: t) : s = t := by
  obtain ⟨last, hlast, ha⟩ := hs
  obtain ⟨other, hother, -⟩ := ht
  obtain ⟨rest, rfl⟩ := h
  cases rest with
  | nil => rw [List.append_nil]
  | cons c rest =>
      rw [reach?_append, hlast, Option.bind_some, reach?_cons, hstop last c ha] at hother
      cases hother

section Closed

-- Where the scan ends early, the machine could not have gone on either.
variable (hclosed : ∀ state, m.accepting state → m.final state → ∀ c, m.step state c = none)
include hclosed

theorem matches_iff_of_closed :
    m.Matches state s last ↔ s ≠ [] ∧ m.reach? state s = some last ∧ m.accepting last := by
  constructor
  · intro h
    exact ⟨h.ne_nil, h.reach, h.accepting⟩
  · intro hright
    obtain ⟨hne, hreach, ha⟩ := hright
    refine ⟨hne, hreach, ha, ?_⟩
    rintro t middle ⟨rest, rfl⟩ - hproper hmiddle hm hf
    cases rest with
    | nil => simp at hproper
    | cons c rest =>
        rw [reach?_append, hmiddle, Option.bind_some, reach?_cons,
          hclosed middle hm hf c] at hreach
        cases hreach

-- Such a machine matches the longest prefix in its language.
theorem longestPrefix_of_matchFrom? {found : Match σ} (h : m.matchFrom? state s = some found) :
    Text.LongestPrefix (m.acceptedFrom state) s found.text where
  ne_nil := matchFrom?_ne_nil h
  isPrefix := matchFrom?_isPrefix h
  mem := ⟨found.state, (matches_of_matchFrom? h).reach, (matches_of_matchFrom? h).accepting⟩
  length_le := by
    rintro t ht ⟨last, hlast, ha⟩
    by_cases hne : t = []
    · simp [hne]
    · have hm := (matches_iff_of_closed hclosed).mpr ⟨hne, hlast, ha⟩
      obtain ⟨longest, hl, hle⟩ := exists_matchFrom?_of_matches ht hm
      rw [h] at hl
      cases hl
      exact hle

theorem notMem_of_matchFrom?_eq_none (h : m.matchFrom? state s = none) (ht : t <+: s)
    (hne : t ≠ []) : t ∉ m.acceptedFrom state := by
  intro hmem
  obtain ⟨last, hlast, ha⟩ := hmem
  have hm := (matches_iff_of_closed hclosed).mpr ⟨hne, hlast, ha⟩
  obtain ⟨longest, hl, -⟩ := exists_matchFrom?_of_matches ht hm
  rw [h] at hl
  cases hl

end Closed

end JustLang.Machine
