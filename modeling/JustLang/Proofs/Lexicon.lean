import JustLang.Vocabulary
import Mathlib.Data.List.Nodup

namespace JustLang.Lexicon

variable {lexicon : Lexicon} {kind : Kind} {spelling : Text}

-- What is looked up by something that differs from entry to entry is the one entry that has it.
theorem find?_eq_some_iff_of_nodup {α β : Type} [DecidableEq β] {l : List α} {f : α → β}
    (hl : (l.map f).Nodup) {a : α} {b : β} :
    l.find? (f · = b) = some a ↔ a ∈ l ∧ f a = b := by
  constructor
  · intro h
    exact ⟨List.mem_of_find?_eq_some h, by simpa using List.find?_some h⟩
  · rintro ⟨ha, rfl⟩
    -- some entry is found, and no other one can be
    cases hf : l.find? (f · = f a) with
    | none =>
        have hn := List.find?_eq_none.mp hf _ ha
        simp at hn
    | some c =>
        have hc : f c = f a := by simpa using List.find?_some hf
        rw [List.inj_on_of_nodup_map hl (List.mem_of_find?_eq_some hf) ha hc]

theorem kind?_eq_some_iff :
    lexicon.kind? spelling = some kind ↔ (kind, spelling) ∈ lexicon.entries := by
  simp only [kind?, Option.map_eq_some_iff, find?_eq_some_iff_of_nodup lexicon.spellings_nodup]
  constructor
  · rintro ⟨e, ⟨he, rfl⟩, rfl⟩
    exact he
  · intro h
    exact ⟨_, ⟨h, rfl⟩, rfl⟩

theorem spelling?_eq_some_iff :
    lexicon.spelling? kind = some spelling ↔ (kind, spelling) ∈ lexicon.entries := by
  simp only [spelling?, Option.map_eq_some_iff, find?_eq_some_iff_of_nodup lexicon.kinds_nodup]
  constructor
  · rintro ⟨e, ⟨he, rfl⟩, rfl⟩
    exact he
  · intro h
    exact ⟨_, ⟨h, rfl⟩, rfl⟩

theorem kind?_eq_none_iff :
    lexicon.kind? spelling = none ↔ ∀ kind, (kind, spelling) ∉ lexicon.entries := by
  rw [Option.eq_none_iff_forall_ne_some]
  simp only [ne_eq, kind?_eq_some_iff]

theorem contains_iff :
    lexicon.contains spelling = true ↔ (lexicon.kind? spelling).isSome = true := by
  simp only [contains, kind?, Option.isSome_map, List.find?_isSome, List.any_eq_true]

end JustLang.Lexicon
