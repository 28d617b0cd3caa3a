import JustLang.Proofs.Lexicon
import Mathlib.Order.Bounds.Defs

namespace JustLang.Lexicon

variable {table name : String} {earlier later entries : List (Kind × Text)} {e : Kind × Text}
  {cause : Cause} {d : Diagnostic} {i : Nat}

-- The spelling or the kind of the entry has been given to an earlier one.
def Repeats (earlier : List (Kind × Text)) (e : Kind × Text) : Prop :=
  e.2 ∈ earlier.map Prod.snd ∨ e.1 ∈ earlier.map Prod.fst

def RepeatsAt (entries : List (Kind × Text)) (i : Nat) : Prop :=
  ∃ e, entries[i]? = some e ∧ Repeats (entries.take i) e

-- What is reported of an entry. Its kind matters only if its spelling is new.
inductive Conflict (table : String) (earlier : List (Kind × Text)) (e : Kind × Text) :
    Cause → Prop where
  | literal : e.2 ∈ earlier.map Prod.snd → Conflict table earlier e (.duplicateLiteral table e.2)
  | kind : e.2 ∉ earlier.map Prod.snd → e.1 ∈ earlier.map Prod.fst →
      Conflict table earlier e (.duplicateKind table e.1.name)

theorem Conflict.repeats (h : Conflict table earlier e cause) : Repeats earlier e := by
  cases h with
  | literal hs => exact .inl hs
  | kind _ hk => exact .inr hk

-- The order of the earlier entries does not matter.
theorem Conflict.of_reverse (h : Conflict table earlier.reverse e cause) :
    Conflict table earlier e cause := by
  cases h with
  | literal hs =>
      rw [List.map_reverse, List.mem_reverse] at hs
      exact .literal hs
  | kind hs hk =>
      rw [List.map_reverse, List.mem_reverse] at hs hk
      exact .kind hs hk

-- The entries before the one that is reported are as they should be.
theorem exists_of_conflict?_eq_some (h : conflict? table earlier entries = some cause) :
    ∃ before e after, entries = before ++ e :: after ∧ conflict? table earlier before = none ∧
      Conflict table (before.reverse ++ earlier) e cause := by
  induction entries generalizing earlier with
  | nil => cases h
  | cons e rest ih =>
      by_cases hs : e.2 ∈ earlier.map Prod.snd
      · rw [conflict?, if_pos hs] at h
        cases h
        exact ⟨[], e, rest, rfl, rfl, .literal hs⟩
      · by_cases hk : e.1 ∈ earlier.map Prod.fst
        · rw [conflict?, if_neg hs, if_pos hk] at h
          cases h
          exact ⟨[], e, rest, rfl, rfl, .kind hs hk⟩
        · rw [conflict?, if_neg hs, if_neg hk] at h
          obtain ⟨before, x, after, hrest, hbefore, hx⟩ := ih h
          refine ⟨e :: before, x, after, by rw [hrest]; rfl, ?_, ?_⟩
          · rw [conflict?, if_neg hs, if_neg hk]
            exact hbefore
          · rwa [List.reverse_cons, List.append_assoc]

theorem not_repeatsAt_of_nodup (hk : (entries.map Prod.fst).Nodup)
    (hs : (entries.map Prod.snd).Nodup) (i : Nat) : ¬ RepeatsAt entries i := by
  rintro ⟨e, he, hrepeats⟩
  obtain ⟨hi, rfl⟩ := List.getElem?_eq_some_iff.mp he
  have hsplit : entries = entries.take i ++ entries[i] :: entries.drop (i + 1) := by simp
  rw [hsplit, List.map_append, List.map_cons] at hk hs
  rcases hrepeats with h | h
  · exact (List.nodup_append.mp hs).2.2 _ h _ List.mem_cons_self rfl
  · exact (List.nodup_append.mp hk).2.2 _ h _ List.mem_cons_self rfl

theorem RepeatsAt.of_append (h : RepeatsAt (earlier ++ later) i) (hi : i < earlier.length) :
    RepeatsAt earlier i := by
  obtain ⟨e, he, hrepeats⟩ := h
  rw [List.getElem?_append_left hi] at he
  rw [List.take_append_of_le_length (Nat.le_of_lt hi)] at hrepeats
  exact ⟨e, he, hrepeats⟩

-- The reported entry is the first that repeats something.
theorem exists_isLeast_of_conflict? (h : conflict? table [] entries = some cause) :
    ∃ i e, IsLeast {i | RepeatsAt entries i} i ∧ entries[i]? = some e ∧
      Conflict table (entries.take i) e cause := by
  obtain ⟨before, e, after, rfl, hbefore, he⟩ := exists_of_conflict?_eq_some h
  rw [List.append_nil] at he
  obtain ⟨hk, hs, -⟩ := nodup_of_conflict?_eq_none hbefore
  have htake : (before ++ e :: after).take before.length = before := List.take_left
  have hget : (before ++ e :: after)[before.length]? = some e := by simp
  refine ⟨before.length, e, ⟨⟨e, hget, ?_⟩, ?_⟩, hget, ?_⟩
  · rw [htake]
    exact he.of_reverse.repeats
  · intro j hj
    by_contra hlt
    exact not_repeatsAt_of_nodup hk hs j (hj.of_append (Nat.lt_of_not_le hlt))
  · rw [htake]
    exact he.of_reverse

theorem ofEntries_of_conflict (h : conflict? name [] entries = some cause) :
    ofEntries name entries = .error ⟨cause, .nowhere⟩ := by
  unfold ofEntries
  split
  · next found hfound =>
      rw [h] at hfound
      cases hfound
      rfl
  · next hnone =>
      rw [h] at hnone
      cases hnone

theorem ofEntries_of_no_conflict (h : conflict? name [] entries = none) :
    ∃ lexicon, ofEntries name entries = .ok lexicon ∧
      lexicon.name = name ∧ lexicon.entries = entries := by
  unfold ofEntries
  split
  · next found hfound =>
      rw [h] at hfound
      cases hfound
  · exact ⟨_, rfl, rfl, rfl⟩

theorem ofEntries_bijective (name : String) (entries : List (Kind × Text)) :
    ((∃ lexicon, ofEntries name entries = .ok lexicon) ↔
      (entries.map Prod.snd).Nodup ∧ (entries.map Prod.fst).Nodup) ∧
    (∀ lexicon, ofEntries name entries = .ok lexicon →
      lexicon.name = name ∧ lexicon.entries = entries ∧ lexicon.size = entries.length ∧
      ∀ kind spelling,
        (lexicon.kind? spelling = some kind ↔ (kind, spelling) ∈ entries) ∧
        (lexicon.spelling? kind = some spelling ↔ (kind, spelling) ∈ entries) ∧
        (lexicon.contains spelling = true ↔ (lexicon.kind? spelling).isSome = true)) ∧
    ∀ d, ofEntries name entries = .error d →
      ∃ i e, IsLeast {i | RepeatsAt entries i} i ∧ entries[i]? = some e ∧
        Conflict name (entries.take i) e d.cause ∧ d.position = .nowhere := by
  cases hconflict : conflict? name [] entries with
  | none =>
      obtain ⟨made, hmade, hname, hentries⟩ := ofEntries_of_no_conflict hconflict
      obtain ⟨hk, hs, -⟩ := nodup_of_conflict?_eq_none hconflict
      rw [hmade]
      refine ⟨⟨fun _ => ⟨hs, hk⟩, fun _ => ⟨made, rfl⟩⟩, ?_, ?_⟩
      · intro lexicon h
        cases h
        refine ⟨hname, hentries, congrArg List.length hentries, fun kind spelling => ?_⟩
        rw [← hentries]
        exact ⟨kind?_eq_some_iff, spelling?_eq_some_iff, contains_iff⟩
      · intro d h
        cases h
  | some cause =>
      obtain ⟨i, e, hleast, he, hcause⟩ := exists_isLeast_of_conflict? hconflict
      rw [ofEntries_of_conflict hconflict]
      refine ⟨⟨?_, ?_⟩, ?_, ?_⟩
      · rintro ⟨lexicon, h⟩
        cases h
      · rintro ⟨hs, hk⟩
        exact absurd hleast.1 (not_repeatsAt_of_nodup hk hs i)
      · intro lexicon h
        cases h
      · intro d h
        cases h
        exact ⟨i, e, hleast, he, hcause, rfl⟩

-- The last entry repeats both its kind and its spelling, and the spelling is reported.
theorem ofEntries_bijective_at_repeated_entry :
    (∃ lexicon, ofEntries "operator" [(.equal, ['=']), (.dot, ['.'])] = .ok lexicon ∧
      lexicon.size = 2 ∧ lexicon.kind? ['.'] = some .dot ∧
      lexicon.spelling? .equal = some ['=']) ∧
    ofEntries "operator" [(.equal, ['=']), (.dot, ['.']), (.dot, ['='])] =
      .error ⟨.duplicateLiteral "operator" ['='], .nowhere⟩ ∧
    ∃ i e, IsLeast {i | RepeatsAt [(.equal, ['=']), (.dot, ['.']), (.dot, ['='])] i} i ∧
      [(Kind.equal, ['=']), (.dot, ['.']), (.dot, ['='])][i]? = some e ∧
      Conflict "operator" (List.take i [(.equal, ['=']), (.dot, ['.']), (.dot, ['='])]) e
        (.duplicateLiteral "operator" ['=']) := by
  obtain ⟨hmake, hlook, -⟩ := ofEntries_bijective "operator" [(.equal, ['=']), (.dot, ['.'])]
  obtain ⟨lexicon, hlexicon⟩ := hmake.mpr (by decide)
  obtain ⟨-, -, hsize, hfind⟩ := hlook lexicon hlexicon
  have hconflict : ofEntries "operator" [(.equal, ['=']), (.dot, ['.']), (.dot, ['='])] =
      .error ⟨.duplicateLiteral "operator" ['='], .nowhere⟩ :=
    ofEntries_of_conflict (by decide)
  obtain ⟨-, -, herror⟩ :=
    ofEntries_bijective "operator" [(.equal, ['=']), (.dot, ['.']), (.dot, ['='])]
  obtain ⟨i, e, hleast, he, hcause, -⟩ := herror _ hconflict
  exact ⟨⟨lexicon, hlexicon, hsize, (hfind .dot ['.']).1.mpr (by decide),
    (hfind .equal ['=']).2.1.mpr (by decide)⟩, hconflict, i, e, hleast, he, hcause⟩

end JustLang.Lexicon
