import JustLang.Diagnostic
import JustLang.Token.Kind

namespace JustLang

-- Neither a kind nor a spelling occurs twice, so each determines the other.
structure Lexicon where
  name : String
  entries : List (Kind × Text)
  kinds_nodup : (entries.map Prod.fst).Nodup
  spellings_nodup : (entries.map Prod.snd).Nodup

namespace Lexicon

-- What is wrong with the first entry that repeats a spelling or a kind of an earlier one. A
-- repeated spelling is reported before a repeated kind.
def conflict? (table : String) (earlier : List (Kind × Text)) :
    List (Kind × Text) → Option Cause
  | [] => none
  | (kind, spelling) :: rest =>
      if spelling ∈ earlier.map Prod.snd then some (.duplicateLiteral table spelling)
      else if kind ∈ earlier.map Prod.fst then some (.duplicateKind table kind.name)
      else conflict? table ((kind, spelling) :: earlier) rest

theorem nodup_of_conflict?_eq_none {table : String} {earlier entries : List (Kind × Text)}
    (h : conflict? table earlier entries = none) :
    (entries.map Prod.fst).Nodup ∧ (entries.map Prod.snd).Nodup ∧
      (∀ e ∈ entries, e.1 ∉ earlier.map Prod.fst ∧ e.2 ∉ earlier.map Prod.snd) := by
  induction entries generalizing earlier with
  | nil => simp
  | cons e rest ih =>
      obtain ⟨kind, spelling⟩ := e
      simp only [conflict?] at h
      split at h
      · cases h
      · next hspelling =>
          split at h
          · cases h
          · next hkind =>
              obtain ⟨hk, hl, hnew⟩ := ih h
              simp only [List.map_cons, List.mem_cons, not_or] at hnew
              refine ⟨List.nodup_cons.mpr ⟨?_, hk⟩, List.nodup_cons.mpr ⟨?_, hl⟩, ?_⟩
              · rintro hm
                obtain ⟨e, he, rfl⟩ := List.mem_map.mp hm
                exact (hnew e he).1.1 rfl
              · rintro hm
                obtain ⟨e, he, rfl⟩ := List.mem_map.mp hm
                exact (hnew e he).2.1 rfl
              · intro e he
                rcases List.mem_cons.mp he with rfl | he
                · exact ⟨hkind, hspelling⟩
                · exact ⟨(hnew e he).1.2, (hnew e he).2.2⟩

-- The lexicon of the entries in their order, or the first conflict among them.
def ofEntries (name : String) (entries : List (Kind × Text)) : Except Diagnostic Lexicon :=
  match h : conflict? name [] entries with
  | some cause => .error ⟨cause, .nowhere⟩
  | none =>
      .ok ⟨name, entries, (nodup_of_conflict?_eq_none h).1, (nodup_of_conflict?_eq_none h).2.1⟩

def kind? (lexicon : Lexicon) (spelling : Text) : Option Kind :=
  (lexicon.entries.find? (·.2 = spelling)).map Prod.fst

def spelling? (lexicon : Lexicon) (kind : Kind) : Option Text :=
  (lexicon.entries.find? (·.1 = kind)).map Prod.snd

def contains (lexicon : Lexicon) (spelling : Text) : Bool :=
  lexicon.entries.any (·.2 = spelling)

def size (lexicon : Lexicon) : Nat := lexicon.entries.length

end Lexicon

end JustLang
