import JustLang.Proofs.Machine.Recognition
import JustLang.Proofs.StringLiteral
import Mathlib.Algebra.Group.Nat.Even
import Mathlib.Data.List.DropRight
import Mathlib.Order.Nat

namespace JustLang.StringLiteral

variable {state last : State} {c : Char} {s t p : Text} {i : Nat}

-- How many backslashes in a row a text ends with.
def trailingBackslashes (s : Text) : Nat := (s.rtakeWhile (· = '\\')).length

-- The character with the given index is a quote that ends the literal which the text begins with,
-- if no quote before it does.
structure ClosesAt (s : Text) (i : Nat) : Prop where
  pos : 1 ≤ i
  quote : s[i]? = some '"'
  even : Even (trailingBackslashes (s.take i))
  line : '\n' ∉ s.take i

-- The text is the beginning of a literal, whose end is still to come.
structure Open (s : Text) : Prop where
  head : s[0]? = some '"'
  line : '\n' ∉ s
  not_closesAt : ∀ i, ¬ ClosesAt s i

theorem trailingBackslashes_append_singleton (s : Text) (c : Char) :
    trailingBackslashes (s ++ [c]) = if c = '\\' then trailingBackslashes s + 1 else 0 := by
  by_cases hc : c = '\\' <;> simp [trailingBackslashes, hc]

theorem ClosesAt.lt_length (h : ClosesAt s i) : i < s.length :=
  (List.getElem?_eq_some_iff.mp h.quote).1

-- What stands behind a quote has no say in whether it closes.
theorem closesAt_append (hi : i < s.length) : ClosesAt (s ++ t) i ↔ ClosesAt s i := by
  have htake : (s ++ t).take i = s.take i := List.take_append_of_le_length (Nat.le_of_lt hi)
  have hget : (s ++ t)[i]? = s[i]? := List.getElem?_append_left hi
  constructor
  · intro h
    exact ⟨h.pos, hget ▸ h.quote, htake ▸ h.even, htake ▸ h.line⟩
  · intro h
    exact ⟨h.pos, hget ▸ h.quote, htake ▸ h.even, htake ▸ h.line⟩

theorem closesAt_length_iff :
    ClosesAt (s ++ c :: t) s.length ↔
      s ≠ [] ∧ c = '"' ∧ Even (trailingBackslashes s) ∧ '\n' ∉ s := by
  have htake : (s ++ c :: t).take s.length = s := List.take_left
  have hget : (s ++ c :: t)[s.length]? = some c := by simp
  constructor
  · intro h
    exact ⟨List.length_pos_iff.mp h.pos, Option.some.inj (hget ▸ h.quote), htake ▸ h.even,
      htake ▸ h.line⟩
  · intro hright
    obtain ⟨hne, rfl, heven, hline⟩ := hright
    exact ⟨List.length_pos_iff.mpr hne, hget, htake.symm ▸ heven, htake.symm ▸ hline⟩

namespace Open

theorem ne_nil (h : Open s) : s ≠ [] := by
  rintro rfl
  cases h.head

-- An open literal stays open with one more character, unless that ends the line or closes it.
theorem append_singleton_iff (hs : s ≠ []) :
    Open (s ++ [c]) ↔ Open s ∧ c ≠ '\n' ∧ (c = '"' → ¬ Even (trailingBackslashes s)) := by
  have hhead : (s ++ [c])[0]? = s[0]? :=
    List.getElem?_append_left (List.length_pos_iff.mpr hs)
  constructor
  · intro h
    have hline : '\n' ∉ s ∧ c ≠ '\n' := by
      simpa [eq_comm] using h.line
    refine ⟨⟨hhead ▸ h.head, hline.1, fun i hi => ?_⟩, hline.2, fun hc heven => ?_⟩
    · exact h.not_closesAt i ((closesAt_append hi.lt_length).mpr hi)
    · exact h.not_closesAt s.length (closesAt_length_iff.mpr ⟨hs, hc, heven, hline.1⟩)
  · intro hright
    obtain ⟨h, hc, hquote⟩ := hright
    refine ⟨hhead ▸ h.head, by simp [h.line, Ne.symm hc], fun i hi => ?_⟩
    have hlt := hi.lt_length
    rw [List.length_append, List.length_singleton] at hlt
    rcases Nat.lt_or_eq_of_le (Nat.le_of_lt_succ hlt) with hlt | rfl
    · exact h.not_closesAt i ((closesAt_append hlt).mp hi)
    · obtain ⟨-, hc, heven, -⟩ := closesAt_length_iff.mp hi
      exact hquote hc heven

end Open

-- The machine counts the backslashes at the end of an open literal by twos.
theorem reach?_of_open (h : Open ('"' :: t)) :
    machine.reach? .body t =
      some (if Even (trailingBackslashes ('"' :: t)) then .body else .escape) := by
  induction t using List.reverseRecOn with
  | nil => rfl
  | append_singleton t c ih =>
      rw [← List.cons_append] at h ⊢
      obtain ⟨ht, hnewline, hquote⟩ := (Open.append_singleton_iff (List.cons_ne_nil _ _)).mp h
      rw [Machine.reach?_append, ih ht, trailingBackslashes_append_singleton]
      by_cases hb : c = '\\'
      · by_cases heven : Even (trailingBackslashes ('"' :: t)) <;>
          simp [heven, hb, machine, step, Nat.even_add_one]
      · by_cases heven : Even (trailingBackslashes ('"' :: t))
        · have hc : c ≠ '"' := fun hc => hquote hc heven
          simp [heven, hb, hc, hnewline, machine, step]
        · simp [heven, hb, hnewline, machine, step]

theorem open_quote : Open ['"'] where
  head := rfl
  line := by decide
  not_closesAt i h := by
    have hlt := h.lt_length
    have hpos := h.pos
    rw [List.length_singleton] at hlt
    omega

theorem step_eq_closed_iff : machine.step state c = some .closed ↔ state = .body ∧ c = '"' := by
  cases state with
  | closed => simp [machine, step]
  | start | body | escape =>
      simp only [machine, step]
      split_ifs <;> simp_all

theorem open_of_reach? (h : machine.reach? .body t = some last) (hlast : last ≠ .closed) :
    Open ('"' :: t) := by
  induction t using List.reverseRecOn generalizing last with
  | nil => exact open_quote
  | append_singleton t c ih =>
      obtain ⟨middle, hmiddle, hstep⟩ := Machine.reach?_append_singleton.mp h
      have hopen : Open ('"' :: t) := by
        refine ih hmiddle ?_
        rintro rfl
        cases hstep
      rw [reach?_of_open hopen] at hmiddle
      rw [← List.cons_append]
      refine (Open.append_singleton_iff (List.cons_ne_nil _ _)).mpr ⟨hopen, ?_, ?_⟩
      · rintro rfl
        cases hmiddle
        split at hstep <;> cases hstep
      · rintro rfl heven
        rw [if_pos heven] at hmiddle
        cases hmiddle
        cases hstep
        exact hlast rfl

-- The machine accepts the texts that an open literal becomes by the quote that closes it.
theorem reach?_start_eq_closed_iff :
    machine.reach? .start s = some .closed ↔
      ∃ p, s = p ++ ['"'] ∧ Open p ∧ Even (trailingBackslashes p) := by
  constructor
  · intro h
    cases s with
    | nil => cases h
    | cons c s =>
        obtain ⟨rfl, hbody⟩ : c = '"' ∧ machine.reach? .body s = some .closed := by
          obtain ⟨next, hnext, h⟩ := Option.bind_eq_some_iff.mp h
          by_cases hc : c = '"'
          · subst hc
            cases hnext
            exact ⟨rfl, h⟩
          · simp [machine, step, hc] at hnext
        rcases List.eq_nil_or_concat' s with rfl | ⟨t, d, rfl⟩
        · cases hbody
        · obtain ⟨middle, ht, hd⟩ := Machine.reach?_append_singleton.mp hbody
          obtain ⟨rfl, rfl⟩ := step_eq_closed_iff.mp hd
          have hopen := open_of_reach? ht (by decide)
          refine ⟨'"' :: t, rfl, hopen, ?_⟩
          by_contra heven
          rw [reach?_of_open hopen, if_neg heven] at ht
          cases ht
  · intro hright
    obtain ⟨p, rfl, hopen, heven⟩ := hright
    cases p with
    | nil => exact absurd rfl hopen.ne_nil
    | cons c p =>
        obtain rfl : c = '"' := Option.some.inj hopen.head
        have hbody : machine.reach? .body p = some .body := by
          rw [reach?_of_open hopen, if_pos heven]
        exact Machine.reach?_append_singleton.mpr ⟨.body, hbody, rfl⟩

-- A quote that closes and that no quote before it closes ends an open literal.
theorem isLeast_closesAt_iff :
    (s[0]? = some '"' ∧ IsLeast {i | ClosesAt s i} i) ↔
      ∃ p rest, s = p ++ '"' :: rest ∧ p.length = i ∧ Open p ∧ Even (trailingBackslashes p) := by
  constructor
  · intro hleft
    obtain ⟨hhead, hcloses, hleast⟩ := hleft
    have hlt := hcloses.lt_length
    have hsplit : s = s.take i ++ s[i] :: s.drop (i + 1) := by
      rw [List.getElem_cons_drop, List.take_append_drop]
    have hquote : s[i] = '"' := (List.getElem?_eq_some_iff.mp hcloses.quote).2
    have hlength : (s.take i).length = i := List.length_take_of_le (Nat.le_of_lt hlt)
    rw [hquote] at hsplit
    refine ⟨s.take i, s.drop (i + 1), hsplit, hlength, ⟨?_, hcloses.line, ?_⟩, hcloses.even⟩
    · rw [List.getElem?_take_of_lt hcloses.pos]
      exact hhead
    · intro j hj
      have hji := hj.lt_length
      have hs : ClosesAt s j := by
        rw [hsplit]
        exact (closesAt_append hji).mpr hj
      have hle : i ≤ j := hleast hs
      omega
  · intro hright
    obtain ⟨p, rest, rfl, rfl, hopen, heven⟩ := hright
    refine ⟨?_, ?_, ?_⟩
    · rw [List.getElem?_append_left (List.length_pos_iff.mpr hopen.ne_nil)]
      exact hopen.head
    · exact closesAt_length_iff.mpr ⟨hopen.ne_nil, rfl, heven, hopen.line⟩
    · intro j hj
      by_contra hlt
      exact hopen.not_closesAt j ((closesAt_append (Nat.lt_of_not_le hlt)).mp hj)

theorem mem_literals_iff : s ∈ literals ↔ machine.reach? .start s = some .closed := by
  have haccepted : machine.acceptedFrom .start = literals := acceptedFrom_eq_remaining .start
  rw [← haccepted]
  constructor
  · intro hmem
    obtain ⟨last, hlast, ha⟩ := hmem
    obtain rfl : last = .closed := by simpa [machine] using ha
    exact hlast
  · intro h
    exact ⟨.closed, h, rfl⟩

-- A match is a literal, and leaves the machine closed.
theorem recognize_eq_of_read? {w : Lexeme} (h : read? s = some w) :
    recognize s = ⟨true, w.text, .closed⟩ := by
  obtain ⟨found, hfound, rfl⟩ := Option.map_eq_some_iff.mp h
  have hstate : found.state = .closed := by
    simpa [machine] using (Machine.matches_of_matchFrom? hfound).accepting
  rw [← hstate]
  exact Machine.recognize_of_match? hfound

-- The answer is known with the closing quote.
theorem recognize_of_open (h : Open p) (heven : Even (trailingBackslashes p)) (rest : Text) :
    recognize (p ++ '"' :: rest) = ⟨true, p ++ ['"'], .closed⟩ := by
  have hliteral : p ++ ['"'] ∈ literals :=
    mem_literals_iff.mpr (reach?_start_eq_closed_iff.mpr ⟨p, rfl, h, heven⟩)
  have hp : p ++ ['"'] <+: p ++ '"' :: rest := ⟨rest, by simp⟩
  cases hread : read? (p ++ '"' :: rest) with
  | none => exact absurd hliteral (notMem_of_read?_eq_none hread hp)
  | some w =>
      have hl := longestPrefix_of_read? hread
      have hle := hl.length_le _ hp hliteral
      rw [eq_of_isPrefix hliteral hl.mem (List.prefix_of_prefix_length_le hp hl.isPrefix hle)]
      exact recognize_eq_of_read? hread

theorem exists_open_of_recognized (h : (recognize s).recognized) :
    ∃ p rest, s = p ++ '"' :: rest ∧ Open p ∧ Even (trailingBackslashes p) := by
  cases hread : read? s with
  | none =>
      have hmatch : match? s = none := Option.map_eq_none_iff.mp hread
      rw [recognize, Machine.recognize_of_match?_eq_none hmatch] at h
      cases h
  | some w =>
      have hl := longestPrefix_of_read? hread
      obtain ⟨p, htext, hopen, heven⟩ := reach?_start_eq_closed_iff.mp (mem_literals_iff.mp hl.mem)
      obtain ⟨rest, rfl⟩ := hl.isPrefix
      exact ⟨p, rest, by rw [htext, List.append_assoc]; rfl, hopen, heven⟩

theorem recognize_of_isLeast (hhead : s[0]? = some '"') (h : IsLeast {i | ClosesAt s i} i)
    (rest : Text) : recognize (s.take (i + 1) ++ rest) = ⟨true, s.take (i + 1), .closed⟩ := by
  obtain ⟨p, tail, rfl, rfl, hopen, heven⟩ := isLeast_closesAt_iff.mp ⟨hhead, h⟩
  have htake : (p ++ '"' :: tail).take (p.length + 1) = p ++ ['"'] := by
    simp [List.take_append]
  rw [htake, List.append_assoc]
  exact recognize_of_open hopen heven rest

theorem recognized_iff :
    (recognize s).recognized ↔ s[0]? = some '"' ∧ ∃ i, IsLeast {i | ClosesAt s i} i := by
  constructor
  · intro h
    obtain ⟨p, rest, hs, hopen, heven⟩ := exists_open_of_recognized h
    obtain ⟨hhead, hleast⟩ := isLeast_closesAt_iff.mpr ⟨p, rest, hs, rfl, hopen, heven⟩
    exact ⟨hhead, p.length, hleast⟩
  · intro hright
    obtain ⟨hhead, i, hleast⟩ := hright
    have hr := recognize_of_isLeast hhead hleast (s.drop (i + 1))
    rw [List.take_append_drop] at hr
    rw [hr]

-- The answer is known from the first quote that closes.
theorem exists_isLeast_of_recognized (h : (recognize s).recognized) :
    ∃ i, IsLeast {i | ClosesAt s i} i ∧ recognize s = ⟨true, s.take (i + 1), .closed⟩ ∧
      ∀ rest, recognize (s.take (i + 1) ++ rest) = recognize s := by
  obtain ⟨hhead, i, hleast⟩ := recognized_iff.mp h
  have hr := recognize_of_isLeast hhead hleast
  have hs := hr (s.drop (i + 1))
  rw [List.take_append_drop] at hs
  exact ⟨i, hleast, hs, fun rest => (hr rest).trans hs.symm⟩

-- Two answers end alike if the same quotes close.
theorem recognize_congr (hhead : s[0]? = some '"' ↔ t[0]? = some '"')
    (hcloses : ∀ i, ClosesAt s i ↔ ClosesAt t i) :
    (recognize s).recognized = (recognize t).recognized ∧
      (recognize s).text.length = (recognize t).text.length ∧
      (recognize s).state = (recognize t).state := by
  have hset : {i | ClosesAt s i} = {i | ClosesAt t i} := Set.ext hcloses
  have hiff : (recognize s).recognized ↔ (recognize t).recognized := by
    rw [recognized_iff, recognized_iff, hset, hhead]
  by_cases h : (recognize s).recognized
  · obtain ⟨i, hi, hs, -⟩ := exists_isLeast_of_recognized h
    obtain ⟨j, hj, ht, -⟩ := exists_isLeast_of_recognized (hiff.mp h)
    obtain rfl : i = j := (hset ▸ hi).unique hj
    have hlengths := List.length_take_of_le (Nat.succ_le_of_lt hi.1.lt_length)
    have hlengtht := List.length_take_of_le (Nat.succ_le_of_lt hj.1.lt_length)
    rw [hs, ht]
    exact ⟨rfl, hlengths.trans hlengtht.symm, rfl⟩
  · have hs : recognize s = ⟨false, [], .start⟩ := Machine.recognize_of_not_recognized h
    have ht : recognize t = ⟨false, [], .start⟩ :=
      Machine.recognize_of_not_recognized (mt hiff.mpr h)
    rw [hs, ht]
    exact ⟨rfl, rfl, rfl⟩

section Backslash

-- The characters that are written with a backslash before them.
def escapes : Text := ['n', 't', 'b', 'r', 'f', 'v', '0', '\\', '"']

variable {before after : Text} {d e : Char}

theorem trailingBackslashes_append_cons (hc : c ≠ '\\') (s t : Text) :
    trailingBackslashes (s ++ c :: t) = trailingBackslashes t := by
  have hstop : (decide (c = '\\')) = false := decide_eq_false hc
  simp only [trailingBackslashes, List.rtakeWhile, List.reverse_append, List.reverse_cons,
    List.append_assoc, List.singleton_append, List.length_reverse]
  rw [Text.takeWhile_append_cons hstop]

-- Behind a character that is no backslash, those before it do not count any more. So it makes no
-- difference to the closing quotes what stands before it, quotes and newlines apart.
theorem ClosesAt.replace (hc : c ≠ '"' ∧ c ≠ '\\') (hd : d ≠ '"') (he : e ≠ '\n')
    (h : ClosesAt (before ++ d :: c :: after) i) : ClosesAt (before ++ e :: c :: after) i := by
  have hquote := h.quote
  obtain hlt | rfl | rfl | ⟨j, rfl⟩ : i < before.length ∨ i = before.length ∨
      i = before.length + 1 ∨ ∃ j, i = before.length + (j + 2) := by
    by_cases hi : before.length + 2 ≤ i
    · exact .inr (.inr (.inr ⟨i - (before.length + 2), by omega⟩))
    · omega
  · exact (closesAt_append hlt).mpr ((closesAt_append hlt).mp h)
  · simp [hd] at hquote
  · simp [hc.1] at hquote
  · have htake (f : Char) : (before ++ f :: c :: after).take (before.length + (j + 2)) =
        (before ++ [f]) ++ c :: after.take j := by
      simp [List.take_append]
    have hget (f : Char) : (before ++ f :: c :: after)[before.length + (j + 2)]? = after[j]? := by
      rw [List.getElem?_append_right (Nat.le_add_right _ _), Nat.add_sub_cancel_left]
      rfl
    have heven := h.even
    have hline := h.line
    rw [htake, trailingBackslashes_append_cons hc.2] at heven
    rw [htake] at hline
    refine ⟨h.pos, ?_, ?_, ?_⟩
    · rw [hget] at hquote ⊢
      exact hquote
    · rwa [htake, trailingBackslashes_append_cons hc.2]
    · rw [htake]
      simp only [List.append_assoc, List.singleton_append, List.mem_append, List.mem_cons,
        not_or] at hline ⊢
      exact ⟨hline.1, Ne.symm he, hline.2.2⟩

end Backslash

-- A literal is found where the text begins with a quote and another one closes it. It ends with the
-- first that does, and a backslash before a character that needs none is like any other character.
theorem recognize_closing_quote (s : Text) :
    ((recognize s).recognized ↔ s[0]? = some '"' ∧ ∃ i, ClosesAt s i) ∧
    ((recognize s).recognized → ∃ i, IsLeast {i | ClosesAt s i} i ∧
      recognize s = ⟨true, s.take (i + 1), .closed⟩ ∧
      ∀ rest, recognize (s.take (i + 1) ++ rest) = recognize s) ∧
    (¬ (recognize s).recognized → recognize s = ⟨false, [], .start⟩) ∧
    ∀ before c after plain, s = before ++ '\\' :: c :: after → c ∉ escapes →
      plain ∉ ['"', '\\', '\n'] →
      (recognize s).recognized = (recognize (before ++ plain :: c :: after)).recognized ∧
      (recognize s).text.length = (recognize (before ++ plain :: c :: after)).text.length ∧
      (recognize s).state = (recognize (before ++ plain :: c :: after)).state := by
  refine ⟨?_, exists_isLeast_of_recognized, Machine.recognize_of_not_recognized, ?_⟩
  · rw [recognized_iff]
    refine and_congr_right fun _ => ⟨?_, ?_⟩
    · intro hleft
      obtain ⟨i, hi, -⟩ := hleft
      exact ⟨i, hi⟩
    · intro hright
      classical exact ⟨Nat.find hright, Nat.isLeast_find hright⟩
  · rintro before c after plain rfl hc hplain
    simp only [List.mem_cons, List.not_mem_nil, or_false, not_or] at hplain
    have hc : c ≠ '"' ∧ c ≠ '\\' := by
      constructor <;> rintro rfl <;> exact hc (by decide)
    refine recognize_congr ?_ fun i => ⟨?_, ?_⟩
    · cases before with
      | nil => simp [hplain.1]
      | cons b before => rfl
    · exact ClosesAt.replace hc (by decide) hplain.2.2
    · exact ClosesAt.replace hc hplain.1 (by decide)

end JustLang.StringLiteral
