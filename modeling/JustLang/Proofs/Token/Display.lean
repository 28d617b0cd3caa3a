import JustLang.Proofs.Lexeme.LongestMatch

namespace JustLang

namespace Text

variable {c : Char} {a b s t : Text}

-- Two texts in a row are told apart by the character that the second one begins with, if it is not
-- in the first.
theorem append_inj_of_stop (ha : c ∉ a) (hb : c ∉ b) (hs : ∀ d ∈ s.head?, d = c)
    (ht : ∀ d ∈ t.head?, d = c) (h : a ++ s = b ++ t) : a = b ∧ s = t := by
  have htake {x y : Text} (hx : c ∉ x) (hy : ∀ d ∈ y.head?, d = c) :
      (x ++ y).takeWhile (· ≠ c) = x := by
    have hall : ∀ d ∈ x, (d ≠ c : Bool) := by
      intro d hd
      exact decide_eq_true (ne_of_mem_of_not_mem hd hx)
    rw [List.takeWhile_append_of_pos hall]
    cases y with
    | nil => simp
    | cons d y => simp [hy d rfl]
  have hab : a = b := by
    rw [← htake ha hs, h, htake hb ht]
  subst hab
  exact ⟨rfl, List.append_cancel_left h⟩

end Text

namespace Token

variable {t u : Token}

-- What is shown behind the kind.
def shownText (t : Token) : Text :=
  if t.isOneOf shownKinds then " (".toList ++ t.text ++ [')'] else []

-- The text is shown, or is the only spelling of the kind.
def Legible (t : Token) : Prop := t.isOneOf shownKinds ∨ t.kind.spelling? = some t.text

theorem display_eq (t : Token) :
    t.display = Text.ofNat t.line ++ ':' :: (Text.ofNat t.column ++
      '\t' :: (t.kind.name.toList ++ t.shownText)) := by
  simp [display, shownText]

theorem head?_shownText (t : Token) : ∀ c ∈ t.shownText.head?, c = ' ' := by
  intro c hc
  unfold shownText at hc
  split at hc
  · exact (Option.some.inj hc).symm
  · cases hc

theorem space_notMem_name (kind : Kind) : ' ' ∉ kind.name.toList := by
  cases kind <;> decide

theorem text_eq (ht : t.Legible) (hu : u.Legible) (hkind : t.kind = u.kind)
    (hshown : t.shownText = u.shownText) : t.text = u.text := by
  have hshows : t.isOneOf shownKinds = u.isOneOf shownKinds := by
    rw [isOneOf, isOneOf, hkind]
  by_cases h : t.isOneOf shownKinds
  · rw [shownText, shownText, if_pos h, if_pos (hshows ▸ h)] at hshown
    simpa using hshown
  · have hspelling := ht.resolve_left h
    rw [hkind, hu.resolve_left (hshows ▸ h)] at hspelling
    exact (Option.some.inj hspelling).symm

-- No number holds the character that ends it, and no name of a kind holds a space.
theorem display_inj (ht : t.Legible) (hu : u.Legible) (h : t.display = u.display) : t = u := by
  have hstop {c : Char} {s : Text} : ∀ d ∈ (c :: s).head?, d = c := fun d hd =>
    (Option.some.inj hd).symm
  have hline (n : Nat) : ':' ∉ Text.ofNat n := Text.notMem_ofNat (by decide) n
  have hcolumn (n : Nat) : '\t' ∉ Text.ofNat n := Text.notMem_ofNat (by decide) n
  rw [display_eq, display_eq] at h
  obtain ⟨hl, h⟩ := Text.append_inj_of_stop (hline _) (hline _) hstop hstop h
  obtain ⟨hc, h⟩ :=
    Text.append_inj_of_stop (hcolumn _) (hcolumn _) hstop hstop (List.cons.inj h).2
  obtain ⟨hname, hshown⟩ := Text.append_inj_of_stop (space_notMem_name _) (space_notMem_name _)
    t.head?_shownText u.head?_shownText (List.cons.inj h).2
  have hkind := Kind.name_injective (String.toList_injective hname)
  have htext := text_eq ht hu hkind hshown
  obtain ⟨⟨kind, text⟩, line, column⟩ := t
  obtain ⟨⟨kind', text'⟩, line', column'⟩ := u
  obtain rfl : kind = kind' := hkind
  obtain rfl : text = text' := htext
  obtain rfl : line = line' := Text.ofNat_inj hl
  obtain rfl : column = column' := Text.ofNat_inj hc
  rfl

theorem spelling?_eq_of_mem {kind : Kind} {s : Text}
    (h : (kind, s) ∈ Vocabulary.punctuation ++ Vocabulary.keywords.entries) :
    kind.spelling? = some s := by
  have hall : ∀ e ∈ Vocabulary.punctuation ++ Vocabulary.keywords.entries,
      e.1.spelling? = some e.2 := by decide
  exact hall _ h

-- The kinds whose text is not shown are those of the fixed words.
theorem legible_of_hasKind (h : Lexeme.HasKind t.text t.kind) : t.Legible := by
  obtain ⟨⟨kind, text⟩, line, column⟩ := t
  cases h with
  | integer | decimal | string | identifier => exact .inl rfl
  | registered hs => exact .inr (spelling?_eq_of_mem (List.mem_append.mpr (.inl hs)))
  | keyword _ hk => exact .inr (spelling?_eq_of_mem (List.mem_append.mpr (.inr hk)))

end Token

end JustLang
