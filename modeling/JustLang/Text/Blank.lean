import JustLang.Text.CharSet

namespace JustLang.Text

-- White space in the sense of the Unicode property `White_Space`.
def blanks : CharSet :=
  [(0x0009, 0x000D), (0x0020, 0x0020), (0x0085, 0x0085), (0x00A0, 0x00A0), (0x1680, 0x1680),
   (0x2000, 0x200A), (0x2028, 0x2029), (0x202F, 0x202F), (0x205F, 0x205F), (0x3000, 0x3000)]

def isBlank (c : Char) : Bool := blanks.contains c

-- The text up to its last character that is no white space.
def trimEnd (s : Text) : Text := (s.reverse.dropWhile isBlank).reverse

theorem trimEnd_append_blanks {s t : Text} (h : ∀ c ∈ t, isBlank c) :
    trimEnd (s ++ t) = trimEnd s := by
  simp only [trimEnd, List.reverse_append]
  rw [List.dropWhile_append_of_pos fun c hc => h c (List.mem_reverse.mp hc)]

end JustLang.Text
