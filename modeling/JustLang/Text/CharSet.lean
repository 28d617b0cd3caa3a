import JustLang.Text

namespace JustLang.Text

-- Each range is given by its two ends, which belong to it.
abbrev CharSet := List (Nat × Nat)

def CharSet.contains (ranges : CharSet) (c : Char) : Bool :=
  ranges.any fun range => range.1 ≤ c.toNat && c.toNat ≤ range.2

end JustLang.Text
