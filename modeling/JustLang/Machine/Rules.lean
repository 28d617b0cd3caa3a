import JustLang.Machine

namespace JustLang.Machine

variable {σ : Type} [DecidableEq σ]

structure Rule (σ : Type) where
  source : σ
  -- The rule reads any character if none are listed.
  characters? : Option Text
  target : σ

def Rule.applies (rule : Rule σ) (state : σ) (c : Char) : Bool :=
  rule.source = state && rule.characters?.all (·.contains c)

-- Of the rules that apply to a character, the first is taken.
def ofRules (start : σ) (rules : List (Rule σ)) (accepting final : List σ) : Machine σ where
  start := start
  step state c := (rules.find? (·.applies state c)).map Rule.target
  accepting state := accepting.contains state
  final state := final.contains state

end JustLang.Machine
