import SyncGrammar.Config.Reader

namespace SyncGrammar.TranslatorConfig

def eightDigits (n : Nat) : Text :=
  let digits := Nat.toDigits 16 n
  List.replicate (8 - digits.length) '0' ++ digits

def quotedChar (c : Char) : Text :=
  if c = '"' ∨ c = '\\' then ['\\', c]
  else if ' ' ≤ c ∧ c ≤ '~' then [c]
  else ['\\', 'U'] ++ eightDigits c.toNat

def renderEntry (key value : Text) : Text :=
  key ++ [':', ' '] ++ value ++ ['\n']

def render (config : TranslatorConfig) : Text :=
  renderEntry directionsKey config.directions.name ++
    renderEntry wildcardKey (['"'] ++ config.wildcard.flatMap quotedChar ++ ['"']) ++
    renderEntry traceKey
      (if config.trace then ['t', 'r', 'u', 'e'] else ['f', 'a', 'l', 's', 'e'])

end SyncGrammar.TranslatorConfig
