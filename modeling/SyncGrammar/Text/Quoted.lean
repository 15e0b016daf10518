import SyncGrammar.Unicode.Unprintable

namespace SyncGrammar.Text

def escapedCode (c : Char) : Text :=
  ['\\', 'u', '\x7b'] ++ Nat.toDigits 16 c.toNat ++ ['\x7d']

def escapedChar (c : Char) : Text :=
  if c = '\x00' then ['\\', '0']
  else if c = '\t' then ['\\', 't']
  else if c = '\n' then ['\\', 'n']
  else if c = '\r' then ['\\', 'r']
  else if c = '"' ∨ c = '\\' then ['\\', c]
  else if Unicode.isUnprintable c then escapedCode c
  else [c]

def quoted (text : Text) : Text :=
  '"' :: text.flatMap escapedChar ++ ['"']

end SyncGrammar.Text
