import SyncGrammar.Grammar.Reader

/-!
Grammars and configurations come from files. A path leads to the bytes of a file, to a directory or
to nothing; only bytes that are valid UTF-8 are a text.
-/
namespace SyncGrammar

inductive Source
  | file (bytes : ByteArray)
  | directory
  | missing

namespace Source

/-- What a path leads to when no file is there: a path that only names the directory itself or
directories above it leads to a directory, any other to nothing. -/
def ofPath (path : String) : Source :=
  if path ≠ "" ∧ (path.splitOn "/").all (["", ".", ".."].contains ·) then directory else missing

def text (path : String) : Source → Except ConfigurationError Text
  | file bytes =>
    match String.fromUTF8? bytes with
    | some content => .ok content.toList
    | none => .error (.unreadable path .invalidEncoding)
  | directory => .error (.unreadable path .isDirectory)
  | missing => .error (.unreadable path .notFound)

end Source

def Grammar.load (path : String) (source : Source) : Except ConfigurationError Grammar := do
  Grammar.read (← source.text path)

end SyncGrammar
