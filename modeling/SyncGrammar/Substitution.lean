import SyncGrammar.Text

/-!
Writing values in place of tokens, in one pass from left to right. An occurrence that a further
digit follows is part of another, indexed token and stays. What has been written is not read again.
-/
namespace SyncGrammar

namespace Substitution

/-- Whether `token` stands at the start of `text` and no digit follows it. -/
def startsWithToken (token text : Text) : Bool :=
  match token.isPrefixOf? text with
  | none => false
  | some [] => true
  | some (next :: _) => !next.isDigit

/-- The replacement that applies at the start of `text`: of those whose token stands there, the
first with the longest token. -/
def applicable (replacements : List (Text × Text)) (text : Text) : Option (Text × Text) :=
  Text.longestBy (·.1) (replacements.filter fun r => !r.1.isEmpty && startsWithToken r.1 text)

end Substitution

def substituteAll (replacements : List (Text × Text)) : Text → Text
  | [] => []
  | c :: rest =>
    match Substitution.applicable replacements (c :: rest) with
    | none => c :: substituteAll replacements rest
    | some (token, value) =>
      value ++ substituteAll replacements (rest.drop (token.length - 1))
termination_by text => text.length
decreasing_by
  · simp
  · simp only [List.length_drop, List.length_cons]
    omega

def substitute (token value text : Text) : Text :=
  substituteAll [(token, value)] text

end SyncGrammar
