import SyncGrammar.Text

namespace SyncGrammar.Unicode

def inRanges (code : Nat) : List (Nat × Nat) → Bool
  | [] => false
  | (first, last) :: rest => first ≤ code && (code ≤ last || inRanges code rest)

end SyncGrammar.Unicode
