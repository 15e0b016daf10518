import SyncGrammar.Engine
import SyncGrammar.Regex.Reader
import SyncGrammar.Regex.Search

namespace SyncGrammar.Regex

def extent? (mark : Mark) (index : Nat) : Option Extent :=
  (mark.group? index).map fun (start, finish) => ⟨start, finish⟩

def captures (names : List (Text × Nat)) (found : Match) : Captures where
  whole := ⟨found.begin, found.mark.position⟩
  named := names.filterMap fun (name, index) =>
    (extent? found.mark index).map fun extent => (name, extent)

def engine : RegexEngine NamedRegex where
  escape := escape
  compile text :=
    match NamedRegex.read? text with
    | some regex => .ok regex
    | none => .error "Malformed regular expression"
  matchesIn regex text :=
    let searched := regex.regex.findAll text.toArray
    { found := searched.found.map (captures regex.names)
      failure :=
        if searched.givenUp then
          some "Error executing regex: Max limit for backtracking count exceeded"
        else none }

end SyncGrammar.Regex
