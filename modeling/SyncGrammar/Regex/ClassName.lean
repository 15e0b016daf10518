import SyncGrammar.Regex.CharClass
import SyncGrammar.Unicode.Property

namespace SyncGrammar.CharClass

def ascii : CharClass := range '\x00' '\x7f'

def lowercase : CharClass := range 'a' 'z'

def uppercase : CharClass := range 'A' 'Z'

def digit : CharClass := range '0' '9'

def alphanumeric : CharClass := union (union lowercase uppercase) digit

def graphic : CharClass := range '!' '~'

def asciiClasses : List (String × CharClass) :=
  [("alnum", alphanumeric), ("alpha", union lowercase uppercase), ("ascii", ascii),
    ("blank", union (single '\t') (single ' ')),
    ("cntrl", union (range '\x00' '\x1f') (single '\x7f')), ("digit", digit), ("graph", graphic),
    ("lower", lowercase), ("print", union (single ' ') graphic),
    ("punct", difference graphic alphanumeric),
    ("space", union (range '\t' '\r') (single ' ')), ("upper", uppercase),
    ("word", union alphanumeric (single '_')), ("xdigit", hexDigit)]

def ofTables (tables : List (List (Nat × Nat))) : CharClass :=
  (tables.map ranges).foldl union nothing

/-- The characters of a general category. Those of no category at all are unassigned, and together
with the categories of controls they are the others. -/
def ofCategory? (name : Text) : Option CharClass :=
  let categories (chosen : String → Bool) :=
    ofTables (Unicode.rangesOf Unicode.categoryTables chosen)
  if Unicode.isListed name "Any" then some all
  else if Unicode.isListed name "ASCII" then some ascii
  else if Unicode.isListed name "Assigned" then some (categories fun _ => true)
  else if Unicode.isListed name "Cn Unassigned" then some (complement (categories fun _ => true))
  else if Unicode.isListed name "C Other" then
    some (complement (categories fun names => !names.startsWith "C"))
  else if Unicode.isListed name "Cs Surrogate" then some nothing
  else (Unicode.category? name).map ofTables

def ofName? (name : Text) : Option CharClass :=
  ((Unicode.property? name).map ofTables).or
    ((ofCategory? name).or ((Unicode.script? name).map ofTables))

def ofValue? (property value : Text) : Option CharClass :=
  if Unicode.isListed property "gc General_Category" then ofCategory? value
  else if Unicode.isListed property "sc Script" then (Unicode.script? value).map ofTables
  else none

def ofUnicode? (text : Text) : Option CharClass :=
  let before := text.takeWhile fun c => c ≠ ':' ∧ c ≠ '='
  match text.drop before.length with
  | [] => ofName? text
  | _ :: value =>
    match before.getLast? with
    | some '!' => (ofValue? before.dropLast value).map complement
    | _ => ofValue? before value

end SyncGrammar.CharClass
