import SyncGrammar.Config.Basic
import SyncGrammar.Config.Document
import SyncGrammar.Source

/-!
Reading the settings of a translator from a document. Each setting stands under its own key and may
be left out; a key that is unknown or stands there twice is an error, and so is an empty wildcard.
-/
namespace SyncGrammar

namespace Directions

def name : Directions → Text
  | both => ['b', 'o', 't', 'h']
  | forwardOnly => ['f', 'o', 'r', 'w', 'a', 'r', 'd', '-', 'o', 'n', 'l', 'y']
  | backwardOnly => ['b', 'a', 'c', 'k', 'w', 'a', 'r', 'd', '-', 'o', 'n', 'l', 'y']

def ofName? (text : Text) : Option Directions :=
  [both, forwardOnly, backwardOnly].find? (·.name = text)

end Directions

namespace TranslatorConfig

def directionsKey : Text := ['d', 'i', 'r', 'e', 'c', 't', 'i', 'o', 'n', 's']

def wildcardKey : Text := ['w', 'i', 'l', 'd', 'c', 'a', 'r', 'd']

def traceKey : Text := ['t', 'r', 'a', 'c', 'e']

def flag? (scalar : Document.Scalar) : Option Bool :=
  if scalar.quoted then none
  else
    [(['t', 'r', 'u', 'e'], true), (['T', 'r', 'u', 'e'], true), (['T', 'R', 'U', 'E'], true),
      (['f', 'a', 'l', 's', 'e'], false), (['F', 'a', 'l', 's', 'e'], false),
      (['F', 'A', 'L', 'S', 'E'], false)].lookup scalar.text

def withEntry (config : TranslatorConfig) (entry : DocumentEntry) : Option TranslatorConfig :=
  if entry.key = directionsKey then
    (Directions.ofName? entry.value.text).map fun directions => { config with directions }
  else if entry.key = wildcardKey then some { config with wildcard := entry.value.text }
  else if entry.key = traceKey then (flag? entry.value).map fun trace => { config with trace }
  else none

def ofEntries? (entries : List DocumentEntry) : Option TranslatorConfig :=
  if (entries.map (·.key)).Nodup then entries.foldlM withEntry standard else none

def read (format : DocumentFormat) (text : Text) : Except ConfigurationError TranslatorConfig :=
  match format.entries text with
  | .error reason => .error (.invalidDocument (.malformed reason))
  | .ok entries =>
    match ofEntries? entries with
    | none => .error (.invalidDocument (.malformed (format.complaint entries)))
    | some config =>
      if config.wildcard.isEmpty then .error (.invalidDocument .emptyWildcard) else .ok config

def load (format : DocumentFormat) (path : String) (source : Source) :
    Except ConfigurationError TranslatorConfig := do
  read format (← source.text path)

end TranslatorConfig

end SyncGrammar
