import SyncGrammar.Grammar.UnitCycle
import SyncGrammar.Trace
import SyncGrammar.Worklist.CompletedSet
import SyncGrammar.Worklist.ResultStack
import SyncGrammar.Worklist.Waitlist

/-!
The way up. Derivations are taken from the stack and resolved one binding at a time. A terminal
token is replaced by the text bound to it. A nonterminal token is replaced by the sides of each
completed derivation of the bound text as that token, and by those of derivations that complete
later, for which the derivation waits. A derivation without bindings is complete.

There is one exception to waiting: where the bound text is as long as the whole text and the token's
nonterminal is on a unit cycle, only what is already complete is used. Without it the way up would
not end.
-/
namespace SyncGrammar

structure Upward where
  stack : ResultStack Derivation
  completed : CompletedSet
  waitlist : Waitlist
  /-- What has happened, the latest event in front. -/
  events : List TraceEvent
  deriving DecidableEq

namespace Upward

def start (stack : ResultStack Derivation) (events : List TraceEvent) : Upward :=
  ⟨stack, ∅, ∅, events⟩

def completedNote (key : DerivationKey) : TraceEvent :=
  .note ("completed " ++ String.ofList key.render)

/-- Takes in a derivation without bindings. If it is new, those that wait for it go on. -/
def complete (state : Upward) (key : DerivationKey) : Upward :=
  if state.completed.contains key then state
  else
    { state with
      stack := state.stack.pushAll (state.waitlist.wake key)
      completed := state.completed.insert key
      events := completedNote key :: state.events }

/-- Whether a derivation of `subtext` waits for further derivations of `value` as `token`. -/
def waits (grammar : Grammar) (cycles : List Text) (subtext token value : Text) : Bool :=
  value.byteLength < subtext.byteLength ||
    !(grammar.nonterminalName? token).any (cycles.contains ·)

/-- Resolves the binding of `token` to `value` in a derivation, after which `rest` remains. -/
def resolve (grammar : Grammar) (cycles : List Text) (state : Upward) (derivation : Derivation)
    (token value : Text) (rest : Assignment) : Upward :=
  if grammar.hasNonterminal token then
    let done := (state.completed.lookup value token).map fun key =>
      derivation.resolve token key.source key.target rest
    let stack := state.stack.pushAll done
    if waits grammar cycles derivation.key.subtext token value then
      { state with stack, waitlist := state.waitlist.wait ⟨value, token, ⟨derivation.key, rest⟩⟩ }
    else { state with stack }
  else { state with stack := state.stack.push (derivation.resolve token value value rest) }

def step (grammar : Grammar) (cycles : List Text) (state : Upward) : Option Upward :=
  match state.stack.pop? with
  | none => none
  | some (derivation, stack) =>
    match derivation.assignment.splitFirst? with
    | none => some (complete { state with stack } derivation.key)
    | some ((token, value), rest) =>
      some (resolve grammar cycles { state with stack } derivation token value rest)

def summaryNote (state : Upward) : TraceEvent :=
  .note (toString state.completed.size ++ " completed, " ++ toString state.waitlist.size ++
    " waiting")

end Upward

end SyncGrammar
