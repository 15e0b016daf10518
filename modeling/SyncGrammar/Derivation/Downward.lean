import SyncGrammar.Derivation.Basic
import SyncGrammar.Entailment
import SyncGrammar.Trace
import SyncGrammar.Worklist.DedupQueue
import SyncGrammar.Worklist.ResultStack

/-!
The way down. It starts with one key for each rule of the root, covering the whole text. Each key
taken from the queue asks whether its text satisfies its source; each assignment in the answer is a
derivation to be resolved later, and each nonterminal token that it binds leads to further keys, one
for each rule of that nonterminal, covering the bound text. The queue takes no key twice.
-/
namespace SyncGrammar

structure Downward where
  queue : DedupQueue DerivationKey
  stack : ResultStack Derivation
  /-- What ended the way down early, if anything did. -/
  failure : Option TranslateError
  /-- What has happened, the latest event in front. -/
  events : List TraceEvent
  deriving DecidableEq

namespace Downward

/-- The keys of the rules of a token, covering `subtext`. -/
def demands (grammar : Grammar) (direction : Direction) (subtext token : Text) :
    List DerivationKey :=
  (grammar.orientedRules direction token).map (.ofProduction subtext token)

def childDemands (grammar : Grammar) (direction : Direction) (assignment : Assignment) :
    List DerivationKey :=
  assignment.bindings.flatMap fun binding => demands grammar direction binding.2 binding.1

def start (grammar : Grammar) (direction : Direction) (text : Text) (events : List TraceEvent) :
    Downward :=
  ⟨DedupQueue.empty.addAll (demands grammar direction text grammar.root), ∅, none, events⟩

/-- Takes in one assignment under which the text of a key satisfies its source. -/
def expand (grammar : Grammar) (direction : Direction) (key : DerivationKey) (state : Downward)
    (assignment : Assignment) : Downward :=
  { state with
    queue := state.queue.addAll (childDemands grammar direction assignment)
    stack := state.stack.push ⟨key, assignment⟩ }

def entailsNote (key : DerivationKey) (count : Nat) : TraceEvent :=
  .note (String.ofList key.render ++ " entails " ++ toString count ++ " time(s)")

def step (grammar : Grammar) (entailment : Entailment) (direction : Direction) (state : Downward) :
    Option Downward :=
  match state.failure, state.queue.remove? with
  | none, some (key, queue) =>
    match entailment key.subtext key.source with
    | .error failure => some { state with queue, failure := some failure }
    | .ok [] => some { state with queue }
    | .ok assignments =>
      some <| assignments.foldl (expand grammar direction key)
        { state with
          queue
          events := entailsNote key assignments.length :: state.events }
  | _, _ => none

def queuedNote (state : Downward) : TraceEvent :=
  .note (toString state.queue.seen ++ " distinct items queued")

end Downward

end SyncGrammar
