import SyncGrammar.Derivation.Basic

namespace SyncGrammar

/-- A derivation that waits until `subtext`, read as `token`, has a derivation. Its assignment is
what remains to be resolved after that token. -/
structure Waiting where
  subtext : Text
  token : Text
  derivation : Derivation
  deriving DecidableEq, Repr

namespace Waiting

def isFor (waiting : Waiting) (completed : DerivationKey) : Bool :=
  waiting.subtext = completed.subtext ∧ waiting.token = completed.token

def resume (waiting : Waiting) (completed : DerivationKey) : Derivation :=
  waiting.derivation.resolve waiting.token completed.source completed.target
    waiting.derivation.assignment

end Waiting

/-- Derivations that wait for others. They stay, for more derivations may complete later. -/
structure Waitlist where
  /-- The waiting derivations, the one that has waited longest in front. -/
  entries : List Waiting
  deriving DecidableEq, Repr

namespace Waitlist

def empty : Waitlist := ⟨[]⟩

instance : EmptyCollection Waitlist := ⟨empty⟩

instance : Inhabited Waitlist := ⟨empty⟩

def wait (waitlist : Waitlist) (waiting : Waiting) : Waitlist :=
  ⟨waitlist.entries ++ [waiting]⟩

/-- The derivations that a completed one lets go on. -/
def wake (waitlist : Waitlist) (completed : DerivationKey) : List Derivation :=
  (waitlist.entries.filter (·.isFor completed)).map (·.resume completed)

def size (waitlist : Waitlist) : Nat :=
  waitlist.entries.length

theorem mem_wake {waitlist : Waitlist} {completed : DerivationKey} {derivation : Derivation} :
    derivation ∈ waitlist.wake completed ↔
      ∃ waiting ∈ waitlist.entries, waiting.isFor completed = true ∧
        waiting.resume completed = derivation := by
  simp [wake, and_assoc]

theorem wake_wait (waitlist : Waitlist) (waiting : Waiting) (completed : DerivationKey) :
    (waitlist.wait waiting).wake completed =
      waitlist.wake completed ++
        if waiting.isFor completed then [waiting.resume completed] else [] := by
  unfold wake wait
  rw [List.filter_append, List.map_append, List.filter_cons]
  split <;> rfl

end Waitlist

end SyncGrammar
