import SyncGrammar.Proofs.WayDown
import SyncGrammar.Proofs.WayUp

/-!
What a grammar derives, without queue, stack or waiting. A rule of a token whose source is entailed
gives the two sides of a key, in which the bindings are then replaced in order: a terminal token by
its value, a nonterminal one by the sides of a derivation of its value. The way up completes such
keys only, and it completes each of them that can be built from children that are timely.
-/
namespace SyncGrammar

/-- Replaces the bindings of a derivation in order. The children that nonterminal tokens are
replaced by are known, and `admits` allows each of them in its place. -/
inductive Resolves (grammar : Grammar) (admits : Derivation → DerivationKey → Prop)
    (known : DerivationKey → Prop) : Derivation → DerivationKey → Prop
  | done {key : DerivationKey} : Resolves grammar admits known ⟨key, ⟨[]⟩⟩ key
  | terminal {key result : DerivationKey} {token value : Text} {rest : List (Text × Text)}
      (isTerminal : grammar.hasNonterminal token = false)
      (onward : Resolves grammar admits known ⟨key.substituted token value value, ⟨rest⟩⟩ result) :
      Resolves grammar admits known ⟨key, ⟨(token, value) :: rest⟩⟩ result
  | nonterminal {key child result : DerivationKey} {rest : List (Text × Text)}
      (isNonterminal : grammar.hasNonterminal child.token = true) (below : known child)
      (admitted : admits ⟨key, ⟨(child.token, child.subtext) :: rest⟩⟩ child)
      (onward : Resolves grammar admits known
        ⟨key.substituted child.token child.source child.target, ⟨rest⟩⟩ result) :
      Resolves grammar admits known ⟨key, ⟨(child.token, child.subtext) :: rest⟩⟩ result

/-- The least set of keys that holds each result of resolving an entailed rule by keys that it
holds, as far as `admits` allows. -/
inductive DerivesWith (grammar : Grammar) (entailment : Entailment) (direction : Direction)
    (admits : Derivation → DerivationKey → Prop) : DerivationKey → Prop
  | entailed {subtext token : Text} {production : Production} {answers : List Assignment}
      {assignment : Assignment} {result : DerivationKey}
      (rule : production ∈ grammar.orientedRules direction token)
      (answer : entailment subtext production.source = .ok answers)
      (entails : assignment ∈ answers)
      (resolves : Resolves grammar admits (DerivesWith grammar entailment direction admits)
        ⟨.ofProduction subtext token production, assignment⟩ result) :
      DerivesWith grammar entailment direction admits result

/-- The keys that a grammar derives, whatever the order in which they are found. -/
def Derives (grammar : Grammar) (entailment : Entailment) (direction : Direction) :
    DerivationKey → Prop :=
  DerivesWith grammar entailment direction fun _ _ => True

variable {grammar : Grammar} {entailment : Entailment} {direction : Direction} {text : Text}
  {admits : Derivation → DerivationKey → Prop}

theorem Resolves.subtext_eq {known : DerivationKey → Prop} {item : Derivation}
    {result : DerivationKey} (resolves : Resolves grammar admits known item result) :
    result.subtext = item.key.subtext := by
  induction resolves with
  | done => rfl
  | terminal _ _ ih => exact ih
  | nonterminal _ _ _ _ ih => exact ih

theorem Resolves.token_eq {known : DerivationKey → Prop} {item : Derivation}
    {result : DerivationKey} (resolves : Resolves grammar admits known item result) :
    result.token = item.key.token := by
  induction resolves with
  | done => rfl
  | terminal _ _ ih => exact ih
  | nonterminal _ _ _ _ ih => exact ih

theorem DerivesWith.induct (ofKey : DerivationKey → Prop)
    (ofItem : Derivation → DerivationKey → Prop)
    (entailed : ∀ subtext token production answers assignment result,
      production ∈ grammar.orientedRules direction token →
      entailment subtext production.source = .ok answers → assignment ∈ answers →
      ofItem ⟨.ofProduction subtext token production, assignment⟩ result → ofKey result)
    (done : ∀ key, ofItem ⟨key, ⟨[]⟩⟩ key)
    (terminal : ∀ key result token value rest, grammar.hasNonterminal token = false →
      ofItem ⟨key.substituted token value value, ⟨rest⟩⟩ result →
      ofItem ⟨key, ⟨(token, value) :: rest⟩⟩ result)
    (nonterminal : ∀ (key child result : DerivationKey) rest,
      grammar.hasNonterminal child.token = true → ofKey child →
      admits ⟨key, ⟨(child.token, child.subtext) :: rest⟩⟩ child →
      ofItem ⟨key.substituted child.token child.source child.target, ⟨rest⟩⟩ result →
      ofItem ⟨key, ⟨(child.token, child.subtext) :: rest⟩⟩ result)
    {key : DerivationKey} (derives : DerivesWith grammar entailment direction admits key) :
    ofKey key :=
  @DerivesWith.rec grammar entailment direction admits (fun key _ => ofKey key)
    (fun item result _ => ofItem item result)
    (fun rule answer entails _ resolved => entailed _ _ _ _ _ _ rule answer entails resolved)
    (fun {key} => done key)
    (fun isTerminal _ resolved => terminal _ _ _ _ _ isTerminal resolved)
    (fun isNonterminal _ admitted _ below resolved =>
      nonterminal _ _ _ _ isNonterminal below admitted resolved)
    key derives

theorem DerivesWith.mono {others : Derivation → DerivationKey → Prop} {key : DerivationKey}
    (derives : DerivesWith grammar entailment direction admits key)
    (weaker : ∀ item child, admits item child → others item child) :
    DerivesWith grammar entailment direction others key := by
  refine derives.induct (DerivesWith grammar entailment direction others)
    (Resolves grammar others (DerivesWith grammar entailment direction others)) ?_ ?_ ?_ ?_
  · intro subtext token production answers assignment result rule answer entails resolves
    exact .entailed rule answer entails resolves
  · intro key
    exact .done
  · intro key result token value rest isTerminal onward
    exact .terminal isTerminal onward
  · intro key child result rest isNonterminal below admitted onward
    exact .nonterminal isNonterminal below (weaker _ _ admitted) onward

theorem derives_of_derivesWith {key : DerivationKey}
    (derives : DerivesWith grammar entailment direction admits key) :
    Derives grammar entailment direction key :=
  derives.mono fun _ _ _ => trivial

namespace Upward

variable {cycles : List Text} {down : Downward} {events upEvents : List TraceEvent}

/-- Whatever is completed at any time on the way up is derived from timely children. -/
theorem derivesWith_of_completed {state : Upward}
    (ends : EndsIn (Downward.step grammar entailment direction)
      (.start grammar direction text events) down)
    (succeeded : down.failure = none)
    (reached : Reaches (step grammar cycles) (.start down.stack upEvents) state)
    {key : DerivationKey} (completed : key ∈ state.completed.keys) :
    DerivesWith grammar entailment direction
      (Timely grammar cycles (.start down.stack upEvents)) key := by
  let admits := Timely grammar cycles (.start down.stack upEvents)
  let known := DerivesWith grammar entailment direction admits
  -- an item is sound if everything that it can be resolved to is derived
  let sound (item : Derivation) : Prop :=
    ∀ result, Resolves grammar admits known item result → known result
  have holds : Holds grammar cycles sound known state := by
    refine holds_of_reaches ?_ ?_ ?_ ?_ reached
    · intro item member result resolves
      obtain ⟨demanded, answers, answer, entails⟩ :=
        (Downward.mem_stack_iff ends succeeded item).mp member
      obtain ⟨key, assignment⟩ := item
      cases demanded with
      | root rule => exact .entailed rule answer entails resolves
      | child _ _ _ _ rule => exact .entailed rule answer entails resolves
    · intro key resolved
      exact resolved key .done
    · intro key token value rest before isTerminal result resolves
      exact before result (.terminal isTerminal resolves)
    · intro key child rest before below isNonterminal timely result resolves
      exact before result (.nonterminal isNonterminal below timely resolves)
  exact holds.keys key completed

def ClassDemanded (grammar : Grammar) (entailment : Entailment) (direction : Direction)
    (text subtext token : Text) : Prop :=
  ∀ production ∈ grammar.orientedRules direction token,
    Downward.Demanded grammar entailment direction text (.ofProduction subtext token production)

theorem classDemanded_of_taken {item : Derivation}
    (ends : EndsIn (Downward.step grammar entailment direction)
      (.start grammar direction text events) down)
    (succeeded : down.failure = none)
    (taken : Taken grammar cycles (.start down.stack upEvents) item) :
    ∀ binding ∈ item.assignment.bindings,
      ClassDemanded grammar entailment direction text binding.2 binding.1 := by
  let demanded (item : Derivation) : Prop := ∀ binding ∈ item.assignment.bindings,
    ClassDemanded grammar entailment direction text binding.2 binding.1
  obtain ⟨state, reached, top⟩ := taken
  have holds : Holds grammar cycles demanded (fun _ => True) state := by
    refine holds_of_reaches ?_ ?_ ?_ ?_ reached
    · intro item member binding bound production rule
      obtain ⟨parent, answers, answer, entails⟩ :=
        (Downward.mem_stack_iff ends succeeded item).mp member
      exact parent.child answer entails bound rule
    · intro key _
      trivial
    · intro key token value rest before _ binding bound
      exact before binding (List.mem_cons_of_mem _ bound)
    · intro key child rest before _ _ _ binding bound
      exact before binding (List.mem_cons_of_mem _ bound)
  exact holds.items item (List.mem_of_mem_head? top)

/-- When the way up has ended, what is derived from timely children is completed, wherever the way
down has led. -/
theorem completed_of_derivesWith {last : Upward}
    (ends : EndsIn (Downward.step grammar entailment direction)
      (.start grammar direction text events) down)
    (succeeded : down.failure = none)
    (ended : EndsIn (step grammar cycles) (.start down.stack upEvents) last)
    {key : DerivationKey}
    (derives : DerivesWith grammar entailment direction
      (Timely grammar cycles (.start down.stack upEvents)) key)
    (demanded : ClassDemanded grammar entailment direction text key.subtext key.token) :
    key ∈ last.completed.keys := by
  have kept := derives.induct
    (fun key => ClassDemanded grammar entailment direction text key.subtext key.token →
      key ∈ last.completed.keys)
    (fun item result => (result.subtext = item.key.subtext ∧ result.token = item.key.token) ∧
      (Taken grammar cycles (.start down.stack upEvents) item → result ∈ last.completed.keys))
    ?_ ?_ ?_ ?_
  · exact kept demanded
  · intro subtext token production answers assignment result rule answer entails resolved demanded
    obtain ⟨⟨rfl, rfl⟩, completes⟩ := resolved
    apply completes
    apply taken_of_mem ended .refl
    exact (Downward.mem_stack_iff ends succeeded _).mpr
      ⟨demanded production rule, answers, answer, entails⟩
  · intro key
    exact ⟨⟨rfl, rfl⟩, completed_of_taken ended⟩
  · intro key result token value rest isTerminal resolved
    exact ⟨resolved.1, fun taken => resolved.2 (taken_terminal ended taken isTerminal)⟩
  · intro key child result rest isNonterminal below timely resolved
    refine ⟨resolved.1, fun taken => resolved.2 ?_⟩
    have asked := classDemanded_of_taken ends succeeded taken _ List.mem_cons_self
    exact taken_nonterminal ended taken isNonterminal (below asked) timely

end Upward

end SyncGrammar
