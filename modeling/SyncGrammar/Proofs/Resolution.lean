import Mathlib.Logic.Function.Basic
import SyncGrammar.Proofs.Derives
import SyncGrammar.Proofs.Exact

namespace SyncGrammar

variable {grammar : Grammar} {entailment : Entailment} {direction : Direction}
  {known : DerivationKey → Prop}

theorem Derives.induct (known : DerivationKey → Prop) {key : DerivationKey}
    (entailed : ∀ subtext token production answers assignment result,
      production ∈ grammar.orientedRules direction token →
      entailment subtext production.source = .ok answers → assignment ∈ answers →
      Resolves grammar (fun _ _ => True) known
        ⟨.ofProduction subtext token production, assignment⟩ result → known result)
    (derives : Derives grammar entailment direction key) : known key := by
  refine DerivesWith.induct known (Resolves grammar (fun _ _ => True) known) entailed ?_ ?_ ?_
    derives
  · intro key
    exact .done
  · intro key result token value rest isTerminal onward
    exact .terminal isTerminal onward
  · intro key child result rest isNonterminal below _ onward
    exact .nonterminal isNonterminal below trivial onward

/-- The texts that may stand on the two sides for a token that is bound to a value. -/
structure Stands (grammar : Grammar) (known : DerivationKey → Prop)
    (token value read written : Text) : Prop where
  nonterminal : grammar.hasNonterminal token = true → known ⟨value, token, read, written⟩
  terminal : grammar.hasNonterminal token = false → read = value ∧ written = value

/-- The derivation of what is left to be resolved when all tokens of a list are replaced. -/
def DerivationKey.resolvedBy (key : DerivationKey) (tokens : List Text)
    (read written : Text → Text) : DerivationKey :=
  ⟨key.subtext, key.token,
    Substitution.inOrder (Assignment.ofValues tokens read).bindings key.source,
    Substitution.inOrder (Assignment.ofValues tokens written).bindings key.target⟩

theorem DerivationKey.resolvedBy_cons (key : DerivationKey) (token : Text) (rest : List Text)
    (read written : Text → Text) :
    key.resolvedBy (token :: rest) read written =
      (key.substituted token (read token) (written token)).resolvedBy rest read written :=
  rfl

variable {tokens : List Text} {value read written : Text → Text}

theorem resolves_of_stands
    (stands : ∀ token ∈ tokens, Stands grammar known token (value token) (read token)
      (written token)) (key : DerivationKey) :
    Resolves grammar (fun _ _ => True) known ⟨key, .ofValues tokens value⟩
      (key.resolvedBy tokens read written) := by
  induction tokens generalizing key with
  | nil => exact .done
  | cons token rest ih =>
    rw [List.forall_mem_cons] at stands
    obtain ⟨here, others⟩ := stands
    have onward := ih others (key.substituted token (read token) (written token))
    rw [DerivationKey.resolvedBy_cons]
    cases kind : grammar.hasNonterminal token with
    | true =>
      exact @Resolves.nonterminal grammar _ known key
        ⟨value token, token, read token, written token⟩ _ _ kind (here.nonterminal kind) trivial
        onward
    | false =>
      obtain ⟨same, alsoSame⟩ := here.terminal kind
      rw [same, alsoSame] at onward ⊢
      exact .terminal kind onward

theorem DerivationKey.resolvedBy_congr {others alsoOthers : Text → Text}
    (sameRead : ∀ token ∈ tokens, read token = others token)
    (sameWritten : ∀ token ∈ tokens, written token = alsoOthers token) (key : DerivationKey) :
    key.resolvedBy tokens read written = key.resolvedBy tokens others alsoOthers := by
  have bindings {one other : Text → Text} (same : ∀ token ∈ tokens, one token = other token) :
      Assignment.ofValues tokens one = Assignment.ofValues tokens other :=
    congrArg Assignment.mk (List.map_congr_left fun token member => by rw [same token member])
  rw [resolvedBy, resolvedBy, bindings sameRead, bindings sameWritten]

theorem exists_of_resolves {key result : DerivationKey} (distinct : tokens.Nodup)
    (resolves : Resolves grammar (fun _ _ => True) known ⟨key, .ofValues tokens value⟩ result) :
    ∃ read written, (∀ token ∈ tokens, Stands grammar known token (value token) (read token)
      (written token)) ∧ result = key.resolvedBy tokens read written := by
  induction tokens generalizing key with
  | nil =>
    cases resolves
    exact ⟨id, id, by simp, rfl⟩
  | cons token rest ih =>
    rw [List.nodup_cons] at distinct
    have extended {source target : Text}
        (here : Stands grammar known token (value token) source target)
        (onward : Resolves grammar (fun _ _ => True) known
          ⟨key.substituted token source target, .ofValues rest value⟩ result) :
        ∃ read written, (∀ other ∈ token :: rest, Stands grammar known other (value other)
          (read other) (written other)) ∧
            result = key.resolvedBy (token :: rest) read written := by
      obtain ⟨read, written, stands, rfl⟩ := ih distinct.2 onward
      have kept (other : Text) (member : other ∈ rest) : other ≠ token :=
        fun same => distinct.1 (same ▸ member)
      refine ⟨Function.update read token source, Function.update written token target, ?_, ?_⟩
      · rw [List.forall_mem_cons, Function.update_self, Function.update_self]
        refine ⟨here, fun other member => ?_⟩
        rw [Function.update_of_ne (kept other member), Function.update_of_ne (kept other member)]
        exact stands other member
      · rw [DerivationKey.resolvedBy_cons, Function.update_self, Function.update_self]
        apply DerivationKey.resolvedBy_congr
        · intro other member
          rw [Function.update_of_ne (kept other member)]
        · intro other member
          rw [Function.update_of_ne (kept other member)]
    generalize made : Assignment.ofValues (token :: rest) value = assignment at resolves
    cases resolves with
    | done => cases made
    | terminal isTerminal onward =>
      simp only [Assignment.ofValues, List.map_cons, Assignment.mk.injEq, List.cons.injEq,
        Prod.mk.injEq] at made
      obtain ⟨⟨rfl, rfl⟩, rfl⟩ := made
      refine extended ⟨fun isNonterminal => ?_, fun _ => ⟨rfl, rfl⟩⟩ onward
      rw [isTerminal] at isNonterminal
      cases isNonterminal
    | @nonterminal _ child _ _ isNonterminal below _ onward =>
      simp only [Assignment.ofValues, List.map_cons, Assignment.mk.injEq, List.cons.injEq,
        Prod.mk.injEq] at made
      obtain ⟨⟨rfl, same⟩, rfl⟩ := made
      refine extended ⟨fun _ => same ▸ below, fun isTerminal => ?_⟩ onward
      rw [isNonterminal] at isTerminal
      cases isTerminal

end SyncGrammar
