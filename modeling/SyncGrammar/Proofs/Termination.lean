import Mathlib.Data.List.Infix
import Mathlib.Data.Prod.Lex
import Mathlib.Logic.Hydra
import SyncGrammar.Proofs.UnitCycle
import SyncGrammar.Proofs.WayDown
import SyncGrammar.Proofs.WayUp

/-!
Both ways come to an end. The way down asks each question once, and with a confined entailment there
are finitely many: parts of the text, tokens of rules, rules. On the way up each derivation taken
from the stack is replaced by derivations of lower rank. Those it is resolved to have fewer
bindings. Those it wakes are of longer texts, or of the same text and of a token from which its own
is reached, but not the other way round, in steps of the unit graph.
-/
namespace SyncGrammar

/-- A derivation of `hypothesis` binds only its tokens, only to parts of the text, and to the whole
text only if the hypothesis consists of tokens alone. -/
def Entailment.Confined (entailment : Entailment) (grammar : Grammar) : Prop :=
  ∀ text hypothesis answers, entailment text hypothesis = .ok answers →
    ∀ assignment ∈ answers, ∀ binding ∈ assignment.bindings,
      binding.1 ∈ Token.tokens grammar.variableNames hypothesis ∧ binding.2 <:+: text ∧
        (binding.2.byteLength = text.byteLength →
          Token.onlyTokens grammar.variableNames hypothesis = true)

def Entailment.Row.assignments (row : Entailment.Row) : List Assignment :=
  match row.answer with
  | .ok answers => answers
  | .error _ => []

def Entailment.Row.Confined (row : Entailment.Row) (grammar : Grammar) : Prop :=
  ∀ assignment ∈ row.assignments, ∀ binding ∈ assignment.bindings,
    binding.1 ∈ Token.tokens grammar.variableNames row.hypothesis ∧ binding.2 <:+: row.text ∧
      (binding.2.byteLength = row.text.byteLength →
        Token.onlyTokens grammar.variableNames row.hypothesis = true)

instance (row : Entailment.Row) (grammar : Grammar) : Decidable (row.Confined grammar) :=
  inferInstanceAs (Decidable (∀ assignment ∈ row.assignments, ∀ binding ∈ assignment.bindings, _))

theorem Entailment.confined_ofRows {rows : List Entailment.Row} {grammar : Grammar}
    (checked : ∀ row ∈ rows, row.Confined grammar) : (ofRows rows).Confined grammar := by
  intro text hypothesis answers answer
  unfold ofRows at answer
  split at answer
  · cases answer
    intro assignment entails
    cases entails
  · rename_i row found
    have member := List.mem_of_find?_eq_some found
    obtain ⟨rfl, rfl⟩ : row.text = text ∧ row.hypothesis = hypothesis := by
      simpa using List.find?_some found
    have same : row.assignments = answers := by
      unfold Row.assignments
      cases given : row.answer with
      | ok known =>
        rw [given] at answer
        cases answer
        rfl
      | error reason =>
        rw [given] at answer
        cases answer
    subst same
    exact checked row member

theorem Entailment.exists_answers_ofRows {rows : List Entailment.Row}
    (answering : ∀ row ∈ rows, row.answer.isOk = true) (text hypothesis : Text) :
    ∃ answers, ofRows rows text hypothesis = .ok answers := by
  unfold ofRows
  split
  · exact ⟨_, rfl⟩
  · rename_i row found
    have ok := answering row (List.mem_of_find?_eq_some found)
    cases given : row.answer with
    | ok known => exact ⟨known, rfl⟩
    | error reason =>
      rw [given] at ok
      cases ok

theorem Text.byteLength_le_of_infix {part text : Text} (inside : part <:+: text) :
    part.byteLength ≤ text.byteLength := by
  obtain ⟨before, after, rfl⟩ := inside
  simp only [byteLength_append]
  omega

def Text.parts (text : Text) : List Text :=
  text.tails.flatMap List.inits

theorem Text.mem_parts {part text : Text} : part ∈ text.parts ↔ part <:+: text := by
  rw [parts, List.mem_flatMap, List.infix_iff_prefix_suffix]
  constructor
  · rintro ⟨tail, after, before⟩
    exact ⟨tail, (List.mem_inits _ _).mp before, (List.mem_tails _ _).mp after⟩
  · rintro ⟨tail, before, after⟩
    exact ⟨tail, (List.mem_tails _ _).mpr after, (List.mem_inits _ _).mpr before⟩

variable {grammar : Grammar} {entailment : Entailment} {direction : Direction} {text : Text}

namespace Downward

def ruleTokens (grammar : Grammar) : List Text :=
  grammar.rules.entries.flatMap fun entry => entry.2.productions.flatMap fun production =>
    Token.tokens grammar.variableNames production.source ++
      Token.tokens grammar.variableNames production.target

theorem mem_ruleTokens {token other : Text} {production : Production}
    (rule : production ∈ grammar.orientedRules direction token)
    (occurs : other ∈ Token.tokens grammar.variableNames production.source) :
    other ∈ ruleTokens grammar := by
  obtain ⟨table, found, member⟩ := Grammar.mem_orientedRules.mp rule
  obtain ⟨name, _, stored⟩ := Grammar.table?_eq_some_iff.mp found
  have entry := (NameTable.get?_eq_some_iff _ _ _).mp stored
  refine List.mem_flatMap.mpr ⟨_, entry, List.mem_flatMap.mpr ⟨_, member, ?_⟩⟩
  rw [List.mem_append]
  cases direction with
  | forward => exact Or.inl occurs
  | backward => exact Or.inr occurs

/-- Every key that a confined entailment can lead to: a part of the text, a token and a rule. -/
def questions (grammar : Grammar) (direction : Direction) (text : Text) : List DerivationKey :=
  text.parts.flatMap fun subtext =>
    (grammar.root :: ruleTokens grammar).flatMap fun token =>
      demands grammar direction subtext token

theorem mem_questions {subtext token : Text} {production : Production}
    (part : subtext <:+: text) (occurs : token ∈ grammar.root :: ruleTokens grammar)
    (rule : production ∈ grammar.orientedRules direction token) :
    .ofProduction subtext token production ∈ questions grammar direction text := by
  refine List.mem_flatMap.mpr ⟨subtext, Text.mem_parts.mpr part, ?_⟩
  exact List.mem_flatMap.mpr ⟨token, occurs, mem_demands.mpr ⟨production, rule, rfl⟩⟩

/-- A demanded key covers a part of the text and stands for a rule of its token. -/
structure WithinText (grammar : Grammar) (direction : Direction) (text : Text)
    (key : DerivationKey) : Prop where
  part : key.subtext <:+: text
  occurs : key.token ∈ grammar.root :: ruleTokens grammar
  rule : ⟨key.source, key.target⟩ ∈ grammar.orientedRules direction key.token

theorem Demanded.withinText (confined : entailment.Confined grammar) {key : DerivationKey}
    (demanded : Demanded grammar entailment direction text key) :
    WithinText grammar direction text key := by
  induction demanded with
  | root rule => exact ⟨List.infix_refl text, List.mem_cons_self, rule⟩
  | @child key answers assignment token value production _ answer entails bound rule ih =>
    obtain ⟨occurs, part, _⟩ := confined _ _ answers answer assignment entails _ bound
    refine ⟨part.trans ih.part, List.mem_cons_of_mem _ ?_, rule⟩
    exact mem_ruleTokens ih.rule occurs

/-- What is still to be asked and what waits to be asked. -/
def workLeft (grammar : Grammar) (direction : Direction) (text : Text) (state : Downward) : Nat :=
  (questions grammar direction text).length + state.queue.pending.length -
    state.queue.accepted.length

theorem nodup_accepted_of_step {state next : Downward} (distinct : state.queue.accepted.Nodup)
    (move : step grammar entailment direction state = some next) :
    next.queue.accepted.Nodup := by
  cases advance_of_step move with
  | failed => exact distinct
  | answered => exact DedupQueue.nodup_accepted_addAll _ distinct

theorem workLeft_lt_of_step
    (within : ∀ key, Demanded grammar entailment direction text key →
      WithinText grammar direction text key) {state next : Downward}
    (explored : Explored grammar entailment direction text state)
    (distinct : state.queue.accepted.Nodup)
    (move : step grammar entailment direction state = some next) :
    workLeft grammar direction text next < workLeft grammar direction text state := by
  have bounded : state.queue.accepted.length ≤ (questions grammar direction text).length := by
    refine (List.subperm_of_subset distinct fun key member => ?_).length_le
    have inText := within key (explored.demanded key member)
    exact mem_questions inText.part inText.occurs inText.rule
  cases advance_of_step move with
  | failed =>
    simp only [workLeft, List.length_cons] at bounded ⊢
    omega
  | @answered key pending accepted stack events answers answer =>
    have balance := DedupQueue.addAll_balance ⟨pending, accepted⟩
      (answers.flatMap (childDemands grammar direction))
    simp only [workLeft, List.length_cons] at bounded balance ⊢
    omega

theorem exists_endsIn_of_within
    (within : ∀ key, Demanded grammar entailment direction text key →
      WithinText grammar direction text key) (events : List TraceEvent) :
    ∃ last, EndsIn (step grammar entailment direction) (start grammar direction text events)
      last := by
  let keeps (state : Downward) : Prop :=
    Explored grammar entailment direction text state ∧ state.queue.accepted.Nodup
  have kept (state next : Downward) (holds : keeps state)
      (move : step grammar entailment direction state = some next) : keeps next :=
    ⟨holds.1.of_advance (advance_of_step move), nodup_accepted_of_step holds.2 move⟩
  refine exists_endsIn_of_wellFounded Nat.lt_wfRel.wf (workLeft grammar direction text) kept ?_ ?_
  · intro state next holds move
    exact workLeft_lt_of_step within holds.1 holds.2 move
  · exact ⟨explored_start events, DedupQueue.nodup_accepted_addAll _ List.nodup_nil⟩

theorem exists_endsIn (confined : entailment.Confined grammar) (events : List TraceEvent) :
    ∃ last, EndsIn (step grammar entailment direction) (start grammar direction text events)
      last :=
  exists_endsIn_of_within (fun _ demanded => demanded.withinText confined) events

end Downward

namespace Upward

variable {limit : Nat}

/-- The values still to be resolved are shorter than the text of the derivation, or they are as long
and their tokens are reached from its token in the unit graph. -/
structure Bounded (grammar : Grammar) (limit : Nat) (item : Derivation) : Prop where
  within : item.key.subtext.byteLength ≤ limit
  bindings : ∀ binding ∈ item.assignment.bindings,
    binding.2.byteLength < item.key.subtext.byteLength ∨
      binding.2.byteLength = item.key.subtext.byteLength ∧
        ∀ next, grammar.nonterminalName? binding.1 = some next →
          ∃ name, grammar.nonterminalName? item.key.token = some name ∧ grammar.Leads name next

theorem bounded_of_terminals {item : Derivation} (within : item.key.subtext.byteLength ≤ limit)
    (terminals : ∀ binding ∈ item.assignment.bindings, grammar.nonterminalName? binding.1 = none)
    (parts : ∀ binding ∈ item.assignment.bindings, binding.2 <:+: item.key.subtext) :
    Bounded grammar limit item := by
  refine ⟨within, fun binding bound => ?_⟩
  rcases Nat.lt_or_eq_of_le (Text.byteLength_le_of_infix (parts binding bound)) with
    shorter | level
  · exact Or.inl shorter
  · refine Or.inr ⟨level, fun next named => ?_⟩
    rw [terminals binding bound] at named
    cases named

/-- The rank of a text read as a token: shorter texts rank higher, and of the same text the tokens
with more ancestors in the unit graph. -/
noncomputable def rank (grammar : Grammar) (limit : Nat) (subtext token : Text) : ℕ ×ₗ ℕ :=
  toLex (limit - subtext.byteLength, (grammar.unitAncestors token).card)

theorem rank_lt_of_waits {item : Derivation} (bounded : Bounded grammar limit item)
    {token value : Text} (bound : (token, value) ∈ item.assignment.bindings)
    (isNonterminal : grammar.hasNonterminal token = true)
    (waiting : waits grammar grammar.unitCycles item.key.subtext token value = true) :
    rank grammar limit item.key.subtext item.key.token < rank grammar limit value token := by
  have within := bounded.within
  rw [rank, rank, Prod.Lex.toLex_lt_toLex]
  rcases bounded.bindings _ bound with shorter | ⟨same, leads⟩
  · left
    simp only at shorter ⊢
    omega
  · right
    obtain ⟨next, named⟩ := Option.isSome_iff_exists.mp isNonterminal
    obtain ⟨name, own, step⟩ := leads next named
    have acyclic : next ∉ grammar.unitCycles := by
      simpa [waits, same, named] using waiting
    simp only at same ⊢
    exact ⟨by rw [same], Finset.card_lt_card (Grammar.unitAncestors_ssubset own named step acyclic)⟩

noncomputable def itemRank (grammar : Grammar) (limit : Nat) (item : Derivation) :
    (ℕ ×ₗ ℕ) ×ₗ ℕ :=
  toLex (rank grammar limit item.key.subtext item.key.token, item.assignment.bindings.length)

noncomputable def stackRank (grammar : Grammar) (limit : Nat) (state : Upward) :
    Multiset ((ℕ ×ₗ ℕ) ×ₗ ℕ) :=
  (state.stack.items.map (itemRank grammar limit) : List _)

theorem cutExpand_of_replaced {item : Derivation} {items : List Derivation}
    (pushed : List Derivation)
    (lower : ∀ new ∈ pushed, itemRank grammar limit new < itemRank grammar limit item) :
    Relation.CutExpand (· < ·)
      (((pushed ++ items).map (itemRank grammar limit) : List _) : Multiset ((ℕ ×ₗ ℕ) ×ₗ ℕ))
      (((item :: items).map (itemRank grammar limit) : List _) : Multiset ((ℕ ×ₗ ℕ) ×ₗ ℕ)) := by
  refine ⟨(pushed.map (itemRank grammar limit) : List _), itemRank grammar limit item, ?_, ?_⟩
  · intro level member
    obtain ⟨new, inside, rfl⟩ := List.mem_map.mp (Multiset.mem_coe.mp member)
    exact lower new inside
  · rw [List.map_append, List.map_cons, ← Multiset.coe_add, ← Multiset.cons_coe,
      ← Multiset.singleton_add]
    ac_rfl

/-- Each step takes one derivation from the stack and puts back derivations of lower rank. -/
theorem stackRank_lt_of_step {state next : Upward} {ofKey : DerivationKey → Prop}
    (holds : Holds grammar grammar.unitCycles (Bounded grammar limit) ofKey state)
    (move : step grammar grammar.unitCycles state = some next) :
    Relation.CutExpand (· < ·) (stackRank grammar limit next) (stackRank grammar limit state) := by
  cases advance_of_step move with
  | repeated =>
    exact cutExpand_of_replaced [] fun new member => absurd member List.not_mem_nil
  | @completed key items completed waitlist events fresh =>
    rw [stackRank, ResultStack.items_pushAll]
    refine cutExpand_of_replaced _ fun new member => ?_
    obtain ⟨waiting, entry, isFor, rfl⟩ := Waitlist.mem_wake.mp (List.mem_reverse.mp member)
    obtain ⟨parent, isNonterminal, waits⟩ := holds.waiting waiting entry
    obtain ⟨subtext, token, derivation⟩ := waiting
    obtain ⟨rfl, rfl⟩ : subtext = key.subtext ∧ token = key.token := by
      simpa [Waiting.isFor] using isFor
    -- what waits for a key is of lower rank, however much is left of it to be resolved
    have higher := rank_lt_of_waits parent List.mem_cons_self isNonterminal waits
    exact Prod.Lex.toLex_lt_toLex.mpr (Or.inl higher)
  | terminal =>
    refine cutExpand_of_replaced [_] fun new member => ?_
    cases List.mem_singleton.mp member
    exact Prod.Lex.toLex_lt_toLex.mpr (Or.inr ⟨rfl, Nat.lt_succ_self _⟩)
  | nonterminal =>
    rw [stackRank, ResultStack.items_pushAll]
    refine cutExpand_of_replaced _ fun new member => ?_
    obtain ⟨child, _, rfl⟩ := List.mem_map.mp (List.mem_reverse.mp member)
    exact Prod.Lex.toLex_lt_toLex.mpr (Or.inr ⟨rfl, Nat.lt_succ_self _⟩)

theorem Bounded.resolved {key : DerivationKey} {binding : Text × Text}
    {rest : List (Text × Text)} (bounded : Bounded grammar limit ⟨key, ⟨binding :: rest⟩⟩)
    (source target : Text) :
    Bounded grammar limit ⟨key.substituted binding.1 source target, ⟨rest⟩⟩ :=
  ⟨bounded.within, fun other member => bounded.bindings other (List.mem_cons_of_mem _ member)⟩

theorem exists_endsIn {stack : ResultStack Derivation}
    (bounded : ∀ item ∈ stack.items, Bounded grammar limit item) (events : List TraceEvent) :
    ∃ last, EndsIn (step grammar grammar.unitCycles) (start stack events) last := by
  have wf : WellFounded (Relation.CutExpand fun low high : (ℕ ×ₗ ℕ) ×ₗ ℕ => low < high) :=
    wellFounded_lt.cutExpand
  refine exists_endsIn_of_wellFounded wf (stackRank grammar limit)
    (fun _ _ reached move => reached.tail move) ?_ Relation.ReflTransGen.refl
  intro state next reached move
  have holds : Holds grammar grammar.unitCycles (Bounded grammar limit) (fun _ => True) state := by
    refine holds_of_reaches bounded ?_ ?_ ?_ reached
    · intro key _
      trivial
    · intro key token value rest before _
      exact before.resolved value value
    · intro key child rest before _ _ _
      exact before.resolved child.source child.target
  exact stackRank_lt_of_step holds move

theorem bounded_of_demanded (confined : entailment.Confined grammar) {item : Derivation}
    {answers : List Assignment}
    (demanded : Downward.Demanded grammar entailment direction text item.key)
    (answer : entailment item.key.subtext item.key.source = .ok answers)
    (entails : item.assignment ∈ answers) : Bounded grammar text.byteLength item := by
  have within := demanded.withinText confined
  refine ⟨Text.byteLength_le_of_infix within.part, fun binding bound => ?_⟩
  obtain ⟨occurs, part, whole⟩ := confined _ _ answers answer _ entails binding bound
  rcases Nat.lt_or_eq_of_le (Text.byteLength_le_of_infix part) with shorter | same
  · exact Or.inl shorter
  · refine Or.inr ⟨same, fun next named => ?_⟩
    exact Grammar.leads_of_onlyTokens within.rule (whole same) occurs named

end Upward

end SyncGrammar
