import SyncGrammar.Derivation.Downward
import SyncGrammar.Proofs.Run

namespace SyncGrammar.Downward

variable {grammar : Grammar} {entailment : Entailment} {direction : Direction} {text : Text}

theorem mem_demands {subtext token : Text} {key : DerivationKey} :
    key ∈ demands grammar direction subtext token ↔
      ∃ production ∈ grammar.orientedRules direction token,
        DerivationKey.ofProduction subtext token production = key :=
  List.mem_map

theorem mem_childDemands {assignment : Assignment} {key : DerivationKey} :
    key ∈ childDemands grammar direction assignment ↔
      ∃ binding ∈ assignment.bindings, key ∈ demands grammar direction binding.2 binding.1 :=
  List.mem_flatMap

/-- The keys that the way down is led to from the rules of the root. -/
inductive Demanded (grammar : Grammar) (entailment : Entailment) (direction : Direction)
    (text : Text) : DerivationKey → Prop
  | root {production : Production}
      (rule : production ∈ grammar.orientedRules direction grammar.root) :
      Demanded grammar entailment direction text (.ofProduction text grammar.root production)
  | child {key : DerivationKey} {answers : List Assignment} {assignment : Assignment}
      {token value : Text} {production : Production}
      (parent : Demanded grammar entailment direction text key)
      (answer : entailment key.subtext key.source = .ok answers) (entailed : assignment ∈ answers)
      (bound : (token, value) ∈ assignment.bindings)
      (rule : production ∈ grammar.orientedRules direction token) :
      Demanded grammar entailment direction text (.ofProduction value token production)

theorem Demanded.of_childDemands {key child : DerivationKey} {answers : List Assignment}
    {assignment : Assignment} (parent : Demanded grammar entailment direction text key)
    (answer : entailment key.subtext key.source = .ok answers) (entailed : assignment ∈ answers)
    (member : child ∈ childDemands grammar direction assignment) :
    Demanded grammar entailment direction text child := by
  obtain ⟨⟨token, value⟩, bound, below⟩ := mem_childDemands.mp member
  obtain ⟨production, rule, rfl⟩ := mem_demands.mp below
  exact parent.child answer entailed bound rule

theorem foldl_expand (key : DerivationKey) (state : Downward) (answers : List Assignment) :
    answers.foldl (expand grammar direction key) state =
      { state with
        queue := state.queue.addAll (answers.flatMap (childDemands grammar direction))
        stack := state.stack.pushAll (answers.map fun assignment => ⟨key, assignment⟩) } := by
  induction answers generalizing state with
  | nil => rfl
  | cons assignment rest ih =>
    rw [List.foldl_cons, ih, List.flatMap_cons, List.map_cons, DedupQueue.addAll_append]
    rfl

/-- The two kinds of step: the next key has no answer, or its answers are taken in. -/
inductive Advance (grammar : Grammar) (entailment : Entailment) (direction : Direction) :
    Downward → Downward → Prop
  | failed {key : DerivationKey} {pending accepted : List DerivationKey}
      {stack : ResultStack Derivation} {events : List TraceEvent} {failure : TranslateError}
      (answer : entailment key.subtext key.source = .error failure) :
      Advance grammar entailment direction
        ⟨⟨key :: pending, accepted⟩, stack, none, events⟩
        ⟨⟨pending, accepted⟩, stack, some failure, events⟩
  | answered {key : DerivationKey} {pending accepted : List DerivationKey}
      {stack : ResultStack Derivation} {events : List TraceEvent} {answers : List Assignment}
      (answer : entailment key.subtext key.source = .ok answers) :
      Advance grammar entailment direction
        ⟨⟨key :: pending, accepted⟩, stack, none, events⟩
        ⟨DedupQueue.addAll ⟨pending, accepted⟩ (answers.flatMap (childDemands grammar direction)),
          stack.pushAll (answers.map fun assignment => ⟨key, assignment⟩), none,
          if answers = [] then events else entailsNote key answers.length :: events⟩

theorem advance_of_step {state next : Downward}
    (move : step grammar entailment direction state = some next) :
    Advance grammar entailment direction state next := by
  obtain ⟨⟨pending, accepted⟩, stack, failure, events⟩ := state
  cases failure with
  | some failure => simp [step] at move
  | none =>
    cases pending with
    | nil => simp [step, DedupQueue.remove?] at move
    | cons key pending =>
      cases answer : entailment key.subtext key.source with
      | error failure =>
        simp only [step, DedupQueue.remove?, answer, Option.some.injEq] at move
        exact move ▸ .failed answer
      | ok answers =>
        have taken := @Advance.answered grammar entailment direction key pending accepted stack
          events answers answer
        cases answers with
        | nil =>
          simp only [step, DedupQueue.remove?, answer, Option.some.injEq] at move
          exact move ▸ taken
        | cons first rest =>
          simp only [step, DedupQueue.remove?, answer, Option.some.injEq] at move
          rw [foldl_expand] at move
          exact move ▸ taken

theorem step_eq_none_iff {state : Downward} :
    step grammar entailment direction state = none ↔
      state.failure ≠ none ∨ state.queue.pending = [] := by
  obtain ⟨⟨pending, accepted⟩, stack, failure, events⟩ := state
  cases failure with
  | some failure => simp [step]
  | none =>
    cases pending with
    | nil => simp [step, DedupQueue.remove?]
    | cons key pending =>
      cases answer : entailment key.subtext key.source with
      | error failure => simp [step, DedupQueue.remove?, answer]
      | ok answers => cases answers <;> simp [step, DedupQueue.remove?, answer]

structure Explored (grammar : Grammar) (entailment : Entailment) (direction : Direction)
    (text : Text) (state : Downward) : Prop where
  roots : ∀ key ∈ demands grammar direction text grammar.root, key ∈ state.queue.accepted
  demanded : ∀ key ∈ state.queue.accepted, Demanded grammar entailment direction text key
  awaited : ∀ key ∈ state.queue.pending, key ∈ state.queue.accepted
  stacked : ∀ item ∈ state.stack.items, item.key ∈ state.queue.accepted ∧
    ∃ answers, entailment item.key.subtext item.key.source = .ok answers ∧
      item.assignment ∈ answers
  worked : state.failure = none → ∀ key ∈ state.queue.accepted, key ∉ state.queue.pending →
    ∃ answers, entailment key.subtext key.source = .ok answers ∧ ∀ assignment ∈ answers,
      ⟨key, assignment⟩ ∈ state.stack.items ∧
        ∀ child ∈ childDemands grammar direction assignment, child ∈ state.queue.accepted
  failed : ∀ failure, state.failure = some failure → ∃ key,
    Demanded grammar entailment direction text key ∧
      entailment key.subtext key.source = .error failure

theorem explored_start (events : List TraceEvent) :
    Explored grammar entailment direction text (start grammar direction text events) := by
  have accepted (key : DerivationKey) :
      key ∈ (start grammar direction text events).queue.accepted ↔
        key ∈ demands grammar direction text grammar.root := by
    simp [start, DedupQueue.mem_accepted_addAll, DedupQueue.empty]
  have pending (key : DerivationKey) :
      key ∈ (start grammar direction text events).queue.pending ↔
        key ∈ demands grammar direction text grammar.root := by
    simp [start, DedupQueue.mem_pending_addAll, DedupQueue.empty]
  refine ⟨fun key => (accepted key).mpr, ?_, ?_, ?_, ?_, ?_⟩
  · intro key member
    obtain ⟨production, rule, rfl⟩ := mem_demands.mp ((accepted key).mp member)
    exact .root rule
  · intro key member
    exact (accepted key).mpr ((pending key).mp member)
  · intro item member
    cases member
  · intro _ key member absent
    exact absurd ((pending key).mpr ((accepted key).mp member)) absent
  · intro failure failed
    cases failed

theorem Explored.of_advance {state next : Downward}
    (explored : Explored grammar entailment direction text state)
    (move : Advance grammar entailment direction state next) :
    Explored grammar entailment direction text next := by
  cases move with
  | @failed key pending accepted stack events failure answer =>
    refine ⟨explored.roots, explored.demanded, ?_, explored.stacked, ?_, ?_⟩
    · intro other member
      exact explored.awaited other (List.mem_cons_of_mem _ member)
    · intro ended
      cases ended
    · intro other same
      cases same
      exact ⟨key, explored.demanded key (explored.awaited key List.mem_cons_self), answer⟩
  | @answered key pending accepted stack events answers answer =>
    have own : key ∈ accepted := explored.awaited key List.mem_cons_self
    have old {other : DerivationKey} (member : other ∈ accepted) :
        other ∈ (DedupQueue.addAll ⟨pending, accepted⟩
          (answers.flatMap (childDemands grammar direction))).accepted :=
      DedupQueue.mem_accepted_addAll.mpr (Or.inr member)
    refine ⟨fun other member => old (explored.roots other member), ?_, ?_, ?_, ?_, ?_⟩
    · intro other member
      rcases DedupQueue.mem_accepted_addAll.mp member with new | before
      · obtain ⟨assignment, entailed, child⟩ := List.mem_flatMap.mp new
        exact (explored.demanded key own).of_childDemands answer entailed child
      · exact explored.demanded other before
    · intro other member
      rcases DedupQueue.mem_pending_addAll.mp member with before | ⟨new, _⟩
      · exact old (explored.awaited other (List.mem_cons_of_mem _ before))
      · exact DedupQueue.mem_accepted_addAll.mpr (Or.inl new)
    · intro item member
      rw [ResultStack.items_pushAll, List.mem_append, List.mem_reverse, List.mem_map] at member
      rcases member with ⟨assignment, entailed, rfl⟩ | before
      · exact ⟨old own, answers, answer, entailed⟩
      · exact ⟨old (explored.stacked item before).1, (explored.stacked item before).2⟩
    · intro _ other member absent
      have unasked : other ∉ pending ∧
          ¬ (other ∈ answers.flatMap (childDemands grammar direction) ∧ other ∉ accepted) := by
        simpa [DedupQueue.mem_pending_addAll] using absent
      have before : other ∈ accepted := by
        rcases DedupQueue.mem_accepted_addAll.mp member with new | before
        · by_cases known : other ∈ accepted
          · exact known
          · exact absurd ⟨new, known⟩ unasked.2
        · exact before
      -- either taken off by this step, or worked through before
      by_cases same : other = key
      · subst same
        refine ⟨answers, answer, fun assignment entailed => ⟨?_, fun child below => ?_⟩⟩
        · rw [ResultStack.items_pushAll, List.mem_append, List.mem_reverse]
          exact Or.inl (List.mem_map.mpr ⟨assignment, entailed, rfl⟩)
        · exact DedupQueue.mem_accepted_addAll.mpr
            (Or.inl (List.mem_flatMap.mpr ⟨assignment, entailed, below⟩))
      · have done : other ∉ key :: pending := by simp [same, unasked.1]
        obtain ⟨others, known, kept⟩ := explored.worked rfl other before done
        refine ⟨others, known, fun assignment entailed => ⟨?_, fun child below => ?_⟩⟩
        · rw [ResultStack.items_pushAll]
          exact List.mem_append_right _ (kept assignment entailed).1
        · exact old ((kept assignment entailed).2 child below)
    · intro failure same
      cases same

theorem Explored.of_reaches {state : Downward} {events : List TraceEvent}
    (reached : Reaches (step grammar entailment direction)
      (start grammar direction text events) state) :
    Explored grammar entailment direction text state :=
  Reaches.invariant reached (fun _ _ explored move => explored.of_advance (advance_of_step move))
    (explored_start events)

theorem demanded_of_mem_stack {state : Downward} {events : List TraceEvent}
    (reached : Reaches (step grammar entailment direction)
      (start grammar direction text events) state)
    {item : Derivation} (member : item ∈ state.stack.items) :
    Demanded grammar entailment direction text item.key ∧
      ∃ answers, entailment item.key.subtext item.key.source = .ok answers ∧
        item.assignment ∈ answers := by
  have explored := Explored.of_reaches reached
  obtain ⟨accepted, answered⟩ := explored.stacked item member
  exact ⟨explored.demanded _ accepted, answered⟩

theorem answered_of_demanded {last : Downward} {events : List TraceEvent}
    (ends : EndsIn (step grammar entailment direction) (start grammar direction text events) last)
    (succeeded : last.failure = none) {key : DerivationKey}
    (demanded : Demanded grammar entailment direction text key) :
    ∃ answers, entailment key.subtext key.source = .ok answers ∧
      ∀ assignment ∈ answers, ⟨key, assignment⟩ ∈ last.stack.items := by
  have explored := Explored.of_reaches ends.reached
  have drained : last.queue.pending = [] := by
    rcases step_eq_none_iff.mp ends.stopped with failed | drained
    · exact absurd succeeded failed
    · exact drained
  have worked (key : DerivationKey) (member : key ∈ last.queue.accepted) :=
    explored.worked succeeded key member (by simp [drained])
  have reachable : key ∈ last.queue.accepted := by
    induction demanded with
    | root rule => exact explored.roots _ (mem_demands.mpr ⟨_, rule, rfl⟩)
    | @child key answers assignment token value production _ answer entailed bound rule ih =>
      obtain ⟨others, known, kept⟩ := worked key ih
      rw [answer] at known
      cases known
      exact (kept assignment entailed).2 _
        (mem_childDemands.mpr ⟨_, bound, mem_demands.mpr ⟨production, rule, rfl⟩⟩)
  obtain ⟨answers, answer, kept⟩ := worked key reachable
  exact ⟨answers, answer, fun assignment entailed => (kept assignment entailed).1⟩

theorem mem_stack_iff {last : Downward} {events : List TraceEvent}
    (ends : EndsIn (step grammar entailment direction) (start grammar direction text events) last)
    (succeeded : last.failure = none) (item : Derivation) :
    item ∈ last.stack.items ↔ Demanded grammar entailment direction text item.key ∧
      ∃ answers, entailment item.key.subtext item.key.source = .ok answers ∧
        item.assignment ∈ answers := by
  constructor
  · exact demanded_of_mem_stack ends.reached
  · rintro ⟨demanded, answers, answer, entailed⟩
    obtain ⟨others, known, kept⟩ := answered_of_demanded ends succeeded demanded
    rw [answer] at known
    cases known
    exact kept item.assignment entailed

theorem failure_demanded {last : Downward} {events : List TraceEvent} {failure : TranslateError}
    (ends : EndsIn (step grammar entailment direction) (start grammar direction text events) last)
    (failed : last.failure = some failure) :
    ∃ key, Demanded grammar entailment direction text key ∧
      entailment key.subtext key.source = .error failure :=
  (Explored.of_reaches ends.reached).failed failure failed

end SyncGrammar.Downward
