import SyncGrammar.Derivation.Upward
import SyncGrammar.Proofs.Run

/-!
The way up, step by step. All that a step does is listed once, and two principles are drawn from it.
What holds of the derivations on the stack and of the completed keys throughout is proved by looking
at single resolutions. What is on the stack at some time is taken from it before the end, and what
has been taken is resolved by every completed child that it waits for or that is there in time.
-/
namespace SyncGrammar

def Waiting.parent (waiting : Waiting) : Derivation :=
  ⟨waiting.derivation.key,
    ⟨(waiting.token, waiting.subtext) :: waiting.derivation.assignment.bindings⟩⟩

namespace Upward

variable {grammar : Grammar} {cycles : List Text}

/-- The four kinds of step, by what is taken from the stack. -/
inductive Advance (grammar : Grammar) (cycles : List Text) : Upward → Upward → Prop
  | repeated {key : DerivationKey} {items : List Derivation} {completed : CompletedSet}
      {waitlist : Waitlist} {events : List TraceEvent} (known : key ∈ completed.keys) :
      Advance grammar cycles ⟨⟨⟨key, ⟨[]⟩⟩ :: items⟩, completed, waitlist, events⟩
        ⟨⟨items⟩, completed, waitlist, events⟩
  | completed {key : DerivationKey} {items : List Derivation} {completed : CompletedSet}
      {waitlist : Waitlist} {events : List TraceEvent} (fresh : key ∉ completed.keys) :
      Advance grammar cycles ⟨⟨⟨key, ⟨[]⟩⟩ :: items⟩, completed, waitlist, events⟩
        ⟨ResultStack.pushAll ⟨items⟩ (waitlist.wake key), completed.insert key, waitlist,
          completedNote key :: events⟩
  | terminal {key : DerivationKey} {token value : Text} {rest : List (Text × Text)}
      {items : List Derivation} {completed : CompletedSet} {waitlist : Waitlist}
      {events : List TraceEvent} (terminal : grammar.hasNonterminal token = false) :
      Advance grammar cycles
        ⟨⟨⟨key, ⟨(token, value) :: rest⟩⟩ :: items⟩, completed, waitlist, events⟩
        ⟨⟨⟨key.substituted token value value, ⟨rest⟩⟩ :: items⟩, completed, waitlist, events⟩
  | nonterminal {key : DerivationKey} {token value : Text} {rest : List (Text × Text)}
      {items : List Derivation} {completed : CompletedSet} {waitlist : Waitlist}
      {events : List TraceEvent} (nonterminal : grammar.hasNonterminal token = true) :
      Advance grammar cycles
        ⟨⟨⟨key, ⟨(token, value) :: rest⟩⟩ :: items⟩, completed, waitlist, events⟩
        ⟨ResultStack.pushAll ⟨items⟩ ((completed.lookup value token).map fun child =>
            ⟨key.substituted token child.source child.target, ⟨rest⟩⟩),
          completed,
          if waits grammar cycles key.subtext token value then
            waitlist.wait ⟨value, token, ⟨key, ⟨rest⟩⟩⟩
          else waitlist,
          events⟩

theorem advance_of_step {state next : Upward} (move : step grammar cycles state = some next) :
    Advance grammar cycles state next := by
  obtain ⟨⟨items⟩, completed, waitlist, events⟩ := state
  cases items with
  | nil => simp [step, ResultStack.pop?] at move
  | cons item items =>
    obtain ⟨key, bindings⟩ := item
    obtain ⟨bindings⟩ := bindings
    cases bindings with
    | nil =>
      simp only [step, ResultStack.pop?, Assignment.splitFirst?, complete, CompletedSet.contains,
        decide_eq_true_eq, Option.some.injEq] at move
      split at move
      · rename_i known
        exact move ▸ .repeated known
      · rename_i fresh
        exact move ▸ .completed fresh
    | cons binding rest =>
      obtain ⟨token, value⟩ := binding
      simp only [step, ResultStack.pop?, Assignment.splitFirst?, resolve, Derivation.resolve,
        Option.some.injEq] at move
      split at move
      · rename_i nonterminal
        have taken := @Advance.nonterminal grammar cycles key token value rest items completed
          waitlist events nonterminal
        split at move
        · rename_i waiting
          rw [if_pos waiting] at taken
          exact move ▸ taken
        · rename_i passing
          rw [if_neg passing] at taken
          exact move ▸ taken
      · rename_i terminal
        exact move ▸ .terminal (by simpa using terminal)

theorem step_eq_none_iff {state : Upward} :
    step grammar cycles state = none ↔ state.stack.items = [] := by
  obtain ⟨⟨items⟩, completed, waitlist, events⟩ := state
  cases items with
  | nil => simp [step, ResultStack.pop?]
  | cons item items =>
    obtain ⟨key, bindings⟩ := item
    obtain ⟨bindings⟩ := bindings
    cases bindings <;> simp [step, ResultStack.pop?, Assignment.splitFirst?]

variable {start state next last : Upward}

/-- A child may be put in place of the first token of `item`: the derivation waits for it, or it is
complete when the derivation is taken from the stack. -/
def Timely (grammar : Grammar) (cycles : List Text) (start : Upward) (item : Derivation)
    (child : DerivationKey) : Prop :=
  waits grammar cycles item.key.subtext child.token child.subtext = true ∨
    ∃ state, Reaches (step grammar cycles) start state ∧
      state.stack.items.head? = some item ∧ child ∈ state.completed.keys

structure Holds (grammar : Grammar) (cycles : List Text) (ofItem : Derivation → Prop)
    (ofKey : DerivationKey → Prop) (state : Upward) : Prop where
  items : ∀ item ∈ state.stack.items, ofItem item
  keys : ∀ key ∈ state.completed.keys, ofKey key
  waiting : ∀ waiting ∈ state.waitlist.entries, ofItem waiting.parent ∧
    grammar.hasNonterminal waiting.token = true ∧
      waits grammar cycles waiting.parent.key.subtext waiting.token waiting.subtext = true

theorem holds_of_reaches {ofItem : Derivation → Prop} {ofKey : DerivationKey → Prop}
    {stack : ResultStack Derivation} {events : List TraceEvent}
    (begin : ∀ item ∈ stack.items, ofItem item)
    (complete : ∀ key, ofItem ⟨key, ⟨[]⟩⟩ → ofKey key)
    (terminal : ∀ key token value rest, ofItem ⟨key, ⟨(token, value) :: rest⟩⟩ →
      grammar.hasNonterminal token = false →
        ofItem ⟨key.substituted token value value, ⟨rest⟩⟩)
    (nonterminal : ∀ (key child : DerivationKey) rest,
      ofItem ⟨key, ⟨(child.token, child.subtext) :: rest⟩⟩ → ofKey child →
      grammar.hasNonterminal child.token = true →
      Timely grammar cycles (.start stack events)
        ⟨key, ⟨(child.token, child.subtext) :: rest⟩⟩ child →
        ofItem ⟨key.substituted child.token child.source child.target, ⟨rest⟩⟩)
    (reached : Reaches (step grammar cycles) (.start stack events) state) :
    Holds grammar cycles ofItem ofKey state := by
  induction reached with
  | refl =>
    refine ⟨begin, fun key member => ?_, fun waiting member => ?_⟩
    · cases member
    · cases member
  | @tail before after reached move holds =>
    cases advance_of_step move with
    | repeated known =>
      exact ⟨fun item member => holds.items item (List.mem_cons_of_mem _ member), holds.keys,
        holds.waiting⟩
    | @completed key items completed waitlist events fresh =>
      have own : ofKey key := complete key (holds.items _ List.mem_cons_self)
      refine ⟨fun item member => ?_, fun other member => ?_, holds.waiting⟩
      · rw [ResultStack.items_pushAll, List.mem_append, List.mem_reverse] at member
        rcases member with woken | old
        · obtain ⟨waiting, entry, isFor, rfl⟩ := Waitlist.mem_wake.mp woken
          obtain ⟨parent, named, waits⟩ := holds.waiting waiting entry
          obtain ⟨subtext, token, derivation⟩ := waiting
          obtain ⟨rfl, rfl⟩ : subtext = key.subtext ∧ token = key.token := by
            simpa [Waiting.isFor] using isFor
          exact nonterminal derivation.key key derivation.assignment.bindings parent own named
            (Or.inl waits)
        · exact holds.items item (List.mem_cons_of_mem _ old)
      · rcases CompletedSet.mem_insert.mp member with rfl | old
        · exact own
        · exact holds.keys other old
    | @terminal key token value rest items completed waitlist events isTerminal =>
      refine ⟨fun item member => ?_, holds.keys, holds.waiting⟩
      rcases List.mem_cons.mp member with rfl | old
      · exact terminal key token value rest (holds.items _ List.mem_cons_self) isTerminal
      · exact holds.items item (List.mem_cons_of_mem _ old)
    | @nonterminal key token value rest items completed waitlist events isNonterminal =>
      have own := holds.items _ List.mem_cons_self
      refine ⟨fun item member => ?_, holds.keys, fun waiting member => ?_⟩
      · rw [ResultStack.items_pushAll, List.mem_append, List.mem_reverse, List.mem_map] at member
        rcases member with ⟨child, done, rfl⟩ | old
        · obtain ⟨known, rfl, rfl⟩ := CompletedSet.mem_lookup.mp done
          exact nonterminal key child rest own (holds.keys child known) isNonterminal
            (Or.inr ⟨_, reached, rfl, known⟩)
        · exact holds.items item (List.mem_cons_of_mem _ old)
      · by_cases waits : waits grammar cycles key.subtext token value = true
        · rw [if_pos waits] at member
          rcases List.mem_append.mp member with old | new
          · exact holds.waiting waiting old
          · cases List.mem_singleton.mp new
            exact ⟨own, isNonterminal, waits⟩
        · rw [if_neg waits] at member
          exact holds.waiting waiting member

theorem keys_mono_of_step (move : step grammar cycles state = some next) {key : DerivationKey}
    (member : key ∈ state.completed.keys) : key ∈ next.completed.keys := by
  cases advance_of_step move with
  | completed => exact CompletedSet.mem_insert.mpr (Or.inr member)
  | repeated => exact member
  | terminal => exact member
  | nonterminal => exact member

theorem keys_mono (reached : Reaches (step grammar cycles) state next) {key : DerivationKey}
    (member : key ∈ state.completed.keys) : key ∈ next.completed.keys := by
  induction reached with
  | refl => exact member
  | tail _ move ih => exact keys_mono_of_step move ih

theorem entries_mono_of_step (move : step grammar cycles state = some next) {waiting : Waiting}
    (member : waiting ∈ state.waitlist.entries) : waiting ∈ next.waitlist.entries := by
  cases advance_of_step move with
  | repeated => exact member
  | completed => exact member
  | terminal => exact member
  | nonterminal =>
    show waiting ∈ (if _ then _ else _ : Waitlist).entries
    split
    · exact List.mem_append_left _ member
    · exact member

theorem head_or_mem_of_step (move : step grammar cycles state = some next) {item : Derivation}
    (member : item ∈ state.stack.items) :
    state.stack.items.head? = some item ∨ item ∈ next.stack.items := by
  cases advance_of_step move with
  | repeated =>
    rcases List.mem_cons.mp member with rfl | below
    · exact Or.inl rfl
    · exact Or.inr below
  | completed =>
    rcases List.mem_cons.mp member with rfl | below
    · exact Or.inl rfl
    · exact Or.inr (ResultStack.items_pushAll _ _ ▸ List.mem_append_right _ below)
  | terminal =>
    rcases List.mem_cons.mp member with rfl | below
    · exact Or.inl rfl
    · exact Or.inr (List.mem_cons_of_mem _ below)
  | nonterminal =>
    rcases List.mem_cons.mp member with rfl | below
    · exact Or.inl rfl
    · exact Or.inr (ResultStack.items_pushAll _ _ ▸ List.mem_append_right _ below)

def Taken (grammar : Grammar) (cycles : List Text) (start : Upward) (item : Derivation) : Prop :=
  ∃ state, Reaches (step grammar cycles) start state ∧ state.stack.items.head? = some item

theorem taken_of_mem (ends : EndsIn (step grammar cycles) start last)
    (reached : Reaches (step grammar cycles) start state) {item : Derivation}
    (member : item ∈ state.stack.items) : Taken grammar cycles start item := by
  have onward := ends.from_reached reached
  have path := onward.reached
  induction path using Relation.ReflTransGen.head_induction_on with
  | refl =>
    rw [step_eq_none_iff.mp ends.stopped] at member
    cases member
  | head move _ ih =>
    rcases head_or_mem_of_step move member with top | below
    · exact ⟨_, reached, top⟩
    · exact ih (reached.tail move) below (ends.from_reached (reached.tail move))

theorem exists_step_of_head (grammar : Grammar) (cycles : List Text) {item : Derivation}
    (top : state.stack.items.head? = some item) :
    ∃ next, step grammar cycles state = some next := by
  cases move : step grammar cycles state with
  | none =>
    rw [step_eq_none_iff.mp move] at top
    cases top
  | some next => exact ⟨next, rfl⟩

theorem completed_of_taken (ends : EndsIn (step grammar cycles) start last) {key : DerivationKey}
    (taken : Taken grammar cycles start ⟨key, ⟨[]⟩⟩) : key ∈ last.completed.keys := by
  obtain ⟨state, reached, top⟩ := taken
  obtain ⟨next, move⟩ := exists_step_of_head grammar cycles top
  have onward := (ends.from_reached (reached.tail move)).reached
  cases advance_of_step move with
  | repeated known =>
    cases top
    exact keys_mono onward known
  | completed =>
    cases top
    exact keys_mono onward (CompletedSet.mem_insert.mpr (Or.inl rfl))
  | terminal => cases top
  | nonterminal => cases top

theorem taken_terminal (ends : EndsIn (step grammar cycles) start last) {key : DerivationKey}
    {token value : Text} {rest : List (Text × Text)}
    (taken : Taken grammar cycles start ⟨key, ⟨(token, value) :: rest⟩⟩)
    (isTerminal : grammar.hasNonterminal token = false) :
    Taken grammar cycles start ⟨key.substituted token value value, ⟨rest⟩⟩ := by
  obtain ⟨state, reached, top⟩ := taken
  obtain ⟨next, move⟩ := exists_step_of_head grammar cycles top
  cases advance_of_step move with
  | repeated => cases top
  | completed => cases top
  | terminal =>
    cases top
    exact taken_of_mem ends (reached.tail move) List.mem_cons_self
  | nonterminal isNonterminal =>
    cases top
    rw [isTerminal] at isNonterminal
    cases isNonterminal

theorem taken_of_waiting (ends : EndsIn (step grammar cycles) start last)
    (reached : Reaches (step grammar cycles) start state) {waiting : Waiting}
    {child : DerivationKey} (member : waiting ∈ state.waitlist.entries)
    (isFor : waiting.isFor child = true) (pending : child ∉ state.completed.keys)
    (done : child ∈ last.completed.keys) :
    Taken grammar cycles start (waiting.resume child) := by
  have path := (ends.from_reached reached).reached
  induction path using Relation.ReflTransGen.head_induction_on with
  | refl => exact absurd done pending
  | @head before next move _ ih =>
    by_cases now : child ∈ next.completed.keys
    · -- the step that completes the child wakes all that wait for it
      cases advance_of_step move with
      | repeated => exact absurd now pending
      | terminal => exact absurd now pending
      | nonterminal => exact absurd now pending
      | @completed key items completed waitlist events fresh =>
        rcases CompletedSet.mem_insert.mp now with rfl | old
        · refine taken_of_mem ends (reached.tail move) ?_
          rw [ResultStack.items_pushAll, List.mem_append, List.mem_reverse]
          exact Or.inl (Waitlist.mem_wake.mpr ⟨waiting, member, isFor, rfl⟩)
        · exact absurd old pending
    · exact ih (reached.tail move) (entries_mono_of_step move member) now

/-- No completion is lost: a derivation that was taken goes on with every completed child that is
timely for it, whichever of the two came first. -/
theorem taken_nonterminal (ends : EndsIn (step grammar cycles) start last)
    {key child : DerivationKey} {rest : List (Text × Text)}
    (taken : Taken grammar cycles start ⟨key, ⟨(child.token, child.subtext) :: rest⟩⟩)
    (isNonterminal : grammar.hasNonterminal child.token = true)
    (done : child ∈ last.completed.keys)
    (timely : Timely grammar cycles start ⟨key, ⟨(child.token, child.subtext) :: rest⟩⟩ child) :
    Taken grammar cycles start
      ⟨key.substituted child.token child.source child.target, ⟨rest⟩⟩ := by
  have present (state : Upward) (reached : Reaches (step grammar cycles) start state)
      (top : state.stack.items.head? = some ⟨key, ⟨(child.token, child.subtext) :: rest⟩⟩)
      (known : child ∈ state.completed.keys) : Taken grammar cycles start
        ⟨key.substituted child.token child.source child.target, ⟨rest⟩⟩ := by
    obtain ⟨next, move⟩ := exists_step_of_head grammar cycles top
    cases advance_of_step move with
    | repeated => cases top
    | completed => cases top
    | terminal isTerminal =>
      cases top
      rw [isNonterminal] at isTerminal
      cases isTerminal
    | nonterminal =>
      cases top
      refine taken_of_mem ends (reached.tail move) ?_
      rw [ResultStack.items_pushAll, List.mem_append, List.mem_reverse, List.mem_map]
      exact Or.inl ⟨child, CompletedSet.mem_lookup.mpr ⟨known, rfl, rfl⟩, rfl⟩
  rcases timely with waits | ⟨state, reached, top, known⟩
  · obtain ⟨state, reached, top⟩ := taken
    by_cases known : child ∈ state.completed.keys
    · exact present state reached top known
    · obtain ⟨next, move⟩ := exists_step_of_head grammar cycles top
      have later := reached.tail move
      cases advance_of_step move with
      | repeated => cases top
      | completed => cases top
      | terminal isTerminal =>
        cases top
        rw [isNonterminal] at isTerminal
        cases isTerminal
      | @nonterminal _ _ _ _ _ _ waitlist _ =>
        cases top
        rw [if_pos waits] at later
        let waiting : Waiting := ⟨child.subtext, child.token, ⟨key, ⟨rest⟩⟩⟩
        have entered : waiting ∈ (waitlist.wait waiting).entries :=
          List.mem_append_right _ List.mem_cons_self
        exact taken_of_waiting ends later entered (by simp [Waiting.isFor, waiting]) known done
  · exact present state reached top known

end Upward

end SyncGrammar
