import Mathlib.Data.List.Induction
import Mathlib.Data.List.Nodup
import SyncGrammar.Proofs.WayUp

/-!
Which derivation is combined with which. A ledger is kept on the way up of all that is taken from
the stack and of all that is pushed on it, each push with the derivation that goes on and the
completed one that is put in place of its first token. A derivation that waits is combined with
whatever completes, each once and in order of completion, whichever of the two came first; any other
is combined with what is complete at its time.
-/
namespace SyncGrammar.Upward

/-- A derivation that was taken from the stack, and what was complete at that time. -/
structure Pop where
  item : Derivation
  done : CompletedSet
  deriving DecidableEq

structure Push where
  /-- The number of the pop of the derivation that goes on with it. -/
  pop : Nat
  /-- What is put in place of the first token; nothing if the token is terminal. -/
  child : Option DerivationKey
  item : Derivation
  deriving DecidableEq

/-- A state, and all pops and pushes that have led to it, in order of time. -/
structure Ledger where
  state : Upward
  pops : List Pop
  pushes : List Push
  deriving DecidableEq

variable {grammar : Grammar} {cycles : List Text}

namespace Pop

/-- How a derivation waits after it was taken, if it does. -/
def waiting? (grammar : Grammar) (cycles : List Text) (pop : Pop) : Option Waiting :=
  match pop.item.assignment.bindings with
  | [] => none
  | (token, value) :: rest =>
    if grammar.hasNonterminal token && waits grammar cycles pop.item.key.subtext token value then
      some ⟨value, token, ⟨pop.item.key, ⟨rest⟩⟩⟩
    else none

/-- What is pushed for the pop of some number when a derivation completes. -/
def woken (grammar : Grammar) (cycles : List Text) (key : DerivationKey) (number : Nat)
    (pop : Pop) : List Push :=
  ((pop.waiting? grammar cycles).toList.filter (·.isFor key)).map fun waiting =>
    ⟨number, some key, waiting.resume key⟩

def combined (grammar : Grammar) (number : Nat) (pop : Pop) (done : CompletedSet) : List Push :=
  match pop.item.assignment.bindings with
  | [] => []
  | (token, value) :: rest =>
    if grammar.hasNonterminal token then
      (done.lookup value token).map fun child =>
        ⟨number, some child, pop.item.resolve token child.source child.target ⟨rest⟩⟩
    else [⟨number, none, pop.item.resolve token value value ⟨rest⟩⟩]

/-- What a derivation is combined with once `completed` is complete. -/
def met (grammar : Grammar) (cycles : List Text) (pop : Pop) (completed : CompletedSet) :
    CompletedSet :=
  if (pop.waiting? grammar cycles).isSome then completed else pop.done

theorem labels_of_mem_woken {key : DerivationKey} {number : Nat} {pop : Pop} {push : Push}
    (member : push ∈ pop.woken grammar cycles key number) :
    push.pop = number ∧ push.child = some key := by
  obtain ⟨waiting, _, rfl⟩ := List.mem_map.mp member
  exact ⟨rfl, rfl⟩

theorem pop_of_mem_combined {number : Nat} {pop : Pop} {done : CompletedSet} {push : Push}
    (member : push ∈ pop.combined grammar number done) : push.pop = number := by
  obtain ⟨⟨key, ⟨bindings⟩⟩, _⟩ := pop
  cases bindings with
  | nil => cases member
  | cons binding rest =>
    simp only [combined] at member
    split at member
    · obtain ⟨child, _, rfl⟩ := List.mem_map.mp member
      rfl
    · cases List.mem_singleton.mp member
      rfl

theorem combined_of_isResolved {pop : Pop} (resolved : pop.item.isResolved = true) (number : Nat)
    (done : CompletedSet) : pop.combined grammar number done = [] := by
  have none_left : pop.item.assignment.bindings = [] := List.isEmpty_iff.mp resolved
  rw [combined, none_left]

variable {pop : Pop} {token value : Text} {rest : List (Text × Text)}

theorem combined_of_nonterminal (first : pop.item.assignment.bindings = (token, value) :: rest)
    (isNonterminal : grammar.hasNonterminal token = true) (number : Nat) (done : CompletedSet) :
    pop.combined grammar number done = (done.lookup value token).map fun child =>
      ⟨number, some child, pop.item.resolve token child.source child.target ⟨rest⟩⟩ := by
  simp only [combined, first, isNonterminal, if_true]

theorem met_of_nonterminal (first : pop.item.assignment.bindings = (token, value) :: rest)
    (isNonterminal : grammar.hasNonterminal token = true) (completed : CompletedSet) :
    pop.met grammar cycles completed =
      if waits grammar cycles pop.item.key.subtext token value then completed else pop.done := by
  simp only [met, waiting?, first, isNonterminal, Bool.true_and]
  split <;> rfl

theorem met_done (pop : Pop) : pop.met grammar cycles pop.done = pop.done :=
  ite_self _

theorem combined_insert {key : DerivationKey} {completed : CompletedSet}
    (fresh : key ∉ completed.keys) (number : Nat) (pop : Pop) :
    pop.combined grammar number (pop.met grammar cycles (completed.insert key)) =
      pop.combined grammar number (pop.met grammar cycles completed) ++
        pop.woken grammar cycles key number := by
  obtain ⟨⟨parent, ⟨bindings⟩⟩, _⟩ := pop
  cases bindings with
  | nil => rfl
  | cons binding rest =>
    obtain ⟨token, value⟩ := binding
    by_cases isNonterminal : grammar.hasNonterminal token = true
    · by_cases waiting : waits grammar cycles parent.subtext token value = true
      · -- the look-up grows by the key exactly if the key is one that is waited for
        simp only [combined, met, woken, waiting?, isNonterminal, waiting, Bool.and_self, if_true,
          Option.isSome_some, CompletedSet.lookup_insert fresh, List.map_append,
          Option.toList_some, List.filter_cons, List.filter_nil, Waiting.isFor, decide_eq_true_eq]
        by_cases isFor : key.subtext = value ∧ key.token = token
        · obtain ⟨rfl, rfl⟩ := isFor
          simp [Waiting.resume, Derivation.resolve]
        · have other : ¬(value = key.subtext ∧ token = key.token) :=
            fun same => isFor ⟨same.1.symm, same.2.symm⟩
          simp [isFor, other]
      · simp [combined, met, woken, waiting?, isNonterminal, waiting]
    · simp [combined, woken, waiting?, isNonterminal]

end Pop

theorem waitlist_of_step {state next : Upward} {item : Derivation} {rest : List Derivation}
    (move : step grammar cycles state = some next) (top : state.stack.items = item :: rest) :
    next.waitlist = ⟨state.waitlist.entries ++
      (Pop.waiting? grammar cycles ⟨item, state.completed⟩).toList⟩ := by
  cases advance_of_step move with
  | repeated => cases top; simp [Pop.waiting?]
  | completed => cases top; simp [Pop.waiting?]
  | terminal isTerminal => cases top; simp [Pop.waiting?, isTerminal]
  | nonterminal isNonterminal =>
    cases top
    simp only [Pop.waiting?, isNonterminal, Bool.true_and]
    split
    · rfl
    · simp

theorem completed_of_step {state next : Upward} {item : Derivation} {rest : List Derivation}
    (move : step grammar cycles state = some next) (top : state.stack.items = item :: rest) :
    next.completed =
      if item.isResolved then state.completed.insert item.key else state.completed := by
  cases advance_of_step move with
  | repeated known =>
    cases top
    simp [Derivation.isResolved, Assignment.isEmpty, CompletedSet.insert, CompletedSet.contains,
      known]
  | completed => cases top; rfl
  | terminal => cases top; rfl
  | nonterminal => cases top; rfl

theorem stack_of_step {state next : Upward} {item : Derivation} {rest : List Derivation}
    (move : step grammar cycles state = some next) (top : state.stack.items = item :: rest)
    (number : Nat) :
    next.stack.items = (if item.isResolved then
        if state.completed.contains item.key then [] else state.waitlist.wake item.key
      else (Pop.combined grammar number ⟨item, state.completed⟩ state.completed).map
        (·.item)).reverse ++ rest := by
  cases advance_of_step move with
  | repeated known =>
    cases top
    simp [Derivation.isResolved, Assignment.isEmpty, CompletedSet.contains, known]
  | completed fresh =>
    cases top
    simp [Derivation.isResolved, Assignment.isEmpty, CompletedSet.contains, fresh,
      ResultStack.items_pushAll]
  | terminal isTerminal =>
    cases top
    simp [Derivation.isResolved, Assignment.isEmpty, Pop.combined, isTerminal, Derivation.resolve]
  | nonterminal isNonterminal =>
    cases top
    simp [Derivation.isResolved, Assignment.isEmpty, Pop.combined, isNonterminal,
      Derivation.resolve, ResultStack.items_pushAll, Function.comp_def]

namespace Ledger

def start (state : Upward) : Ledger := ⟨state, [], []⟩

/-- What the earlier pops go on with when a derivation completes. -/
def woken (grammar : Grammar) (cycles : List Text) (pops : List Pop) (key : DerivationKey) :
    List Push :=
  pops.zipIdx.flatMap fun (pop, number) => pop.woken grammar cycles key number

def pushed (grammar : Grammar) (cycles : List Text) (ledger : Ledger) (item : Derivation) :
    List Push :=
  if item.isResolved then
    if ledger.state.completed.contains item.key then []
    else woken grammar cycles ledger.pops item.key
  else
    Pop.combined grammar ledger.pops.length ⟨item, ledger.state.completed⟩ ledger.state.completed

def step (grammar : Grammar) (cycles : List Text) (ledger : Ledger) : Option Ledger :=
  match ledger.state.stack.items, Upward.step grammar cycles ledger.state with
  | item :: _, some next =>
    some ⟨next, ledger.pops ++ [⟨item, ledger.state.completed⟩],
      ledger.pushes ++ ledger.pushed grammar cycles item⟩
  | _, _ => none

/-- A step keeps the ledger by the book: what is on top of the stack is taken down as popped, and
what is put on the rest of it as pushed, in this order. Each push is for the derivation that was
popped, or for an earlier one and with the popped one as its child. -/
def Records (grammar : Grammar) (cycles : List Text) (before after : Ledger) : Prop :=
  ∃ item rest pushed, before.state.stack.items = item :: rest ∧
    Upward.step grammar cycles before.state = some after.state ∧
    after.pops = before.pops ++ [⟨item, before.state.completed⟩] ∧
    after.pushes = before.pushes ++ pushed ∧
    after.state.stack = ResultStack.pushAll ⟨rest⟩ (pushed.map (·.item)) ∧
    ∀ push ∈ pushed, push.pop = before.pops.length ∨ push.child = some item.key

variable {before after : Ledger}

theorem step_inv (move : step grammar cycles before = some after) :
    ∃ item rest next, before.state.stack.items = item :: rest ∧
      Upward.step grammar cycles before.state = some next ∧
        after = ⟨next, before.pops ++ [⟨item, before.state.completed⟩],
          before.pushes ++ before.pushed grammar cycles item⟩ := by
  unfold step at move
  split at move
  · rename_i item rest next top onward
    exact ⟨item, rest, next, top, onward, (Option.some.inj move).symm⟩
  · cases move

theorem woken_concat (pops : List Pop) (pop : Pop) (key : DerivationKey) :
    woken grammar cycles (pops ++ [pop]) key =
      woken grammar cycles pops key ++ pop.woken grammar cycles key pops.length := by
  simp [woken, List.zipIdx_append]

theorem item_woken (pops : List Pop) (key : DerivationKey) :
    (woken grammar cycles pops key).map (·.item) =
      Waitlist.wake ⟨pops.filterMap (·.waiting? grammar cycles)⟩ key := by
  induction pops using List.reverseRecOn with
  | nil => rfl
  | append_singleton pops pop ih =>
    rw [woken_concat, List.map_append, ih, List.filterMap_append]
    cases held : pop.waiting? grammar cycles with
    | none => simp [Pop.woken, held]
    | some waiting =>
      have entered := Waitlist.wake_wait ⟨pops.filterMap (·.waiting? grammar cycles)⟩ waiting key
      rw [List.filterMap_cons_some held, List.filterMap_nil]
      refine Eq.trans ?_ entered.symm
      by_cases isFor : waiting.isFor key = true <;> simp [Pop.woken, held, isFor]

theorem filter_own {pushes : List Push} {own : Nat} (tagged : ∀ push ∈ pushes, push.pop = own)
    (number : Nat) :
    pushes.filter (·.pop = number) = if number = own then pushes else [] := by
  split
  · rename_i same
    exact List.filter_eq_self.mpr fun push member => by simp [tagged push member, same]
  · rename_i other
    exact List.filter_eq_nil_iff.mpr fun push member => by simp [tagged push member, Ne.symm other]

theorem toList_getElem?_concat (pops : List Pop) (pop : Pop) (number : Nat) :
    (pops ++ [pop])[number]?.toList =
      pops[number]?.toList ++ if number = pops.length then [pop] else [] := by
  rcases Nat.lt_trichotomy number pops.length with before | rfl | after
  · simp [List.getElem?_append_left before, Nat.ne_of_lt before]
  · simp
  · simp [Nat.ne_of_gt after, Nat.not_lt_of_gt after, Nat.le_of_lt after,
      List.getElem?_append_right, Nat.sub_ne_zero_of_lt after]

theorem filter_woken (pops : List Pop) (key : DerivationKey) (number : Nat) :
    (woken grammar cycles pops key).filter (·.pop = number) =
      pops[number]?.toList.flatMap (·.woken grammar cycles key number) := by
  induction pops using List.reverseRecOn with
  | nil => rfl
  | append_singleton pops pop ih =>
    rw [woken_concat, List.filter_append, ih,
      filter_own fun _ member => (Pop.labels_of_mem_woken member).1,
      toList_getElem?_concat, List.flatMap_append]
    split
    · rename_i same
      simp [same]
    · rfl

/-- What the derivation of the pop of some number has been combined with once `completed` is
complete. -/
def account (grammar : Grammar) (cycles : List Text) (pops : List Pop) (completed : CompletedSet)
    (number : Nat) : List Push :=
  pops[number]?.toList.flatMap fun pop =>
    pop.combined grammar number (pop.met grammar cycles completed)

theorem account_concat (pops : List Pop) (pop : Pop) (completed : CompletedSet) (number : Nat) :
    account grammar cycles (pops ++ [pop]) completed number =
      account grammar cycles pops completed number ++
        if number = pops.length then
          pop.combined grammar number (pop.met grammar cycles completed)
        else [] := by
  unfold account
  rw [toList_getElem?_concat, List.flatMap_append]
  split
  · rw [List.flatMap_singleton]
  · rfl

theorem account_insert (pops : List Pop) {key : DerivationKey} {completed : CompletedSet}
    (fresh : key ∉ completed.keys) (number : Nat) :
    account grammar cycles pops (completed.insert key) number =
      account grammar cycles pops completed number ++
        (woken grammar cycles pops key).filter (·.pop = number) := by
  rw [filter_woken]
  unfold account
  cases pops[number]? with
  | none => rfl
  | some pop =>
    simp only [Option.toList_some, List.flatMap_singleton]
    exact pop.combined_insert fresh number

/-- What a ledger holds at any time. -/
structure Sound (grammar : Grammar) (cycles : List Text) (ledger : Ledger) : Prop where
  waitlist : ledger.state.waitlist = ⟨ledger.pops.filterMap (·.waiting? grammar cycles)⟩
  account : ∀ number, ledger.pushes.filter (·.pop = number) =
    account grammar cycles ledger.pops ledger.state.completed number
  distinct : ledger.state.completed.keys.Nodup
  distinctAt : ∀ pop ∈ ledger.pops, pop.done.keys.Nodup

theorem account_of_pop (ledger : Ledger) (item : Derivation) (number : Nat) :
    account grammar cycles (ledger.pops ++ [⟨item, ledger.state.completed⟩])
        (if item.isResolved then ledger.state.completed.insert item.key else ledger.state.completed)
        number =
      account grammar cycles ledger.pops ledger.state.completed number ++
        (ledger.pushed grammar cycles item).filter (·.pop = number) := by
  unfold pushed
  by_cases resolved : item.isResolved = true
  · rw [if_pos resolved, if_pos resolved, account_concat, Pop.combined_of_isResolved resolved,
      ite_self, List.append_nil]
    by_cases known : item.key ∈ ledger.state.completed.keys
    · simp [CompletedSet.insert, CompletedSet.contains, known]
    · simp only [account_insert _ known, CompletedSet.contains, known, decide_false,
        Bool.false_eq_true, if_false]
  · -- what is complete now is complete at the time of the pop, so waiting makes no difference yet
    rw [if_neg resolved, if_neg resolved, account_concat, Pop.met_done,
      filter_own fun _ => Pop.pop_of_mem_combined]
    split
    · rename_i same
      rw [same]
    · rfl

theorem Sound.step (sound : Sound grammar cycles before)
    (move : Ledger.step grammar cycles before = some after) : Sound grammar cycles after := by
  obtain ⟨item, rest, next, top, onward, rfl⟩ := step_inv move
  refine ⟨?_, fun number => ?_, ?_, fun pop member => ?_⟩
  · show next.waitlist = ⟨List.filterMap _ (before.pops ++ [_])⟩
    rw [waitlist_of_step onward top, sound.waitlist, List.filterMap_append]
    cases held : Pop.waiting? grammar cycles ⟨item, before.state.completed⟩ <;>
      simp [held]
  · show List.filter _ (before.pushes ++ before.pushed grammar cycles item) =
      Ledger.account grammar cycles (before.pops ++ [_]) next.completed number
    rw [List.filter_append, sound.account, completed_of_step onward top, account_of_pop]
  · show next.completed.keys.Nodup
    rw [completed_of_step onward top]
    split
    · exact CompletedSet.nodup_insert _ sound.distinct
    · exact sound.distinct
  · rcases List.mem_append.mp member with old | new
    · exact sound.distinctAt pop old
    · cases List.mem_singleton.mp new
      exact sound.distinct

theorem item_pushed (sound : Sound grammar cycles before) (item : Derivation) :
    (before.pushed grammar cycles item).map (·.item) =
      if item.isResolved then
        if before.state.completed.contains item.key then []
        else before.state.waitlist.wake item.key
      else (Pop.combined grammar before.pops.length ⟨item, before.state.completed⟩
        before.state.completed).map (·.item) := by
  rw [sound.waitlist, ← item_woken]
  unfold pushed
  split
  · split <;> rfl
  · rfl

theorem pop_or_child_of_mem_pushed {ledger : Ledger} {item : Derivation} {push : Push}
    (member : push ∈ ledger.pushed grammar cycles item) :
    push.pop = ledger.pops.length ∨ push.child = some item.key := by
  unfold pushed at member
  split at member
  · right
    split at member
    · cases member
    · obtain ⟨⟨pop, number⟩, -, inside⟩ := List.mem_flatMap.mp member
      exact (Pop.labels_of_mem_woken inside).2
  · exact Or.inl (Pop.pop_of_mem_combined member)

theorem Sound.records (sound : Sound grammar cycles before)
    (move : Ledger.step grammar cycles before = some after) :
    Records grammar cycles before after := by
  obtain ⟨item, rest, next, top, onward, rfl⟩ := step_inv move
  refine ⟨item, rest, before.pushed grammar cycles item, top, onward, rfl, rfl, ?_,
    fun _ => pop_or_child_of_mem_pushed⟩
  have items := stack_of_step onward top before.pops.length
  rw [← item_pushed sound, ← ResultStack.items_pushAll ⟨rest⟩] at items
  show next.stack = _
  cases stack : next.stack
  rw [stack] at items
  cases items
  rfl

theorem sound_of_reaches {state : Upward} {ledger : Ledger} (begins : state.waitlist = ∅)
    (empty : state.completed = ∅)
    (reached : Reaches (Ledger.step grammar cycles) (.start state) ledger) :
    Sound grammar cycles ledger := by
  refine reached.invariant (fun _ _ sound => sound.step) ⟨begins, fun _ => rfl, ?_,
    fun _ member => nomatch member⟩
  show state.completed.keys.Nodup
  rw [empty]
  exact List.nodup_nil

theorem exists_step_of_step {next : Upward}
    (move : Upward.step grammar cycles before.state = some next) :
    ∃ after, Ledger.step grammar cycles before = some after ∧ after.state = next := by
  cases items : before.state.stack.items with
  | nil =>
    rw [Upward.step_eq_none_iff.mpr items] at move
    cases move
  | cons item rest =>
    exact ⟨⟨next, before.pops ++ [⟨item, before.state.completed⟩],
      before.pushes ++ before.pushed grammar cycles item⟩, by simp only [Ledger.step, items, move],
      rfl⟩

theorem exists_ledger {start last : Upward}
    (ends : EndsIn (Upward.step grammar cycles) start last) :
    ∃ ledger, EndsIn (Ledger.step grammar cycles) (.start start) ledger ∧ ledger.state = last := by
  obtain ⟨ledger, reached, same⟩ : ∃ ledger,
      Reaches (Ledger.step grammar cycles) (.start start) ledger ∧ ledger.state = last := by
    obtain ⟨reached, -⟩ := ends
    induction reached with
    | refl => exact ⟨_, .refl, rfl⟩
    | tail _ move ih =>
      obtain ⟨before, reached, rfl⟩ := ih
      obtain ⟨after, onward, same⟩ := exists_step_of_step move
      exact ⟨after, reached.tail onward, same⟩
  refine ⟨ledger, ⟨reached, ?_⟩, same⟩
  have empty := step_eq_none_iff.mp ends.stopped
  rw [← same] at empty
  simp only [Ledger.step, empty]

end Ledger

/-- Every derivation that waits meets every completed one that it waits for exactly once, whichever
came first, and one that does not wait exactly those that were complete when it was taken. -/
theorem combines_each_pair_once (grammar : Grammar) {stack : ResultStack Derivation}
    {events : List TraceEvent} {last : Upward}
    (ends : EndsIn (step grammar grammar.unitCycles) (.start stack events) last) :
    ∃ ledger,
      EndsIn (Ledger.step grammar grammar.unitCycles) (.start (.start stack events)) ledger ∧
      ledger.state = last ∧
      (∀ before after,
        Reaches (Ledger.step grammar grammar.unitCycles) (.start (.start stack events)) before →
        Ledger.step grammar grammar.unitCycles before = some after →
          Ledger.Records grammar grammar.unitCycles before after) ∧
      ∀ number pop token value rest, ledger.pops[number]? = some pop →
        pop.item.assignment.bindings = (token, value) :: rest →
        grammar.hasNonterminal token = true →
        let met := (if waits grammar grammar.unitCycles pop.item.key.subtext token value
          then last.completed else pop.done).lookup value token
        ledger.pushes.filter (·.pop = number) = met.map (fun child =>
          ⟨number, some child, pop.item.resolve token child.source child.target ⟨rest⟩⟩) ∧
        ∀ child ∈ met, ledger.pushes.countP (fun push =>
          push.pop = number ∧ push.child = some child) = 1 := by
  obtain ⟨ledger, ended, rfl⟩ := Ledger.exists_ledger ends
  refine ⟨ledger, ended, rfl, fun before after reached => ?_, ?_⟩
  · exact (Ledger.sound_of_reaches rfl rfl reached).records
  intro number pop token value rest popped first isNonterminal met
  have sound := Ledger.sound_of_reaches rfl rfl ended.reached
  have accounts : ledger.pushes.filter (·.pop = number) = met.map fun child =>
      ⟨number, some child, pop.item.resolve token child.source child.target ⟨rest⟩⟩ := by
    rw [sound.account, Ledger.account, popped, Option.toList_some, List.flatMap_singleton,
      Pop.combined_of_nonterminal first isNonterminal, Pop.met_of_nonterminal first isNonterminal]
  refine ⟨accounts, fun child member => ?_⟩
  have distinct : met.Nodup := by
    apply CompletedSet.nodup_lookup
    split
    · exact sound.distinct
    · exact sound.distinctAt pop (List.mem_of_getElem? popped)
  calc ledger.pushes.countP (fun push => push.pop = number ∧ push.child = some child)
      = (ledger.pushes.filter (·.pop = number)).countP (·.child = some child) := by
        rw [List.countP_filter]
        simp only [Bool.decide_and, Bool.and_comm]
    _ = met.count child := by
        rw [accounts, List.countP_map, List.count]
        simp [Function.comp_def, beq_eq_decide]
    _ = 1 := List.count_eq_one_of_mem distinct member

def loopBelow : Grammar :=
  ⟨"<r>".toList, .ofList [
    ("<r>".toList, .ofList [⟨"<y>".toList, "R(<y>)".toList⟩]),
    ("<x>".toList, .ofList [⟨"a".toList, "A".toList⟩, ⟨"<x>".toList, "X(<x>)".toList⟩]),
    ("<y>".toList, .ofList [⟨"<x>".toList, "Y(<x>)".toList⟩])], ∅⟩

def loopBelowRoot : Derivation :=
  ⟨⟨"a".toList, "<r>".toList, "<y>".toList, "R(<y>)".toList⟩, ⟨[("<y>".toList, "a".toList)]⟩⟩

def loopBelowUnit : Derivation :=
  ⟨⟨"a".toList, "<y>".toList, "<x>".toList, "Y(<x>)".toList⟩, ⟨[("<x>".toList, "a".toList)]⟩⟩

def loopBelowLetter : DerivationKey :=
  ⟨"a".toList, "<x>".toList, "a".toList, "A".toList⟩

def loopBelowUnitDone : DerivationKey :=
  ⟨"a".toList, "<y>".toList, "a".toList, "Y(A)".toList⟩

def loopBelowRootDone : DerivationKey :=
  ⟨"a".toList, "<r>".toList, "a".toList, "R(Y(A))".toList⟩

def loopBelowStack : ResultStack Derivation :=
  ⟨[loopBelowRoot, loopBelowUnit, ⟨loopBelowLetter, ⟨[]⟩⟩, loopBelowUnit, loopBelowRoot]⟩

def loopBelowRun : Option Ledger :=
  runWithin (Ledger.step loopBelow loopBelow.unitCycles) 20 (.start (.start loopBelowStack []))

theorem combines_each_pair_once_loopBelow :
    ∃ last ledger, EndsIn (step loopBelow loopBelow.unitCycles) (.start loopBelowStack []) last ∧
      loopBelowRun = some ledger ∧ ledger.state = last ∧
      ledger.pushes.filter (·.pop = 0) =
        [⟨0, some loopBelowUnitDone, ⟨loopBelowRootDone, ⟨[]⟩⟩⟩] ∧
      ledger.pushes.filter (·.pop = 1) = [] ∧
      ledger.pushes.filter (·.pop = 3) =
        [⟨3, some loopBelowLetter, ⟨loopBelowUnitDone, ⟨[]⟩⟩⟩] ∧
      ledger.pushes.filter (·.pop = 6) =
        [⟨6, some loopBelowUnitDone, ⟨loopBelowRootDone, ⟨[]⟩⟩⟩] := by
  obtain ⟨last, run⟩ := Option.isSome_iff_exists.mp (show
    (runWithin (step loopBelow loopBelow.unitCycles) 20 (.start loopBelowStack [])).isSome = true
      by decide +kernel)
  obtain ⟨kept, keeping⟩ := Option.isSome_iff_exists.mp (show loopBelowRun.isSome = true
      by decide +kernel)
  obtain ⟨ledger, ended, rfl, -, accounts⟩ :=
    combines_each_pair_once loopBelow (.of_runWithin run)
  obtain rfl := ended.unique (.of_runWithin keeping)
  have book : loopBelowRun.map (fun ledger => (ledger.state.completed,
      ledger.pops[0]?, ledger.pops[1]?, ledger.pops[3]?, ledger.pops[6]?)) =
      some (.ofList [loopBelowLetter, loopBelowUnitDone, loopBelowRootDone],
        some ⟨loopBelowRoot, ∅⟩, some ⟨loopBelowUnit, ∅⟩,
        some ⟨loopBelowUnit, .ofList [loopBelowLetter]⟩,
        some ⟨loopBelowRoot, .ofList [loopBelowLetter, loopBelowUnitDone, loopBelowRootDone]⟩) := by
    decide +kernel
  rw [keeping] at book
  simp only [Option.map_some, Option.some.injEq, Prod.mk.injEq] at book
  obtain ⟨completed, zeroth, first, third, sixth⟩ := book
  rw [completed] at accounts
  refine ⟨_, ledger, .of_runWithin run, keeping, rfl, ?_, ?_, ?_, ?_⟩
  · exact (accounts 0 _ _ _ _ zeroth rfl (by decide +kernel)).1.trans (by decide +kernel)
  · exact (accounts 1 _ _ _ _ first rfl (by decide +kernel)).1.trans (by decide +kernel)
  · exact (accounts 3 _ _ _ _ third rfl (by decide +kernel)).1.trans (by decide +kernel)
  · exact (accounts 6 _ _ _ _ sixth rfl (by decide +kernel)).1.trans (by decide +kernel)

end SyncGrammar.Upward
