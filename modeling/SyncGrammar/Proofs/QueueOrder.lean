import SyncGrammar.Proofs.Translation

/-!
The order of the way down. A step asks about the key in front of the queue and about no other, so a
run is a list of keys asked about. Which keys these are, and in which order, follows from the
answers alone: the rules of the root come first, then what the answer to each key in turn leads to,
without what was named before. A run without failure asks about each reachable demand once, and one
with failures ends at the first of them.
-/
namespace SyncGrammar.Downward

variable {grammar : Grammar} {entailment : Entailment} {direction : Direction} {text : Text}

def question? (state : Downward) : Option DerivationKey :=
  match state.failure with
  | none => state.queue.pending.head?
  | some _ => none

theorem step_congr {others : Entailment} {state : Downward}
    (same : ∀ key, state.question? = some key →
      others key.subtext key.source = entailment key.subtext key.source) :
    step grammar others direction state = step grammar entailment direction state := by
  obtain ⟨⟨pending, accepted⟩, stack, failure, events⟩ := state
  cases failure with
  | some failure => rfl
  | none =>
    cases pending with
    | nil => rfl
    | cons key pending => simp only [step, DedupQueue.remove?, same key rfl]

theorem exists_step {state : Downward} {key : DerivationKey}
    (question : state.question? = some key) :
    ∃ next, step grammar entailment direction state = some next := by
  apply Option.ne_none_iff_exists'.mp
  rw [Ne, step_eq_none_iff]
  rintro (failed | drained)
  · cases failure : state.failure <;> simp_all [question?]
  · cases failure : state.failure <;> simp [question?, failure, drained] at question

/-- The runs from a state, each with the keys it asks about. -/
inductive Asks (grammar : Grammar) (entailment : Entailment) (direction : Direction)
    (start : Downward) : List DerivationKey → Downward → Prop
  | begin : Asks grammar entailment direction start [] start
  | ask {asked : List DerivationKey} {key : DerivationKey} {state next : Downward}
      (before : Asks grammar entailment direction start asked state)
      (question : state.question? = some key)
      (move : step grammar entailment direction state = some next) :
      Asks grammar entailment direction start (asked ++ [key]) next

theorem Asks.reaches {start state : Downward} {asked : List DerivationKey}
    (asks : Asks grammar entailment direction start asked state) :
    Reaches (step grammar entailment direction) start state := by
  induction asks with
  | begin => exact .refl
  | ask _ _ move ih => exact ih.tail move

theorem question?_of_step {state next : Downward}
    (move : step grammar entailment direction state = some next) :
    ∃ key, state.question? = some key := by
  cases advance_of_step move with
  | failed => exact ⟨_, rfl⟩
  | answered => exact ⟨_, rfl⟩

theorem exists_asks {start state : Downward}
    (reached : Reaches (step grammar entailment direction) start state) :
    ∃ asked, Asks grammar entailment direction start asked state := by
  induction reached with
  | refl => exact ⟨[], .begin⟩
  | tail _ move ih =>
    obtain ⟨asked, asks⟩ := ih
    obtain ⟨key, question⟩ := question?_of_step move
    exact ⟨asked ++ [key], asks.ask question move⟩

theorem Asks.congr {others : Entailment} {start state : Downward} {asked : List DerivationKey}
    (asks : Asks grammar entailment direction start asked state)
    (same : ∀ key ∈ asked, others key.subtext key.source = entailment key.subtext key.source) :
    Asks grammar others direction start asked state := by
  induction asks with
  | begin => exact .begin
  | @ask asked key state next _ question move ih =>
    have earlier := ih fun other member => same other (List.mem_append_left _ member)
    apply earlier.ask question
    rw [step_congr fun other also => ?_]
    · exact move
    · have front : other = key := Option.some.inj (also.symm.trans question)
      exact same other (by simp [front])

def answersTo (entailment : Entailment) (key : DerivationKey) : List Assignment :=
  (entailment key.subtext key.source).toOption.getD []

theorem answersTo_of_ok {key : DerivationKey} {answers : List Assignment}
    (answer : entailment key.subtext key.source = .ok answers) :
    answersTo entailment key = answers := by
  simp [answersTo, answer, Except.toOption]

theorem answersTo_of_error {key : DerivationKey} {failure : TranslateError}
    (answer : entailment key.subtext key.source = .error failure) :
    answersTo entailment key = [] := by
  simp [answersTo, answer, Except.toOption]

theorem exists_ok_of_mem_answersTo {key : DerivationKey} {assignment : Assignment}
    (entailed : assignment ∈ answersTo entailment key) :
    ∃ answers, entailment key.subtext key.source = .ok answers ∧ assignment ∈ answers := by
  cases answer : entailment key.subtext key.source with
  | error failure => simp [answersTo_of_error answer] at entailed
  | ok answers => exact ⟨answers, rfl, answersTo_of_ok answer ▸ entailed⟩

def derivationsOf (entailment : Entailment) (key : DerivationKey) : List Derivation :=
  (answersTo entailment key).map fun assignment => ⟨key, assignment⟩

/-- The keys to which the rules of the root and the answers to some keys lead, as often and in the
order as they lead to them. -/
def leads (grammar : Grammar) (entailment : Entailment) (direction : Direction) (text : Text)
    (asked : List DerivationKey) : List DerivationKey :=
  demands grammar direction text grammar.root ++
    asked.flatMap fun key =>
      (answersTo entailment key).flatMap (childDemands grammar direction)

def ledTo (grammar : Grammar) (entailment : Entailment) (direction : Direction) (text : Text)
    (asked : List DerivationKey) : List DerivationKey :=
  (leads grammar entailment direction text asked).eraseDups

theorem mem_ledTo {asked : List DerivationKey} {key : DerivationKey} :
    key ∈ ledTo grammar entailment direction text asked ↔
      key ∈ demands grammar direction text grammar.root ∨
        ∃ parent ∈ asked, ∃ assignment ∈ answersTo entailment parent,
          key ∈ childDemands grammar direction assignment := by
  simp [ledTo, leads, List.mem_eraseDups, List.mem_flatMap]

theorem ledTo_mono {asked more : List DerivationKey} (front : asked <+: more) :
    ledTo grammar entailment direction text asked <+:
      ledTo grammar entailment direction text more := by
  obtain ⟨later, rfl⟩ := front
  simp only [ledTo, leads, List.flatMap_append, ← List.append_assoc, List.eraseDups_append]
  exact List.prefix_append _ _

theorem nodup_ledTo (asked : List DerivationKey) :
    (ledTo grammar entailment direction text asked).Nodup := by
  rw [ledTo, ← DedupQueue.reverse_accepted_empty, List.nodup_reverse]
  exact DedupQueue.nodup_accepted_addAll _ .nil

/-- The keys in queue order, as far as the first `count` of them, or all of them if they are
fewer. -/
def inQueueOrder (grammar : Grammar) (entailment : Entailment) (direction : Direction)
    (text : Text) : Nat → List DerivationKey
  | 0 => []
  | count + 1 =>
    let before := inQueueOrder grammar entailment direction text count
    before ++ (ledTo grammar entailment direction text before)[before.length]?.toList

/-- What has been asked about, and what is pending, at some point of a run. -/
structure Asked (grammar : Grammar) (entailment : Entailment) (direction : Direction)
    (text : Text) (asked : List DerivationKey) (state : Downward) : Prop where
  split : asked ++ state.queue.pending = state.queue.accepted.reverse
  accepted : state.queue.accepted.reverse = ledTo grammar entailment direction text asked
  ordered : asked = inQueueOrder grammar entailment direction text asked.length
  stacked : state.stack.items.reverse = asked.flatMap (derivationsOf entailment)
  answered : state.failure = none → ∀ key ∈ asked, ∃ answers,
    entailment key.subtext key.source = .ok answers
  failed : ∀ failure, state.failure = some failure → ∃ before key, asked = before ++ [key] ∧
    entailment key.subtext key.source = .error failure

theorem asked_start (events : List TraceEvent) :
    Asked grammar entailment direction text [] (start grammar direction text events) := by
  refine ⟨DedupQueue.append_pending_addAll _ rfl _, ?_, rfl, rfl, ?_, ?_⟩
  · simp [start, ledTo, leads, DedupQueue.reverse_accepted_empty]
  · intro _ key member
    cases member
  · intro failure failed
    cases failed

theorem Asked.of_advance {asked : List DerivationKey} {key : DerivationKey}
    {state next : Downward} (before : Asked grammar entailment direction text asked state)
    (question : state.question? = some key)
    (move : Advance grammar entailment direction state next) :
    Asked grammar entailment direction text (asked ++ [key]) next := by
  have front : state.queue.pending.head? = some key := by
    cases move <;> exact question
  have following : (ledTo grammar entailment direction text asked)[asked.length]? = some key := by
    rw [← before.accepted, ← before.split, List.getElem?_append_right (Nat.le_refl _), Nat.sub_self,
      ← List.head?_eq_getElem?, front]
  have ordered : asked ++ [key] =
      inQueueOrder grammar entailment direction text (asked ++ [key]).length := by
    rw [List.length_append, List.length_singleton, inQueueOrder, ← before.ordered, following]
    rfl
  cases move with
  | @failed other pending accepted stack events failure answer =>
    cases question
    refine ⟨by simpa using before.split, ?_, ordered, ?_, ?_, ?_⟩
    · simpa [ledTo, leads, answersTo_of_error answer] using before.accepted
    · simpa [derivationsOf, answersTo_of_error answer] using before.stacked
    · intro succeeded
      cases succeeded
    · intro reason failed
      cases failed
      exact ⟨asked, _, rfl, answer⟩
  | @answered other pending accepted stack events answers answer =>
    cases question
    refine ⟨?_, ?_, ordered, ?_, ?_, ?_⟩
    · apply DedupQueue.append_pending_addAll
      simpa using before.split
    · calc
        _ = (leads grammar entailment direction text asked ++
              answers.flatMap (childDemands grammar direction)).eraseDups :=
          DedupQueue.reverse_accepted_addAll ⟨pending, accepted⟩ before.accepted _
        _ = ledTo grammar entailment direction text (asked ++ [key]) := by
          simp [ledTo, leads, answersTo_of_ok answer]
    · simpa [ResultStack.items_pushAll, derivationsOf, answersTo_of_ok answer] using before.stacked
    · intro _ other member
      rcases List.mem_append.mp member with earlier | last
      · exact before.answered rfl other earlier
      · cases List.mem_singleton.mp last
        exact ⟨answers, answer⟩
    · intro failure failed
      cases failed

theorem Asks.asked {events : List TraceEvent} {asked : List DerivationKey} {state : Downward}
    (asks : Asks grammar entailment direction (start grammar direction text events) asked state) :
    Asked grammar entailment direction text asked state := by
  induction asks with
  | begin => exact asked_start events
  | ask _ question move ih => exact ih.of_advance question (advance_of_step move)

theorem mem_asked_iff {state : Downward} {events : List TraceEvent} {asked : List DerivationKey}
    (asks : Asks grammar entailment direction (start grammar direction text events) asked state)
    (stopped : step grammar entailment direction state = none) (succeeded : state.failure = none)
    (key : DerivationKey) : key ∈ asked ↔ Demanded grammar entailment direction text key := by
  have drained : state.queue.pending = [] := by
    simpa [succeeded] using step_eq_none_iff.mp stopped
  have closed : asked = ledTo grammar entailment direction text asked := by
    rw [← asks.asked.accepted, ← asks.asked.split, drained, List.append_nil]
  constructor
  · intro member
    rw [closed, ← asks.asked.accepted, List.mem_reverse] at member
    exact (Explored.of_reaches asks.reaches).demanded key member
  · intro demanded
    induction demanded with
    | root rule =>
      rw [closed, mem_ledTo]
      exact Or.inl (mem_demands.mpr ⟨_, rule, rfl⟩)
    | @child parent answers assignment token value production _ answer entailed bound rule ih =>
      rw [closed, mem_ledTo]
      refine Or.inr ⟨parent, ih, assignment, answersTo_of_ok answer ▸ entailed, ?_⟩
      exact mem_childDemands.mpr ⟨_, bound, mem_demands.mpr ⟨production, rule, rfl⟩⟩

theorem Asked.nodup {state : Downward} {asked : List DerivationKey}
    (kept : Asked grammar entailment direction text asked state) : asked.Nodup := by
  have front : asked <+: ledTo grammar entailment direction text asked :=
    ⟨state.queue.pending, kept.split.trans kept.accepted⟩
  exact (nodup_ledTo asked).sublist front.sublist

theorem append_next_begins {α : Type} {front whole : List α} (begins : front <+: whole) :
    front ++ whole[front.length]?.toList <+: whole := by
  obtain ⟨rest, rfl⟩ := begins
  cases rest <;> simp

section Order

variable (grammar entailment direction text)

theorem inQueueOrder_succ (count : Nat) :
    inQueueOrder grammar entailment direction text count <+:
      inQueueOrder grammar entailment direction text (count + 1) :=
  List.prefix_append _ _

theorem inQueueOrder_isLed (count : Nat) :
    inQueueOrder grammar entailment direction text count <+:
      ledTo grammar entailment direction text
        (inQueueOrder grammar entailment direction text count) := by
  induction count with
  | zero => exact List.nil_prefix
  | succ count ih =>
    exact (append_next_begins ih).trans
      (ledTo_mono (inQueueOrder_succ grammar entailment direction text count))

theorem le_length_or_closed (count : Nat) :
    count ≤ (inQueueOrder grammar entailment direction text count).length ∨
      ledTo grammar entailment direction text
          (inQueueOrder grammar entailment direction text count) =
        inQueueOrder grammar entailment direction text count := by
  induction count with
  | zero => exact Or.inl (Nat.zero_le _)
  | succ count ih =>
    have begins := inQueueOrder_isLed grammar entailment direction text count
    rw [inQueueOrder]
    generalize inQueueOrder grammar entailment direction text count = before at ih begins ⊢
    cases next : (ledTo grammar entailment direction text before)[before.length]? with
    | none =>
      have short := List.getElem?_eq_none_iff.mp next
      have closed := begins.eq_of_length_le short
      simp [← closed]
    | some key =>
      rcases ih with long | closed
      · simp [long]
      · simp [closed] at next

theorem inQueueOrder_mono {count more : Nat} (below : count ≤ more) :
    inQueueOrder grammar entailment direction text count <+:
      inQueueOrder grammar entailment direction text more := by
  induction below with
  | refl => exact List.prefix_rfl
  | step _ ih => exact ih.trans (inQueueOrder_succ grammar entailment direction text _)

theorem exists_ledTo_begins (count : Nat) :
    ∃ more, ledTo grammar entailment direction text
        (inQueueOrder grammar entailment direction text count) <+:
      inQueueOrder grammar entailment direction text more := by
  obtain ⟨limit, size⟩ : ∃ limit, limit = (ledTo grammar entailment direction text
    (inQueueOrder grammar entailment direction text count)).length := ⟨_, rfl⟩
  have later : ledTo grammar entailment direction text
        (inQueueOrder grammar entailment direction text count) <+:
      ledTo grammar entailment direction text
        (inQueueOrder grammar entailment direction text (count + limit)) :=
    ledTo_mono (inQueueOrder_mono grammar entailment direction text (Nat.le_add_right _ _))
  refine ⟨count + limit, ?_⟩
  rcases le_length_or_closed grammar entailment direction text (count + limit) with long | closed
  · apply List.prefix_of_prefix_length_le later (inQueueOrder_isLed ..)
    omega
  · exact closed ▸ later

end Order

theorem demanded_of_mem_inQueueOrder {count : Nat} {key : DerivationKey}
    (member : key ∈ inQueueOrder grammar entailment direction text count) :
    Demanded grammar entailment direction text key := by
  induction count generalizing key with
  | zero => cases member
  | succ count ih =>
    have begins := append_next_begins (inQueueOrder_isLed grammar entailment direction text count)
    rcases mem_ledTo.mp (begins.subset member) with
      root | ⟨parent, before, assignment, entailed, led⟩
    · obtain ⟨production, rule, rfl⟩ := mem_demands.mp root
      exact .root rule
    · obtain ⟨answers, answer, among⟩ := exists_ok_of_mem_answersTo entailed
      exact (ih before).of_childDemands answer among led

theorem exists_mem_inQueueOrder {key : DerivationKey}
    (demanded : Demanded grammar entailment direction text key) :
    ∃ count, key ∈ inQueueOrder grammar entailment direction text count := by
  have later {count : Nat} {key : DerivationKey} (led : key ∈ ledTo grammar entailment direction
      text (inQueueOrder grammar entailment direction text count)) :
      ∃ more, key ∈ inQueueOrder grammar entailment direction text more := by
    obtain ⟨more, begins⟩ := exists_ledTo_begins grammar entailment direction text count
    exact ⟨more, begins.subset led⟩
  induction demanded with
  | root rule =>
    exact @later 0 _ (mem_ledTo.mpr (Or.inl (mem_demands.mpr ⟨_, rule, rfl⟩)))
  | @child parent answers assignment token value production _ answer entailed bound rule ih =>
    obtain ⟨count, member⟩ := ih
    refine later (mem_ledTo.mpr (Or.inr ⟨parent, member, assignment, ?_, ?_⟩))
    · exact answersTo_of_ok answer ▸ entailed
    · exact mem_childDemands.mpr ⟨_, bound, mem_demands.mpr ⟨production, rule, rfl⟩⟩

theorem next_or_closed (count : Nat) :
    (∃ key, inQueueOrder grammar entailment direction text (count + 1) =
        inQueueOrder grammar entailment direction text count ++ [key]) ∨
      inQueueOrder grammar entailment direction text (count + 1) =
        inQueueOrder grammar entailment direction text count := by
  rw [inQueueOrder]
  cases (ledTo grammar entailment direction text
      (inQueueOrder grammar entailment direction text count))[
        (inQueueOrder grammar entailment direction text count).length]? with
  | none => exact Or.inr (List.append_nil _)
  | some key => exact Or.inl ⟨key, rfl⟩

theorem Asked.question? {count : Nat} {key : DerivationKey} {state : Downward}
    (kept : Asked grammar entailment direction text
      (inQueueOrder grammar entailment direction text count) state)
    (succeeded : state.failure = none)
    (next : inQueueOrder grammar entailment direction text (count + 1) =
      inQueueOrder grammar entailment direction text count ++ [key]) :
    state.question? = some key := by
  have following : (inQueueOrder grammar entailment direction text count ++ state.queue.pending)[
      (inQueueOrder grammar entailment direction text count).length]? = some key := by
    rw [kept.split, kept.accepted]
    have added := List.append_cancel_left next
    simpa [Option.toList_eq_singleton_iff] using added
  rw [List.getElem?_append_right (Nat.le_refl _), Nat.sub_self, ← List.head?_eq_getElem?]
    at following
  simp [Downward.question?, succeeded, following]

theorem Asked.succeeded {asked : List DerivationKey} {state : Downward}
    (kept : Asked grammar entailment direction text asked state)
    (answered : ∀ key ∈ asked, ∃ answers, entailment key.subtext key.source = .ok answers) :
    state.failure = none := by
  cases failure : state.failure with
  | none => rfl
  | some reason =>
    obtain ⟨before, key, rfl, refused⟩ := kept.failed reason failure
    obtain ⟨answers, answer⟩ := answered key (List.mem_append_right _ List.mem_cons_self)
    rw [refused] at answer
    cases answer

theorem Asks.goOn {events : List TraceEvent} {count : Nat} {state : Downward}
    (asks : Asks grammar entailment direction (start grammar direction text events)
      (inQueueOrder grammar entailment direction text count) state)
    (answered : ∀ key ∈ inQueueOrder grammar entailment direction text count, ∃ answers,
      entailment key.subtext key.source = .ok answers) :
    ∃ next, Asks grammar entailment direction (start grammar direction text events)
      (inQueueOrder grammar entailment direction text (count + 1)) next := by
  rcases next_or_closed count with ⟨key, next⟩ | closed
  · have question := asks.asked.question? (asks.asked.succeeded answered) next
    obtain ⟨after, move⟩ := exists_step question
    exact ⟨after, next ▸ asks.ask question move⟩
  · exact ⟨state, closed ▸ asks⟩

theorem exists_asks_inQueueOrder (events : List TraceEvent) {count : Nat}
    (answered : ∀ key ∈ inQueueOrder grammar entailment direction text count, ∃ answers,
      entailment key.subtext key.source = .ok answers) :
    ∃ state, Asks grammar entailment direction (start grammar direction text events)
      (inQueueOrder grammar entailment direction text (count + 1)) state := by
  induction count with
  | zero => exact Asks.goOn .begin answered
  | succ count ih =>
    obtain ⟨state, asks⟩ := ih fun key member =>
      answered key ((inQueueOrder_succ grammar entailment direction text count).subset member)
    exact asks.goOn answered

/-- The first key in queue order that has no answer, with the reason. -/
def FirstRefused (grammar : Grammar) (entailment : Entailment) (direction : Direction)
    (text : Text) (key : DerivationKey) (failure : TranslateError) : Prop :=
  ∃ count,
    inQueueOrder grammar entailment direction text (count + 1) =
      inQueueOrder grammar entailment direction text count ++ [key] ∧
    (∀ earlier ∈ inQueueOrder grammar entailment direction text count, ∃ answers,
      entailment earlier.subtext earlier.source = .ok answers) ∧
    entailment key.subtext key.source = .error failure

theorem exists_firstRefused {refused : DerivationKey} {reason : TranslateError}
    (demanded : Demanded grammar entailment direction text refused)
    (refusal : entailment refused.subtext refused.source = .error reason) :
    ∃ key failure, FirstRefused grammar entailment direction text key failure := by
  obtain ⟨count, member⟩ := exists_mem_inQueueOrder demanded
  clear demanded
  induction count generalizing refused reason with
  | zero => cases member
  | succ count ih =>
    by_cases answered : ∀ earlier ∈ inQueueOrder grammar entailment direction text count,
        ∃ answers, entailment earlier.subtext earlier.source = .ok answers
    · have late : refused ∉ inQueueOrder grammar entailment direction text count := by
        intro early
        obtain ⟨answers, answer⟩ := answered refused early
        rw [refusal] at answer
        cases answer
      rcases next_or_closed count with ⟨key, next⟩ | closed
      · rw [next] at member
        have last : refused = key := by simpa [late] using member
        exact ⟨key, reason, count, next, answered, last ▸ refusal⟩
      · exact absurd (closed ▸ member) late
    · push Not at answered
      obtain ⟨earlier, before, unanswered⟩ := answered
      cases answer : entailment earlier.subtext earlier.source with
      | ok answers => exact absurd answer (unanswered answers)
      | error failure =>
        exact ih answer before

theorem FirstRefused.exists_endsIn {key : DerivationKey} {failure : TranslateError}
    (first : FirstRefused grammar entailment direction text key failure)
    (events : List TraceEvent) :
    ∃ last, EndsIn (step grammar entailment direction) (start grammar direction text events) last ∧
      last.failure = some failure := by
  obtain ⟨count, next, answered, refusal⟩ := first
  obtain ⟨last, asks⟩ := exists_asks_inQueueOrder events answered
  have failed : last.failure = some failure := by
    cases ended : last.failure with
    | none =>
      obtain ⟨answers, answer⟩ := asks.asked.answered ended key (by simp [next])
      rw [refusal] at answer
      cases answer
    | some reason =>
      obtain ⟨before, refused, same, answer⟩ := asks.asked.failed reason ended
      have final : key = refused := List.append_singleton_inj.mp (next.symm.trans same) |>.2
      rw [← final, refusal] at answer
      exact congrArg some (Except.error.inj answer).symm
  exact ⟨last, ⟨asks.reaches, step_eq_none_iff.mpr (Or.inl (by simp [failed]))⟩, failed⟩

theorem FirstRefused.demanded {key : DerivationKey} {failure : TranslateError}
    (first : FirstRefused grammar entailment direction text key failure) :
    Demanded grammar entailment direction text key := by
  obtain ⟨count, next, _⟩ := first
  apply demanded_of_mem_inQueueOrder
  rw [next]
  exact List.mem_append_right _ List.mem_cons_self

end SyncGrammar.Downward

namespace SyncGrammar.Translator

/-- On a way down without failure each reachable demand is asked about once, in queue order, and
nothing else is, and the stack holds the derivations of the answers, in order. Where a reachable
demand has no answer, the text has none either, for the reason given at the first such demand. -/
theorem asks_each_demand_once (translator : Translator) (text : Text) (direction : Direction) :
    (∀ down, translator.DownEnds text direction down → down.failure = none →
      ∃ asked, Downward.Asks translator.grammar translator.entailment direction
          (translator.downStart text direction) asked down ∧
        asked.Nodup ∧
        asked = Downward.inQueueOrder translator.grammar translator.entailment direction text
          asked.length ∧
        (∀ key, key ∈ asked ↔
          Downward.Demanded translator.grammar translator.entailment direction text key) ∧
        (∀ others : Entailment, (∀ key ∈ asked,
            others key.subtext key.source = translator.entailment key.subtext key.source) →
          Downward.Asks translator.grammar others direction
            (translator.downStart text direction) asked down) ∧
        down.stack.items.reverse = asked.flatMap (Downward.derivationsOf translator.entailment)) ∧
    ((∃ refused reason,
        Downward.Demanded translator.grammar translator.entailment direction text refused ∧
        translator.entailment refused.subtext refused.source = .error reason) →
      ∃ key failure, Downward.FirstRefused translator.grammar translator.entailment direction text
        key failure) ∧
    ∀ key failure,
      Downward.FirstRefused translator.grammar translator.entailment direction text key failure →
      Downward.Demanded translator.grammar translator.entailment direction text key ∧
      (translator.config.directions.allows direction = true →
        translator.Yields text direction (.error failure)) := by
  refine ⟨?_, ?_, ?_⟩
  · intro down ends succeeded
    obtain ⟨asked, asks⟩ := Downward.exists_asks ends.reached
    exact ⟨asked, asks, asks.asked.nodup, asks.asked.ordered,
      Downward.mem_asked_iff asks ends.stopped succeeded, fun others => asks.congr,
      asks.asked.stacked⟩
  · rintro ⟨refused, reason, demanded, refusal⟩
    exact Downward.exists_firstRefused demanded refusal
  · intro key failure first
    refine ⟨first.demanded, fun allowed => ?_⟩
    obtain ⟨down, ends, failed⟩ := first.exists_endsIn (.opened "downward" ::
      openingEvents direction text [])
    exact yields_of_outcome allowed (.failed ends failed)

def unitLoopRefusals : Entailment :=
  .ofRows [
    ⟨"a".toList, "<x>".toList, .ok [⟨[("<x>".toList, "a".toList)]⟩]⟩,
    ⟨"a".toList, "a".toList, .error "letter"⟩,
    ⟨"a".toList, "<z>".toList, .error "loop"⟩]

theorem firstRefused_unitLoop :
    Downward.FirstRefused unitLoop unitLoopRefusals .forward "a".toList
      ⟨"a".toList, "<x>".toList, "<z>".toList, "X(<z>)".toList⟩ (.entailment "loop") := by
  have begins : Downward.inQueueOrder unitLoop unitLoopRefusals .forward "a".toList 1 =
      [⟨"a".toList, "<r>".toList, "<x>".toList, "R(<x>)".toList⟩] := by
    decide +kernel
  refine ⟨1, by decide +kernel, ?_, by rfl⟩
  rw [begins]
  intro earlier member
  cases List.mem_singleton.mp member
  exact ⟨_, rfl⟩

theorem asks_each_demand_once_unitLoop :
    (∃ down asked,
      DownEnds ⟨unitLoop, .standard, unitLoopAnswers⟩ "a".toList .forward down ∧
      Downward.Asks unitLoop unitLoopAnswers .forward
        (downStart ⟨unitLoop, .standard, unitLoopAnswers⟩ "a".toList .forward) asked down ∧
      asked.Nodup ∧
      (∀ key, key ∈ asked ↔
        Downward.Demanded unitLoop unitLoopAnswers .forward "a".toList key) ∧
      down.stack.items.reverse = asked.flatMap (Downward.derivationsOf unitLoopAnswers)) ∧
    Yields ⟨unitLoop, .standard, unitLoopRefusals⟩ "a".toList .forward
      (.error (.entailment "loop")) := by
  have confined : unitLoopAnswers.Confined unitLoop :=
    Entailment.confined_ofRows (by decide +kernel)
  obtain ⟨down, ends⟩ := @exists_downEnds ⟨unitLoop, .standard, unitLoopAnswers⟩ confined
    "a".toList .forward
  have succeeded : down.failure = none := by
    cases failure : down.failure with
    | none => rfl
    | some reason =>
      obtain ⟨key, _, refusal⟩ := Downward.failure_demanded ends failure
      obtain ⟨answers, answer⟩ : ∃ answers, unitLoopAnswers key.subtext key.source = .ok answers :=
        Entailment.exists_answers_ofRows (by decide +kernel) key.subtext key.source
      exact absurd (refusal.symm.trans answer) (by simp)
  constructor
  · obtain ⟨asked, asks, distinct, _, exactly, _, stacked⟩ :=
      (asks_each_demand_once ⟨unitLoop, .standard, unitLoopAnswers⟩ "a".toList .forward).1 down ends
        succeeded
    exact ⟨down, asked, ends, asks, distinct, exactly, stacked⟩
  · exact ((asks_each_demand_once ⟨unitLoop, .standard, unitLoopRefusals⟩ "a".toList
      .forward).2.2 _ _ firstRefused_unitLoop).2 rfl

end SyncGrammar.Translator
