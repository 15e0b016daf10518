import SyncGrammar.Proofs.Filling
import SyncGrammar.Proofs.Termination

namespace SyncGrammar

namespace Assignment

def ofValues (tokens : List Text) (value : Text → Text) : Assignment :=
  ⟨tokens.map fun token => (token, value token)⟩

def valueOf (assignment : Assignment) (token : Text) : Text :=
  (assignment.get? token).getD []

variable {tokens : List Text} {value : Text → Text} {token : Text}

theorem tokens_ofValues : (ofValues tokens value).tokens = tokens := by
  rw [Assignment.tokens, ofValues, List.map_map]
  exact List.map_id tokens

theorem get?_ofValues (member : token ∈ tokens) :
    (ofValues tokens value).get? token = some (value token) := by
  induction tokens with
  | nil => cases member
  | cons first rest ih =>
    rw [ofValues, List.map_cons, get?_cons]
    by_cases same : first = token
    · rw [if_pos same, same]
    · rw [if_neg same]
      apply ih
      exact (List.mem_cons.mp member).resolve_left (Ne.symm same)

theorem get?_eq_some_valueOf {assignment : Assignment} (member : token ∈ assignment.tokens) :
    assignment.get? token = some (assignment.valueOf token) := by
  obtain ⟨binding, bound, rfl⟩ := List.mem_map.mp member
  have found : (assignment.get? binding.1).isSome = true := by
    rw [get?, Option.isSome_map, List.find?_isSome]
    exact ⟨binding, bound, by simp⟩
  obtain ⟨value, known⟩ := Option.isSome_iff_exists.mp found
  rw [valueOf, known]
  rfl

theorem eq_ofValues (assignment : Assignment) (distinct : assignment.tokens.Nodup) :
    assignment = ofValues assignment.tokens assignment.valueOf := by
  obtain ⟨bindings⟩ := assignment
  have same (binding : Text × Text) (member : binding ∈ bindings) :
      binding = (binding.1, valueOf ⟨bindings⟩ binding.1) := by
    rw [valueOf, get?_of_mem distinct member]
    rfl
  rw [ofValues, Assignment.tokens, List.map_map, Assignment.mk.injEq]
  calc bindings = bindings.map id := (List.map_id _).symm
    _ = bindings.map _ := List.map_congr_left same

end Assignment

theorem nodup_eraseDups (texts : List Text) : texts.eraseDups.Nodup := by
  induction length : texts.length using Nat.strongRecOn generalizing texts with
  | ind bound ih =>
    cases texts with
    | nil => exact List.nodup_nil
    | cons first rest =>
      rw [List.eraseDups_cons, List.nodup_cons]
      constructor
      · simp [List.mem_eraseDups]
      · apply ih _ _ _ rfl
        have shorter := List.length_filter_le (fun text => !text == first) rest
        simp only [List.length_cons] at length
        omega

namespace Assignment

variable {names tokens : List Text} {value : Text → Text} {side : Text}

theorem fill_ofValues (same : ∀ token, token ∈ tokens ↔ token ∈ Token.tokens names side) :
    Token.fill names (ofValues tokens value).get? side =
      Token.fill names (fun token => some (value token)) side := by
  apply Token.fill_congr
  intro token occurs
  exact get?_ofValues ((same token).mpr occurs)

theorem isToken_of_mem (same : ∀ token, token ∈ tokens ↔ token ∈ Token.tokens names side)
    {binding : Text × Text} (member : binding ∈ (ofValues tokens value).bindings) :
    Token.IsToken names binding.1 := by
  obtain ⟨token, inside, rfl⟩ := List.mem_map.mp member
  exact Token.isToken_of_mem_tokens ((same token).mp inside)

theorem substituteAll_ofValues (bracketed : ∀ name ∈ names, name.Bracketed)
    (same : ∀ token, token ∈ tokens ↔ token ∈ Token.tokens names side) :
    substituteAll (ofValues tokens value).bindings side =
      Token.fill names (fun token => some (value token)) side := by
  rw [Substitution.substituteAll_eq_fill bracketed fun _ => isToken_of_mem same]
  exact fill_ofValues same

theorem substituteAll_valueOf {assignment : Assignment}
    (bracketed : ∀ name ∈ names, name.Bracketed)
    (bound : ∀ token, token ∈ assignment.tokens ↔ token ∈ Token.tokens names side) :
    substituteAll assignment.bindings side =
      Token.fill names (fun token => some (assignment.valueOf token)) side := by
  rw [Substitution.substituteAll_eq_fill bracketed]
  · apply Token.fill_congr
    intro token occurs
    exact get?_eq_some_valueOf ((bound token).mpr occurs)
  · intro binding member
    exact Token.isToken_of_mem_tokens ((bound _).mp (List.mem_map_of_mem member))

theorem inOrder_ofValues (bracketed : ∀ name ∈ names, name.Bracketed)
    (legible : Token.Legible names side)
    (same : ∀ token, token ∈ tokens ↔ token ∈ Token.tokens names side)
    (plain : ∀ token ∈ tokens, (value token).Plain) :
    Substitution.inOrder (ofValues tokens value).bindings side =
      Token.fill names (fun token => some (value token)) side := by
  have plainBindings (binding : Text × Text) (member : binding ∈ (ofValues tokens value).bindings) :
      binding.2.Plain := by
    obtain ⟨token, inside, rfl⟩ := List.mem_map.mp member
    exact plain token inside
  rw [Substitution.inOrder_eq_fill bracketed (fun _ => isToken_of_mem same) plainBindings
    legible.wellCut]
  exact fill_ofValues same

end Assignment

namespace Entailment

variable {names : List Text} {text hypothesis : Text} {assignment : Assignment}

/-- An assignment over the tokens of a hypothesis that turns the hypothesis into a text. -/
def Solves (names : List Text) (text hypothesis : Text) (assignment : Assignment) : Prop :=
  assignment.tokens = (Token.tokens names hypothesis).eraseDups ∧
    substituteAll assignment.bindings hypothesis = text

/-- Every question is answered by its solutions and by nothing else. The tokens of a solution are in
order of first appearance. -/
def Exact (entailment : Entailment) (names : List Text) : Prop :=
  ∀ text hypothesis, ∃ answers, entailment text hypothesis = .ok answers ∧
    ∀ assignment, assignment ∈ answers ↔ Solves names text hypothesis assignment

theorem Solves.nodup (solves : Solves names text hypothesis assignment) :
    assignment.tokens.Nodup := by
  rw [solves.1]
  exact nodup_eraseDups _

theorem Solves.mem_tokens (solves : Solves names text hypothesis assignment) {token : Text} :
    token ∈ assignment.tokens ↔ token ∈ Token.tokens names hypothesis := by
  rw [solves.1, List.mem_eraseDups]

theorem solves_ofValues (bracketed : ∀ name ∈ names, name.Bracketed) (value : Text → Text)
    (hypothesis : Text) :
    Solves names (Token.fill names (fun token => some (value token)) hypothesis) hypothesis
      (.ofValues (Token.tokens names hypothesis).eraseDups value) :=
  ⟨Assignment.tokens_ofValues,
    Assignment.substituteAll_ofValues bracketed fun _ => List.mem_eraseDups⟩

theorem Solves.fill_valueOf (solves : Solves names text hypothesis assignment)
    (bracketed : ∀ name ∈ names, name.Bracketed) :
    Token.fill names (fun token => some (assignment.valueOf token)) hypothesis = text := by
  rw [← Assignment.substituteAll_valueOf bracketed fun _ => solves.mem_tokens]
  exact solves.2

theorem Solves.fill_eq (solves : Solves names text hypothesis assignment)
    (bracketed : ∀ name ∈ names, name.Bracketed) :
    Token.fill names assignment.get? hypothesis = text := by
  have tokens (binding : Text × Text) (member : binding ∈ assignment.bindings) :
      Token.IsToken names binding.1 := by
    have occurs := solves.mem_tokens.mp (List.mem_map_of_mem member)
    exact Token.isToken_of_mem_tokens occurs
  rw [← Substitution.substituteAll_eq_fill bracketed tokens]
  exact solves.2

theorem Solves.confined (solves : Solves names text hypothesis assignment)
    (bracketed : ∀ name ∈ names, name.Bracketed) {binding : Text × Text}
    (member : binding ∈ assignment.bindings) :
    binding.1 ∈ Token.tokens names hypothesis ∧ binding.2 <:+: text ∧
      (binding.2.byteLength = text.byteLength → Token.onlyTokens names hypothesis = true) := by
  have occurs : binding.1 ∈ Token.tokens names hypothesis :=
    solves.mem_tokens.mp (List.mem_map_of_mem member)
  have known : assignment.get? binding.1 = some binding.2 :=
    Assignment.get?_of_mem solves.nodup member
  have filled := solves.fill_eq bracketed
  refine ⟨occurs, ?_, fun level => ?_⟩
  · rw [← filled]
    exact Token.infix_fill occurs known
  · cases mixed : Token.onlyTokens names hypothesis with
    | true => rfl
    | false =>
      have shorter := Token.byteLength_lt_fill occurs known mixed
      rw [filled] at shorter
      omega

theorem Solves.plain_valueOf (solves : Solves names text hypothesis assignment)
    (bracketed : ∀ name ∈ names, name.Bracketed) (plain : text.Plain) {token : Text}
    (member : token ∈ assignment.tokens) : (assignment.valueOf token).Plain := by
  obtain ⟨binding, bound, rfl⟩ := List.mem_map.mp member
  rw [Assignment.valueOf, Assignment.get?_of_mem solves.nodup bound]
  exact plain.of_infix (solves.confined bracketed bound).2.1

variable {entailment : Entailment}

theorem Exact.solves (exact : entailment.Exact names) {answers : List Assignment}
    (answer : entailment text hypothesis = .ok answers) (entails : assignment ∈ answers) :
    Solves names text hypothesis assignment := by
  obtain ⟨solutions, same, solved⟩ := exact text hypothesis
  rw [answer] at same
  cases same
  exact (solved assignment).mp entails

theorem Exact.entails (exact : entailment.Exact names)
    (solves : Solves names text hypothesis assignment) :
    ∃ answers, entailment text hypothesis = .ok answers ∧ assignment ∈ answers := by
  obtain ⟨answers, answer, solved⟩ := exact text hypothesis
  exact ⟨answers, answer, (solved assignment).mpr solves⟩

theorem Exact.confined {grammar : Grammar} (exact : entailment.Exact grammar.variableNames)
    (bracketed : ∀ name ∈ grammar.variableNames, name.Bracketed) :
    entailment.Confined grammar := by
  intro text hypothesis answers answer assignment entails binding member
  exact (exact.solves answer entails).confined bracketed member

def choices (parts : List Text) : List Text → List (List (Text × Text))
  | [] => [[]]
  | token :: rest =>
    (choices parts rest).flatMap fun bindings => parts.map fun part => (token, part) :: bindings

theorem mem_choices {parts tokens : List Text} {bindings : List (Text × Text)} :
    bindings ∈ choices parts tokens ↔
      bindings.map (·.1) = tokens ∧ ∀ binding ∈ bindings, binding.2 ∈ parts := by
  induction tokens generalizing bindings with
  | nil =>
    constructor
    · intro member
      cases List.mem_singleton.mp member
      exact ⟨rfl, by simp⟩
    · rintro ⟨none, -⟩
      rw [List.map_eq_nil_iff.mp none]
      exact List.mem_singleton.mpr rfl
  | cons token rest ih =>
    rw [choices, List.mem_flatMap]
    constructor
    · rintro ⟨others, later, member⟩
      obtain ⟨part, inside, rfl⟩ := List.mem_map.mp member
      obtain ⟨rfl, parts⟩ := ih.mp later
      exact ⟨rfl, List.forall_mem_cons.mpr ⟨inside, parts⟩⟩
    · rintro ⟨named, parts⟩
      cases bindings with
      | nil => cases named
      | cons binding others =>
        obtain ⟨rfl, same⟩ := List.cons.inj named
        rw [List.forall_mem_cons] at parts
        exact ⟨others, ih.mpr ⟨same, parts.2⟩, List.mem_map.mpr ⟨binding.2, parts.1, rfl⟩⟩

/-- Tries all parts of the text as values of the tokens. -/
def exhaustive (names : List Text) : Entailment := fun text hypothesis =>
  .ok (((choices text.parts (Token.tokens names hypothesis).eraseDups).map Assignment.mk).filter
    fun assignment => substituteAll assignment.bindings hypothesis = text)

theorem exact_exhaustive (bracketed : ∀ name ∈ names, name.Bracketed) :
    (exhaustive names).Exact names := by
  intro text hypothesis
  refine ⟨_, rfl, fun assignment => ?_⟩
  rw [List.mem_filter, List.mem_map, decide_eq_true_iff]
  constructor
  · rintro ⟨⟨bindings, member, rfl⟩, written⟩
    exact ⟨(mem_choices.mp member).1, written⟩
  · intro solves
    refine ⟨⟨assignment.bindings, mem_choices.mpr ⟨solves.1, ?_⟩, rfl⟩, solves.2⟩
    intro binding member
    exact Text.mem_parts.mpr (solves.confined bracketed member).2.1

end Entailment

end SyncGrammar
