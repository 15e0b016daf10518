import SyncGrammar.Proofs.Soundness

/-!
Runs of characters. The expression of a class with a plus sign prefers to take all the characters of
the class that it can get. If the value of a token is such a run, and what is written behind it does
not belong to the class, then the preferred way takes the value and no more, so that a pattern of
such expressions is matched by its filled text in the way in which it has been filled.
-/
namespace SyncGrammar.Pattern

variable {names seen : List Text} {sets : Text → Char → Bool} {classes : Text → Char → Bool}
  {value : Text → Text} {cut : List Token.Segment} {text : Text} {way : Way}

/-- Values that can be told from what stands around them: they are runs of characters of their
classes, and the characters between them belong to none of these classes. -/
structure Telling (classes : Text → Char → Bool) (value : Text → Text)
    (cut : List Token.Segment) : Prop where
  apart : ∀ c, .literal c ∈ cut → ∀ name index, .token name index ∈ cut →
    classes name c = false
  runs : ∀ name index, .token name index ∈ cut → value (name ++ index) ≠ [] ∧
    ∀ c ∈ value (name ++ index), classes name c = true

theorem Telling.tail {segment : Token.Segment} (telling : Telling classes value (segment :: cut)) :
    Telling classes value cut := by
  constructor
  · intro c isLiteral name index isToken
    exact telling.apart c (List.mem_cons_of_mem _ isLiteral) name index
      (List.mem_cons_of_mem _ isToken)
  · intro name index isToken
    exact telling.runs name index (List.mem_cons_of_mem _ isToken)

theorem Telling.congr {others : Text → Char → Bool} (telling : Telling classes value cut)
    (same : ∀ name index, .token name index ∈ cut → others name = classes name) :
    Telling others value cut := by
  constructor
  · intro c isLiteral name index isToken
    rw [same name index isToken]
    exact telling.apart c isLiteral name index isToken
  · intro name index isToken
    rw [same name index isToken]
    exact telling.runs name index isToken

theorem Telling.ends {name index : Text} (wellCut : Token.WellCut names (.token name index :: cut))
    (telling : Telling classes value (.token name index :: cut)) :
    Token.WellCut names cut ∧ ∀ c ∈ (cut.flatMap
      (Token.Segment.written fun token => some (value token))).head?, classes name c = false := by
  cases wellCut with
  | last => exact ⟨.nil, fun c none => by cases none⟩
  | @token _ _ c rest _ _ _ onward =>
    refine ⟨onward, fun d first => ?_⟩
    cases first
    exact telling.apart c (List.mem_cons_of_mem _ List.mem_cons_self) name index
      List.mem_cons_self

/-! Preferred ways. -/

theorem head?_flatMap {α β : Type} {entries : List α} {step : α → List β} {first : α} {found : β}
    (head : entries.head? = some first) (onward : (step first).head? = some found) :
    (entries.flatMap step).head? = some found := by
  obtain ⟨rest, rfl⟩ := List.head?_eq_some_iff.mp head
  obtain ⟨others, same⟩ := List.head?_eq_some_iff.mp onward
  rw [List.flatMap_cons, same]
  rfl

theorem ways_prepend {c : Char} {rest : Text} (stands : text.drop way.place = c :: rest)
    (pieces : List Piece) :
    ways sets text (Piece.prepend c pieces) way =
      ways sets text pieces ⟨way.place + 1, way.named⟩ := by
  have behind : text.drop (way.place + 1) = rest := by
    rw [← List.tail_drop, stands, List.tail_cons]
  unfold Piece.prepend
  split
  · simp only [ways, Piece.ways, stands, behind, List.cons_prefix_cons, true_and, List.length_cons]
    split <;> simp [Nat.add_assoc, Nat.add_comm 1]
  · simp [ways, Piece.ways, stands]

theorem head?_runLengths {set : Char → Bool} {run after : Text} (nonempty : run ≠ [])
    (all : ∀ c ∈ run, set c = true) (ends : ∀ c ∈ after.head?, set c = false) :
    (runLengths set (run ++ after)).head? = some run.length := by
  have stops : after.takeWhile set = [] := by
    cases after with
    | nil => rfl
    | cons c after => rw [List.takeWhile_cons_of_neg (by simp [ends c rfl])]
  have whole : (run ++ after).takeWhile set = run := by
    rw [List.takeWhile_append_of_pos all, stops, List.append_nil]
  have positive : 0 < run.length := List.length_pos_iff.mpr nonempty
  rw [runLengths, whole, List.head?_reverse, List.getLast?_range', if_neg (by omega)]
  congr 1
  omega

/-- Where the run in front is followed by something else, it is what the preferred way takes. -/
theorem head?_ways_group {name expression run after : Text}
    (ahead : text.drop way.place = run ++ after) (nonempty : run ≠ [])
    (all : ∀ c ∈ run, sets expression c = true)
    (ends : ∀ c ∈ after.head?, sets expression c = false) :
    ((Piece.group name expression).ways sets text way).head? =
      some ⟨way.place + run.length,
        (name, ⟨way.place, way.place + run.length⟩) :: way.named⟩ := by
  rw [Piece.ways, List.head?_map, ahead, head?_runLengths nonempty all ends]
  rfl

variable {table : VariableTable}

def charsOf (sets : Text → Char → Bool) (table : VariableTable) (name : Text) : Char → Bool :=
  sets ((table.get? name).getD [])

def Records (table : VariableTable) (value : Text → Text) (text : Text) (seen : List Text)
    (cut : List Token.Segment) (way : Way) : Prop :=
  ∀ name index, .token name index ∈ cut → ∃ group expression extent,
    group = groupName ((gathered seen cut).idxOf (name ++ index)) ∧
    .group group expression ∈ piecesFrom table seen cut ∧
    way.named.lookup group = some extent ∧ extent.slice text = value (name ++ index)

/-- The preferred way over the pieces of a pattern takes for each token the value that has been
written for it. -/
theorem exists_preferred (once : (seen ++ cut.filterMap Token.Segment.token?).Nodup)
    (wellCut : Token.WellCut names cut) (telling : Telling (charsOf sets table) value cut)
    (ahead : text.drop way.place =
      cut.flatMap (Token.Segment.written fun token => some (value token))) :
    ∃ last, (ways sets text (piecesFrom table seen cut) way).head? = some last ∧
      (∀ position < seen.length,
        last.named.lookup (groupName position) = way.named.lookup (groupName position)) ∧
      Records table value text seen cut last := by
  induction cut generalizing seen way with
  | nil => exact ⟨way, by simp [piecesFrom, ways, Piece.ways], fun _ _ => rfl, nofun⟩
  | cons segment rest ih =>
    cases segment with
    | literal c =>
      have onwardCut : Token.WellCut names rest := by
        cases wellCut with
        | literal _ onward => exact onward
      have behind : text.drop (way.place + 1) =
          rest.flatMap (Token.Segment.written fun token => some (value token)) := by
        rw [← List.tail_drop, ahead]
        rfl
      obtain ⟨last, preferred, kept, records⟩ :=
        @ih seen ⟨way.place + 1, way.named⟩ once onwardCut telling.tail behind
      refine ⟨last, ?_, kept, fun name index inside => ?_⟩
      · rw [piecesFrom, ways_prepend ahead, preferred]
      · obtain ⟨group, expression, extent, same, member, recorded⟩ :=
          records name index (by simpa using inside)
        exact ⟨group, expression, extent, same, (mem_prepend (by simp) c _).mpr member, recorded⟩
    | token name index =>
      obtain ⟨fresh, onceOnward⟩ := notMem_and_nodup_of_first once
      -- a literal or the end follows, so the run stops where the value does
      obtain ⟨onwardCut, ends⟩ := telling.ends wellCut
      obtain ⟨nonempty, all⟩ := telling.runs name index List.mem_cons_self
      rw [List.flatMap_cons, Token.Segment.written, Option.getD_some] at ahead
      let extent : Extent := ⟨way.place, way.place + (value (name ++ index)).length⟩
      let next : Way := ⟨extent.finish, (groupName seen.length, extent) :: way.named⟩
      have first : ((Piece.group (groupName seen.length) ((table.get? name).getD [])).ways
          sets text way).head? = some next := head?_ways_group ahead nonempty all ends
      have behind : text.drop next.place =
          rest.flatMap (Token.Segment.written fun token => some (value token)) := by
        rw [← List.drop_drop, ahead, List.drop_left]
      have taken : extent.slice text = value (name ++ index) := by
        rw [Extent.slice, ahead, Nat.add_sub_cancel_left, List.take_left]
      obtain ⟨last, preferred, kept, records⟩ :=
        @ih (seen ++ [name ++ index]) next onceOnward onwardCut telling.tail behind
      rw [List.length_append, List.length_singleton] at kept
      refine ⟨last, ?_, fun position inside => ?_, fun other otherIndex inside => ?_⟩
      · rw [piecesFrom_first fresh]
        simpa [ways, Piece.ways] using head?_flatMap first preferred
      · have differs : groupName position ≠ groupName seen.length :=
          fun same => Nat.ne_of_lt inside (groupName_injective same)
        rw [kept position (Nat.lt_succ_of_lt inside), List.lookup_cons, beq_false_of_ne differs]
      · rw [piecesFrom_first fresh, gathered_first fresh]
        rcases List.mem_cons.mp inside with here | later
        · cases here
          refine ⟨_, _, extent, by rw [idxOf_gathered fresh],
            List.mem_cons_of_mem _ List.mem_cons_self, ?_, taken⟩
          rw [kept _ (Nat.lt_succ_self _), List.lookup_cons_self]
        · obtain ⟨group, expression, extent, same, member, recorded⟩ :=
            records other otherIndex later
          refine ⟨group, expression, extent, same, ?_, recorded⟩
          exact List.mem_cons_of_mem _ (List.mem_cons_of_mem _ member)

variable {Compiled : Type} {engine : RegexEngine Compiled}
  {isClass : Text → (Char → Bool) → Prop} {side : Text}

structure OfRuns (engine : RegexEngine Compiled) (isClass : Text → (Char → Bool) → Prop)
    (sets : Text → Char → Bool) (table : VariableTable) (side : Text) : Prop where
  compiles : (compile engine table side).isOk = true
  runs : ∀ name index, .token name index ∈ Token.segments table.names side →
    ∃ written, (table.get? name).getD [] = written ++ ['+'] ∧
      isClass written (charsOf sets table name)
  unrepeated : (Token.tokens table.names side).Nodup

theorem OfRuns.overRuns (ofRuns : OfRuns engine isClass sets table side) :
    OverRuns sets isClass (pieces table side) := by
  refine ⟨fun name expression member => ?_, @again_notMem table _ [] ofRuns.unrepeated⟩
  obtain ⟨declared, index, inside, rfl⟩ := exists_token_of_group member
  exact ofRuns.runs declared index inside

theorem OfRuns.exists_pattern (ofRuns : OfRuns engine isClass sets table side) :
    ∃ pattern, compile engine table side = .ok pattern := by
  have compiles := ofRuns.compiles
  cases compiled : compile engine table side with
  | ok pattern => exact ⟨pattern, rfl⟩
  | error error =>
    rw [compiled] at compiles
    cases compiles

variable (greedy : engine.LeftmostFirst isClass)

include greedy

theorem OfRuns.exists_answers (ofRuns : OfRuns engine isClass sets table side) (text : Text) :
    ∃ answers, Entailment.matching engine table text side = .ok answers := by
  obtain ⟨pattern, compiled⟩ := ofRuns.exists_pattern
  have succeeds := (greedy _ _ _ _ ofRuns.overRuns (of_compile_eq_ok compiled).2.2.1 text).1
  exact ⟨_, Entailment.matching_eq_ok compiled (all_eq_ok succeeds)⟩

theorem OfRuns.exists_answer (ofRuns : OfRuns engine isClass sets table side)
    (wellCut : Token.WellCut table.names (Token.segments table.names side))
    (telling : Telling (charsOf sets table) value (Token.segments table.names side)) :
    ∃ answers,
      Entailment.matching engine table
        (Token.fill table.names (fun token => some (value token)) side) side = .ok answers ∧
      .ofValues (Token.tokens table.names side).eraseDups value ∈ answers := by
  obtain ⟨pattern, compiled⟩ := ofRuns.exists_pattern
  let text := Token.fill table.names (fun token => some (value token)) side
  obtain ⟨succeeds, finds⟩ :=
    greedy _ _ _ _ ofRuns.overRuns (of_compile_eq_ok compiled).2.2.1 text
  obtain ⟨last, preferred, -, records⟩ :=
    @exists_preferred table.names [] sets value _ text ⟨0, []⟩ table ofRuns.unrepeated wellCut
      telling rfl
  have leftmost : leftmostFirst? sets text (pieces table side) =
      some ⟨⟨0, last.place⟩, last.named⟩ := by
    rw [leftmostFirst?, List.range_succ_eq_map, List.findSome?_cons, pieces, preferred]
    rfl
  obtain ⟨first, head, -, same⟩ := finds _ leftmost
  refine ⟨_, Entailment.matching_eq_ok compiled (all_eq_ok succeeds), ?_⟩
  refine List.mem_map.mpr ⟨first, List.mem_of_mem_head? head, ?_⟩
  rw [bindings_of_compile compiled]
  refine congrArg Assignment.mk (List.map_congr_left fun token member => ?_)
  obtain ⟨name, index, inside, rfl⟩ := Token.mem_tokens_iff.mp (List.mem_eraseDups.mp member)
  obtain ⟨group, expression, extent, rfl, isGroup, recorded, taken⟩ := records name index inside
  rw [gathered_segments] at isGroup recorded
  refine congrArg (Prod.mk _) ((valueOf_eq ?_).trans taken)
  rw [same _ _ isGroup]
  exact recorded

end SyncGrammar.Pattern
