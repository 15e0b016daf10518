import SyncGrammar.Proofs.Containment
import SyncGrammar.Proofs.FaithfulEngine

/-!
The engine of this library takes the leftmost match and of those the preferred one. It drops ways
that end where a preferred way has ended before, which never drops the first of all ways.
-/
namespace SyncGrammar

namespace Mark

theorem distinctFrom_congr {seen others : List Nat} (same : ∀ place, place ∈ seen ↔ place ∈ others)
    (marks : List Mark) : distinctFrom seen marks = distinctFrom others marks := by
  induction marks generalizing seen others with
  | nil => rfl
  | cons mark marks ih =>
    have further : ∀ place, place ∈ mark.position :: seen ↔ place ∈ mark.position :: others := by
      simp [same]
    simp only [distinctFrom, List.contains_iff_mem, same, ih same, ih further]

theorem distinctFrom_append (seen : List Nat) (first second : List Mark) :
    distinctFrom seen (first ++ second) =
      distinctFrom seen first ++ distinctFrom (first.map position ++ seen) second := by
  induction first generalizing seen with
  | nil => rfl
  | cons mark first ih =>
    rw [List.cons_append, distinctFrom, distinctFrom]
    split
    · rename_i known
      rw [ih, List.map_cons, List.cons_append]
      refine congrArg _ (distinctFrom_congr (fun place => ?_) second)
      simp only [List.mem_append, List.mem_cons]
      refine ⟨Or.inr, fun either => either.elim (fun here => Or.inr ?_) id⟩
      exact here ▸ List.contains_iff_mem.mp known
    · rw [ih, List.map_cons, List.cons_append, List.cons_append]
      refine congrArg _ (congrArg _ (distinctFrom_congr (fun place => ?_) second))
      simp only [List.mem_append, List.mem_cons]
      exact or_left_comm

theorem distinctFrom_eq_nil {seen : List Nat} {marks : List Mark}
    (known : ∀ mark ∈ marks, mark.position ∈ seen) : distinctFrom seen marks = [] := by
  induction marks with
  | nil => rfl
  | cons mark marks ih =>
    rw [List.forall_mem_cons] at known
    rw [distinctFrom, if_pos (List.contains_iff_mem.mpr known.1), ih known.2]

/-- Where a step goes from a mark is a matter of the place of the mark alone. -/
def Positional (step : Mark → List Mark) : Prop :=
  ∀ mark other, mark.position = other.position →
    (step mark).map position = (step other).map position

variable {step : Mark → List Mark}

theorem distinctFrom_flatMap (positional : Positional step) {seen done : List Nat}
    (stale : ∀ mark, mark.position ∈ done → ∀ next ∈ step mark, next.position ∈ seen)
    (marks : List Mark) :
    distinctFrom seen ((distinctFrom done marks).flatMap step) =
      distinctFrom seen (marks.flatMap step) := by
  induction marks generalizing seen done with
  | nil => rfl
  | cons mark marks ih =>
    rw [List.flatMap_cons, distinctFrom_append, distinctFrom]
    split
    · -- what has been passed over leads only to places that are known
      rename_i known
      have old := stale mark (List.contains_iff_mem.mp known)
      rw [distinctFrom_eq_nil old, List.nil_append, ih stale]
      refine distinctFrom_congr (fun place => ?_) _
      simp only [List.mem_append, List.mem_map]
      refine ⟨Or.inr, fun either => either.elim (fun ⟨next, inside, here⟩ => ?_) id⟩
      exact here ▸ old next inside
    · rw [List.flatMap_cons, distinctFrom_append]
      refine congrArg _ (ih fun other here next inside => List.mem_append.mpr ?_)
      rcases List.mem_cons.mp here with same | old
      · refine Or.inl ?_
        rw [← positional other mark same]
        exact List.mem_map_of_mem inside
      · exact Or.inr (stale other old next inside)

theorem distinct_flatMap (positional : Positional step) (marks : List Mark) :
    distinct ((distinct marks).flatMap step) = distinct (marks.flatMap step) :=
  distinctFrom_flatMap positional (fun _ none => absurd none List.not_mem_nil) marks

theorem distinct_distinct (marks : List Mark) : distinct (distinct marks) = distinct marks := by
  have single : Positional fun mark => [mark] :=
    fun _ _ same => congrArg (fun place => [place]) same
  simpa using distinct_flatMap single marks

theorem head?_distinct (marks : List Mark) : (distinct marks).head? = marks.head? := by
  cases marks with
  | nil => rfl
  | cons mark marks => simp [distinct, distinctFrom]

end Mark

namespace Regex

variable {subject : Subject} {regex : Regex} {more : List Regex} {text : Text}
  {sets : Text → Char → Bool} {number? : Text → Option Nat} {pieces : List Pattern.Piece}

def waysAlong (subject : Subject) : List Regex → Mark → List Mark
  | [], mark => [mark]
  | regex :: more, mark => (regex.outcomes subject mark).flatMap (waysAlong subject more)

theorem waysAlong_append (more : List Regex) (last : Regex) (mark : Mark) :
    waysAlong subject (more ++ [last]) mark =
      (waysAlong subject more mark).flatMap (last.outcomes subject) := by
  induction more generalizing mark with
  | nil => simp [waysAlong]
  | cons regex more ih =>
    rw [List.cons_append, waysAlong, waysAlong, List.flatMap_assoc]
    exact congrArg (List.flatMap · _) (funext ih)

theorem distinct_outcomes (positional : ∀ regex ∈ more, Mark.Positional (regex.outcomes subject))
    (mark : Mark) :
    Mark.distinct ((seqOfReversed more.reverse).outcomes subject mark) =
      Mark.distinct (waysAlong subject more mark) := by
  induction more using List.reverseRecOn with
  | nil => rfl
  | append_singleton before last ih =>
    have onward := positional last (by simp)
    have earlier := ih fun regex member => positional regex (List.mem_append_left _ member)
    rw [waysAlong_append, List.reverse_append, List.reverse_singleton, List.singleton_append]
    cases reversed : before.reverse with
    | nil =>
      rw [List.reverse_eq_nil_iff.mp reversed]
      simp [seqOfReversed, waysAlong]
    | cons other rest =>
      rw [reversed] at earlier
      rw [seqOfReversed, outcomes, follow, Mark.distinct_distinct, ← Mark.distinct_flatMap onward,
        earlier, Mark.distinct_flatMap onward]
      simp

def Straight (regex : Regex) : Prop :=
  (∃ set, regex = char set) ∨ ∃ index set, regex = group index (oneOrMore set)

theorem Straight.positional (straight : Straight regex) :
    Mark.Positional (regex.outcomes subject) := by
  rcases straight with ⟨set, rfl⟩ | ⟨index, set, rfl⟩
  · intro mark other same
    simp only [outcomes, Subject.step?, same]
    split <;> simp [Mark.advance, same]
  · intro mark other same
    simp [outcomes, oneOrMore, runs, same, Mark.capture, Function.comp_def]

abbrev SpelledByRuns (sets : Text → Char → Bool) (number? : Text → Option Nat) :
    List Pattern.Piece → List Regex → Prop :=
  Spelled number? fun expression body =>
    ∃ set : CharClass, sets expression = set.contains ∧ body = oneOrMore set

theorem straight_of_spelled (spelled : SpelledByRuns sets number? pieces more)
    (once : ∀ name, .again name ∉ pieces) : ∀ regex ∈ more, Straight regex := by
  induction spelled with
  | nil => exact fun _ none => absurd none List.not_mem_nil
  | literal _ ih =>
    intro regex member
    rcases List.mem_append.mp member with here | later
    · obtain ⟨c, -, rfl⟩ := List.mem_map.mp here
      exact Or.inl ⟨_, rfl⟩
    · exact ih (fun name inside => once name (List.mem_cons_of_mem _ inside)) regex later
  | group _ fit _ _ ih =>
    rw [List.forall_mem_cons]
    obtain ⟨set, -, rfl⟩ := fit
    exact ⟨Or.inr ⟨_, set, rfl⟩, ih fun name inside => once name (List.mem_cons_of_mem _ inside)⟩
  | again => exact absurd List.mem_cons_self (once _)

/-! The ways of the engine and those of the pieces. -/

def markOf (number? : Text → Option Nat) (way : Pattern.Way) : Mark where
  position := way.place
  groups := way.named.map fun (name, extent) =>
    ((number? name).getD 0, extent.start, extent.finish)

theorem any_getElem?_toArray (text : Text) (place : Nat) (set : Char → Bool) :
    text.toArray[place]?.any set = (text.drop place).head?.any set := by
  rw [List.head?_drop, List.getElem?_toArray]

theorem waysAlong_spelledOut (written : Text) (more : List Regex) (mark : Mark) :
    waysAlong text.toArray (spelledOut written ++ more) mark =
      if written <+: text.drop mark.position then
        waysAlong text.toArray more { mark with position := mark.position + written.length }
      else [] := by
  induction written generalizing mark with
  | nil => simp [spelledOut]
  | cons c written ih =>
    have single (d : Char) : (CharClass.single c).contains d = true ↔ c = d := by
      simp only [CharClass.single, CharClass.contains, Bool.and_eq_true, decide_eq_true_eq]
      exact ⟨fun bounds => Char.le_antisymm bounds.1 bounds.2, fun same => by simp [same]⟩
    have onward := ih mark.advance
    have behind : text.drop mark.advance.position = (text.drop mark.position).tail := by
      rw [List.tail_drop, Mark.advance]
    rw [behind] at onward
    rw [spelledOut, List.map_cons, List.cons_append, waysAlong, outcomes, Subject.step?,
      any_getElem?_toArray]
    cases ahead : text.drop mark.position with
    | nil => simp
    | cons d rest =>
      rw [ahead, List.tail_cons] at onward
      rw [List.head?_cons, Option.any_some]
      by_cases same : c = d
      · rw [if_pos ((single d).mpr same)]
        simp only [Option.toList_some, List.flatMap_singleton, same, List.cons_prefix_cons,
          true_and, List.length_cons]
        rw [← spelledOut, onward, Mark.advance, Nat.add_assoc, Nat.add_comm 1]
      · rw [if_neg (fun member => same ((single d).mp member)),
          if_neg (fun stands => same (List.cons_prefix_cons.mp stands).1)]
        rfl

theorem runLength_eq (set : CharClass) {limit place : Nat} (enough : text.length ≤ place + limit) :
    runLength text.toArray set limit place =
      ((text.drop place).takeWhile set.contains).length := by
  induction limit generalizing place with
  | zero =>
    rw [List.drop_eq_nil_of_le (by simpa using enough)]
    rfl
  | succ limit ih =>
    have behind : text.drop (place + 1) = (text.drop place).tail := by rw [List.tail_drop]
    rw [runLength, any_getElem?_toArray, ih (by omega), behind]
    cases text.drop place with
    | nil => rfl
    | cons c rest =>
      rw [List.head?_cons, Option.any_some, List.takeWhile_cons, List.tail_cons]
      split <;> simp

theorem outcomes_group (index : Nat) (set : CharClass) (mark : Mark) :
    (group index (oneOrMore set)).outcomes text.toArray mark =
      (Pattern.runLengths set.contains (text.drop mark.position)).map fun length =>
        ⟨mark.position + length,
          (index, mark.position, mark.position + length) :: mark.groups⟩ := by
  have length := @runLength_eq text set text.length mark.position (Nat.le_add_left _ _)
  simp [outcomes, oneOrMore, runs, length, Pattern.runLengths, Mark.capture, Function.comp_def]

/-- The engine goes over the pieces in all the ways there are, in the same order. -/
theorem waysAlong_eq (spelled : SpelledByRuns sets number? pieces more)
    (once : ∀ name, .again name ∉ pieces) (way : Pattern.Way) :
    waysAlong text.toArray more (markOf number? way) =
      (Pattern.ways sets text pieces way).map (markOf number?) := by
  induction spelled generalizing way with
  | nil => rfl
  | @literal written _ _ _ ih =>
    have later := ih (fun name inside => once name (List.mem_cons_of_mem _ inside))
      ⟨way.place + written.length, way.named⟩
    rw [waysAlong_spelledOut, Pattern.ways, Pattern.Piece.ways, markOf]
    split
    · rw [List.flatMap_singleton]
      exact later
    · rfl
  | @group name expression index body _ _ numbered fit _ _ ih =>
    obtain ⟨set, same, rfl⟩ := fit
    have later := ih fun name inside => once name (List.mem_cons_of_mem _ inside)
    rw [waysAlong, outcomes_group, Pattern.ways, Pattern.Piece.ways, same, List.flatMap_map,
      List.flatMap_map, List.map_flatMap]
    refine congrArg (List.flatMap · _) (funext fun length => ?_)
    rw [← later]
    simp [markOf, numbered]
  | again => exact absurd List.mem_cons_self (once _)

theorem exists_number {fits : Text → Regex → Prop} (spelled : Spelled number? fits pieces more)
    {name expression : Text} (member : .group name expression ∈ pieces) :
    ∃ index ∈ more.flatMap numbers, number? name = some index := by
  induction spelled with
  | nil => exact absurd member List.not_mem_nil
  | literal _ ih =>
    obtain ⟨index, inside, found⟩ := ih (by simpa using member)
    rw [List.flatMap_append]
    exact ⟨index, List.mem_append_right _ inside, found⟩
  | group numbered _ _ _ ih =>
    rcases List.mem_cons.mp member with here | later
    · cases here
      exact ⟨_, List.mem_append_left _ List.mem_cons_self, numbered⟩
    · obtain ⟨index, inside, found⟩ := ih later
      exact ⟨index, List.mem_append_right _ inside, found⟩
  | again _ _ _ ih =>
    obtain ⟨index, inside, found⟩ := ih (by simpa using member)
    exact ⟨index, List.mem_append_right _ inside, found⟩

theorem lookup_eq_none_of_ne {α β : Type} [BEq α] [LawfulBEq α] {entries : List (α × β)} {key : α}
    (differ : ∀ entry ∈ entries, entry.1 ≠ key) : entries.lookup key = none := by
  rw [List.lookup_eq_none_iff]
  exact fun entry member => bne_iff_ne.mpr (differ entry member).symm

/-- What is recorded behind a group has other numbers, hence other names as well. -/
theorem unrecorded_of_numbered {name : Text} {index : Nat} {new : List (Text × Extent)}
    (numbered : number? name = some index)
    (differs : ∀ entry ∈ new, ∃ other ≠ index, number? entry.1 = some other) :
    new.lookup name = none ∧ (new.map fun (name, extent) =>
      ((number? name).getD 0, extent.start, extent.finish)).lookup index = none := by
  constructor
  · refine lookup_eq_none_of_ne fun entry inside equal => ?_
    obtain ⟨other, apart, found⟩ := differs entry inside
    rw [equal, numbered] at found
    exact apart (Option.some.inj found).symm
  · refine lookup_eq_none_of_ne fun entry inside => ?_
    obtain ⟨⟨own, extent⟩, listed, rfl⟩ := List.mem_map.mp inside
    obtain ⟨other, apart, found⟩ := differs _ listed
    simpa [found] using apart

theorem exists_recorded (spelled : SpelledByRuns sets number? pieces more)
    (once : ∀ name, .again name ∉ pieces) {way last : Pattern.Way}
    (member : last ∈ Pattern.ways sets text pieces way) :
    (∃ new, last.named = new ++ way.named ∧
      ∀ entry ∈ new, ∃ expression, .group entry.1 expression ∈ pieces) ∧
    ∀ name expression, .group name expression ∈ pieces → ∃ index extent,
      number? name = some index ∧ last.named.lookup name = some extent ∧
        extent? (markOf number? last) index = some extent := by
  induction spelled generalizing way with
  | nil =>
    obtain rfl := List.mem_singleton.mp member
    exact ⟨⟨[], rfl, by simp⟩, by simp⟩
  | literal _ ih =>
    obtain ⟨next, here, later⟩ := List.mem_flatMap.mp member
    rw [Pattern.Piece.ways] at here
    split at here
    · obtain rfl := List.mem_singleton.mp here
      obtain ⟨⟨new, same, among⟩, recorded⟩ :=
        ih (fun name inside => once name (List.mem_cons_of_mem _ inside)) later
      refine ⟨⟨new, same, fun entry inside => ?_⟩, fun name expression inside => ?_⟩
      · obtain ⟨expression, group⟩ := among entry inside
        exact ⟨expression, List.mem_cons_of_mem _ group⟩
      · exact recorded name expression (by simpa using inside)
    · cases here
  | @group name expression index body _ _ numbered _ unique onward ih =>
    obtain ⟨next, here, later⟩ := List.mem_flatMap.mp member
    obtain ⟨length, -, rfl⟩ := List.mem_map.mp here
    obtain ⟨⟨new, same, among⟩, recorded⟩ :=
      ih (fun name inside => once name (List.mem_cons_of_mem _ inside)) later
    have differs : ∀ entry ∈ new, ∃ other ≠ index, number? entry.1 = some other := by
      intro entry inside
      obtain ⟨otherExpression, group⟩ := among entry inside
      obtain ⟨other, own, found⟩ := exists_number onward group
      exact ⟨other, fun equal => unique (equal ▸ own), found⟩
    constructor
    · refine ⟨new ++ [(name, _)], by rw [same, List.append_assoc]; rfl, fun entry inside => ?_⟩
      rcases List.mem_append.mp inside with behind | now
      · obtain ⟨otherExpression, group⟩ := among entry behind
        exact ⟨otherExpression, List.mem_cons_of_mem _ group⟩
      · rw [List.mem_singleton.mp now]
        exact ⟨expression, List.mem_cons_self⟩
    · intro other otherExpression inside
      rcases List.mem_cons.mp inside with now | behind
      · cases now
        obtain ⟨byName, byNumber⟩ := unrecorded_of_numbered numbered differs
        refine ⟨index, ⟨way.place, way.place + length⟩, numbered, ?_, ?_⟩
        · rw [same, List.lookup_append, byName, Option.none_or, List.lookup_cons_self]
        · rw [extent?, Mark.group?, markOf, same, List.map_append, List.lookup_append, byNumber]
          simp [numbered]
      · exact recorded other otherExpression behind
  | again => exact absurd List.mem_cons_self (once _)

/-! Searching. -/

theorem isPlain_seqOfReversed (plain : ∀ regex ∈ more, regex.isPlain = true) :
    (seqOfReversed more).isPlain = true := by
  fun_induction seqOfReversed more with
  | case1 => rfl
  | case2 last => exact plain last List.mem_cons_self
  | case3 last before _ ih =>
    rw [List.forall_mem_cons] at plain
    rw [isPlain, ih plain.2, plain.1]
    rfl

def first? (regex : Regex) (subject : Subject) : Option Match :=
  (List.range (subject.size + 1)).findSome? fun start =>
    (regex.outcomes subject ⟨start, []⟩).head?.map (Match.mk start)

theorem search_eq (plain : regex.isPlain = true) :
    regex.search subject 0 =
      match regex.first? subject with
      | some found => .matched found.start found.mark
      | none => .unmatched := by
  have searched (count start : Nat) : regex.searchPlain subject count start =
      match (List.range' start count).findSome? fun start =>
        (regex.outcomes subject ⟨start, []⟩).head?.map (Match.mk start) with
      | some found => .matched found.start found.mark
      | none => .unmatched := by
    induction count generalizing start with
    | zero => rfl
    | succ count ih =>
      rw [searchPlain, List.range'_succ, List.findSome?_cons]
      cases (regex.outcomes subject ⟨start, []⟩).head? with
      | some mark => rfl
      | none => exact ih (start + 1)
  rw [search, if_pos plain, first?, List.range_eq_range']
  exact searched _ 0

theorem head?_findAll (plain : regex.isPlain = true) :
    (regex.findAll subject).found.head? = regex.first? subject := by
  rw [findAll, matchesFrom, search_eq plain]
  cases regex.first? subject with
  | none => rfl
  | some found =>
    dsimp only
    split
    · rw [if_neg (by simp)]
      rfl
    · rfl

theorem givenUp_findAll (plain : regex.isPlain = true) :
    (regex.findAll subject).givenUp = false := by
  have plainly (count start : Nat) : regex.searchPlain subject count start ≠ .givenUp := by
    induction count generalizing start with
    | zero => simp [searchPlain]
    | succ count ih =>
      rw [searchPlain]
      split
      · simp
      · exact ih _
  have never (fuel start : Nat) (previous : Option Nat) :
      (regex.matchesFrom subject fuel start previous).givenUp = false := by
    induction fuel generalizing start previous with
    | zero => rfl
    | succ fuel ih =>
      rw [matchesFrom]
      split
      · rfl
      · rename_i given
        rw [search, if_pos plain] at given
        exact absurd given (plainly _ _)
      · dsimp only
        split
        · split
          · exact ih _ _
          · exact ih _ _
        · exact ih _ _
  exact never _ _ _

structure GreedilySpelled (sets : Text → Char → Bool) (pieces : List Pattern.Piece)
    (regex : NamedRegex) : Prop where
  plain : regex.regex.isPlain = true
  unmoved : 0 ∉ regex.regex.numbers
  head?_outcomes : ∀ text start, (regex.regex.outcomes text.toArray ⟨start, []⟩).head? =
    (Pattern.ways sets text pieces ⟨start, []⟩).head?.map (markOf (regex.names.lookup ·))
  recorded : ∀ text start, ∀ way ∈ Pattern.ways sets text pieces ⟨start, []⟩,
    ∀ name expression, .group name expression ∈ pieces →
      (captures regex.names ⟨start, markOf (regex.names.lookup ·) way⟩).group? name =
        way.named.lookup name

theorem greedilySpelled_of_compile {regex : NamedRegex} (named : Pattern.WellNamed 0 pieces)
    (overRuns : Pattern.OverRuns sets IsClass pieces)
    (compiled : engine.compile (pieces.flatMap (Pattern.Piece.written engine.escape)) =
      .ok regex) : GreedilySpelled sets pieces regex := by
  obtain ⟨runs, once⟩ := overRuns
  have fill : ∀ name expression, .group name expression ∈ pieces → Fills
      (fun body => ∃ set : CharClass, sets expression = set.contains ∧ body = oneOrMore set)
      expression := by
    intro name expression member
    obtain ⟨written, rfl, isClass⟩ := runs name expression member
    exact isClass.fills_oneOrMore
  obtain ⟨more, same, spelled, unmoved⟩ := exists_spelled_of_compile named fill compiled
  have straight := straight_of_spelled spelled once
  constructor
  · rw [same]
    refine isPlain_seqOfReversed fun piece member => ?_
    rcases straight piece (List.mem_reverse.mp member) with ⟨set, rfl⟩ | ⟨index, set, rfl⟩
    · rfl
    · rfl
  · rwa [same, numbers_seqOfReversed]
  · intro text start
    have ways : waysAlong text.toArray more ⟨start, []⟩ =
        (Pattern.ways sets text pieces ⟨start, []⟩).map (markOf (regex.names.lookup ·)) :=
      waysAlong_eq spelled once ⟨start, []⟩
    have first : Mark.distinct ((seqOfReversed more.reverse).outcomes text.toArray ⟨start, []⟩) =
        Mark.distinct (waysAlong text.toArray more ⟨start, []⟩) :=
      distinct_outcomes (fun piece member => (straight piece member).positional) _
    have heads := congrArg List.head? first
    rwa [Mark.head?_distinct, Mark.head?_distinct, ways, List.head?_map, ← same] at heads
  · intro text start way member name expression group
    obtain ⟨-, recorded⟩ := exists_recorded spelled once member
    obtain ⟨index, extent, numbered, byName, byNumber⟩ := recorded name expression group
    rw [byName]
    exact group?_captures numbered byNumber

theorem leftmostFirst_engine : engine.LeftmostFirst IsClass := by
  intro sets table hypothesis regex overRuns compiled text
  have spelled : GreedilySpelled sets (Pattern.pieces table hypothesis) regex :=
    greedilySpelled_of_compile (Pattern.wellNamed_piecesFrom table [] _) overRuns compiled
  refine ⟨by simp [engine, givenUp_findAll spelled.plain], fun preferred found => ?_⟩
  obtain ⟨before, start, after, places, here, skipped⟩ := List.findSome?_eq_some_iff.mp found
  obtain ⟨way, chosen, rfl⟩ := Option.map_eq_some_iff.mp here
  -- the engine passes over the same places and stops at the same one
  have first : regex.regex.first? text.toArray =
      some ⟨start, markOf (regex.names.lookup ·) way⟩ := by
    refine List.findSome?_eq_some_iff.mpr ⟨before, start, after, places, ?_, fun place member => ?_⟩
    · rw [spelled.head?_outcomes, chosen]
      rfl
    · have none := skipped place member
      rw [Option.map_eq_none_iff] at none ⊢
      rw [spelled.head?_outcomes, none]
      rfl
  have sound := sound_of_mem_findAll
    (List.mem_of_mem_head? ((head?_findAll spelled.plain).trans first))
  refine ⟨captures regex.names ⟨start, markOf (regex.names.lookup ·) way⟩, ?_,
    congrArg (Extent.mk · way.place) (sound.begin_eq spelled.unmoved), ?_⟩
  · show (List.map _ _).head? = _
    rw [List.head?_map, head?_findAll spelled.plain, first]
    rfl
  · intro name expression group
    exact spelled.recorded text start way (List.mem_of_mem_head? chosen) name expression group

theorem findsLiterals_engine : engine.FindsLiterals := by
  have spelled {literal : Text} {regex : NamedRegex}
      (compiled : engine.compile (engine.escape literal) = .ok regex) :
      GreedilySpelled (fun _ _ => false) [.literal literal] regex := by
    refine greedilySpelled_of_compile (.literal .nil) ⟨by simp, by simp⟩ ?_
    rwa [List.flatMap_singleton]
  constructor
  · intro literal regex compiled text
    simp [engine, givenUp_findAll (spelled compiled).plain]
  · intro literal regex compiled text
    have greedily := spelled compiled
    have head : (engine.matchesIn regex text).found.head? =
        (regex.regex.first? text.toArray).map (captures regex.names) := by
      rw [← head?_findAll greedily.plain, ← List.head?_map]
      rfl
    rw [← List.isSome_head?, head, Option.isSome_map, first?, List.findSome?_isSome_iff]
    simp only [greedily.head?_outcomes, Option.isSome_map, List.isSome_head?]
    have stands (start : Nat) : Pattern.ways (fun _ _ => false) text [.literal literal]
        ⟨start, []⟩ ≠ [] ↔ literal <+: text.drop start := by
      simp [Pattern.ways, Pattern.Piece.ways]
    simp only [stands, List.size_toArray, List.mem_range]
    constructor
    · rintro ⟨start, -, here⟩
      exact here.isInfix.trans (List.drop_suffix start text).isInfix
    · rintro ⟨before, after, rfl⟩
      refine ⟨before.length, by simp only [List.length_append]; omega, after, ?_⟩
      rw [List.append_assoc, List.drop_left]

end Regex

end SyncGrammar
