import SyncGrammar.Proofs.Passage
import SyncGrammar.Proofs.Pieces
import SyncGrammar.Regex.Engine

/-!
The expression of a pattern, taken apart again. Where the expressions of all variables stay inside
their groups, the spliced text is read as the characters of the literal texts, a group for the first
occurrence of each token, and a reference back to that group for each further one.
-/
namespace SyncGrammar

namespace Regex

open Pattern

/-! Reading on. -/

/-- What comes of reading from one place comes of reading from another as well. -/
def LeadsTo (first last : ReaderState × Text) : Prop :=
  ∀ fuel final, readFrom first.1 fuel first.2 = some final →
    ∃ left, readFrom last.1 left last.2 = some final

theorem LeadsTo.refl (place : ReaderState × Text) : LeadsTo place place :=
  fun fuel _ read => ⟨fuel, read⟩

theorem LeadsTo.trans {first between last : ReaderState × Text} (before : LeadsTo first between)
    (after : LeadsTo between last) : LeadsTo first last := by
  intro fuel final read
  obtain ⟨left, readOn⟩ := before fuel final read
  exact after left final readOn

variable {state next : ReaderState} {text rest : Text} {read : List Regex}

theorem leadsTo_of_forall_readStep {next : ReaderState × Text} (some : text ≠ [])
    (skips : skip state.flags text = .some text)
    (step : ∀ place, readStep state text = .some place → place = next) :
    LeadsTo (state, text) next := by
  intro fuel final reads
  cases fuel with
  | zero =>
    rw [readFrom.eq_2 _ _ some] at reads
    cases reads
  | succ fuel =>
    rw [readFrom.eq_3 _ _ _ some, skips, Option.bind_eq_bind, Option.bind_some] at reads
    obtain ⟨place, read, readOn⟩ := Option.bind_eq_some_iff.mp reads
    exact ⟨fuel, step place read ▸ readOn⟩

theorem leadsTo_of_readStep (some : text ≠ []) (skips : skip state.flags text = .some text)
    (step : readStep state text = .some (next, rest)) : LeadsTo (state, text) (next, rest) :=
  leadsTo_of_forall_readStep some skips fun _ read => Option.some.inj (read.symm.trans step)

theorem skip_eq_self {flags : Flags} (simple : flags.extended = false)
    (apart : ['(', '?', '#'].isPrefixOf text = false) : skip flags text = some text := by
  rw [skip, simple]
  cases text with
  | nil => rfl
  | cons c text => simp [skipFrom, apart]

/-- Behind an expression that has just been read, there is nothing that repeats it and no comment
either. -/
structure Unrepeated (text : Text) : Prop where
  skips : skip {} text = some text
  stops : ∀ body, readLoop {} body text = some (body, text)

theorem unrepeated_nil : Unrepeated [] := ⟨rfl, fun _ => rfl⟩

theorem unrepeated_cons {c : Char} (apart : ['(', '?', '#'].isPrefixOf (c :: text) = false)
    (sign : ∀ d ∈ ['?', '*', '+', '\x7b'], c ≠ d) : Unrepeated (c :: text) := by
  refine ⟨skip_eq_self rfl apart, fun body => ?_⟩
  obtain ⟨noMark, noStar, noPlus, noBrace⟩ : c ≠ '?' ∧ c ≠ '*' ∧ c ≠ '+' ∧ c ≠ '\x7b' := by
    simpa using sign
  simp [readLoop, noMark, noStar, noPlus, noBrace]

theorem readPiece_unrepeated (clear : state.flags = {}) (once : Unrepeated text) (atom : Regex) :
    readPiece state atom text = some (state.push atom, text) := by
  rw [readPiece, clear, once.skips]
  simp [once.stops]

theorem special_of_sign {c : Char} (sign : c ∈ ['?', '*', '+', '\x7b', '(']) :
    isSpecial c = true := by
  simp only [List.mem_cons, List.not_mem_nil, or_false] at sign
  rcases sign with rfl | rfl | rfl | rfl | rfl <;> rfl

theorem unrepeated_escape (literal : Text) (once : Unrepeated rest) :
    Unrepeated (escape literal ++ rest) := by
  cases literal with
  | nil => exact once
  | cons c literal =>
    by_cases special : isSpecial c = true
    · have written : escape (c :: literal) ++ rest = '\\' :: c :: (escape literal ++ rest) := by
        simp [escape, special]
      rw [written]
      exact unrepeated_cons rfl (by simp)
    · have written : escape (c :: literal) ++ rest = c :: (escape literal ++ rest) := by
        simp [escape, special]
      have differs {d : Char} (sign : d ∈ ['?', '*', '+', '\x7b', '(']) : c ≠ d :=
        fun same => special (same ▸ special_of_sign sign)
      have opening : '(' ≠ c := (differs (by decide)).symm
      rw [written]
      refine unrepeated_cons ?_ fun d sign => differs (List.mem_append_left ['('] sign)
      simp [List.isPrefixOf, opening]

theorem unrepeated_written (pieces : List Piece) :
    Unrepeated (pieces.flatMap (Piece.written escape)) := by
  induction pieces with
  | nil => exact unrepeated_nil
  | cons piece pieces ih =>
    rw [List.flatMap_cons]
    cases piece with
    | literal written => exact unrepeated_escape written ih
    | group name expression => exact unrepeated_cons rfl (by simp)
    | again name => exact unrepeated_cons rfl (by simp)

/-! The parts of which the expression of a pattern is made. -/

/-- An expression outside of all groups, of which `read` has been read, the latest first. -/
structure Outside (read : List Regex) (state : ReaderState) : Prop where
  flags : state.flags = {}
  current : state.current = ⟨.plain, none, [], read⟩
  enclosing : state.enclosing = []

theorem Outside.push {piece : Regex} (outside : Outside read state) (some : piece ≠ .empty) :
    Outside (piece :: read) (state.push piece) := by
  refine ⟨outside.flags, ?_, outside.enclosing⟩
  rw [ReaderState.push, Frame.push, if_neg some, outside.current]

theorem readEscape_special {c : Char} (special : isSpecial c = true) (rest : Text) :
    readEscape (c :: rest) = some (.literal c, rest) := by
  simp only [isSpecial, List.contains_iff_mem, List.mem_cons, List.not_mem_nil, or_false] at special
  rcases special with rfl | rfl | rfl | rfl | rfl | rfl | rfl | rfl | rfl | rfl | rfl | rfl | rfl |
    rfl | rfl <;> rfl

theorem leadsTo_character (clear : state.flags = {}) (c : Char) (once : Unrepeated rest) :
    LeadsTo (state, escape [c] ++ rest) (state.push (.char (.single c)), rest) := by
  have piece := readPiece_unrepeated clear once (.char (.single c))
  by_cases special : isSpecial c = true
  · have written : escape [c] ++ rest = '\\' :: c :: rest := by simp [escape, special]
    have read : readAtom state ('\\' :: c :: rest) = some (.char (.single c), rest) := by
      simp [readAtom, readEscape_special special, clear, oneOf, CharClass.folded]
    rw [written]
    refine leadsTo_of_readStep (List.cons_ne_nil _ _) (skip_eq_self (by rw [clear]) rfl) ?_
    simp [readStep, read, piece]
  · have written : escape [c] ++ rest = c :: rest := by simp [escape, special]
    have skips := (unrepeated_escape [c] once).skips
    simp only [isSpecial, List.contains_iff_mem, List.mem_cons, List.not_mem_nil, or_false,
      not_or] at special
    obtain ⟨noEscape, noDot, noPlus, noStar, noMark, noOpening, noClosing, noBar, noBracket, -, -,
      -, noCaret, noDollar, -⟩ := special
    have read : readAtom state (c :: rest) = some (.char (.single c), rest) := by
      simp [readAtom, oneOf, CharClass.folded, *]
    rw [written] at skips ⊢
    refine leadsTo_of_readStep (List.cons_ne_nil _ _) (by rw [clear, skips]) ?_
    simp [readStep, *]

def spelledOut (written : Text) : List Regex :=
  written.map fun c => .char (.single c)

theorem exists_literal (outside : Outside read state) (written : Text) (once : Unrepeated rest) :
    ∃ next, LeadsTo (state, escape written ++ rest) (next, rest) ∧
      Outside ((spelledOut written).reverse ++ read) next ∧
      next.groups = state.groups ∧ next.names = state.names := by
  induction written generalizing state read with
  | nil => exact ⟨state, .refl _, outside, rfl, rfl⟩
  | cons c written ih =>
    have first := leadsTo_character outside.flags c (unrepeated_escape written once)
    have pushed : Outside (.char (.single c) :: read) (state.push (.char (.single c))) :=
      outside.push (by simp)
    obtain ⟨next, onward, ended, groups, names⟩ := ih pushed
    refine ⟨next, ?_, by simpa [spelledOut] using ended, groups, names⟩
    have cut : escape (c :: written) ++ rest = escape [c] ++ (escape written ++ rest) := by
      simp [escape]
    rw [cut]
    exact first.trans onward

theorem isWord_of_mem_groupName {index : Nat} {c : Char} (member : c ∈ groupName index) :
    Unicode.isWord c = true := by
  rcases List.mem_cons.mp member with rfl | digit
  · decide
  · have isDigit := Nat.isDigit_of_mem_toDigits (by decide) (Nat.le_refl 10) digit
    have bounds : 0x30 ≤ c.toNat ∧ c.toNat ≤ 0x39 := Char.isDigit_iff_toNat.mp isDigit
    have first : Unicode.wordRanges = (0x30, 0x39) :: Unicode.wordRanges.tail := rfl
    rw [Unicode.isWord, first, Unicode.inRanges]
    simp [bounds.1, bounds.2]

theorem readName_groupName (index : Nat) (rest : Text) :
    readName '>' (groupName index ++ '>' :: rest) = some (groupName index, rest) := by
  have word : ∀ c ∈ groupName index, Unicode.isWord c = true := fun _ => isWord_of_mem_groupName
  have closing : Unicode.isWord '>' = false := by decide
  have name : (groupName index ++ '>' :: rest).takeWhile Unicode.isWord = groupName index := by
    rw [List.takeWhile_append_of_pos word]
    simp [closing]
  have after : (groupName index ++ '>' :: rest).dropWhile Unicode.isWord = '>' :: rest := by
    rw [List.dropWhile_append_of_pos word]
    simp [closing]
  rw [readName, name, after]
  rfl

theorem leadsTo_again {position number : Nat} (clear : state.flags = {})
    (known : state.names.lookup (groupName position) = some number) (once : Unrepeated rest) :
    LeadsTo (state, Piece.written escape (.again (groupName position)) ++ rest)
      (state.push (.backreference number), rest) := by
  have written : Piece.written escape (.again (groupName position)) ++ rest =
      '\\' :: 'k' :: '<' :: (groupName position ++ '>' :: rest) := by
    simp [Piece.written]
  have read : readAtom state ('\\' :: 'k' :: '<' :: (groupName position ++ '>' :: rest)) =
      some (.backreference number, rest) := by
    simp [readAtom, readEscape, readName_groupName, known]
  rw [written]
  refine leadsTo_of_readStep (List.cons_ne_nil _ _) (skip_eq_self (by rw [clear]) rfl) ?_
  simp [readStep, read, readPiece_unrepeated clear once]

theorem leadsTo_opening (outside : Outside read state) (position : Nat) (expression rest : Text) :
    LeadsTo (state, Piece.written escape (.group (groupName position) expression) ++ rest)
      (state.openNamed (groupName position), expression ++ ')' :: rest) := by
  have written : Piece.written escape (.group (groupName position) expression) ++ rest =
      '(' :: '?' :: 'P' :: '<' :: (groupName position ++ '>' :: (expression ++ ')' :: rest)) := by
    simp [Piece.written]
  have simple : state.flags.extended = false := by rw [outside.flags]
  have behind : skip state.flags
      ('?' :: 'P' :: '<' :: (groupName position ++ '>' :: (expression ++ ')' :: rest))) = some _ :=
    skip_eq_self simple rfl
  have read : readOpening state
      ('?' :: 'P' :: '<' :: (groupName position ++ '>' :: (expression ++ ')' :: rest))) =
        some (state.openNamed (groupName position), expression ++ ')' :: rest) := by
    rw [readOpening, outside.enclosing]
    simp [ReaderState.maxDepth, readName_groupName]
  rw [written]
  refine leadsTo_of_readStep (List.cons_ne_nil _ _) (skip_eq_self simple rfl) ?_
  simp [readStep, behind, read]

/-! What fills a group. -/

/-- Between the two places of the reader, a group has been filled with an expression. -/
structure Filled (fits : Regex → Prop) (inside last : ReaderState) : Prop where
  flags : last.flags = {}
  kind : last.current.kind = inside.current.kind
  outerFlags : last.current.outerFlags = none
  enclosing : last.enclosing = inside.enclosing
  body : fits last.current.body
  grows : inside.groups ≤ last.groups
  numbers : ∀ index ∈ last.current.body.numbers, inside.groups < index
  names : ∃ new, last.names = new ++ inside.names ∧
    ∀ entry ∈ new, ∀ position, entry.1 ≠ groupName position

/-- Wherever an expression is put into a group with no flags set, what can be read at all is read as
an expression that fills the group. -/
def Fills (fits : Regex → Prop) (expression : Text) : Prop :=
  ∀ inside after index, inside.flags = {} → inside.current = .opened (.capture index) none →
    (∃ fuel final, readFrom inside fuel (expression ++ ')' :: after) = some final) →
      ∃ last, LeadsTo (inside, expression ++ ')' :: after) (last, ')' :: after) ∧
        Filled fits inside last

def StaysInside (expression : Text) : Prop :=
  Fills (fun _ => True) expression

theorem exists_closing {fits : Regex → Prop} {position : Nat} {last : ReaderState}
    (outside : Outside read state)
    (filled : Filled fits (state.openNamed (groupName position)) last)
    (once : Unrepeated rest) :
    ∃ next, LeadsTo (last, ')' :: rest) (next, rest) ∧
      Outside (.group (state.groups + 1) last.current.body :: read) next ∧
      next.groups = last.groups ∧ next.names = last.names := by
  have around : last.enclosing = state.current :: state.enclosing := filled.enclosing
  have number : last.current.kind = .capture (state.groups + 1) := filled.kind
  have leaves : last.close? = some (.group (state.groups + 1) last.current.body,
      { last with current := state.current, enclosing := state.enclosing }) := by
    simp [ReaderState.close?, around, Frame.close?, number, filled.outerFlags]
  have left : Outside read
      { last with current := state.current, enclosing := state.enclosing } :=
    ⟨filled.flags, outside.current, outside.enclosing⟩
  refine ⟨_, ?_, left.push (by simp), rfl, rfl⟩
  refine leadsTo_of_readStep (List.cons_ne_nil _ _) (skip_eq_self (by rw [filled.flags]) rfl) ?_
  simp [readStep, number, leaves, readPiece_unrepeated left.flags once]

/-- The expressions that the pieces of a pattern are read as. `number?` gives the number of a group,
and `fits` says what an expression may be read as. What is recorded under a number is not recorded
again by anything behind it. -/
inductive Spelled (number? : Text → Option Nat) (fits : Text → Regex → Prop) :
    List Piece → List Regex → Prop
  | nil : Spelled number? fits [] []
  | literal {written : Text} {pieces : List Piece} {more : List Regex}
      (onward : Spelled number? fits pieces more) :
      Spelled number? fits (.literal written :: pieces) (spelledOut written ++ more)
  | group {name expression : Text} {index : Nat} {body : Regex} {pieces : List Piece}
      {more : List Regex} (numbered : number? name = some index) (fit : fits expression body)
      (unique : index ∉ more.flatMap numbers) (onward : Spelled number? fits pieces more) :
      Spelled number? fits (.group name expression :: pieces) (.group index body :: more)
  | again {name : Text} {index : Nat} {pieces : List Piece} {more : List Regex}
      (numbered : number? name = some index) (unique : index ∉ more.flatMap numbers)
      (onward : Spelled number? fits pieces more) :
      Spelled number? fits (.again name :: pieces) (.backreference index :: more)

theorem lookup_openNamed (state : ReaderState) (count position : Nat) :
    (state.openNamed (groupName count)).names.lookup (groupName position) =
      if position = count then some (state.groups + 1)
      else state.names.lookup (groupName position) := by
  simp only [ReaderState.openNamed, List.lookup_cons]
  by_cases here : position = count
  · simp [here]
  · have differs : (groupName position == groupName count) = false := by
      simpa using fun same => here (groupName_injective same)
    simp [here, differs]

theorem lookup_filled {fits : Regex → Prop} {inside last : ReaderState}
    (filled : Filled fits inside last) (position : Nat) :
    last.names.lookup (groupName position) = inside.names.lookup (groupName position) := by
  obtain ⟨new, named, apart⟩ := filled.names
  have absent : new.lookup (groupName position) = none := by
    rw [List.lookup_eq_none_iff]
    intro entry member
    exact bne_iff_ne.mpr (Ne.symm (apart entry member position))
  rw [named, List.lookup_append, absent, Option.none_or]

theorem numbers_spelledOut (written : Text) : (spelledOut written).flatMap numbers = [] := by
  simp [spelledOut, numbers]

def Known (count : Nat) (state : ReaderState) : Prop :=
  ∀ position < count,
    ∃ number ≤ state.groups, state.names.lookup (groupName position) = some number

theorem exists_group {fits : Regex → Prop} {expression : Text} {count fuel : Nat}
    {final : ReaderState} (fill : Fills fits expression) (outside : Outside read state)
    (once : Unrepeated rest)
    (reads : readFrom state fuel
      (Piece.written escape (.group (groupName count) expression) ++ rest) = some final) :
    ∃ next body, LeadsTo (state, Piece.written escape (.group (groupName count) expression) ++ rest)
        (next, rest) ∧
      Outside (.group (state.groups + 1) body :: read) next ∧ fits body ∧
      (∀ index ∈ body.numbers, state.groups + 1 < index) ∧ state.groups + 1 ≤ next.groups ∧
      ∀ position, next.names.lookup (groupName position) =
        if position = count then some (state.groups + 1)
        else state.names.lookup (groupName position) := by
  have opened := leadsTo_opening outside count expression rest
  obtain ⟨left, readOn⟩ := opened fuel final reads
  obtain ⟨last, inner, filled⟩ := fill (state.openNamed (groupName count)) rest (state.groups + 1)
    outside.flags rfl ⟨left, final, readOn⟩
  obtain ⟨next, closing, ended, groups, names⟩ := exists_closing outside filled once
  refine ⟨next, last.current.body, (opened.trans inner).trans closing, ended, filled.body,
    filled.numbers, ?_, fun position => ?_⟩
  · rw [groups]
    exact filled.grows
  · rw [names, lookup_filled filled, lookup_openNamed]

theorem Known.succ {count : Nat} {next : ReaderState} (known : Known count state)
    (grows : state.groups + 1 ≤ next.groups)
    (lookups : ∀ position, next.names.lookup (groupName position) =
      if position = count then some (state.groups + 1)
      else state.names.lookup (groupName position)) : Known (count + 1) next := by
  intro position inside
  rw [lookups]
  split
  · exact ⟨_, grows, rfl⟩
  · obtain ⟨number, bound, found⟩ := known position (by omega)
    exact ⟨number, by omega, found⟩

theorem exists_spelled {fits : Text → Regex → Prop} {pieces : List Piece} {count fuel : Nat}
    {final : ReaderState} (named : WellNamed count pieces)
    (fill : ∀ name expression, .group name expression ∈ pieces →
      Fills (fits expression) expression)
    (outside : Outside read state) (known : Known count state)
    (reads : readFrom state fuel (pieces.flatMap (Piece.written escape)) = some final) :
    ∃ more, Outside (more.reverse ++ read) final ∧
      Spelled (final.names.lookup ·) fits pieces more ∧
      (∀ index ∈ more.flatMap numbers, state.groups < index) ∧
      ∀ position < count,
        final.names.lookup (groupName position) = state.names.lookup (groupName position) := by
  induction named generalizing state read fuel with
  | nil =>
    obtain rfl : state = final := by simpa [readFrom] using reads
    exact ⟨[], outside, .nil, fun _ none => absurd none List.not_mem_nil, fun _ _ => rfl⟩
  | @literal count written pieces onward ih =>
    rw [List.flatMap_cons] at reads
    obtain ⟨next, first, ended, groups, names⟩ :=
      exists_literal outside written (unrepeated_written pieces)
    obtain ⟨left, readOn⟩ := first fuel final reads
    obtain ⟨more, finished, spelled, above, same⟩ :=
      ih (fun name expression inside => fill name expression (List.mem_cons_of_mem _ inside)) ended
        (by rwa [Known, groups, names]) readOn
    refine ⟨spelledOut written ++ more, by simpa using finished, .literal spelled, ?_, ?_⟩
    · rwa [List.flatMap_append, numbers_spelledOut, List.nil_append, ← groups]
    · rwa [← names]
  | @group count expression pieces onward ih =>
    rw [List.flatMap_cons] at reads
    obtain ⟨next, body, first, ended, fit, own, grows, lookups⟩ :=
      exists_group (fill _ expression List.mem_cons_self) outside (unrepeated_written pieces) reads
    obtain ⟨left, readOn⟩ := first fuel final reads
    obtain ⟨more, finished, spelled, above, same⟩ :=
      ih (fun name expression inside => fill name expression (List.mem_cons_of_mem _ inside)) ended
        (known.succ grows lookups) readOn
    refine ⟨.group (state.groups + 1) body :: more, by simpa using finished, ?_, ?_, ?_⟩
    · refine .group ?_ fit (fun member => ?_) spelled
      · rw [same count (Nat.lt_succ_self _), lookups, if_pos rfl]
      · exact absurd (above _ member) (Nat.not_lt.mpr grows)
    · intro index member
      rw [List.flatMap_cons, numbers, List.cons_append, List.mem_cons, List.mem_append] at member
      rcases member with rfl | inside | behind
      · exact Nat.lt_succ_self _
      · exact Nat.lt_of_succ_lt (own index inside)
      · exact Nat.lt_of_lt_of_le (Nat.lt_of_succ_le grows) (Nat.le_of_lt (above index behind))
    · intro position inside
      rw [same position (by omega), lookups, if_neg (Nat.ne_of_lt inside)]
  | @again count position pieces inside onward ih =>
    rw [List.flatMap_cons] at reads
    obtain ⟨number, bound, found⟩ := known position inside
    have first := leadsTo_again outside.flags found (unrepeated_written pieces)
    have pushed : Outside (.backreference number :: read) (state.push (.backreference number)) :=
      outside.push (by simp)
    obtain ⟨left, readOn⟩ := first fuel final reads
    obtain ⟨more, finished, spelled, above, same⟩ :=
      ih (fun name expression inside => fill name expression (List.mem_cons_of_mem _ inside)) pushed
        known readOn
    refine ⟨.backreference number :: more, by simpa using finished, ?_, above, same⟩
    refine .again ((same position inside).trans found) (fun member => ?_) spelled
    exact absurd (above number member) (Nat.not_lt.mpr bound)

theorem read?_eq_some_of_compile {text : Text} {regex : NamedRegex}
    (compiled : engine.compile text = .ok regex) : NamedRegex.read? text = some regex := by
  dsimp only [engine] at compiled
  split at compiled
  · rename_i whole
    rw [whole, Except.ok.inj compiled]
  · cases compiled

/-- What the engine makes of the expression of a pattern. -/
theorem exists_spelled_of_compile {pieces : List Piece} {regex : NamedRegex}
    {fits : Text → Regex → Prop} (named : WellNamed 0 pieces)
    (fill : ∀ name expression, .group name expression ∈ pieces →
      Fills (fits expression) expression)
    (compiled : engine.compile (pieces.flatMap (Piece.written engine.escape)) = .ok regex) :
    ∃ more, regex.regex = seqOfReversed more.reverse ∧
      Spelled (regex.names.lookup ·) fits pieces more ∧ 0 ∉ more.flatMap numbers := by
  obtain ⟨final, reads, accepted⟩ :=
    Option.bind_eq_some_iff.mp (read?_eq_some_of_compile compiled)
  dsimp only at accepted
  split at accepted
  · obtain rfl := Option.some.inj accepted
    obtain ⟨more, ended, spelled, positive, -⟩ :=
      exists_spelled named fill (⟨rfl, rfl, rfl⟩ : Outside [] .start)
        (fun _ none => absurd none (Nat.not_lt_zero _)) reads
    refine ⟨more, ?_, spelled, fun member => Nat.lt_irrefl 0 (positive 0 member)⟩
    rw [Frame.body, ended.current, List.append_nil]
    rfl
  · cases accepted

end Regex

end SyncGrammar
