import Mathlib.Data.List.Basic
import SyncGrammar.Proofs.Filling
import SyncGrammar.Proofs.Matching

namespace SyncGrammar

namespace Token

variable {names : List Text} {rename : Text → Text} {text : Text}

def SameName (names : List Text) (token other : Text) : Prop :=
  ∃ name ∈ names, ∃ index otherIndex : Text, (∀ d ∈ index, d.isDigit = true) ∧
    (∀ d ∈ otherIndex, d.isDigit = true) ∧ token = name ++ index ∧ other = name ++ otherIndex

instance (names : List Text) (token other : Text) : Decidable (SameName names token other) :=
  decidable_of_iff ((names.any fun name =>
      name.isPrefixOf token && (token.drop name.length).all Char.isDigit &&
        (name.isPrefixOf other && (other.drop name.length).all Char.isDigit)) = true) <| by
    simp only [List.any_eq_true, Bool.and_eq_true, List.isPrefixOf_iff_prefix, List.all_eq_true]
    constructor
    · rintro ⟨name, declared, ⟨⟨index, rfl⟩, digits⟩, ⟨otherIndex, rfl⟩, otherDigits⟩
      rw [List.drop_left] at digits otherDigits
      exact ⟨name, declared, index, otherIndex, digits, otherDigits, rfl, rfl⟩
    · rintro ⟨name, declared, index, otherIndex, digits, otherDigits, rfl, rfl⟩
      refine ⟨name, declared, ⟨List.prefix_append _ _, ?_⟩, List.prefix_append _ _, ?_⟩
      · rwa [List.drop_left]
      · rwa [List.drop_left]

theorem SameName.symm {token other : Text} (same : SameName names token other) :
    SameName names other token := by
  obtain ⟨name, declared, index, otherIndex, digits, otherDigits, isToken, otherToken⟩ := same
  exact ⟨name, declared, otherIndex, index, otherDigits, digits, otherToken, isToken⟩

def renamed (names : List Text) (rename : Text → Text) (text : Text) : Text :=
  fill names (fun token => some (rename token)) text

theorem written_self : Segment.written (fun token => some token) = Segment.text := by
  funext segment
  cases segment <;> rfl

theorem fill_self (text : Text) : fill names (fun token => some token) text = text := by
  rw [fill, written_self, flatMap_text_segments]

def Segment.renamed (rename : Text → Text) : Segment → Segment
  | .literal c => .literal c
  | .token name index => .token name ((rename (name ++ index)).drop name.length)

section Bracketed

variable (bracketed : ∀ name ∈ names, name.Bracketed)

include bracketed

theorem SameName.split {name index other : Text} (same : SameName names (name ++ index) other)
    (declared : name ∈ names) :
    name ++ other.drop name.length = other ∧ ∀ d ∈ other.drop name.length, d.isDigit = true := by
  obtain ⟨own, alsoDeclared, ownIndex, otherIndex, -, digits, written, rfl⟩ := same
  have starts : own <+: name ++ index := ⟨ownIndex, written.symm⟩
  obtain rfl := (bracketed name declared).eq_of_starts (bracketed own alsoDeclared)
    (List.prefix_append name index) starts
  simpa using digits

theorem WellCut.map_renamed {cut : List Segment} (wellCut : WellCut names cut)
    (keeps : ∀ name index, .token name index ∈ cut →
      SameName names (name ++ index) (rename (name ++ index))) :
    WellCut names (cut.map (Segment.renamed rename)) := by
  induction wellCut with
  | nil => exact .nil
  | literal plain _ ih =>
    exact .literal plain (ih fun name index member => keeps _ _ (List.mem_cons_of_mem _ member))
  | last declared digits =>
    exact .last declared ((keeps _ _ List.mem_cons_self).split bracketed declared).2
  | token declared digits ends _ ih =>
    exact .token declared ((keeps _ _ List.mem_cons_self).split bracketed declared).2 ends
      (ih fun name index member => keeps _ _ (List.mem_cons_of_mem _ member))

section Keeps

variable (keeps : ∀ token ∈ tokens names text, SameName names token (rename token))

include keeps

theorem written_renamed {segment : Segment} (member : segment ∈ segments names text)
    (value : Text → Text) :
    (segment.renamed rename).written (fun token => some (value token)) =
      segment.written fun token => some (value (rename token)) := by
  cases segment with
  | literal c => rfl
  | token name index =>
    have same := keeps _ (mem_tokens_iff.mpr ⟨name, index, member, rfl⟩)
    have split := (same.split bracketed (declared_of_mem_segments member).1).1
    simp only [Segment.renamed, Segment.written, Option.getD_some, split]

theorem flatMap_renamed (value : Text → Text) :
    ((segments names text).map (Segment.renamed rename)).flatMap
        (Segment.written fun token => some (value token)) =
      fill names (fun token => some (value (rename token))) text := by
  rw [List.flatMap_map, fill]
  exact List.flatMap_congr fun segment member => written_renamed bracketed keeps member value

variable (wellCut : WellCut names (segments names text))

include wellCut

theorem segments_renamed :
    segments names (renamed names rename text) =
      (segments names text).map (Segment.renamed rename) := by
  have written : ((segments names text).map (Segment.renamed rename)).flatMap Segment.text =
      renamed names rename text := by
    rw [← written_self]
    exact flatMap_renamed bracketed keeps id
  rw [← written]
  apply WellCut.segments_eq bracketed
  apply wellCut.map_renamed bracketed
  intro name index member
  exact keeps _ (mem_tokens_iff.mpr ⟨name, index, member, rfl⟩)

theorem tokens_renamed :
    tokens names (renamed names rename text) = (tokens names text).map rename := by
  have token (segment : Segment) (member : segment ∈ segments names text) :
      (segment.renamed rename).token? = segment.token?.map rename := by
    cases segment with
    | literal c => rfl
    | token name index =>
      have same := keeps _ (mem_tokens_iff.mpr ⟨name, index, member, rfl⟩)
      exact congrArg some (same.split bracketed (declared_of_mem_segments member).1).1
  rw [tokens, segments_renamed bracketed keeps wellCut, List.filterMap_map, tokens,
    List.map_filterMap]
  exact List.filterMap_congr token

theorem fill_renamed (value : Text → Text) :
    fill names (fun token => some (value token)) (renamed names rename text) =
      fill names (fun token => some (value (rename token))) text := by
  rw [← flatMap_renamed bracketed keeps, fill, segments_renamed bracketed keeps wellCut]

theorem fill_renamed_back {back : Text → Text}
    (returns : ∀ token ∈ tokens names text, back (rename token) = token) (value : Text → Text) :
    fill names (fun token => some (value (back token))) (renamed names rename text) =
      fill names (fun token => some (value token)) text := by
  rw [fill_renamed bracketed keeps wellCut fun token => value (back token)]
  apply fill_congr
  intro token member
  rw [returns token member]

theorem onlyTokens_renamed :
    onlyTokens names (renamed names rename text) = onlyTokens names text := by
  rw [onlyTokens, onlyTokens, segments_renamed bracketed keeps wellCut, List.all_map]
  congr 1
  funext segment
  cases segment <;> rfl

end Keeps

theorem Legible.renamed (legible : Legible names text)
    (keeps : ∀ token ∈ tokens names text, SameName names token (rename token)) :
    Legible names (renamed names rename text) := by
  have cut := segments_renamed bracketed keeps legible.wellCut
  have token (segment : Segment) : (segment.renamed rename).token? = none ↔
      segment.token? = none := by
    cases segment <;> simp [Segment.renamed, Segment.token?]
  constructor
  · rw [cut]
    intro segment member isLiteral
    obtain ⟨own, inside, rfl⟩ := List.mem_map.mp member
    cases own with
    | literal c => exact legible.enclosed _ inside rfl
    | token name index => cases isLiteral
  · rw [cut, ← List.map_tail, List.zip_map]
    intro pair member
    obtain ⟨own, inside, rfl⟩ := List.mem_map.mp member
    simpa only [Prod.map_fst, Prod.map_snd, token] using legible.separated own inside

end Bracketed

end Token

def Assignment.renamed (rename : Text → Text) (assignment : Assignment) : Assignment :=
  ⟨assignment.bindings.map fun binding => (rename binding.1, binding.2)⟩

theorem Assignment.renamed_eq_ofValues {rename back : Text → Text} {assignment : Assignment}
    (distinct : assignment.tokens.Nodup)
    (returns : ∀ token ∈ assignment.tokens, back (rename token) = token) :
    assignment.renamed rename =
      .ofValues (assignment.tokens.map rename) fun token => assignment.valueOf (back token) := by
  conv_lhs => rw [assignment.eq_ofValues distinct]
  rw [Assignment.renamed, Assignment.ofValues, Assignment.ofValues, List.map_map, List.map_map]
  refine congrArg Assignment.mk (List.map_congr_left fun token member => ?_)
  simp only [Function.comp_apply, returns token member]

namespace Pattern

variable {Compiled : Type} {engine : RegexEngine Compiled} {table : VariableTable}
  {rename : Text → Text}

theorem idxOf?_map_renamed {seen : List Text} {token : Text}
    (injective : ∀ other ∈ seen, rename other = rename token → other = token) :
    (seen.map rename).idxOf? (rename token) = seen.idxOf? token := by
  induction seen with
  | nil => rfl
  | cons first rest ih =>
    rw [List.forall_mem_cons] at injective
    have here : (rename first == rename token) = (first == token) := by
      rw [Bool.eq_iff_iff, beq_iff_eq, beq_iff_eq]
      exact ⟨injective.1, congrArg rename⟩
    have later := ih injective.2
    unfold List.idxOf? at later ⊢
    rw [List.map_cons, List.findIdx?_cons, List.findIdx?_cons, here, later]

theorem piecesFrom_renamed {cut : List Token.Segment} {seen : List Text}
    (keeps : ∀ name index, .token name index ∈ cut →
      name ++ (rename (name ++ index)).drop name.length = rename (name ++ index))
    (injective : ∀ token ∈ seen ++ cut.filterMap Token.Segment.token?,
      ∀ other ∈ seen ++ cut.filterMap Token.Segment.token?,
        rename token = rename other → token = other) :
    piecesFrom table (seen.map rename) (cut.map (Token.Segment.renamed rename)) =
      piecesFrom table seen cut := by
  induction cut generalizing seen with
  | nil => rfl
  | cons segment rest ih =>
    have keepsRest (name index : Text) (member : .token name index ∈ rest) :=
      keeps name index (List.mem_cons_of_mem _ member)
    cases segment with
    | literal c =>
      rw [List.map_cons, Token.Segment.renamed, piecesFrom, piecesFrom, ih keepsRest injective]
    | token name index =>
      have own := keeps name index List.mem_cons_self
      have listed : (Token.Segment.token name index :: rest).filterMap Token.Segment.token? =
          (name ++ index) :: rest.filterMap Token.Segment.token? := rfl
      rw [listed] at injective
      have found : (seen.map rename).idxOf? (rename (name ++ index)) =
          seen.idxOf? (name ++ index) := by
        apply idxOf?_map_renamed
        intro other member same
        exact injective other (List.mem_append_left _ member) _ (by simp) same
      have again := @ih seen keepsRest fun token member other alsoMember =>
        injective token (by simp at member ⊢; tauto) other (by simp at alsoMember ⊢; tauto)
      have first := @ih (seen ++ [name ++ index]) keepsRest fun token member other alsoMember =>
        injective token (by simpa using member) other (by simpa using alsoMember)
      rw [List.map_append, List.map_singleton] at first
      rw [List.map_cons, Token.Segment.renamed]
      simp only [piecesFrom, own, found, List.length_map, again, first]

theorem eraseDups_map_renamed {tokens : List Text}
    (injective : ∀ token ∈ tokens, ∀ other ∈ tokens,
      rename token = rename other → token = other) :
    (tokens.map rename).eraseDups = tokens.eraseDups.map rename := by
  induction length : tokens.length using Nat.strongRecOn generalizing tokens with
  | ind bound ih =>
    cases tokens with
    | nil => rfl
    | cons first rest =>
      have shorter := List.length_filter_le (fun token => !token == first) rest
      have others (token : Text) (member : token ∈ rest.filter fun token => !token == first) :
          token ∈ first :: rest := List.mem_cons_of_mem _ (List.mem_of_mem_filter member)
      have apart : (rest.map rename).filter (fun token => !token == rename first) =
          (rest.filter fun token => !token == first).map rename := by
        rw [List.filter_map]
        congr 1
        apply List.filter_congr
        intro token member
        have same : (rename token == rename first) = (token == first) := by
          rw [Bool.eq_iff_iff, beq_iff_eq, beq_iff_eq]
          exact ⟨injective token (List.mem_cons_of_mem _ member) first List.mem_cons_self,
            congrArg rename⟩
        rw [Function.comp_apply, same]
      rw [List.map_cons, List.eraseDups_cons, List.eraseDups_cons, List.map_cons, apart]
      refine congrArg _ (ih _ ?_ (fun token member other alsoMember =>
        injective token (others token member) other (others other alsoMember)) rfl)
      simp only [List.length_cons] at length
      omega

theorem compile_renamed {pattern : Pattern Compiled} {text : Text}
    (bracketed : ∀ name ∈ table.names, name.Bracketed)
    (wellCut : Token.WellCut table.names (Token.segments table.names text))
    (keeps : ∀ token ∈ Token.tokens table.names text,
      Token.SameName table.names token (rename token))
    (injective : ∀ token ∈ Token.tokens table.names text,
      ∀ other ∈ Token.tokens table.names text, rename token = rename other → token = other)
    (compiled : compile engine table text = .ok pattern) :
    compile engine table (Token.renamed table.names rename text) =
      .ok ⟨Token.renamed table.names rename text, pattern.regex,
        pattern.groups.map fun group => (rename group.1, group.2)⟩ := by
  have cut := Token.segments_renamed bracketed keeps wellCut
  have cutUp : pieces table (Token.renamed table.names rename text) = pieces table text := by
    rw [pieces, pieces, cut]
    refine @piecesFrom_renamed table rename _ [] (fun name index member => ?_) injective
    have same := keeps _ (Token.mem_tokens_iff.mpr ⟨name, index, member, rfl⟩)
    exact (same.split bracketed (Token.declared_of_mem_segments member).1).1
  obtain ⟨given, -, made, groups⟩ := of_compile_eq_ok compiled
  have written : (Token.renamed table.names rename text).isEmpty = false := by
    rw [Bool.eq_false_iff, Ne, List.isEmpty_iff]
    intro empty
    rw [empty, Token.segments, eq_comm, List.map_eq_nil_iff] at cut
    have whole := Token.flatMap_text_segments table.names text
    rw [cut] at whole
    subst whole
    cases compiled
  unfold compile
  rw [written, given, splice, cutUp, ← splice, made, groups,
    Token.tokens_renamed bracketed keeps wellCut, eraseDups_map_renamed injective]
  simp [List.zipIdx_map]

end Pattern

theorem Entailment.matching_renamed {Compiled : Type} {engine : RegexEngine Compiled}
    {table : VariableTable} {rename : Text → Text} {text hypothesis : Text}
    {answers : List Assignment}
    (bracketed : ∀ name ∈ table.names, name.Bracketed)
    (wellCut : Token.WellCut table.names (Token.segments table.names hypothesis))
    (keeps : ∀ token ∈ Token.tokens table.names hypothesis,
      Token.SameName table.names token (rename token))
    (injective : ∀ token ∈ Token.tokens table.names hypothesis,
      ∀ other ∈ Token.tokens table.names hypothesis, rename token = rename other → token = other)
    (answer : matching engine table text hypothesis = .ok answers) :
    matching engine table text (Token.renamed table.names rename hypothesis) =
      .ok (answers.map (Assignment.renamed rename)) := by
  obtain ⟨pattern, compiled, all⟩ := exists_pattern_of_matching answer
  have renamed := Pattern.compile_renamed bracketed wellCut keeps injective compiled
  refine matching_eq_ok renamed ?_
  have distinct := Pattern.nodup_tokens_of_compile compiled
  have otherDistinct := Pattern.nodup_tokens_of_compile renamed
  unfold Pattern.all at all ⊢
  dsimp only at all ⊢
  split at all
  · cases all
  · cases all
    rw [List.map_map]
    refine congrArg Except.ok (List.map_congr_left fun found _ => ?_)
    have own := Pattern.bindings_bindings distinct text found
    have other := Pattern.bindings_bindings otherDistinct text found
    rw [Function.comp_apply, Assignment.renamed, own]
    refine congrArg Assignment.mk (other.trans ?_)
    rw [List.map_map, List.map_map]
    rfl

end SyncGrammar
