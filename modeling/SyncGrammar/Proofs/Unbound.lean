import SyncGrammar.Proofs.BoundTokens
import SyncGrammar.Proofs.Matching
import SyncGrammar.Regex.Engine

/-!
Tokens that a rule writes without reading them. Such a token is bound by nothing where the rule is
applied and goes up within the target of the derivation. It is complained about in the end exactly
if no rule above happens to bind the same token after the derivation has been put in place, which
would replace it by a value that has nothing to do with it.
-/
namespace SyncGrammar

/-- Resolves an item by known children, one of which is special. `keeps` holds of the bindings that
are still to be resolved when that child is put in place. -/
inductive ResolvesThrough (grammar : Grammar) (known special : DerivationKey → Prop)
    (keeps : List (Text × Text) → Prop) : Derivation → DerivationKey → Prop
  | here {key child result : DerivationKey} {rest : List (Text × Text)}
      (isNonterminal : grammar.hasNonterminal child.token = true) (below : special child)
      (kept : keeps rest)
      (onward : Resolves grammar (fun _ _ => True) known
        ⟨key.substituted child.token child.source child.target, ⟨rest⟩⟩ result) :
      ResolvesThrough grammar known special keeps
        ⟨key, ⟨(child.token, child.subtext) :: rest⟩⟩ result
  | terminal {key result : DerivationKey} {token value : Text} {rest : List (Text × Text)}
      (isTerminal : grammar.hasNonterminal token = false)
      (onward : ResolvesThrough grammar known special keeps
        ⟨key.substituted token value value, ⟨rest⟩⟩ result) :
      ResolvesThrough grammar known special keeps ⟨key, ⟨(token, value) :: rest⟩⟩ result
  | nonterminal {key child result : DerivationKey} {rest : List (Text × Text)}
      (isNonterminal : grammar.hasNonterminal child.token = true) (below : known child)
      (onward : ResolvesThrough grammar known special keeps
        ⟨key.substituted child.token child.source child.target, ⟨rest⟩⟩ result) :
      ResolvesThrough grammar known special keeps
        ⟨key, ⟨(child.token, child.subtext) :: rest⟩⟩ result

/-- A derivation of a key applies a chosen rule at some depth, and `keeps` holds at each rule
above. -/
inductive Applies (grammar : Grammar) (entailment : Entailment) (direction : Direction)
    (chosen : Production → Prop) (keeps : List (Text × Text) → Prop) : DerivationKey → Prop
  | here {subtext token : Text} {production : Production} {answers : List Assignment}
      {assignment : Assignment} {result : DerivationKey}
      (rule : production ∈ grammar.orientedRules direction token)
      (answer : entailment subtext production.source = .ok answers)
      (entails : assignment ∈ answers) (isChosen : chosen production)
      (resolves : Resolves grammar (fun _ _ => True) (Derives grammar entailment direction)
        ⟨.ofProduction subtext token production, assignment⟩ result) :
      Applies grammar entailment direction chosen keeps result
  | deeper {subtext token : Text} {production : Production} {answers : List Assignment}
      {assignment : Assignment} {result : DerivationKey}
      (rule : production ∈ grammar.orientedRules direction token)
      (answer : entailment subtext production.source = .ok answers)
      (entails : assignment ∈ answers)
      (resolves : ResolvesThrough grammar (Derives grammar entailment direction)
        (Applies grammar entailment direction chosen keeps) keeps
        ⟨.ofProduction subtext token production, assignment⟩ result) :
      Applies grammar entailment direction chosen keeps result

/-- Some rule writes a token that it does not read, and no binding above captures it. -/
def LeavesOver (grammar : Grammar) (entailment : Entailment) (direction : Direction)
    (token : Text) : DerivationKey → Prop :=
  Applies grammar entailment direction
    (fun production => token ∈ Token.tokens grammar.variableNames production.target ∧
      token ∉ Token.tokens grammar.variableNames production.source)
    fun rest => token ∉ rest.map (·.1)

/-- The side that is written can be read off again and holds all tokens that are read. -/
structure Production.Covers (names : List Text) (production : Production) : Prop where
  target : Token.Legible names production.target
  written : ∀ token ∈ Token.tokens names production.source,
    token ∈ Token.tokens names production.target

theorem Production.covers_iff {names : List Text} {production : Production} :
    Token.Legible names production.target ∧
      (Token.tokens names production.source).all (Token.tokens names production.target).contains ↔
    production.Covers names := by
  simp only [List.all_eq_true, List.contains_iff_mem]
  constructor
  · rintro ⟨target, written⟩
    exact ⟨target, written⟩
  · intro covers
    exact ⟨covers.target, covers.written⟩

instance (names : List Text) (production : Production) : Decidable (production.Covers names) :=
  decidable_of_iff _ Production.covers_iff

structure Grammar.Covers (grammar : Grammar) (direction : Direction) : Prop where
  bracketed : ∀ name ∈ grammar.variableNames, name.Bracketed
  rules : ∀ entry ∈ grammar.rules.entries, ∀ production ∈ entry.2.productions,
    (production.turned direction).Covers grammar.variableNames

instance (grammar : Grammar) (direction : Direction) : Decidable (grammar.Covers direction) :=
  decidable_of_iff (_ ∧ _) ⟨fun parts => ⟨parts.1, parts.2⟩, fun whole => ⟨whole.1, whole.2⟩⟩

theorem Grammar.Covers.of_rule {grammar : Grammar} {direction : Direction} {token : Text}
    {production : Production} (covers : grammar.Covers direction)
    (rule : production ∈ grammar.orientedRules direction token) :
    production.Covers grammar.variableNames := by
  obtain ⟨table, found, member⟩ := Grammar.mem_orientedRules.mp rule
  obtain ⟨name, -, stored⟩ := Grammar.table?_eq_some_iff.mp found
  have turned := covers.rules _ ((NameTable.get?_eq_some_iff _ _ _).mp stored) _ member
  cases direction with
  | forward => exact turned
  | backward => exact turned

variable {grammar : Grammar} {entailment : Entailment} {direction : Direction}
  {chosen : Production → Prop} {keeps : List (Text × Text) → Prop}

theorem Applies.induct (ofKey : DerivationKey → Prop)
    (ofItem : Derivation → DerivationKey → Prop)
    (here : ∀ subtext token production answers assignment result,
      production ∈ grammar.orientedRules direction token →
      entailment subtext production.source = .ok answers → assignment ∈ answers →
      chosen production →
      Resolves grammar (fun _ _ => True) (Derives grammar entailment direction)
        ⟨.ofProduction subtext token production, assignment⟩ result → ofKey result)
    (deeper : ∀ subtext token production answers assignment result,
      production ∈ grammar.orientedRules direction token →
      entailment subtext production.source = .ok answers → assignment ∈ answers →
      ofItem ⟨.ofProduction subtext token production, assignment⟩ result → ofKey result)
    (child : ∀ (key child result : DerivationKey) rest,
      grammar.hasNonterminal child.token = true → ofKey child → keeps rest →
      Resolves grammar (fun _ _ => True) (Derives grammar entailment direction)
        ⟨key.substituted child.token child.source child.target, ⟨rest⟩⟩ result →
      ofItem ⟨key, ⟨(child.token, child.subtext) :: rest⟩⟩ result)
    (terminal : ∀ key result token value rest, grammar.hasNonterminal token = false →
      ofItem ⟨key.substituted token value value, ⟨rest⟩⟩ result →
      ofItem ⟨key, ⟨(token, value) :: rest⟩⟩ result)
    (nonterminal : ∀ (key child result : DerivationKey) rest,
      grammar.hasNonterminal child.token = true → Derives grammar entailment direction child →
      ofItem ⟨key.substituted child.token child.source child.target, ⟨rest⟩⟩ result →
      ofItem ⟨key, ⟨(child.token, child.subtext) :: rest⟩⟩ result)
    {key : DerivationKey} (applies : Applies grammar entailment direction chosen keeps key) :
    ofKey key :=
  @Applies.rec grammar entailment direction chosen keeps (fun key _ => ofKey key)
    (fun item result _ => ofItem item result)
    (fun rule answer entails isChosen resolves =>
      here _ _ _ _ _ _ rule answer entails isChosen resolves)
    (fun rule answer entails _ resolved => deeper _ _ _ _ _ _ rule answer entails resolved)
    (fun isNonterminal _ kept onward below => child _ _ _ _ isNonterminal below kept onward)
    (fun isTerminal _ resolved => terminal _ _ _ _ _ isTerminal resolved)
    (fun isNonterminal below _ resolved => nonterminal _ _ _ _ isNonterminal below resolved)
    key applies

theorem Applies.derives {key : DerivationKey}
    (applies : Applies grammar entailment direction chosen keeps key) :
    Derives grammar entailment direction key := by
  refine applies.induct (Derives grammar entailment direction)
    (Resolves grammar (fun _ _ => True) (Derives grammar entailment direction)) ?_ ?_ ?_ ?_ ?_
  · intro subtext token production answers assignment result rule answer entails _ resolves
    exact .entailed rule answer entails resolves
  · intro subtext token production answers assignment result rule answer entails resolves
    exact .entailed rule answer entails resolves
  · intro key child result rest isNonterminal below _ onward
    exact .nonterminal isNonterminal below trivial onward
  · intro key result token value rest isTerminal onward
    exact .terminal isTerminal onward
  · intro key child result rest isNonterminal below onward
    exact .nonterminal isNonterminal below trivial onward

structure Derivation.Fillable (names : List Text) (item : Derivation) : Prop where
  cut : Token.WellCut names (Token.segments names item.key.target)
  written : ∀ token ∈ item.assignment.tokens, token ∈ Token.tokens names item.key.target
  distinct : item.assignment.tokens.Nodup
  plain : ∀ binding ∈ item.assignment.bindings, binding.2.Plain

variable {names : List Text} {key child result : DerivationKey} {item : Derivation}
  {token value source target : Text} {rest : List (Text × Text)}

theorem Derivation.Fillable.plain_value
    (fillable : Derivation.Fillable names ⟨key, ⟨(token, value) :: rest⟩⟩) : value.Plain :=
  fillable.plain (token, value) List.mem_cons_self

theorem Derivation.Fillable.mem_tokens_substituted (bracketed : ∀ name ∈ names, name.Bracketed)
    (fillable : Derivation.Fillable names ⟨key, ⟨(token, value) :: rest⟩⟩)
    (cut : Token.WellCut names (Token.segments names target)) (source other : Text) :
    other ∈ Token.tokens names (key.substituted token source target).target ↔
      (other ∈ Token.tokens names key.target ∧ token ≠ other) ∨
        other ∈ Token.tokens names target := by
  have occurs : token ∈ Token.tokens names key.target :=
    fillable.written token List.mem_cons_self
  have changed : other ∈ Token.tokens names (substitute token target key.target) ↔ _ :=
    Token.mem_tokens_substitute bracketed (Token.isToken_of_mem_tokens occurs) fillable.cut cut
  refine changed.trans ?_
  simp [occurs]

theorem Derivation.Fillable.substituted (bracketed : ∀ name ∈ names, name.Bracketed)
    (fillable : Derivation.Fillable names ⟨key, ⟨(token, value) :: rest⟩⟩)
    (cut : Token.WellCut names (Token.segments names target)) (source : Text) :
    Derivation.Fillable names ⟨key.substituted token source target, ⟨rest⟩⟩ := by
  obtain ⟨fresh, distinct⟩ := List.nodup_cons.mp fillable.distinct
  have occurs : token ∈ Token.tokens names key.target :=
    fillable.written token List.mem_cons_self
  refine ⟨Token.wellCut_substitute bracketed (Token.isToken_of_mem_tokens occurs) fillable.cut cut,
    fun other bound => ?_, distinct, (List.forall_mem_cons.mp fillable.plain).2⟩
  have different : token ≠ other := fun same => fresh (same ▸ bound)
  have still := fillable.written other (List.mem_cons_of_mem _ bound)
  exact (fillable.mem_tokens_substituted bracketed cut source other).mpr
    (Or.inl ⟨still, different⟩)

theorem Resolves.plain_subtext {admits : Derivation → DerivationKey → Prop}
    {known : DerivationKey → Prop} (resolves : Resolves grammar admits known item result)
    (plain : result.subtext.Plain) : item.key.subtext.Plain := by
  rw [← resolves.subtext_eq]
  exact plain

theorem Production.Covers.fillable {subtext : Text} {production : Production}
    {answers : List Assignment} {assignment : Assignment}
    (covers : production.Covers names) (binds : entailment.BindsTokens names)
    (plain : subtext.Plain) (token : Text)
    (answer : entailment subtext production.source = .ok answers)
    (entails : assignment ∈ answers) :
    Derivation.Fillable names ⟨.ofProduction subtext token production, assignment⟩ := by
  obtain ⟨distinct, bound, values⟩ := binds _ _ _ plain answer assignment entails
  refine ⟨covers.target.wellCut, fun other member => ?_, distinct, values⟩
  exact covers.written other ((bound other).mp member)

/-- A token that is not bound later on was not bound before either, or it came with the value. -/
theorem Derivation.Fillable.unbound_or_inserted (bracketed : ∀ name ∈ names, name.Bracketed)
    (fillable : Derivation.Fillable names ⟨key, ⟨(token, value) :: rest⟩⟩)
    (cut : Token.WellCut names (Token.segments names target)) {other : Text}
    (occurs : other ∈ Token.tokens names (key.substituted token source target).target)
    (unbound : other ∉ Assignment.tokens ⟨rest⟩) :
    (other ∈ Token.tokens names key.target ∧
      other ∉ Assignment.tokens ⟨(token, value) :: rest⟩) ∨
        other ∈ Token.tokens names target := by
  rcases (fillable.mem_tokens_substituted bracketed cut source other).mp occurs with
    ⟨own, different⟩ | inserted
  · refine Or.inl ⟨own, fun bound => ?_⟩
    rcases List.mem_cons.mp bound with same | later
    · exact different same.symm
    · exact unbound later
  · exact Or.inr inserted

/-- What is known of a key that is derived of a plain text: its target can be read off again, and
each token in it has been left over. -/
structure Accounted (grammar : Grammar) (entailment : Entailment) (direction : Direction)
    (key : DerivationKey) : Prop where
  cut : Token.WellCut grammar.variableNames (Token.segments grammar.variableNames key.target)
  leftOver : ∀ token ∈ Token.tokens grammar.variableNames key.target,
    LeavesOver grammar entailment direction token key

/-- What is known of an item that is resolved to `result`: the tokens of the result are those that
stay unbound, or they have been left over by a child. -/
def ItemAccounted (grammar : Grammar) (entailment : Entailment) (direction : Direction)
    (item : Derivation) (result : DerivationKey) : Prop :=
  Derivation.Fillable grammar.variableNames item →
    Token.WellCut grammar.variableNames (Token.segments grammar.variableNames result.target) ∧
    ∀ token ∈ Token.tokens grammar.variableNames result.target,
      (token ∈ Token.tokens grammar.variableNames item.key.target ∧
        token ∉ item.assignment.tokens) ∨
      ResolvesThrough grammar (Derives grammar entailment direction)
        (LeavesOver grammar entailment direction token) (fun rest => token ∉ rest.map (·.1))
        item result

section Covers

variable (covers : grammar.Covers direction)
  (binds : entailment.BindsTokens grammar.variableNames)

include covers binds

theorem derives_accounted (derives : Derives grammar entailment direction key) :
    key.subtext.Plain → Accounted grammar entailment direction key := by
  have bracketed := covers.bracketed
  have kept := DerivesWith.induct
    (fun key => Derives grammar entailment direction key ∧
      (key.subtext.Plain → Accounted grammar entailment direction key))
    (fun item result =>
      Resolves grammar (fun _ _ => True) (Derives grammar entailment direction) item result ∧
        ItemAccounted grammar entailment direction item result) ?_ ?_ ?_ ?_ derives
  · exact kept.2
  · intro subtext token production answers assignment result rule answer entails resolved
    obtain ⟨resolves, accounted⟩ := resolved
    refine ⟨.entailed rule answer entails resolves, fun plain => ?_⟩
    have plainText : subtext.Plain := resolves.plain_subtext plain
    obtain ⟨cut, found⟩ :=
      accounted ((covers.of_rule rule).fillable binds plainText token answer entails)
    refine ⟨cut, fun other occurs => ?_⟩
    -- left over from this rule, or from one below
    rcases found other occurs with ⟨own, unbound⟩ | through
    · have bound := (binds _ _ _ plainText answer assignment entails).2.1 other
      exact .here rule answer entails ⟨own, fun read => unbound (bound.mpr read)⟩ resolves
    · exact .deeper rule answer entails through
  · intro key
    refine ⟨.done, fun fillable => ⟨fillable.cut, fun other occurs => ?_⟩⟩
    exact Or.inl ⟨occurs, List.not_mem_nil⟩
  · intro key result token value rest isTerminal resolved
    obtain ⟨resolves, accounted⟩ := resolved
    refine ⟨.terminal isTerminal resolves, fun fillable => ?_⟩
    have plain := fillable.plain_value
    have valueCut := Token.wellCut_of_plain bracketed plain
    obtain ⟨cut, found⟩ := accounted (fillable.substituted bracketed valueCut value)
    refine ⟨cut, fun other occurs => ?_⟩
    rcases found other occurs with ⟨left, unbound⟩ | through
    · rcases fillable.unbound_or_inserted bracketed valueCut left unbound with own | inserted
      · exact Or.inl own
      · rw [Token.tokens_eq_nil_of_plain bracketed plain] at inserted
        cases inserted
    · exact Or.inr (.terminal isTerminal through)
  · intro key child result rest isNonterminal below _ resolved
    obtain ⟨resolves, accounted⟩ := resolved
    refine ⟨.nonterminal isNonterminal below.1 trivial resolves, fun fillable => ?_⟩
    have inside := below.2 fillable.plain_value
    obtain ⟨cut, found⟩ := accounted (fillable.substituted bracketed inside.cut child.source)
    refine ⟨cut, fun other occurs => ?_⟩
    rcases found other occurs with ⟨left, unbound⟩ | through
    · rcases fillable.unbound_or_inserted bracketed inside.cut left unbound with own | inserted
      · exact Or.inl own
      · exact Or.inr (.here isNonterminal (inside.leftOver other inserted) unbound resolves)
    · exact Or.inr (.nonterminal isNonterminal below.1 through)

theorem Resolves.keeps_token
    (resolves : Resolves grammar (fun _ _ => True) (Derives grammar entailment direction) item
      result)
    (fillable : Derivation.Fillable grammar.variableNames item)
    (occurs : token ∈ Token.tokens grammar.variableNames item.key.target)
    (unbound : token ∉ item.assignment.tokens) :
    token ∈ Token.tokens grammar.variableNames result.target := by
  have bracketed := covers.bracketed
  induction resolves with
  | done => exact occurs
  | terminal _ _ ih =>
    have plain := fillable.plain_value
    have cut := Token.wellCut_of_plain bracketed plain
    obtain ⟨different, later⟩ := not_or.mp fun bound => unbound (List.mem_cons.mpr bound)
    refine ih (fillable.substituted bracketed cut _) ?_ later
    exact (fillable.mem_tokens_substituted bracketed cut _ token).mpr
      (Or.inl ⟨occurs, Ne.symm different⟩)
  | nonterminal _ below _ _ ih =>
    have plain := fillable.plain_value
    have cut := (derives_accounted covers binds below plain).cut
    obtain ⟨different, later⟩ := not_or.mp fun bound => unbound (List.mem_cons.mpr bound)
    refine ih (fillable.substituted bracketed cut _) ?_ later
    exact (fillable.mem_tokens_substituted bracketed cut _ token).mpr
      (Or.inl ⟨occurs, Ne.symm different⟩)

theorem LeavesOver.mem_tokens (leavesOver : LeavesOver grammar entailment direction token key)
    (plain : key.subtext.Plain) : token ∈ Token.tokens grammar.variableNames key.target := by
  have bracketed := covers.bracketed
  have kept := Applies.induct
    (fun key => Derives grammar entailment direction key ∧
      (key.subtext.Plain → token ∈ Token.tokens grammar.variableNames key.target))
    (fun item result =>
      Resolves grammar (fun _ _ => True) (Derives grammar entailment direction) item result ∧
        (Derivation.Fillable grammar.variableNames item →
          token ∈ Token.tokens grammar.variableNames result.target)) ?_ ?_ ?_ ?_ ?_ leavesOver
  · exact kept.2 plain
  · intro subtext asToken production answers assignment result rule answer entails left resolves
    refine ⟨.entailed rule answer entails resolves, fun plain => ?_⟩
    have plainText : subtext.Plain := resolves.plain_subtext plain
    have fillable := (covers.of_rule rule).fillable binds plainText asToken answer entails
    have bound := (binds _ _ _ plainText answer assignment entails).2.1 token
    exact resolves.keeps_token covers binds fillable left.1 fun read => left.2 (bound.mp read)
  · intro subtext asToken production answers assignment result rule answer entails resolved
    obtain ⟨resolves, found⟩ := resolved
    refine ⟨.entailed rule answer entails resolves, fun plain => found ?_⟩
    have plainText : subtext.Plain := resolves.plain_subtext plain
    exact (covers.of_rule rule).fillable binds plainText asToken answer entails
  · intro key child result rest isNonterminal below unbound resolves
    refine ⟨.nonterminal isNonterminal below.1 trivial resolves, fun fillable => ?_⟩
    have plain := fillable.plain_value
    have cut := (derives_accounted covers binds below.1 plain).cut
    refine resolves.keeps_token covers binds (fillable.substituted bracketed cut _) ?_ unbound
    exact (fillable.mem_tokens_substituted bracketed cut _ token).mpr (Or.inr (below.2 plain))
  · intro key result other value rest isTerminal resolved
    obtain ⟨resolves, found⟩ := resolved
    refine ⟨.terminal isTerminal resolves, fun fillable => found ?_⟩
    have plain := fillable.plain_value
    exact fillable.substituted bracketed (Token.wellCut_of_plain bracketed plain) value
  · intro key child result rest isNonterminal below resolved
    obtain ⟨resolves, found⟩ := resolved
    refine ⟨.nonterminal isNonterminal below trivial resolves, fun fillable => found ?_⟩
    have plain := fillable.plain_value
    exact fillable.substituted bracketed (derives_accounted covers binds below plain).cut _

end Covers

theorem Entailment.bindsTokens_matching {Compiled : Type} {engine : RegexEngine Compiled}
    {wildcard : Text} :
    (Entailment.matching engine (grammar.leafVariables wildcard)).BindsTokens
      grammar.variableNames := by
  intro text hypothesis answers plain answer assignment entails
  obtain ⟨tokens, parts⟩ := Entailment.tokens_of_matching answer entails
  have same : Token.tokens (grammar.leafVariables wildcard).names hypothesis =
      Token.tokens grammar.variableNames hypothesis :=
    Token.tokens_congr fun _ _ => Grammar.mem_names_leafVariables
  rw [same] at tokens
  refine ⟨tokens ▸ nodup_eraseDups _, fun token => ?_, fun binding member => ?_⟩
  · rw [tokens, List.mem_eraseDups]
  · exact plain.of_infix (parts binding member)

namespace Translator

variable {Compiled : Type} {engine : RegexEngine Compiled} {translator : Translator}
  {config : TranslatorConfig} {text : Text} {down : Downward} {up : Upward}

/-- With matching as entailment and tokens in brackets, a text is complained about exactly if the
completed derivations of the whole text as the root leave a token over. -/
theorem complains_iff_leavesOver (built : ofConfig engine grammar config = .ok translator)
    (covers : grammar.Covers direction) (plain : text.Plain)
    (allowed : config.directions.allows direction = true)
    (ends : translator.DownEnds text direction down) (succeeded : down.failure = none)
    (ended : translator.UpEnds down up) :
    (∃ target tokens,
      translator.Yields text direction (.error (.unresolvedVariables target tokens))) ↔
    ∃ key ∈ up.completed.lookup text grammar.root, ∃ token,
      LeavesOver grammar translator.entailment direction token key := by
  obtain ⟨rfl, rfl, same⟩ := of_ofConfig built
  have binds : translator.entailment.BindsTokens translator.grammar.variableNames :=
    same ▸ Entailment.bindsTokens_matching
  have collected := yields_of_outcome allowed (.collected ends succeeded ended)
  have derived (key : DerivationKey) (member : key ∈ up.completed.lookup text
      translator.grammar.root) : key.subtext.Plain ∧
        Derives translator.grammar translator.entailment direction key := by
    obtain ⟨completed, whole, -⟩ := CompletedSet.mem_lookup.mp member
    exact ⟨whole ▸ plain, derives_of_onWayUp ⟨down, ends, succeeded, ended.reached⟩ completed⟩
  constructor
  · rintro ⟨target, tokens, yields⟩
    have complaint := collected.unique yields
    by_contra none
    have resolved : ∀ key ∈ up.completed.lookup text translator.grammar.root,
        Token.tokens translator.grammar.variableNames key.target = [] := by
      intro key member
      apply List.eq_nil_iff_forall_not_mem.mpr
      intro token occurs
      obtain ⟨plainKey, derives⟩ := derived key member
      have leavesOver := (derives_accounted covers binds derives plainKey).leftOver token occurs
      exact none ⟨key, member, token, leavesOver⟩
    rw [collect_of_resolved resolved] at complaint
    cases complaint
  · rintro ⟨key, member, token, leavesOver⟩
    have occurs := leavesOver.mem_tokens covers binds (derived key member).1
    obtain ⟨first, -, -, complaint⟩ := collect_of_unresolved member (List.ne_nil_of_mem occurs)
    exact ⟨_, _, complaint ▸ collected⟩

theorem exists_ends_of_complaint {target : Text} {tokens : List Text}
    (built : ofConfig engine grammar config = .ok translator)
    (yields : translator.Yields text direction (.error (.unresolvedVariables target tokens))) :
    ∃ down up, translator.DownEnds text direction down ∧ down.failure = none ∧
      translator.UpEnds down up := by
  obtain ⟨rfl, rfl, same⟩ := of_ofConfig built
  cases allowed : translator.config.directions.allows direction with
  | false => cases eq_unsupported_of_yields allowed yields
  | true =>
    rcases (outcome_of_yields allowed yields).failed_or_collected with
      ⟨down, failure, ends, failed, complaint⟩ | ⟨down, up, ends, succeeded, ended, -⟩
    · cases complaint
      obtain ⟨key, -, refused⟩ := Downward.failure_demanded ends failed
      rw [same] at refused
      rcases Entailment.failure_of_matching refused with ⟨error, differs⟩ | ⟨reason, differs⟩
      · cases differs
      · cases differs
    · exact ⟨down, up, ends, succeeded, ended⟩

def unread (written : Text) : Grammar :=
  ⟨"<r>".toList, .ofList [
    ("<c>".toList, .ofList [⟨"a".toList, written⟩]),
    ("<r>".toList, .ofList [⟨"<c> <n>".toList, "R(<c>,<n>)".toList⟩])],
    .ofList [("<m>".toList, "[0-9]+".toList), ("<n>".toList, "[0-9]+".toList)]⟩

def surfacing : Grammar :=
  unread "C(<m>)".toList

def surfacingTranslator : Translator :=
  ⟨surfacing, .standard,
    .matching Regex.engine (surfacing.leafVariables TranslatorConfig.standard.wildcard)⟩

theorem complains_iff_leavesOver_surfacing :
    ofConfig Regex.engine surfacing .standard = .ok surfacingTranslator ∧
      surfacing.Covers .forward ∧ Text.Plain "a 5".toList ∧
      ∃ down up, surfacingTranslator.DownEnds "a 5".toList .forward down ∧
        down.failure = none ∧ surfacingTranslator.UpEnds down up ∧
        ∃ key ∈ up.completed.lookup "a 5".toList "<r>".toList, ∃ token,
          LeavesOver surfacing surfacingTranslator.entailment .forward token key := by
  have built : ofConfig Regex.engine surfacing .standard = .ok surfacingTranslator :=
    ofConfig_eq_ok (by decide +kernel)
  have covers : surfacing.Covers .forward := by decide +kernel
  have plain : Text.Plain "a 5".toList := by decide
  have run : surfacingTranslator.Yields "a 5".toList .forward
      (.error (.unresolvedVariables "R(C(<m>),5)".toList ["<m>".toList])) := ⟨50, by decide +kernel⟩
  obtain ⟨down, up, ends, succeeded, ended⟩ := exists_ends_of_complaint built run
  have found := complains_iff_leavesOver built covers plain rfl ends succeeded ended
  exact ⟨built, covers, plain, down, up, ends, succeeded, ended, found.mp ⟨_, _, run⟩⟩

def capturing : Grammar :=
  unread "C(<n>)".toList

def capturingTranslator : Translator :=
  ⟨capturing, .standard,
    .matching Regex.engine (capturing.leafVariables TranslatorConfig.standard.wildcard)⟩

/-- A rule writes a token that it does not read, and yet there is no complaint: the token has been
replaced by the number that the rule above has bound. -/
theorem leftOver_captured_capturing :
    ofConfig Regex.engine capturing .standard = .ok capturingTranslator ∧
      (∀ name ∈ capturing.variableNames, name.Bracketed) ∧
      (∀ entry ∈ capturing.rules.entries, ∀ production ∈ entry.2.productions,
        Token.Legible capturing.variableNames production.source ∧
          production.Covers capturing.variableNames) ∧
      Text.Plain "a 5".toList ∧
      (∃ down up, capturingTranslator.DownEnds "a 5".toList .forward down ∧
        down.failure = none ∧ capturingTranslator.UpEnds down up ∧
        ∃ key ∈ up.completed.lookup "a 5".toList "<r>".toList,
          Applies capturing capturingTranslator.entailment .forward
            (fun production => ∃ token ∈ Token.tokens capturing.variableNames production.target,
              token ∉ Token.tokens capturing.variableNames production.source)
            (fun _ => True) key) ∧
      capturingTranslator.Yields "a 5".toList .forward (.ok ["R(C(5),5)".toList]) := by
  have run : capturingTranslator.Yields "a 5".toList .forward (.ok ["R(C(5),5)".toList]) :=
    ⟨50, by decide +kernel⟩
  refine ⟨ofConfig_eq_ok (by decide +kernel), by decide +kernel, by decide +kernel, by decide, ?_,
    run⟩
  rcases (outcome_of_yields rfl run).failed_or_collected with
    ⟨down, failure, ends, failed, answer⟩ | ⟨down, up, ends, succeeded, ended, -⟩
  · cases answer
  have acyclic : capturing.unitCycles = [] := by decide +kernel
  have asRoot : capturingTranslator.entailment "a 5".toList "<c> <n>".toList =
      .ok [⟨[("<c>".toList, "a".toList), ("<n>".toList, "5".toList)]⟩] := by decide +kernel
  have asLetter : capturingTranslator.entailment "a".toList "a".toList = .ok [⟨[]⟩] := by
    decide +kernel
  let root : Production := ⟨"<c> <n>".toList, "R(<c>,<n>)".toList⟩
  let letter : Production := ⟨"a".toList, "C(<n>)".toList⟩
  let child : DerivationKey := .ofProduction "a".toList "<c>".toList letter
  let key : DerivationKey := .ofProduction "a 5".toList "<r>".toList root
  let filled : DerivationKey :=
    (key.substituted "<c>".toList child.source child.target).substituted "<n>".toList
      "5".toList "5".toList
  have unread : ∃ token ∈ Token.tokens capturing.variableNames letter.target,
      token ∉ Token.tokens capturing.variableNames letter.source :=
    ⟨"<n>".toList, by decide +kernel, by decide +kernel⟩
  have below : Applies capturing capturingTranslator.entailment .forward
      (fun production => ∃ token ∈ Token.tokens capturing.variableNames production.target,
        token ∉ Token.tokens capturing.variableNames production.source) (fun _ => True) child :=
    .here (by decide +kernel) asLetter List.mem_cons_self unread .done
  have applies : Applies capturing capturingTranslator.entailment .forward
      (fun production => ∃ token ∈ Token.tokens capturing.variableNames production.target,
        token ∉ Token.tokens capturing.variableNames production.source) (fun _ => True) filled := by
    have onward : Resolves capturing (fun _ _ => True)
        (Derives capturing capturingTranslator.entailment .forward)
        ⟨key.substituted "<c>".toList child.source child.target,
          ⟨[("<n>".toList, "5".toList)]⟩⟩ filled :=
      .terminal (by decide +kernel) .done
    have isRule : root ∈ capturing.orientedRules .forward "<r>".toList := by decide +kernel
    exact .deeper isRule asRoot List.mem_cons_self
      (.here (by decide +kernel) below trivial onward)
  exact ⟨down, up, ends, succeeded, ended, filled,
    (mem_lookup_iff_derives acyclic ends succeeded ended filled).mpr
      ⟨applies.derives, rfl, rfl⟩, applies⟩

end Translator

end SyncGrammar
