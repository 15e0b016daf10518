import SyncGrammar.Grammar.Builder
import SyncGrammar.Proofs.Overwriting

/-!
The nonterminal that a token belongs to. Scanning knows the declared name at the start of a token;
looking up its nonterminal takes the digits away again, all of them, and so may take away digits of
the name. The two agree on names that do not end in a digit, and on tokens without an index that are
nonterminals themselves.
-/
namespace SyncGrammar

/-- No digit stands at the end of a name, so that the digits at the end of its tokens are their
index. -/
def Text.Unnumbered (name : Text) : Prop :=
  ∀ d ∈ name.getLast?, d.isDigit = false

-- The last character is looked at, and not each character there is.
instance (name : Text) : Decidable name.Unnumbered :=
  Option.decidableForallMem name.getLast?

theorem Text.Bracketed.unnumbered {name : Text} (bracketed : name.Bracketed) :
    name.Unnumbered := by
  obtain ⟨word, -, rfl⟩ := bracketed
  intro d last
  rw [List.getLast?_concat] at last
  cases last
  decide

namespace Token

variable {names : List Text} {text name index : Text}

theorem stripIndex_append (name : Text) (digits : ∀ d ∈ index, d.isDigit = true) :
    stripIndex (name ++ index) = stripIndex name := by
  rw [stripIndex, List.reverse_append, List.dropWhile_append_of_pos]
  · rfl
  · intro d member
    exact digits d (List.mem_reverse.mp member)

theorem stripIndex_eq_self_iff : stripIndex name = name ↔ name.Unnumbered := by
  rw [stripIndex, List.reverse_eq_iff, Text.Unnumbered, ← List.head?_reverse]
  cases name.reverse with
  | nil => simp
  | cons d rest =>
    constructor
    · intro kept first same
      cases same
      have stop := List.head?_dropWhile_not Char.isDigit (d :: rest)
      rw [kept] at stop
      simpa using stop
    · intro noDigit
      simp [noDigit d rfl]

theorem index_eq_nil_of_declared (member : .token name index ∈ segments names text)
    (declared : name ++ index ∈ names) : index = [] := by
  obtain ⟨rest, -, found⟩ := longestName_of_mem_segments member
  have begins : name ++ index <+: name ++ (index ++ rest) :=
    (List.prefix_append_right_inj name).mpr (List.prefix_append index rest)
  have bound := (longestName_eq_some found).2.2.2 _ declared begins
  rw [List.length_append] at bound
  exact List.eq_nil_of_length_eq_zero (by omega)

theorem mem_segments_of_mem_spansFrom {cut : List Segment} {place : Nat} {span : Span}
    (member : span ∈ spansFrom place cut) : .token span.name span.index ∈ cut := by
  induction cut generalizing place with
  | nil => cases member
  | cons segment rest ih =>
    cases segment with
    | literal c => exact List.mem_cons_of_mem _ (ih member)
    | token name index =>
      rcases List.mem_cons.mp member with rfl | inside
      · exact List.mem_cons_self
      · exact List.mem_cons_of_mem _ (ih inside)

end Token

namespace Grammar

variable {grammar : Grammar} {names : List Text} {text name index : Text}

/-- A token without an index is looked up as it is. Of any other, and if nothing is found, all the
digits at the end are taken away, those of the name included. -/
theorem nonterminalName?_of_segment (listed : ∀ own ∈ grammar.nonterminals, own ∈ names)
    (member : .token name index ∈ Token.segments names text) :
    grammar.nonterminalName? (name ++ index) =
      if index = [] ∧ name ∈ grammar.nonterminals then some name
      else if Token.stripIndex name ∈ grammar.nonterminals then some (Token.stripIndex name)
      else none := by
  have digits := (Token.declared_of_mem_segments member).2
  have whole : grammar.rules.contains (name ++ index) = true ↔
      index = [] ∧ name ∈ grammar.nonterminals := by
    rw [← NameTable.mem_names_iff]
    constructor
    · intro known
      obtain rfl := Token.index_eq_nil_of_declared member (listed _ known)
      rw [List.append_nil] at known
      exact ⟨rfl, known⟩
    · rintro ⟨rfl, known⟩
      rwa [List.append_nil]
  rw [nonterminalName?, Token.stripIndex_append name digits]
  simp only [whole, ← NameTable.mem_names_iff]
  by_cases here : index = [] ∧ name ∈ grammar.nonterminals
  · rw [if_pos here, if_pos here, here.1, List.append_nil]
  · rw [if_neg here, if_neg here]
    rfl

theorem nonterminalName?_of_unnumbered
    (unnumbered : ∀ own ∈ grammar.nonterminals, own.Unnumbered)
    (member : .token name index ∈ Token.segments grammar.nonterminals text) :
    grammar.nonterminalName? (name ++ index) = some name := by
  have known := (Token.declared_of_mem_segments member).1
  have stripped := Token.stripIndex_eq_self_iff.mpr (unnumbered name known)
  rw [nonterminalName?_of_segment (fun _ => id) member, stripped, if_pos known]
  split <;> rfl

/-- The nonterminal of a token is the name that scanning has found, exactly if the token has no
index or its name does not end in a digit. The token of a name that is no nonterminal has none,
exactly if none is left when the digits are taken away from the name. There is no third answer. -/
theorem owner_of_scanned {span : Token.Span}
    (scanned : span ∈ Token.scan grammar.variableNames text) :
    (span.name ∈ grammar.nonterminals →
      (grammar.nonterminalName? span.token = some span.name ↔
        span.index = [] ∨ span.name.Unnumbered)) ∧
    (span.name ∉ grammar.nonterminals →
      (grammar.nonterminalName? span.token = none ↔
        Token.stripIndex span.name ∉ grammar.nonterminals)) ∧
    ∀ owner, grammar.nonterminalName? span.token = some owner →
      owner = span.name ∨ owner = Token.stripIndex span.name := by
  have member := Token.mem_segments_of_mem_spansFrom scanned
  have answer := grammar.nonterminalName?_of_segment
    (fun own known => mem_variableNames.mpr (Or.inl known)) member
  rw [Token.Span.token, answer, ← Token.stripIndex_eq_self_iff]
  refine ⟨fun known => ?_, fun unknown => ?_, fun owner named => ?_⟩
  · by_cases bare : span.index = []
    · simp [bare, known]
    · by_cases stripped : Token.stripIndex span.name = span.name
      · simp [bare, known, stripped]
      · simp only [bare, stripped, false_and, if_false, or_false, iff_false]
        split <;> simp [stripped]
  · simp [unknown]
  · split at named
    · exact Or.inl (Option.some.inj named).symm
    · split at named
      · exact Or.inr (Option.some.inj named).symm
      · cases named

def numbered : List BuildStep :=
  [.rule "s".toList "x15 y2".toList "y2 x15".toList, .rule "x1".toList "a".toList "b".toList,
    .rule "y".toList "c".toList "d".toList, .variable "y2".toList "[0-9]".toList]

theorem owner_of_scanned_numbered :
    ∃ grammar, (GrammarBuilder.ofSteps numbered).build = .ok grammar ∧
      (∃ span ∈ Token.scan grammar.variableNames "y2 x1".toList, span.token = "x1".toList ∧
        grammar.nonterminalName? span.token = some span.name) ∧
      (∃ span ∈ Token.scan grammar.variableNames "x15 y7".toList, span.token = "x15".toList ∧
        span.name ∈ grammar.nonterminals ∧
        grammar.nonterminalName? span.token ≠ some span.name) := by
  refine ⟨_, rfl, ⟨⟨3, "x1".toList, []⟩, by decide +kernel, rfl, ?_⟩,
    ⟨⟨0, "x1".toList, "5".toList⟩, by decide +kernel, rfl, by decide +kernel, ?_⟩⟩
  · exact ((@owner_of_scanned _ "y2 x1".toList _ (by decide +kernel)).1
      (by decide +kernel)).mpr (Or.inl rfl)
  · intro owned
    have either := ((@owner_of_scanned _ "x15 y7".toList _ (by decide +kernel)).1
      (by decide +kernel)).mp owned
    exact absurd either (by decide +kernel)

/-- The rules of a nonterminal are not found by its token, and those of another one are found by
the token of a variable. -/
theorem owner_missed_numbered :
    ∃ grammar, (GrammarBuilder.ofSteps numbered).build = .ok grammar ∧
      ⟨0, "x1".toList, "5".toList⟩ ∈ Token.scan grammar.variableNames "x15 y2".toList ∧
      "x1".toList ∈ grammar.nonterminals ∧ grammar.nonterminalName? "x15".toList = none ∧
      ⟨4, "y2".toList, []⟩ ∈ Token.scan grammar.variableNames "x15 y2".toList ∧
      "y2".toList ∉ grammar.nonterminals ∧
      grammar.nonterminalName? "y2".toList = some "y".toList :=
  ⟨_, rfl, by decide +kernel⟩

end Grammar

end SyncGrammar
