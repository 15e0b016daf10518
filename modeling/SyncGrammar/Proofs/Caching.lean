import SyncGrammar.Proofs.Matching
import SyncGrammar.Regex.Engine

namespace SyncGrammar

namespace RegexEntailment

variable {Compiled : Type} {engine : RegexEngine Compiled} {table : VariableTable}
  {patterns : List Text} {entailment : RegexEntailment Compiled}

theorem lookup_eq_none {known : List (Text × Pattern Compiled)} {hypothesis : Text} :
    known.lookup hypothesis = none ↔ hypothesis ∉ known.map (·.1) := by
  rw [List.lookup_eq_none_iff, List.mem_map, not_exists]
  constructor
  · rintro apart entry ⟨member, rfl⟩
    simpa using apart entry member
  · intro absent entry member
    simpa using fun same => absent entry ⟨member, same.symm⟩

theorem map_fst_precompile {compiled after : List (Text × Pattern Compiled)} {hypothesis : Text}
    (made : precompile engine table compiled hypothesis = .ok after) :
    after.map (·.1) = if hypothesis ∈ compiled.map (·.1) then compiled.map (·.1)
      else compiled.map (·.1) ++ [hypothesis] := by
  unfold precompile at made
  cases found : compiled.lookup hypothesis with
  | some known =>
    rw [found] at made
    cases made
    have old : hypothesis ∈ compiled.map (·.1) := by
      by_contra absent
      rw [lookup_eq_none.mpr absent] at found
      cases found
    rw [if_pos old]
  | none =>
    rw [found] at made
    rw [if_neg (lookup_eq_none.mp found)]
    cases compiles : Pattern.compile engine table hypothesis with
    | error error =>
      rw [compiles] at made
      cases made
    | ok pattern =>
      rw [compiles] at made
      cases made
      exact List.map_append

theorem map_fst_compiled (made : ofPatterns engine patterns table = .ok entailment) :
    entailment.compiled.map (·.1) = patterns.eraseDups := by
  have kept (done more : List Text) (compiled after : List (Text × Pattern Compiled))
      (before : compiled.map (·.1) = done.eraseDups)
      (folded : more.foldlM (precompile engine table) compiled = .ok after) :
      after.map (·.1) = (done ++ more).eraseDups := by
    induction more generalizing done compiled with
    | nil =>
      cases folded
      rwa [List.append_nil]
    | cons hypothesis rest ih =>
      rw [List.foldlM_cons] at folded
      cases one : precompile engine table compiled hypothesis with
      | error error =>
        rw [one] at folded
        cases folded
      | ok next =>
        rw [one] at folded
        have listed : next.map (·.1) = (done ++ [hypothesis]).eraseDups := by
          rw [map_fst_precompile one, eraseDups_concat, before]
          simp only [List.mem_eraseDups, List.contains_iff_mem]
        simpa using ih _ next listed folded
  unfold ofPatterns at made
  cases folded : patterns.foldlM (precompile engine table) [] with
  | error error =>
    rw [folded] at made
    cases made
  | ok compiled =>
    rw [folded] at made
    cases made
    exact kept [] patterns [] compiled rfl folded

theorem Genuine.remember_cases (genuine : Genuine engine table entailment) (hypothesis : Text) :
    (∃ pattern, Pattern.compile engine table hypothesis = .ok pattern ∧
      entailment.find? hypothesis = none ∧ entailment.remember engine hypothesis =
        { entailment with onDemand := entailment.onDemand ++ [(hypothesis, pattern)] }) ∨
    ((entailment.find? hypothesis ≠ none ∨
        ∃ error, Pattern.compile engine table hypothesis = .error error) ∧
      entailment.remember engine hypothesis = entailment) := by
  unfold remember
  rw [genuine.pattern_eq]
  cases found : entailment.find? hypothesis with
  | some known => exact Or.inr ⟨Or.inl (Option.some_ne_none known), rfl⟩
  | none =>
    cases compiles : Pattern.compile engine table hypothesis with
    | error error => exact Or.inr ⟨Or.inr ⟨error, rfl⟩, rfl⟩
    | ok pattern => exact Or.inl ⟨pattern, rfl, rfl, rfl⟩

theorem Genuine.remember (genuine : Genuine engine table entailment) (hypothesis : Text) :
    Genuine engine table (entailment.remember engine hypothesis) := by
  rcases genuine.remember_cases hypothesis with ⟨pattern, compiles, -, kept⟩ | ⟨-, kept⟩
  · rw [kept]
    exact ⟨genuine.table_eq, genuine.compiled, genuine.onDemand.concat compiles⟩
  · rwa [kept]

def after (engine : RegexEngine Compiled) (entailment : RegexEntailment Compiled)
    (calls : List (Text × Text)) : RegexEntailment Compiled :=
  calls.foldl (fun entailment call => (entailment.ask engine call.1 call.2).2) entailment

theorem after_concat (calls : List (Text × Text)) (call : Text × Text) :
    entailment.after engine (calls ++ [call]) =
      (entailment.after engine calls).remember engine call.2 := by
  rw [after, List.foldl_append]
  rfl

theorem Genuine.after (genuine : Genuine engine table entailment) (calls : List (Text × Text)) :
    Genuine engine table (entailment.after engine calls) := by
  induction calls using List.reverseRecOn with
  | nil => exact genuine
  | append_singleton calls call ih =>
    rw [after_concat]
    exact ih.remember call.2

theorem Genuine.compiled_after (genuine : Genuine engine table entailment)
    (calls : List (Text × Text)) :
    (entailment.after engine calls).compiled = entailment.compiled := by
  induction calls using List.reverseRecOn with
  | nil => rfl
  | append_singleton calls call ih =>
    rw [after_concat]
    rcases (genuine.after calls).remember_cases call.2 with ⟨pattern, -, -, kept⟩ | ⟨-, kept⟩
    · rw [kept, ih]
    · rw [kept, ih]

/-- Hypotheses of which the pattern is kept on demand: those that compile and were not compiled at
the start. -/
def isKept (engine : RegexEngine Compiled) (table : VariableTable) (patterns : List Text)
    (hypothesis : Text) : Bool :=
  (Pattern.compile engine table hypothesis).isOk && !patterns.contains hypothesis

theorem find?_eq_none_iff {hypothesis : Text} :
    entailment.find? hypothesis = none ↔
      hypothesis ∉ entailment.compiled.map (·.1) ∧ hypothesis ∉ entailment.onDemand.map (·.1) := by
  rw [find?, Option.or_eq_none_iff, lookup_eq_none, lookup_eq_none]

theorem map_fst_onDemand (made : ofPatterns engine patterns table = .ok entailment)
    (calls : List (Text × Text)) :
    (entailment.after engine calls).onDemand.map (·.1) =
      (calls.map (·.2)).eraseDups.filter (isKept engine table patterns) := by
  have genuine := genuine_of_ofPatterns made
  induction calls using List.reverseRecOn with
  | nil =>
    rcases ofPatterns_cases patterns table with ⟨compiled, known, -⟩ | ⟨-, -, error, -, refused⟩
    · cases known.symm.trans made
      rfl
    · cases refused.symm.trans made
  | append_singleton calls call ih =>
    have given : (entailment.after engine calls).compiled.map (·.1) = patterns.eraseDups := by
      rw [genuine.compiled_after, map_fst_compiled made]
    have unknown := @find?_eq_none_iff _ (entailment.after engine calls) call.2
    rw [given, ih, List.mem_eraseDups, List.mem_filter, List.mem_eraseDups] at unknown
    rw [after_concat, List.map_append, List.map_singleton, eraseDups_concat]
    simp only [List.contains_iff_mem]
    rcases (genuine.after calls).remember_cases call.2 with
      ⟨pattern, compiles, new, kept⟩ | ⟨old, kept⟩
    · obtain ⟨notGiven, notKept⟩ := unknown.mp new
      have keeps : isKept engine table patterns call.2 = true := by
        simp [isKept, compiles, notGiven, Except.isOk, Except.toBool]
      have first : call.2 ∉ calls.map (·.2) := fun asked => notKept ⟨asked, keeps⟩
      rw [kept, if_neg first, List.filter_append, List.map_append, ih]
      simp [keeps]
    · rw [kept, ih]
      split
      · rfl
      · rename_i first
        have drops : isKept engine table patterns call.2 = false := by
          rcases old with known | ⟨error, refused⟩
          · by_contra keeps
            refine known (unknown.mpr ⟨fun given => ?_, fun asked => first asked.1⟩)
            simp [isKept, given] at keeps
          · simp [isKept, refused, Except.isOk, Except.toBool]
        simp [List.filter_append, drops]

/-- After any calls, failed ones among them, the answer to a call is what the hypothesis, compiled
afresh, gives for the text. Kept are the patterns given at the start and those of the hypotheses
asked about since that compile, each as it would be compiled now; a failure leaves nothing
behind. -/
theorem caches_are_invisible (made : ofPatterns engine patterns table = .ok entailment)
    (calls : List (Text × Text)) :
    (∀ text hypothesis, ((entailment.after engine calls).ask engine text hypothesis).1 =
      match Pattern.compile engine table hypothesis with
      | .error error => .error (.configuration error)
      | .ok pattern =>
        match pattern.all engine text with
        | .error error => .error (.entailment error.message)
        | .ok answers => .ok answers) ∧
    (entailment.after engine calls).compiled.map (·.1) = patterns.eraseDups ∧
    (entailment.after engine calls).onDemand.map (·.1) =
      (calls.map (·.2)).eraseDups.filter (isKept engine table patterns) ∧
    ∀ hypothesis pattern, (entailment.after engine calls).find? hypothesis = some pattern →
      Pattern.compile engine table hypothesis = .ok pattern := by
  have started := genuine_of_ofPatterns made
  have genuine := started.after calls
  refine ⟨fun text hypothesis => ?_, ?_, map_fst_onDemand made calls, ?_⟩
  · rw [ask, genuine.entail_eq, Entailment.matching]
    cases Pattern.compile engine table hypothesis with
    | error error => rfl
    | ok pattern =>
      simp only [matchAll]
      cases pattern.all engine text <;> rfl
  · rw [started.compiled_after, map_fst_compiled made]
  · intro hypothesis pattern found
    rw [← genuine.pattern_eq, RegexEntailment.pattern, found]

def halfTable : VariableTable :=
  .ofList [("<n>".toList, "[0-9]+".toList), ("<open>".toList, "(".toList)]

def halfCalls : List (Text × Text) :=
  [("x".toList, "<open>!".toList), ("1 + 2".toList, "<n>1 + <n>2".toList),
    ("x".toList, "<open>!".toList), ("1 apples".toList, "<n> apples".toList),
    ("no sum".toList, "<n>1 + <n>2".toList)]

theorem caches_are_invisible_half :
    ∃ entailment, ofPatterns Regex.engine ["<n> apples".toList] halfTable = .ok entailment ∧
      let later := entailment.after Regex.engine halfCalls
      later.onDemand.map (·.1) = ["<n>1 + <n>2".toList] ∧
      (later.ask Regex.engine "x".toList "<open>!".toList).1 = .error (.configuration
        (.invalidPattern "<open>!".toList "Malformed regular expression")) ∧
      (later.ask Regex.engine "3 + 4".toList "<n>1 + <n>2".toList).1 =
        .ok [⟨[("<n>1".toList, "3".toList), ("<n>2".toList, "4".toList)]⟩] ∧
      (later.ask Regex.engine "5 apples".toList "<n> apples".toList).1 =
        .ok [⟨[("<n>".toList, "5".toList)]⟩] := by
  have built : (ofPatterns Regex.engine ["<n> apples".toList] halfTable).isOk = true := by
    decide +kernel
  cases made : ofPatterns Regex.engine ["<n> apples".toList] halfTable with
  | error error =>
    rw [made] at built
    cases built
  | ok entailment =>
    obtain ⟨answers, -, kept, -⟩ := caches_are_invisible made halfCalls
    exact ⟨entailment, rfl, kept.trans (by decide +kernel), (answers _ _).trans (by decide +kernel),
      (answers _ _).trans (by decide +kernel), (answers _ _).trans (by decide +kernel)⟩

end RegexEntailment

end SyncGrammar
