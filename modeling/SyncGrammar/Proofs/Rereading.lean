import SyncGrammar.Proofs.Building
import SyncGrammar.Proofs.Writing

namespace SyncGrammar

/-- The notation can hold these rules and variables. -/
structure Notation.Representable (rules : NameTable RuleTable) (table : VariableTable) : Prop where
  titles : ∀ entry ∈ rules.entries, Writable entry.1 ∧ entry.1 ≠ variablesTitle
  rules : ∀ entry ∈ rules.entries, ∀ production ∈ entry.2.productions,
    WritableSides production.source production.target
  expressions : ∀ entry ∈ table.entries, WritableSides entry.1 entry.2

def Grammar.Representable (grammar : Grammar) : Prop :=
  Notation.Representable grammar.rules grammar.variables

instance (grammar : Grammar) : Decidable grammar.Representable :=
  decidable_of_iff
    ((∀ entry ∈ grammar.rules.entries,
        Notation.Writable entry.1 ∧ entry.1 ≠ Notation.variablesTitle) ∧
      (∀ entry ∈ grammar.rules.entries, ∀ production ∈ entry.2.productions,
        Notation.WritableSides production.source production.target) ∧
      ∀ entry ∈ grammar.variables.entries, Notation.WritableSides entry.1 entry.2)
    ⟨fun ⟨titles, rules, expressions⟩ => ⟨titles, rules, expressions⟩,
      fun ⟨titles, rules, expressions⟩ => ⟨titles, rules, expressions⟩⟩

namespace GrammarReader

variable {reader : GrammarReader}

def readLines (reader : GrammarReader) (lines : List Notation.Line) : GrammarReader :=
  lines.foldl readLine reader

def readText (reader : GrammarReader) (text : Text) : GrammarReader :=
  reader.readLines ((Text.lines text).map Notation.Line.read)

theorem readLines_append (reader : GrammarReader) (first second : List Notation.Line) :
    reader.readLines (first ++ second) = (reader.readLines first).readLines second :=
  List.foldl_append

theorem readText_append_newline (reader : GrammarReader) (before after : Text) :
    reader.readText (before ++ '\n' :: after) = (reader.readText before).readText after := by
  rw [readText, Text.lines_append_newline, List.map_append, readLines_append]
  rfl

theorem readText_of_line (reader : GrammarReader) {line : Text} (oneLine : '\n' ∉ line) :
    reader.readText line = reader.readLines [Notation.Line.read line] := by
  rw [readText, Text.lines_eq_singleton oneLine]
  rfl

theorem builder_readLine (reader : GrammarReader) (line : Notation.Line) :
    ∃ steps : List BuildStep,
      (reader.readLine line).builder = steps.foldl GrammarBuilder.step reader.builder := by
  fun_cases readLine reader line with
  | case1 => exact ⟨[], rfl⟩
  | case2 title => exact ⟨[.root title], rfl⟩
  | case3 => exact ⟨[], rfl⟩
  | case4 left right => exact ⟨[.variable left right], rfl⟩
  | case5 left right title _ => exact ⟨[.rule title left right], rfl⟩
  | case6 => exact ⟨[], rfl⟩

theorem builder_readLines (reader : GrammarReader) (lines : List Notation.Line) :
    ∃ steps : List BuildStep,
      (reader.readLines lines).builder = steps.foldl GrammarBuilder.step reader.builder := by
  induction lines generalizing reader with
  | nil => exact ⟨[], rfl⟩
  | cons line rest ih =>
    obtain ⟨first, one⟩ := builder_readLine reader line
    obtain ⟨later, others⟩ := ih (reader.readLine line)
    refine ⟨first ++ later, ?_⟩
    rw [List.foldl_append, ← one]
    exact others

end GrammarReader

theorem Grammar.exists_steps_of_read (text : Text) :
    ∃ steps, Grammar.read text = (GrammarBuilder.ofSteps steps).build := by
  obtain ⟨steps, built⟩ :=
    GrammarReader.builder_readLines .empty ((Text.lines text).map Notation.Line.read)
  exact ⟨steps, congrArg GrammarBuilder.build built⟩

section Taken

/-! What a reader has taken in. -/

namespace GrammarReader

structure Sound (reader : GrammarReader) : Prop where
  title : ∀ title, reader.title = some title → Notation.Writable title
  taken : Notation.Representable reader.builder.rules reader.builder.variables

end GrammarReader

namespace Notation

theorem Representable.addRule {builder : GrammarBuilder} {title left right : Text}
    (representable : Representable builder.rules builder.variables) (writable : Writable title)
    (named : title ≠ variablesTitle) (sides : WritableSides left right) :
    Representable (builder.addRule title left right).rules
      (builder.addRule title left right).variables := by
  refine ⟨fun entry member => ?_, fun entry member => ?_, representable.expressions⟩
  · have changed := NameTable.mem_entries_alter.mp member
    split at changed
    · rename_i here
      exact here ▸ ⟨writable, named⟩
    · exact representable.titles entry changed
  · have changed := NameTable.mem_entries_alter.mp member
    split at changed
    · rename_i here
      intro production inside
      rw [← changed] at inside
      rcases RuleTable.mem_insert.mp inside with rfl | old
      · exact sides
      · cases known : builder.rules.get? title with
        | none =>
          rw [known] at old
          cases old
        | some table =>
          rw [known] at old
          have present := (NameTable.get?_eq_some_iff _ _ _).mp known
          exact representable.rules (title, table) present production old
    · exact representable.rules entry changed

theorem Representable.addVariable {builder : GrammarBuilder} {left right : Text}
    (representable : Representable builder.rules builder.variables)
    (sides : WritableSides left right) :
    Representable (builder.addVariable left right).rules
      (builder.addVariable left right).variables := by
  refine ⟨representable.titles, representable.rules, fun entry member => ?_⟩
  have changed := NameTable.mem_entries_insert.mp member
  split at changed
  · rename_i here
    exact here ▸ changed ▸ sides
  · exact representable.expressions entry changed

end Notation

namespace GrammarReader

variable {reader : GrammarReader}

theorem Sound.readLine (sound : reader.Sound) {line : Notation.Line} (writable : line.Writable) :
    (reader.readLine line).Sound := by
  have titled (title other : Text) (heading : Notation.Writable title)
      (same : some title = some other) : Notation.Writable other :=
    Option.some.inj same ▸ heading
  fun_cases GrammarReader.readLine reader line with
  | case1 title => exact ⟨fun other => titled title other writable, sound.taken⟩
  | case2 title => exact ⟨fun other => titled title other writable, sound.taken⟩
  | case3 => exact sound
  | case4 left right known =>
    exact ⟨sound.title, sound.taken.addVariable writable⟩
  | case5 left right title known named =>
    exact ⟨sound.title, sound.taken.addRule (sound.title title known) named writable⟩
  | case6 => exact sound

theorem Sound.readLines (sound : reader.Sound) {lines : List Notation.Line}
    (writable : ∀ line ∈ lines, line.Writable) : (reader.readLines lines).Sound := by
  induction lines generalizing reader with
  | nil => exact sound
  | cons line rest ih =>
    rw [List.forall_mem_cons] at writable
    exact ih (sound.readLine writable.1) writable.2

theorem sound_empty : empty.Sound := by
  refine ⟨fun title known => ?_, ⟨?_, ?_, ?_⟩⟩
  · cases known
  · intro entry member
    cases member
  · intro entry member
    cases member
  · intro entry member
    cases member

theorem sound_readText (text : Text) : (empty.readText text).Sound := by
  apply sound_empty.readLines
  intro line member
  obtain ⟨written, inside, rfl⟩ := List.mem_map.mp member
  exact Notation.writable_read (Text.newline_not_mem_of_mem_lines inside)

end GrammarReader

theorem Grammar.representable_of_read {text : Text} {grammar : Grammar}
    (read : Grammar.read text = .ok grammar) : grammar.Representable := by
  obtain ⟨-, rules, expressions, -⟩ := GrammarBuilder.of_build_eq_ok read
  have taken := (GrammarReader.sound_readText text).taken
  rw [Grammar.Representable, ← rules, ← expressions]
  exact taken

end Taken

section Told

/-! What a written grammar tells its reader. -/

namespace Notation

/-- Whatever stands behind it, a text is read as these lines, apart from lines that say nothing. -/
def Tells (text : Text) (lines : List Line) : Prop :=
  ∀ (rest : Text) (reader : GrammarReader),
    reader.readText (text ++ rest) = (reader.readLines lines).readText rest

theorem tells_line {line : Text} (oneLine : '\n' ∉ line) :
    Tells (line ++ ['\n']) [Line.read line] := by
  intro rest reader
  have first := reader.readText_append_newline line rest
  rw [reader.readText_of_line oneLine] at first
  simpa using first

theorem tells_newline : Tells ['\n'] [] := by
  have oneLine : '\n' ∉ ([] : Text) := by simp
  exact tells_line oneLine

theorem Tells.append {first second : Text} {lines others : List Line} (tells : Tells first lines)
    (also : Tells second others) : Tells (first ++ second) (lines ++ others) := by
  intro rest reader
  rw [List.append_assoc, tells, also, GrammarReader.readLines_append]

variable {α : Type} {write : α → Text} {say : α → List Line} {elements : List α}

theorem tells_flatMap (tells : ∀ element ∈ elements, Tells (write element) (say element)) :
    Tells (elements.flatMap write) (elements.flatMap say) := by
  induction elements with
  | nil => exact fun rest reader => rfl
  | cons element rest ih =>
    rw [List.forall_mem_cons] at tells
    exact tells.1.append (ih tells.2)

theorem tells_joinWith (tells : ∀ element ∈ elements, Tells (write element) (say element)) :
    Tells (Text.joinWith ['\n'] (elements.map write)) (elements.flatMap say) := by
  induction elements with
  | nil => exact fun rest reader => rfl
  | cons element rest ih =>
    rw [List.forall_mem_cons] at tells
    cases rest with
    | nil => simpa [Text.joinWith] using tells.1
    | cons second others =>
      have both := (tells.1.append tells_newline).append (ih tells.2)
      simpa [Text.joinWith] using both

theorem tells_heading {title : Text} (writable : Writable title) :
    Tells (renderHeading title) [.heading title] := by
  have told := tells_line (newline_not_mem_headingLine writable)
  rw [read_headingLine writable] at told
  simpa [renderHeading, headingLine] using told

theorem tells_item {left right : Text} (sides : WritableSides left right) :
    Tells (itemLine left right ++ ['\n']) [.item left right] := by
  have told := tells_line (newline_not_mem_itemLine sides)
  rwa [read_itemLine sides] at told

def blockLines (block : Text × RuleTable) : List Line :=
  .heading block.1 :: block.2.productions.map fun production =>
    .item production.source production.target

theorem tells_block {title : Text} {table : RuleTable} (writable : Writable title)
    (sides : ∀ production ∈ table.productions,
      WritableSides production.source production.target) :
    Tells (renderBlock title table) (blockLines (title, table)) := by
  have items : Tells table.render (table.productions.flatMap fun production =>
      [.item production.source production.target]) := by
    apply tells_flatMap
    intro production member
    have told := tells_item (sides production member)
    simpa [itemLine, itemMark, separator, Production.render] using told
  have whole := (tells_heading writable).append items
  simpa [renderBlock, blockLines, List.map_eq_flatMap] using whole

def variableLines (table : VariableTable) : List Line :=
  if table.isEmpty then []
  else .heading variablesTitle :: table.entries.map fun entry => .item entry.1 entry.2

theorem tells_variables {table : VariableTable}
    (sides : ∀ entry ∈ table.entries, WritableSides entry.1 entry.2) :
    Tells (renderVariables table) (variableLines table) := by
  unfold renderVariables variableLines
  split
  · exact fun rest reader => rfl
  · have items : Tells (table.entries.flatMap fun entry =>
        [itemMark, ' '] ++ entry.1 ++ [' ', separator, ' '] ++ entry.2 ++ ['\n'])
        (table.entries.flatMap fun entry => [.item entry.1 entry.2]) := by
      apply tells_flatMap
      intro entry member
      exact tells_item (sides entry member)
    have writable : Writable variablesTitle := by decide
    have whole := (tells_newline.append (tells_heading writable)).append items
    simpa [List.map_eq_flatMap] using whole

end Notation

theorem Grammar.mem_blocks {grammar : Grammar} {block : Text × RuleTable} :
    block ∈ grammar.blocks ↔ block ∈ grammar.rules.entries := by
  rw [Grammar.blocks, List.mem_append, List.mem_filter, List.mem_filter]
  by_cases asRoot : block.1 = grammar.root <;> simp [asRoot]

open Notation in
theorem Grammar.Representable.tells {grammar : Grammar} (representable : grammar.Representable) :
    Tells grammar.render
      (grammar.blocks.flatMap blockLines ++ variableLines grammar.variables) := by
  have blocks : ∀ block ∈ grammar.blocks,
      Tells (renderBlock block.1 block.2) (blockLines block) := by
    intro block member
    have inside := Grammar.mem_blocks.mp member
    exact tells_block (representable.titles block inside).1 (representable.rules block inside)
  exact (tells_joinWith blocks).append (tells_variables representable.expressions)

end Told

namespace GrammarReader

variable {reader : GrammarReader}

theorem readLine_heading {title : Text} (named : title ≠ Notation.variablesTitle) :
    reader.readLine (.heading title) =
      ⟨{ reader.builder with root := some (reader.builder.root.getD title) }, some title⟩ := by
  obtain ⟨⟨root, rules, table⟩, before⟩ := reader
  cases root with
  | none => simp [readLine, named, GrammarBuilder.hasRoot, GrammarBuilder.setRoot]
  | some root => simp [readLine, GrammarBuilder.hasRoot]

theorem readLines_rules {title : Text} (named : title ≠ Notation.variablesTitle)
    (builder : GrammarBuilder) (productions : List Production) :
    readLines ⟨builder, some title⟩
        (productions.map fun production => .item production.source production.target) =
      ⟨builder.addRules title productions, some title⟩ := by
  induction productions generalizing builder with
  | nil => rfl
  | cons production rest ih =>
    have first : readLine ⟨builder, some title⟩ (.item production.source production.target) =
        ⟨builder.addRule title production.source production.target, some title⟩ := by
      simp [readLine, named]
    rw [List.map_cons, readLines, List.foldl_cons, first]
    exact ih _

theorem readLines_block {title : Text} {table : RuleTable} (tidy : table.Tidy)
    (named : title ≠ Notation.variablesTitle)
    (fresh : reader.builder.rules.get? title = none) :
    reader.readLines (Notation.blockLines (title, table)) =
      ⟨{ reader.builder with
          root := some (reader.builder.root.getD title)
          rules := reader.builder.rules.insert title table }, some title⟩ := by
  let rooted : GrammarBuilder :=
    { reader.builder with root := some (reader.builder.root.getD title) }
  have stillFresh : rooted.rules.get? title = none := fresh
  have added := GrammarBuilder.addRules_productions tidy stillFresh
  rw [Notation.blockLines, readLines, List.foldl_cons, readLine_heading named]
  refine (readLines_rules named rooted table.productions).trans ?_
  exact congrArg (GrammarReader.mk · (some title)) added

theorem builder_readLines_blocks {blocks : List (Text × RuleTable)}
    (tidy : ∀ block ∈ blocks, block.2.Tidy)
    (named : ∀ block ∈ blocks, block.1 ≠ Notation.variablesTitle)
    (distinct : (blocks.map (·.1)).Nodup)
    (fresh : ∀ block ∈ blocks, reader.builder.rules.get? block.1 = none) :
    (reader.readLines (blocks.flatMap Notation.blockLines)).builder =
      { reader.builder with
        root := reader.builder.root.or (blocks.head?.map (·.1))
        rules := blocks.foldl (fun rules block => rules.insert block.1 block.2)
          reader.builder.rules } := by
  induction blocks generalizing reader with
  | nil => simp [readLines]
  | cons block rest ih =>
    rw [List.forall_mem_cons] at tidy named fresh
    rw [List.map_cons, List.nodup_cons] at distinct
    rw [List.flatMap_cons, readLines_append, readLines_block tidy.1 named.1 fresh.1]
    refine (ih tidy.2 named.2 distinct.2 fun other member => ?_).trans ?_
    · have different : block.1 ≠ other.1 := fun same =>
        distinct.1 (same ▸ List.mem_map_of_mem member)
      rw [NameTable.get?_insert, if_neg different]
      exact fresh.2 other member
    · cases reader.builder.root <;> rfl

theorem builder_readLines_variables (reader : GrammarReader) (table : VariableTable) :
    (reader.readLines (Notation.variableLines table)).builder =
      { reader.builder with
        «variables» := table.entries.foldl (fun table entry => table.insert entry.1 entry.2)
          reader.builder.variables } := by
  have items (entries : List (Text × Text)) (builder : GrammarBuilder) :
      (readLines ⟨builder, some Notation.variablesTitle⟩
        (entries.map fun entry => .item entry.1 entry.2)).builder =
        { builder with
          «variables» := entries.foldl (fun table entry => table.insert entry.1 entry.2)
            builder.variables } := by
    induction entries generalizing builder with
    | nil => rfl
    | cons entry rest ih => exact ih (builder.addVariable entry.1 entry.2)
  have heading : reader.readLine (.heading Notation.variablesTitle) =
      ⟨reader.builder, some Notation.variablesTitle⟩ := by
    simp [readLine]
  unfold Notation.variableLines
  split
  · rename_i none
    have nothing : table.entries = [] := List.isEmpty_iff.mp none
    rw [nothing]
    rfl
  · rw [readLines, List.foldl_cons, heading]
    exact items _ _

end GrammarReader

namespace NameTable

theorem foldl_insert_empty {α : Type} {table : NameTable α} {pairs : List (Text × α)}
    (same : ∀ pair, pair ∈ pairs ↔ pair ∈ table.entries) (distinct : (pairs.map (·.1)).Nodup) :
    pairs.foldl (fun table pair => table.insert pair.1 pair.2) ∅ = table := by
  apply eq_of_mem_entries_iff
  intro entry
  have fresh : ∀ pair ∈ pairs, (∅ : NameTable α).get? pair.1 = none := fun _ _ => rfl
  rw [mem_entries_foldl_insert distinct fresh, same]
  exact or_iff_left List.not_mem_nil

end NameTable

namespace Grammar

variable {grammar : Grammar}

theorem nodup_names_blocks (grammar : Grammar) : (grammar.blocks.map (·.1)).Nodup := by
  have same : grammar.blocks.Perm grammar.rules.entries := by
    simpa [blocks] using List.filter_append_perm (·.1 = grammar.root) grammar.rules.entries
  exact (same.map _).nodup_iff.mpr grammar.rules.nodup_names

theorem head?_blocks (rooted : grammar.rules.contains grammar.root = true) :
    grammar.blocks.head?.map (·.1) = some grammar.root := by
  obtain ⟨entry, member, named⟩ := List.any_eq_true.mp rooted
  have asRoot : entry ∈ grammar.rules.entries.filter (·.1 = grammar.root) :=
    List.mem_filter.mpr ⟨member, named⟩
  unfold blocks
  cases written : grammar.rules.entries.filter (·.1 = grammar.root) with
  | nil =>
    rw [written] at asRoot
    cases asRoot
  | cons first rest =>
    have inside : first ∈ grammar.rules.entries.filter (·.1 = grammar.root) :=
      written ▸ List.mem_cons_self
    have named : first.1 = grammar.root := by simpa using (List.mem_filter.mp inside).2
    exact congrArg some named

theorem WellFormed.read_render (wellFormed : grammar.WellFormed)
    (representable : grammar.Representable) : Grammar.read grammar.render = .ok grammar := by
  let blockLines := grammar.blocks.flatMap Notation.blockLines
  have told := representable.tells [] .empty
  have whole : Grammar.read grammar.render =
      ((GrammarReader.empty.readLines blockLines).readLines
        (Notation.variableLines grammar.variables)).builder.build := by
    rw [List.append_nil, GrammarReader.readLines_append] at told
    exact congrArg (fun reader => reader.builder.build) told
  have blocks : (GrammarReader.empty.readLines blockLines).builder =
      ⟨some grammar.root, grammar.rules, ∅⟩ := by
    refine (GrammarReader.builder_readLines_blocks ?_ ?_ grammar.nodup_names_blocks ?_).trans ?_
    · intro block member
      exact wellFormed.tidy block (mem_blocks.mp member)
    · intro block member
      exact (representable.titles block (mem_blocks.mp member)).2
    · intro block member
      rfl
    · have rules := NameTable.foldl_insert_empty (fun _ => mem_blocks) grammar.nodup_names_blocks
      rw [head?_blocks wellFormed.rooted]
      exact congrArg (GrammarBuilder.mk _ · _) rules
  have expressions := NameTable.foldl_insert_empty (fun _ => Iff.rfl) grammar.variables.nodup_names
  rw [whole, GrammarReader.builder_readLines_variables, blocks, expressions]
  exact wellFormed.build_eq

/-- Writing and reading undo each other exactly on the representable grammars, and every grammar
that has been read is one. -/
theorem read_render_iff_representable :
    (∀ steps grammar, (GrammarBuilder.ofSteps steps).build = .ok grammar →
      (Grammar.read grammar.render = .ok grammar ↔ grammar.Representable)) ∧
    ∀ text grammar, Grammar.read text = .ok grammar →
      grammar.Representable ∧ Grammar.read grammar.render = .ok grammar := by
  have exact (steps : List BuildStep) (grammar : Grammar)
      (built : (GrammarBuilder.ofSteps steps).build = .ok grammar) :
      Grammar.read grammar.render = .ok grammar ↔ grammar.Representable :=
    ⟨representable_of_read, (GrammarBuilder.wellFormed_of_build built).read_render⟩
  refine ⟨exact, fun text grammar read => ?_⟩
  obtain ⟨steps, built⟩ := exists_steps_of_read text
  have representable := representable_of_read read
  exact ⟨representable, (exact steps grammar (built.symm.trans read)).mpr representable⟩

def marked : Grammar :=
  ⟨"=a =".toList, .ofList [
    ("=a =".toList, .ofList [⟨"*b".toList, "/c".toList⟩, ⟨"=".toList, "d / e".toList⟩]),
    ("".toList, .ofList [⟨"**".toList, "x\ry".toList⟩])],
    .ofList [("".toList, "".toList), ("*".toList, "/".toList)]⟩

def markedSteps : List BuildStep :=
  [.rule "=a =".toList "*b".toList "/c".toList, .rule "=a =".toList "=".toList "d / e".toList,
    .rule "".toList "**".toList "x\ry".toList, .variable "".toList "".toList,
    .variable "*".toList "/".toList]

def commented : Grammar :=
  ⟨"r".toList, .ofList [("r".toList, .ofList [⟨"a # b".toList, "c".toList⟩])], ∅⟩

def uncommented : Grammar :=
  ⟨"r".toList, .ofList [("r".toList, .ofList [⟨"a".toList, "c".toList⟩])], ∅⟩

theorem read_render_iff_representable_marked :
    ((GrammarBuilder.ofSteps markedSteps).build = .ok marked ∧ marked.Representable ∧
      Grammar.read marked.render = .ok marked) ∧
    ((GrammarBuilder.ofSteps [.rule "r".toList "a # b".toList "c".toList]).build = .ok commented ∧
      ¬ commented.Representable ∧ Grammar.read commented.render ≠ .ok commented) ∧
    Grammar.read "= r =\n** a #/b\n* a /c # d".toList = .ok uncommented ∧
      Grammar.read uncommented.render = .ok uncommented := by
  obtain ⟨ofBuilt, ofRead⟩ := read_render_iff_representable
  have built : (GrammarBuilder.ofSteps markedSteps).build = .ok marked := by decide +kernel
  have representable : marked.Representable := by decide +kernel
  have alsoBuilt : (GrammarBuilder.ofSteps [.rule "r".toList "a # b".toList "c".toList]).build =
      .ok commented := by decide +kernel
  have excluded : ¬ commented.Representable := by decide +kernel
  have read : Grammar.read "= r =\n** a #/b\n* a /c # d".toList = .ok uncommented := by
    decide +kernel
  exact ⟨⟨built, representable, (ofBuilt _ _ built).mpr representable⟩,
    ⟨alsoBuilt, excluded, fun again => excluded ((ofBuilt _ _ alsoBuilt).mp again)⟩,
    read, (ofRead _ _ read).2⟩

end Grammar

end SyncGrammar
