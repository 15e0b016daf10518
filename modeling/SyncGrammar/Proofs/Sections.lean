import SyncGrammar.Proofs.Fixpoint

/-!
The sections of a trace. Each loop opens one section and only adds notes to it, so that a call whose
questions are all answered closes what it has opened. A call that breaks off on the way down does
not: two sections stay open, and all that is traced later is indented by them.
-/
namespace SyncGrammar

namespace TraceEvent

variable {events appended : List TraceEvent}

def depth (events : List TraceEvent) : Nat :=
  events.foldr (fun event depth => event.depthAfter depth) 0

/-- Events in order of time that close each section that they open, and no other. -/
inductive Nested : List TraceEvent → Prop
  | nothing : Nested []
  | noted (text : String) : Nested [note text]
  | enclosed (title : String) {inner : List TraceEvent} (nested : Nested inner) :
    Nested (opened title :: inner ++ [closed])
  | followed {first second : List TraceEvent} (nested : Nested first) (next : Nested second) :
    Nested (first ++ second)

theorem Nested.foldl_depthAfter (nested : Nested events) (depth : Nat) :
    events.foldl depthAfter depth = depth := by
  induction nested generalizing depth with
  | nothing => rfl
  | noted text => rfl
  | enclosed title _ ih =>
    rw [List.cons_append, List.foldl_cons, List.foldl_append, ih]
    rfl
  | followed _ _ first second => rw [List.foldl_append, first, second]

theorem nested_notes (notes : List String) : Nested (notes.map note) := by
  induction notes with
  | nil => exact .nothing
  | cons text rest ih => exact .followed (.noted text) ih

theorem depth_append : depth (appended.reverse ++ events) =
    appended.foldl depthAfter (depth events) := by
  rw [depth, List.foldr_append, List.foldr_reverse]
  rfl

theorem lines_append : lines (appended.reverse ++ events).reverse =
    lines events.reverse ++ linesFrom (depth events) appended := by
  rw [lines, List.reverse_append, List.reverse_reverse, linesFrom_append, List.foldl_reverse]
  rfl

/-- Nothing but notes has been added to the events before. -/
def AddsNotes (before events : List TraceEvent) : Prop :=
  ∃ notes : List String, events = (notes.map note).reverse ++ before

theorem addsNotes_refl (before : List TraceEvent) : AddsNotes before before :=
  ⟨[], rfl⟩

theorem AddsNotes.note {before : List TraceEvent} (adds : AddsNotes before events)
    (text : String) : AddsNotes before (.note text :: events) := by
  obtain ⟨notes, rfl⟩ := adds
  exact ⟨notes ++ [text], by simp⟩

end TraceEvent

open TraceEvent

theorem Downward.addsNotes {grammar : Grammar} {entailment : Entailment} {direction : Direction}
    {start state : Downward} (reached : Reaches (step grammar entailment direction) start state) :
    AddsNotes start.events state.events := by
  induction reached with
  | refl => exact addsNotes_refl _
  | tail _ move adds =>
    cases advance_of_step move with
    | failed => exact adds
    | answered =>
      dsimp only
      split
      · exact adds
      · exact adds.note _

theorem Upward.addsNotes {grammar : Grammar} {cycles : List Text} {start state : Upward}
    (reached : Reaches (step grammar cycles) start state) :
    AddsNotes start.events state.events := by
  induction reached with
  | refl => exact addsNotes_refl _
  | tail _ move adds =>
    cases advance_of_step move with
    | repeated => exact adds
    | completed => exact adds.note _
    | terminal => exact adds
    | nonterminal => exact adds

namespace Translator

variable {translator : Translator} {text : Text} {direction : Direction} {fuel : Nat}
  {events : List TraceEvent} {translated : Translated}

theorem exists_appended
    (run : translator.translateTraced fuel text direction events = some translated) :
    ∃ appended, translated.events = appended.reverse ++ events ∧
      (Nested appended ∧
          (translator.config.directions.allows direction = true →
            translator.Answered text direction) ∨
        translator.config.directions.allows direction = true ∧
          ¬ translator.Answered text direction ∧
          ∃ (greeting : String) (notes : List String), appended =
            .opened "translate" :: .note greeting :: .opened "downward" :: notes.map .note) := by
  rcases translateTraced_cases run with ⟨barred, rfl⟩ | ⟨allowed, down, ends, result⟩
  · refine ⟨[], rfl, Or.inl ⟨.nothing, fun allowed => ?_⟩⟩
    rw [barred] at allowed
    cases allowed
  · have answered := answered_iff_of_endsIn ends
    obtain ⟨notes, noted⟩ := Downward.addsNotes ends.reached
    obtain ⟨greeting, greets⟩ : ∃ greeting, openingEvents direction text events =
        .note greeting :: .opened "translate" :: events := ⟨_, rfl⟩
    rw [Downward.start, greets] at noted
    -- a failure ends the call at once, with the sections of the call and of the way down open
    rcases result with ⟨failure, failed, rfl⟩ | ⟨succeeded, up, ended, rfl⟩
    · refine ⟨.opened "translate" :: .note greeting :: .opened "downward" :: notes.map .note, ?_,
        Or.inr ⟨allowed, ?_, greeting, notes, rfl⟩⟩
      · simp [noted]
      · rw [answered, failed]
        exact Option.some_ne_none failure
    · obtain ⟨upNotes, upNoted⟩ := Upward.addsNotes ended.reached
      obtain ⟨queued, queues⟩ : ∃ queued, down.queuedNote = .note queued := ⟨_, rfl⟩
      obtain ⟨summary, summarises⟩ : ∃ summary, up.summaryNote = .note summary := ⟨_, rfl⟩
      have downNested := ((nested_notes notes).followed (.noted queued)).enclosed "downward"
      have upNested := ((nested_notes upNotes).followed (.noted summary)).enclosed "upward"
      have whole := ((Nested.noted greeting).followed (downNested.followed upNested)).enclosed
        "translate"
      refine ⟨_, ?_, Or.inl ⟨whole, fun _ => answered.mpr succeeded⟩⟩
      simp [upNoted, upStart, Upward.start, queues, summarises, noted]

/-- A call closes the sections that it opens, and leaves the indentation as it was, unless a
question on its way down has no answer. Then two sections stay open, and none is closed. -/
theorem closes_sections_unless_refused
    (run : translator.translateTraced fuel text direction events = some translated) :
    ∃ appended, translated.events = appended.reverse ++ events ∧
      lines translated.events.reverse =
        lines events.reverse ++ linesFrom (depth events) appended ∧
      ((translator.config.directions.allows direction = true →
          translator.Answered text direction) →
        Nested appended ∧ depth translated.events = depth events) ∧
      (translator.config.directions.allows direction = true →
        ¬ translator.Answered text direction →
          ¬ Nested appended ∧ .closed ∉ appended ∧
            depth translated.events = depth events + 2) := by
  obtain ⟨appended, added, kinds⟩ := exists_appended run
  refine ⟨appended, added, added ▸ lines_append, fun answered => ?_, fun allowed refused => ?_⟩
  · rcases kinds with ⟨nested, -⟩ | ⟨allowed, refused, -⟩
    · exact ⟨nested, by rw [added, depth_append, nested.foldl_depthAfter]⟩
    · exact absurd (answered allowed) refused
  · rcases kinds with ⟨-, answered⟩ | ⟨-, -, greeting, notes, rfl⟩
    · exact absurd (answered allowed) refused
    · have deeper (outer : Nat) : (TraceEvent.opened "translate" :: .note greeting ::
          .opened "downward" :: notes.map .note).foldl depthAfter outer = outer + 2 :=
        (nested_notes notes).foldl_depthAfter (outer + 2)
      refine ⟨fun nested => ?_, by simp, by rw [added, depth_append, deeper]⟩
      have level := nested.foldl_depthAfter 0
      rw [deeper] at level
      cases level

theorem closes_sections_unless_refused_sharedChild :
    ∃ translated,
      sharedChildTranslator.translateTraced 50 "a".toList .forward [.opened "samples"] =
        some translated ∧
      depth translated.events = 1 ∧
      ∃ appended, Nested appended ∧
        lines translated.events.reverse = lines [.opened "samples"] ++ linesFrom 1 appended := by
  have answered : sharedChildTranslator.Answered "a".toList .forward :=
    fun key _ => Entailment.exists_answers_ofRows (by decide +kernel) key.subtext key.source
  have ended : (sharedChildTranslator.translateTraced 50 "a".toList .forward
      [.opened "samples"]).isSome = true := by decide +kernel
  obtain ⟨translated, run⟩ := Option.isSome_iff_exists.mp ended
  obtain ⟨appended, -, added, closes, -⟩ := closes_sections_unless_refused run
  obtain ⟨nested, level⟩ := closes fun _ => answered
  exact ⟨translated, run, level, appended, nested, added⟩

def unanswering : Translator :=
  ⟨⟨"<r>".toList, .ofList [("<r>".toList, .ofList [⟨"a".toList, "A".toList⟩])], ∅⟩, .standard,
    .ofRows [⟨"a".toList, "a".toList, .error "no answer"⟩]⟩

theorem sections_left_open_unanswering :
    ∃ translated, unanswering.translateTraced 5 "a".toList .forward [] = some translated ∧
      translated.result = .error (.entailment "no answer") ∧
      lines translated.events.reverse =
        ["translate \x7b", "  forward 'a'", "  downward \x7b"] ∧
      depth [] = 0 ∧ depth translated.events = 2 :=
  ⟨_, rfl, rfl, rfl, rfl, rfl⟩

end Translator

end SyncGrammar
