import SyncGrammar.Text.Quoted

namespace SyncGrammar

structure Assignment where
  bindings : List (Text × Text)
  deriving DecidableEq, Repr

namespace Assignment

def empty : Assignment := ⟨[]⟩

instance : EmptyCollection Assignment := ⟨empty⟩

instance : Inhabited Assignment := ⟨empty⟩

/-- Binds `token` in a list of bindings: in its place if it is there, otherwise at the end. -/
def bindIn (token value : Text) : List (Text × Text) → List (Text × Text)
  | [] => [(token, value)]
  | binding :: rest =>
    if binding.1 = token then (token, value) :: rest else binding :: bindIn token value rest

def bind (assignment : Assignment) (token value : Text) : Assignment :=
  ⟨bindIn token value assignment.bindings⟩

def ofList (pairs : List (Text × Text)) : Assignment :=
  pairs.foldl (fun assignment pair => assignment.bind pair.1 pair.2) empty

def get? (assignment : Assignment) (token : Text) : Option Text :=
  (assignment.bindings.find? (·.1 = token)).map (·.2)

def tokens (assignment : Assignment) : List Text :=
  assignment.bindings.map (·.1)

def size (assignment : Assignment) : Nat :=
  assignment.bindings.length

def isEmpty (assignment : Assignment) : Bool :=
  assignment.bindings.isEmpty

def splitFirst? (assignment : Assignment) : Option ((Text × Text) × Assignment) :=
  match assignment.bindings with
  | [] => none
  | binding :: rest => some (binding, ⟨rest⟩)

def render (assignment : Assignment) : Text :=
  ['\x7b'] ++ Text.joinWith [',', ' ']
    (assignment.bindings.map fun binding => binding.1 ++ [':', ' '] ++ binding.2.quoted) ++ ['\x7d']

theorem get?_cons (binding : Text × Text) (rest : List (Text × Text)) (token : Text) :
    get? ⟨binding :: rest⟩ token =
      if binding.1 = token then some binding.2 else get? ⟨rest⟩ token := by
  unfold get?
  rw [List.find?_cons]
  by_cases same : binding.1 = token
  · simp [same]
  · simp [same]

theorem get?_of_mem {bindings : List (Text × Text)} {binding : Text × Text}
    (distinct : (bindings.map (·.1)).Nodup) (member : binding ∈ bindings) :
    get? ⟨bindings⟩ binding.1 = some binding.2 := by
  induction bindings with
  | nil => cases member
  | cons first rest ih =>
    rw [List.map_cons, List.nodup_cons] at distinct
    rw [get?_cons]
    rcases List.mem_cons.mp member with rfl | later
    · exact if_pos rfl
    · have apart : first.1 ≠ binding.1 := by
        intro same
        exact distinct.1 (same ▸ List.mem_map_of_mem later)
      rw [if_neg apart]
      exact ih distinct.2 later

theorem get?_eq_some_iff_mem {bindings : List (Text × Text)} {token value : Text}
    (distinct : (bindings.map (·.1)).Nodup) :
    get? ⟨bindings⟩ token = some value ↔ (token, value) ∈ bindings := by
  constructor
  · intro bound
    obtain ⟨binding, found, rfl⟩ := Option.map_eq_some_iff.mp bound
    have same : binding.1 = token := by simpa using List.find?_some found
    exact same ▸ List.mem_of_find?_eq_some found
  · intro member
    exact get?_of_mem distinct member

theorem find?_bindIn (token value other : Text) (bindings : List (Text × Text)) :
    (bindIn token value bindings).find? (·.1 = other) =
      if token = other then some (token, value) else bindings.find? (·.1 = other) := by
  fun_induction bindIn token value bindings with
  | case1 => simp [List.find?_cons]; split <;> simp_all
  | case2 binding rest same =>
    by_cases equal : token = other
    · simp [equal]
    · simp [equal, same]
  | case3 binding rest different ih =>
    by_cases here : binding.1 = other
    · have unequal : ¬ token = other := fun same => different (here.trans same.symm)
      simp [here, unequal]
    · simp [here, ih]

theorem get?_bind (assignment : Assignment) (token value other : Text) :
    (assignment.bind token value).get? other =
      if token = other then some value else assignment.get? other := by
  unfold get? bind
  rw [find?_bindIn]
  split <;> rfl

theorem map_fst_bindIn (token value : Text) (bindings : List (Text × Text)) :
    (bindIn token value bindings).map (·.1) =
      if token ∈ bindings.map (·.1) then bindings.map (·.1) else bindings.map (·.1) ++ [token] := by
  fun_induction bindIn token value bindings with
  | case1 => simp
  | case2 binding rest same => simp [same]
  | case3 binding rest different ih =>
    have unequal : ¬ token = binding.1 := Ne.symm different
    simp only [List.map_cons, ih, List.mem_cons, unequal, false_or]
    split <;> simp

theorem tokens_bind (assignment : Assignment) (token value : Text) :
    (assignment.bind token value).tokens =
      if token ∈ assignment.tokens then assignment.tokens else assignment.tokens ++ [token] :=
  map_fst_bindIn token value assignment.bindings

theorem get?_eq_none_iff {assignment : Assignment} {token : Text} :
    assignment.get? token = none ↔ token ∉ assignment.tokens := by
  rw [get?, Option.map_eq_none_iff, List.find?_eq_none, tokens, List.mem_map, not_exists]
  simp only [decide_eq_true_eq, not_and]

end Assignment

end SyncGrammar
