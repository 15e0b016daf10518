namespace SyncGrammar

structure ResultStack (α : Type) where
  /-- The items, the top in front. -/
  items : List α
  deriving DecidableEq, Repr

namespace ResultStack

variable {α : Type}

def empty : ResultStack α := ⟨[]⟩

instance : EmptyCollection (ResultStack α) := ⟨empty⟩

instance : Inhabited (ResultStack α) := ⟨empty⟩

def push (stack : ResultStack α) (item : α) : ResultStack α :=
  ⟨item :: stack.items⟩

/-- Pushes the items of a list one after the other, so that the last one is on top. -/
def pushAll (stack : ResultStack α) (items : List α) : ResultStack α :=
  items.foldl push stack

def pop? (stack : ResultStack α) : Option (α × ResultStack α) :=
  match stack.items with
  | [] => none
  | item :: rest => some (item, ⟨rest⟩)

def size (stack : ResultStack α) : Nat :=
  stack.items.length

def isEmpty (stack : ResultStack α) : Bool :=
  stack.items.isEmpty

theorem items_pushAll (stack : ResultStack α) (items : List α) :
    (stack.pushAll items).items = items.reverse ++ stack.items := by
  unfold pushAll
  induction items generalizing stack with
  | nil => rfl
  | cons item rest ih => simp [ih, push]

end ResultStack

end SyncGrammar
