namespace SyncGrammar

theorem eraseDups_concat {α : Type} [BEq α] [LawfulBEq α] (items : List α) (last : α) :
    (items ++ [last]).eraseDups =
      if items.contains last then items.eraseDups else items.eraseDups ++ [last] := by
  rw [List.eraseDups_append]
  by_cases old : last ∈ items
  · simp [List.removeAll, old]
  · simp [List.removeAll, old, List.eraseDups_cons]

/-- A queue that remembers what it has ever taken and takes nothing twice. -/
structure DedupQueue (α : Type) where
  /-- The items that wait for removal, the first to be removed in front. -/
  pending : List α
  /-- The items ever taken, the latest in front. -/
  accepted : List α
  deriving DecidableEq, Repr

namespace DedupQueue

variable {α : Type} [DecidableEq α]

def empty : DedupQueue α := ⟨[], []⟩

instance : EmptyCollection (DedupQueue α) := ⟨empty⟩

instance : Inhabited (DedupQueue α) := ⟨empty⟩

def accepts (queue : DedupQueue α) (item : α) : Bool :=
  item ∉ queue.accepted

/-- Adds an item at the end unless it was ever taken before. -/
def add (queue : DedupQueue α) (item : α) : DedupQueue α :=
  if queue.accepts item then ⟨queue.pending ++ [item], item :: queue.accepted⟩ else queue

def offer (queue : DedupQueue α) (item : α) : Bool × DedupQueue α :=
  (queue.accepts item, queue.add item)

def addAll (queue : DedupQueue α) (items : List α) : DedupQueue α :=
  items.foldl add queue

def remove? (queue : DedupQueue α) : Option (α × DedupQueue α) :=
  match queue.pending with
  | [] => none
  | item :: rest => some (item, { queue with pending := rest })

def size (queue : DedupQueue α) : Nat :=
  queue.pending.length

def isEmpty (queue : DedupQueue α) : Bool :=
  queue.pending.isEmpty

def seen (queue : DedupQueue α) : Nat :=
  queue.accepted.length

theorem mem_accepted_add {queue : DedupQueue α} {item other : α} :
    other ∈ (queue.add item).accepted ↔ other = item ∨ other ∈ queue.accepted := by
  unfold add accepts
  split
  · simp
  · rename_i taken
    have member : item ∈ queue.accepted := by simpa using taken
    exact ⟨Or.inr, fun either => either.elim (· ▸ member) id⟩

theorem nodup_accepted_add {queue : DedupQueue α} (item : α) (distinct : queue.accepted.Nodup) :
    (queue.add item).accepted.Nodup := by
  unfold add accepts
  split
  · rename_i fresh
    exact List.nodup_cons.mpr ⟨by simpa using fresh, distinct⟩
  · exact distinct

theorem mem_accepted_addAll {queue : DedupQueue α} {items : List α} {other : α} :
    other ∈ (queue.addAll items).accepted ↔ other ∈ items ∨ other ∈ queue.accepted := by
  unfold addAll
  induction items generalizing queue with
  | nil => simp
  | cons item rest ih =>
    rw [List.foldl_cons, ih, mem_accepted_add, List.mem_cons, or_left_comm, or_assoc]

theorem nodup_accepted_addAll {queue : DedupQueue α} (items : List α)
    (distinct : queue.accepted.Nodup) : (queue.addAll items).accepted.Nodup := by
  unfold addAll
  induction items generalizing queue with
  | nil => exact distinct
  | cons item rest ih => exact ih (nodup_accepted_add item distinct)

theorem add_balance (queue : DedupQueue α) (item : α) :
    (queue.add item).accepted.length + queue.pending.length =
      queue.accepted.length + (queue.add item).pending.length := by
  unfold add
  split
  · simp only [List.length_cons, List.length_append, List.length_nil]
    omega
  · rfl

theorem addAll_balance (queue : DedupQueue α) (items : List α) :
    (queue.addAll items).accepted.length + queue.pending.length =
      queue.accepted.length + (queue.addAll items).pending.length := by
  unfold addAll
  induction items generalizing queue with
  | nil => rfl
  | cons item rest ih =>
    have first := add_balance queue item
    have later := ih (queue.add item)
    rw [List.foldl_cons]
    omega

theorem mem_pending_add {queue : DedupQueue α} {item other : α} :
    other ∈ (queue.add item).pending ↔
      other ∈ queue.pending ∨ other = item ∧ item ∉ queue.accepted := by
  unfold add accepts
  split
  · rename_i fresh
    have absent : item ∉ queue.accepted := by simpa using fresh
    simp [absent]
  · rename_i taken
    have member : item ∈ queue.accepted := by simpa using taken
    simp [member]

theorem mem_pending_addAll {queue : DedupQueue α} {items : List α} {other : α} :
    other ∈ (queue.addAll items).pending ↔
      other ∈ queue.pending ∨ other ∈ items ∧ other ∉ queue.accepted := by
  unfold addAll
  induction items generalizing queue with
  | nil => simp
  | cons item rest ih =>
    rw [List.foldl_cons, ih, mem_pending_add, mem_accepted_add, List.mem_cons]
    by_cases same : other = item
    · subst same
      by_cases taken : other ∈ queue.accepted <;> simp [taken]
    · simp [same]

theorem addAll_append (queue : DedupQueue α) (first second : List α) :
    queue.addAll (first ++ second) = (queue.addAll first).addAll second :=
  List.foldl_append

theorem append_pending_addAll (queue : DedupQueue α) {removed : List α}
    (split : removed ++ queue.pending = queue.accepted.reverse) (items : List α) :
    removed ++ (queue.addAll items).pending = (queue.addAll items).accepted.reverse := by
  unfold addAll
  induction items generalizing queue with
  | nil => exact split
  | cons item rest ih =>
    apply ih
    unfold add
    split
    · simp [← split]
    · exact split

theorem reverse_accepted_addAll (queue : DedupQueue α) {added : List α}
    (order : queue.accepted.reverse = added.eraseDups) (items : List α) :
    (queue.addAll items).accepted.reverse = (added ++ items).eraseDups := by
  unfold addAll
  induction items generalizing queue added with
  | nil => simpa using order
  | cons item rest ih =>
    have known : item ∈ queue.accepted ↔ item ∈ added := by
      rw [← List.mem_reverse, order, List.mem_eraseDups]
    have next : (queue.add item).accepted.reverse = (added ++ [item]).eraseDups := by
      rw [eraseDups_concat, ← order]
      unfold add accepts
      by_cases taken : item ∈ added <;> simp [known, taken]
    simpa using ih (queue.add item) next

theorem reverse_accepted_empty (items : List α) :
    (empty.addAll items).accepted.reverse = items.eraseDups := by
  have nothing : (empty : DedupQueue α).accepted.reverse = [].eraseDups := by simp [empty]
  simpa using reverse_accepted_addAll empty nothing items

end DedupQueue

end SyncGrammar
