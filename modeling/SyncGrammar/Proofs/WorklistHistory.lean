import Mathlib.Algebra.BigOperators.Group.List.Lemmas
import Mathlib.Algebra.Ring.Nat
import SyncGrammar.Proofs.Building
import SyncGrammar.Worklist.CompletedSet
import SyncGrammar.Worklist.DedupQueue

namespace SyncGrammar

theorem filter_eraseDups {α : Type} [BEq α] [LawfulBEq α] (holds : α → Bool) (items : List α) :
    items.eraseDups.filter holds = (items.filter holds).eraseDups := by
  induction items using List.reverseRecOn with
  | nil => rfl
  | append_singleton items last ih =>
    rw [eraseDups_concat, List.filter_append]
    by_cases known : last ∈ items
    · by_cases kept : holds last <;> simp [known, kept, ih, eraseDups_concat]
    · by_cases kept : holds last <;> simp [known, kept, ih, eraseDups_concat]

inductive QueueCall (α : Type)
  | add (item : α)
  | remove
  deriving DecidableEq, Repr

def QueueCall.added? {α : Type} : QueueCall α → Option α
  | add item => some item
  | remove => none

/-- A queue with the items that it has handed out, the first in front. -/
structure ServedQueue (α : Type) where
  removed : List α
  queue : DedupQueue α
  deriving DecidableEq, Repr

namespace ServedQueue

variable {α : Type} [DecidableEq α]

def call (served : ServedQueue α) : QueueCall α → ServedQueue α
  | .add item => { served with queue := (served.queue.offer item).2 }
  | .remove =>
    match served.queue.remove? with
    | none => served
    | some (item, queue) => ⟨served.removed ++ [item], queue⟩

def after (calls : List (QueueCall α)) : ServedQueue α :=
  calls.foldl call ⟨[], ∅⟩

theorem after_concat (calls : List (QueueCall α)) (last : QueueCall α) :
    after (calls ++ [last]) = (after calls).call last := by
  rw [after, List.foldl_append]
  rfl

/-- What a queue has handed out and what it holds is all that it remembers, and what it remembers
are the items of `added`, each at its first arrival. -/
structure Accounts (served : ServedQueue α) (added : List α) : Prop where
  split : served.removed ++ served.queue.pending = served.queue.accepted.reverse
  order : served.queue.accepted.reverse = added.eraseDups

theorem Accounts.add {served : ServedQueue α} {added : List α} (accounts : served.Accounts added)
    (item : α) : (served.call (.add item)).Accounts (added ++ [item]) :=
  ⟨served.queue.append_pending_addAll accounts.split [item],
    served.queue.reverse_accepted_addAll accounts.order [item]⟩

theorem Accounts.remove {served : ServedQueue α} {added : List α}
    (accounts : served.Accounts added) : (served.call .remove).Accounts added := by
  obtain ⟨removed, pending, accepted⟩ := served
  obtain ⟨split, order⟩ := accounts
  cases pending with
  | nil => exact ⟨split, order⟩
  | cons item rest => exact ⟨(List.append_cons removed item rest).symm.trans split, order⟩

theorem accounts_after (calls : List (QueueCall α)) :
    (after calls).Accounts (calls.filterMap QueueCall.added?) := by
  induction calls using List.reverseRecOn with
  | nil => exact ⟨rfl, rfl⟩
  | append_singleton calls last ih =>
    rw [after_concat, List.filterMap_append]
    cases last with
    | add item => exact ih.add item
    | remove =>
      show ((after calls).call .remove).Accounts (_ ++ [])
      rw [List.append_nil]
      exact ih.remove

/-- What has been removed, and then what is pending, are the items ever added, in order of first
addition. An item is taken if it was never added before, whether or not it is still there. -/
theorem hands_out_each_once (calls : List (QueueCall α)) :
    (after calls).removed ++ (after calls).queue.pending =
      (calls.filterMap QueueCall.added?).eraseDups ∧
    (∀ item, ((after calls).queue.offer item).1 = true ↔
      item ∉ calls.filterMap QueueCall.added?) ∧
    (after calls).queue.seen = (calls.filterMap QueueCall.added?).eraseDups.length ∧
    (after calls).removed.length ≤ (after calls).queue.seen ∧
    (after calls).queue.size = (after calls).queue.seen - (after calls).removed.length := by
  obtain ⟨split, order⟩ := accounts_after calls
  have seen : (after calls).queue.seen =
      (after calls).removed.length + (after calls).queue.size := by
    rw [DedupQueue.seen, ← List.length_reverse, ← split, List.length_append, DedupQueue.size]
  refine ⟨split.trans order, fun item => ?_, ?_, by omega, by omega⟩
  · rw [DedupQueue.offer, DedupQueue.accepts, decide_eq_true_iff, ← List.mem_reverse, order,
      List.mem_eraseDups]
  · rw [DedupQueue.seen, ← List.length_reverse, order]

end ServedQueue

namespace DerivationIndex

variable {index : DerivationIndex}

/-- The texts with the tokens under which something stands in the index. -/
def places (index : DerivationIndex) : List (Text × Text) :=
  index.entries.flatMap fun entry => entry.2.names.map fun token => (entry.1, token)

theorem nodup_places : index.places.Nodup := by
  unfold places
  rw [List.nodup_flatMap]
  refine ⟨fun entry _ => ?_, ?_⟩
  · exact (NameTable.nodup_names entry.2).map (Prod.mk_right_injective entry.1)
  · refine index.ascending.imp fun {first second} below place atFirst atSecond => ?_
    obtain ⟨token, -, rfl⟩ := List.mem_map.mp atFirst
    obtain ⟨other, -, same⟩ := List.mem_map.mp atSecond
    exact List.lt_irrefl first.1 ((Prod.mk.inj same).1 ▸ below)

theorem mem_places {subtext token : Text} :
    (subtext, token) ∈ index.places ↔ (index.find? subtext token).isSome := by
  unfold places find?
  constructor
  · intro member
    obtain ⟨entry, listed, named⟩ := List.mem_flatMap.mp member
    obtain ⟨name, known, same⟩ := List.mem_map.mp named
    cases same
    rw [NameTable.get?_of_mem index listed, Option.bind_some, NameTable.isSome_get?]
    exact (NameTable.mem_names_iff entry.2 token).mp known
  · intro found
    cases under : index.get? subtext with
    | none => simp [under] at found
    | some byToken =>
      rw [under, Option.bind_some, NameTable.isSome_get?] at found
      refine List.mem_flatMap.mpr ⟨(subtext, byToken), ?_, ?_⟩
      · exact (NameTable.get?_eq_some_iff index subtext byToken).mp under
      · exact List.mem_map_of_mem ((NameTable.mem_names_iff byToken token).mpr found)

end DerivationIndex

namespace CompletedSet

theorem ofList_concat (keys : List DerivationKey) (key : DerivationKey) :
    ofList (keys ++ [key]) = (ofList keys).insert key := by
  rw [ofList, List.foldl_append]
  rfl

theorem keys_ofList (inserted : List DerivationKey) :
    (ofList inserted).keys = inserted.eraseDups := by
  induction inserted using List.reverseRecOn with
  | nil => rfl
  | append_singleton inserted key ih =>
    rw [ofList_concat, keys_insert, eraseDups_concat, ih]
    simp only [List.mem_eraseDups, List.contains_iff_mem]

theorem lookup_ofList (inserted : List DerivationKey) (subtext token : Text) :
    (ofList inserted).lookup subtext token =
      (inserted.filter fun key => key.subtext = subtext ∧ key.token = token).eraseDups := by
  rw [lookup, listed_eq, keys_ofList, filter_eraseDups]

theorem find?_ofList_ne_nil (inserted : List DerivationKey) (subtext token : Text) :
    (ofList inserted).index.find? subtext token ≠ some [] := by
  induction inserted using List.reverseRecOn with
  | nil => exact nofun
  | append_singleton inserted key ih =>
    rw [ofList_concat, insert]
    split
    · exact ih
    · rw [DerivationIndex.find?_append]
      split
      · simp
      · exact ih

theorem mem_places_ofList (inserted : List DerivationKey) (subtext token : Text) :
    (subtext, token) ∈ (ofList inserted).index.places ↔
      (ofList inserted).lookup subtext token ≠ [] := by
  rw [DerivationIndex.mem_places, lookup, DerivationIndex.listed]
  have filled := find?_ofList_ne_nil inserted subtext token
  cases found : (ofList inserted).index.find? subtext token with
  | none => simp
  | some keys =>
    rw [found] at filled
    simpa using filled

theorem sum_length_lookup (completed : CompletedSet)
    (complete : ∀ subtext token, (subtext, token) ∈ completed.index.places ↔
      completed.lookup subtext token ≠ []) :
    (completed.index.places.map fun place => (completed.lookup place.1 place.2).length).sum =
      completed.size := by
  let taken := completed.keys.map fun key => (key.subtext, key.token)
  have counted (place : Text × Text) : (completed.lookup place.1 place.2).length =
      taken.countP fun other => other = place := by
    rw [lookup, listed_eq, ← List.countP_eq_length_filter, List.countP_map]
    simp only [Function.comp_def, Prod.ext_iff]
  have together : completed.index.places.Perm taken.dedup := by
    rw [List.perm_ext_iff_of_nodup DerivationIndex.nodup_places taken.nodup_dedup]
    rintro ⟨subtext, token⟩
    rw [complete, List.mem_dedup, ← List.length_pos_iff, counted (subtext, token),
      List.countP_pos_iff]
    simp
  have shared := List.sum_map_count_dedup_eq_length taken
  simp only [List.count, beq_eq_decide] at shared
  calc (completed.index.places.map fun place => (completed.lookup place.1 place.2).length).sum
      = (completed.index.places.map fun place => taken.countP fun other => other = place).sum := by
        simp only [counted]
    _ = (taken.dedup.map fun place => taken.countP fun other => other = place).sum :=
        (together.map _).sum_eq
    _ = taken.length := shared
    _ = completed.size := List.length_map _

/-- Both forms in which derivations are kept hold those that were inserted, each once. What is new
to the one is new to the other, look-ups give them in order of first insertion, and no derivation
stands in the index at a place that is not its own. -/
theorem keeps_both_forms_in_step (inserted : List DerivationKey) :
    (∀ key, ((ofList inserted).record key).1 = true ↔ key ∉ inserted) ∧
    (∀ subtext token, (ofList inserted).lookup subtext token =
      (inserted.filter fun key => key.subtext = subtext ∧ key.token = token).eraseDups) ∧
    (∀ key, (ofList inserted).contains key = true ↔ key ∈ inserted) ∧
    (∀ key, (ofList inserted).contains key = true ↔
      key ∈ (ofList inserted).lookup key.subtext key.token) ∧
    (ofList inserted).size = inserted.eraseDups.length ∧
    (ofList inserted).index.places.Nodup ∧
    (∀ subtext token, (subtext, token) ∈ (ofList inserted).index.places ↔
      (ofList inserted).lookup subtext token ≠ []) ∧
    (ofList inserted).size = ((ofList inserted).index.places.map fun place =>
      ((ofList inserted).lookup place.1 place.2).length).sum := by
  have known (key : DerivationKey) : (ofList inserted).contains key = true ↔ key ∈ inserted := by
    rw [contains, decide_eq_true_iff, keys_ofList, List.mem_eraseDups]
  refine ⟨fun key => ?_, lookup_ofList inserted, known, fun key => ?_, ?_,
    DerivationIndex.nodup_places, mem_places_ofList inserted, ?_⟩
  · rw [record, Bool.not_eq_true', ← Bool.not_eq_true, known]
  · rw [mem_lookup, contains, decide_eq_true_iff]
    simp
  · rw [size, keys_ofList]
  · exact (sum_length_lookup _ (mem_places_ofList inserted)).symm

end CompletedSet

end SyncGrammar
