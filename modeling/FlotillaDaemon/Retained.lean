import Mathlib.Data.List.Basic

/-! Queues whose last entry is never taken out, read through a filter that drops an
entry equal to the one looked at before. A reader decides which entry a poll looks at
and what it leaves; any reader that keeps one entry and otherwise shortens the queue
lets through at most as many entries as were waiting. -/
namespace Retained
variable {α : Type}

def keepLast : List α → List α
  | _ :: next :: rest => keepLast (next :: rest)
  | queue => queue

def popKeeping : List α → List α
  | _ :: next :: rest => next :: rest
  | queue => queue

abbrev Reader (α : Type) := List α → Option (α × List α)

/-- An empty queue gives nothing; a lone entry stays, and a longer queue shrinks without
becoming empty. -/
structure Retains (read : Reader α) : Prop where
  empty : read [] = none
  waiting : ∀ queue, queue ≠ [] → read queue ≠ none
  lone : ∀ entry, read [entry] = some (entry,[entry])
  shrinks : ∀ first second rest entry left, read (first :: second :: rest) = some (entry,left) →
    left ≠ [] ∧ left.length < (first :: second :: rest).length

structure Channel (α : Type) where
  queue : List α
  last : Option α

namespace Channel

def clear (channel : Channel α) : Channel α := {channel with queue := []}

def poll [DecidableEq α] (read : Reader α) (channel : Channel α) : Channel α × Option α :=
  match read channel.queue with
  | none => (channel,none)
  | some (entry,left) => (⟨left,some entry⟩,if channel.last = some entry then none else some entry)

def owed [DecidableEq α] (channel : Channel α) : Nat :=
  match channel.queue with
  | [entry] => if channel.last = some entry then 0 else 1
  | queue => queue.length

end Channel

/-- What has been given out of all that was put in, in that order. The front of the queue may
have been given out already; it is then the entry looked at last. -/
def InOrder (put given queue : List α) (looked : α → Prop) : Prop :=
  ∃ consumed, put = consumed ++ queue ∧
    (given.Sublist consumed ∨
      ∃ front rest, queue = front :: rest ∧ looked front ∧ given.Sublist (consumed ++ [front]))

/-- The queue after a look at its front: a later part of it, or the lone entry that stays. -/
def Passed (front : α) (rest left : List α) : Prop := left <:+ rest ∨ (rest = [] ∧ left = [front])

theorem inOrder_sublist (put given queue : List α) (looked : α → Prop) (ordered : InOrder put given queue looked) :
    given.Sublist put := by
  obtain ⟨consumed,rfl,early | ⟨front,rest,rfl,_,late⟩⟩ := ordered
  · exact early.trans (List.sublist_append_left consumed queue)
  · refine late.trans (List.Sublist.append_left ?_ consumed)
    exact List.singleton_sublist.mpr List.mem_cons_self

theorem inOrder_put (put given queue : List α) (looked : α → Prop) (entry : α) (ordered : InOrder put given queue looked) :
    InOrder (put ++ [entry]) given (queue ++ [entry]) looked := by
  obtain ⟨consumed,rfl,early | ⟨front,rest,rfl,known,late⟩⟩ := ordered
  · exact ⟨consumed,List.append_assoc .. ,.inl early⟩
  · exact ⟨consumed,List.append_assoc ..,.inr ⟨front,rest ++ [entry],rfl,known,late⟩⟩

/-- A look at the front gives it out, unless it is the entry looked at last. -/
theorem inOrder_look (put given : List α) (front : α) (rest left : List α) (looked after : α → Prop)
    [Decidable (looked front)] (ordered : InOrder put given (front :: rest) looked) (passed : Passed front rest left)
    (now : after front) : InOrder put (given ++ if looked front then [] else [front]) left after := by
  obtain ⟨consumed,rfl,kept⟩ := ordered
  have delivered : (given ++ if looked front then [] else [front]).Sublist (consumed ++ [front]) := by
    split
    next known =>
      rw [List.append_nil]
      rcases kept with early | ⟨_,_,same,_,late⟩
      · exact early.trans (List.sublist_append_left ..)
      · rw [(List.cons.inj same).1]
        exact late
    next fresh =>
      rcases kept with early | ⟨_,_,same,known,_⟩
      · exact early.append (List.Sublist.refl _)
      · exact absurd ((List.cons.inj same).1 ▸ known) fresh
  rcases passed with ⟨dropped,rfl⟩ | ⟨rfl,rfl⟩
  · refine ⟨consumed ++ front :: dropped,by simp,.inl (delivered.trans ?_)⟩
    exact List.Sublist.append_left (List.Sublist.cons_cons front (List.nil_sublist dropped)) consumed
  · exact ⟨consumed,rfl,.inr ⟨front,[],rfl,now,delivered⟩⟩

theorem popKeeping_subset (queue : List α) : popKeeping queue ⊆ queue := by
  cases queue with
  | nil => exact List.Subset.refl _
  | cons front rest =>
    cases rest with
    | nil => exact List.Subset.refl _
    | cons second rest => exact List.subset_cons_self front _

theorem keepLast_suffix (queue : List α) : keepLast queue <:+ queue := by
  induction queue with
  | nil => exact List.suffix_refl _
  | cons first rest ih =>
    cases rest with
    | nil => exact List.suffix_refl _
    | cons second rest => exact ih.trans (List.suffix_cons first _)

theorem keepLast_eq_getLast (queue : List α) (waiting : queue ≠ []) :
    keepLast queue = [queue.getLast waiting] := by
  induction queue with
  | nil => exact absurd rfl waiting
  | cons first rest ih =>
    cases rest with
    | nil => rfl
    | cons second rest => exact ih (by simp)

theorem popKeeping_cons (first second : α) (rest : List α) :
    popKeeping (first :: second :: rest) = second :: rest := rfl

theorem popKeeping_lone (entry : α) : popKeeping [entry] = [entry] := rfl

theorem popKeeping_last (queue : List α) : (popKeeping queue).getLast? = queue.getLast? := by
  cases queue with
  | nil => rfl
  | cons front rest =>
    cases rest with
    | nil => rfl
    | cons second rest => rw [popKeeping_cons,List.getLast?_cons_cons]

theorem keepLast_last (queue : List α) : (keepLast queue).getLast? = queue.getLast? := by
  cases queue with
  | nil => rfl
  | cons front rest =>
    have waiting := List.cons_ne_nil front rest
    rw [keepLast_eq_getLast _ waiting,List.getLast?_eq_some_getLast waiting]
    rfl

theorem keepLast_of_last (queue : List α) (entry : α) (last : queue.getLast? = some entry) : keepLast queue = [entry] := by
  obtain ⟨waiting,same⟩ := List.getLast?_eq_some_iff.mp last
  rw [same,keepLast_eq_getLast _ (by simp),List.getLast_concat]

namespace Channel
variable [DecidableEq α]

theorem owed_le (channel : Channel α) : channel.owed ≤ channel.queue.length := by
  unfold owed
  split
  next entry lone =>
    rw [lone]
    split <;> simp
  next => exact Nat.le_refl _

theorem owed_long (channel : Channel α) (first second : α) (rest : List α)
    (long : channel.queue = first :: second :: rest) : channel.owed = channel.queue.length := by
  unfold owed
  rw [long]

theorem poll_owed (read : Reader α) (retains : Retains read) (channel : Channel α) :
    (channel.poll read).2.isSome.toNat + (channel.poll read).1.owed ≤ channel.owed := by
  rcases channel with ⟨queue,last⟩
  cases queue with
  | nil => simp [poll,retains.empty]
  | cons first rest =>
    cases rest with
    | nil =>
      by_cases same : last = some first <;> simp [poll,retains.lone,owed,same]
    | cons second rest =>
      cases looked : read (first :: second :: rest) with
      | none => exact absurd looked (retains.waiting _ (by simp))
      | some found =>
        obtain ⟨entry,left⟩ := found
        obtain ⟨_,shorter⟩ := retains.shrinks first second rest entry left looked
        have after := owed_le (⟨left,some entry⟩ : Channel α)
        rw [owed_long ⟨first :: second :: rest,last⟩ first second rest rfl]
        simp only [poll,looked]
        have once : ∀ answer : Option α, answer.isSome.toNat ≤ 1 := fun answer => Bool.toNat_le _
        have paid := once (if last = some entry then none else some entry)
        simp only at after shorter ⊢
        omega

end Channel

end Retained
