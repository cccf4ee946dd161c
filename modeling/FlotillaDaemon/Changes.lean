import FlotillaDaemon.Machine
import FlotillaDaemon.Retained
import Mathlib.Data.List.Destutter

/-! What a filter that drops repeats lets through. Its memory is the last entry it looked at,
so it lets through the changes of what it is shown, whatever the queue before it holds back. -/
namespace Retained
variable {α : Type} [DecidableEq α]

/-- The entries that differ from the one before them, the first from a known one. -/
def changes (initial : α) (entries : List α) : List α := (entries.destutter' (· ≠ ·) initial).tail

def news (last entry : α) : List α := if entry = last then [] else [entry]

/-- What has been given out and what the queue still has to give are the changes of all that
was put in. -/
structure Delivered (initial : α) (put given queue : List α) (last : α) : Prop where
  known : last = given.getLastD initial
  owed : given ++ changes last queue = changes initial put

theorem destutter'_head (initial : α) (entries : List α) :
    entries.destutter' (· ≠ ·) initial = initial :: changes initial entries := by
  induction entries with
  | nil => rfl
  | cons entry rest ih =>
    rw [changes,List.destutter'_cons]
    split
    · rfl
    · exact ih

theorem changes_cons (last entry : α) (rest : List α) :
    changes last (entry :: rest) = news last entry ++ changes entry rest := by
  by_cases same : entry = last
  · subst same
    rw [news,if_pos rfl,List.nil_append,changes,List.destutter'_cons_neg _ (not_not.mpr rfl)]
    rfl
  · rw [news,if_neg same,changes,List.destutter'_cons_pos _ (Ne.symm same),List.tail_cons,destutter'_head]
    rfl

theorem changes_concat (last entry : α) (entries : List α) :
    changes last (entries ++ [entry]) = changes last entries ++ news (entries.getLastD last) entry := by
  induction entries generalizing last with
  | nil =>
    rw [List.nil_append,changes_cons]
    exact List.append_nil _
  | cons first rest ih => rw [List.cons_append,changes_cons,changes_cons,ih,List.append_assoc,List.getLastD_cons]

theorem changes_last (last : α) (entries : List α) : (changes last entries).getLastD last = entries.getLastD last := by
  induction entries generalizing last with
  | nil => rfl
  | cons first rest ih =>
    rw [changes_cons,List.getLastD_cons,← ih first]
    unfold news
    split
    next same => rw [same,List.nil_append]
    next => rw [List.singleton_append,List.getLastD_cons]

omit [DecidableEq α] in
theorem getLastD_append (initial : α) (first second : List α) :
    (first ++ second).getLastD initial = second.getLastD (first.getLastD initial) := by
  induction first generalizing initial with
  | nil => rfl
  | cons entry rest ih => rw [List.cons_append,List.getLastD_cons,List.getLastD_cons,ih]

theorem changes_popKeeping (front : α) (rest : List α) :
    changes front (popKeeping (front :: rest)) = changes front rest := by
  cases rest with
  | nil => rw [popKeeping_lone,changes_cons,news,if_pos rfl,List.nil_append]
  | cons second rest => rw [popKeeping_cons]

theorem delivered_nothing (initial : α) : Delivered initial [] [] [] initial := ⟨rfl,rfl⟩

theorem delivered_put (initial : α) (put given queue : List α) (last entry : α)
    (delivered : Delivered initial put given queue last) :
    Delivered initial (put ++ [entry]) given (queue ++ [entry]) last := by
  obtain ⟨known,owed⟩ := delivered
  have latest : queue.getLastD last = put.getLastD initial := by
    rw [← changes_last last,← changes_last initial,← owed,getLastD_append,← known]
  refine ⟨known,?_⟩
  rw [changes_concat,changes_concat,← List.append_assoc,owed,latest]

/-- A look at the front moves what it gives from the queue to what has been given out. -/
theorem delivered_look (initial : α) (put given : List α) (front : α) (rest : List α) (last : α)
    (delivered : Delivered initial put given (front :: rest) last) :
    Delivered initial put (given ++ news last front) (popKeeping (front :: rest)) front := by
  obtain ⟨known,owed⟩ := delivered
  refine ⟨?_,?_⟩
  · rw [getLastD_append,← known]
    unfold news
    split
    next same => exact same
    next => rfl
  · rw [changes_popKeeping,List.append_assoc,← changes_cons]
    exact owed

theorem delivered_prefix (initial : α) (put given queue : List α) (last : α)
    (delivered : Delivered initial put given queue last) : given <+: changes initial put :=
  ⟨_,delivered.owed⟩

/-- One look at the front: the queue and the last entry looked at. -/
def look : List α × α → List α × α
  | ([],last) => ([],last)
  | (front :: rest,_) => (popKeeping (front :: rest),front)

/-- Nothing that is still to be given out waits. -/
def Settled (state : List α × α) : Prop := changes state.2 state.1 = []

theorem settled_look (state : List α × α) (settled : Settled state) : Settled (look state) := by
  obtain ⟨queue,last⟩ := state
  cases queue with
  | nil => rfl
  | cons front rest =>
    rw [Settled,changes_cons] at settled
    rw [Settled,look,changes_popKeeping]
    exact (List.append_eq_nil_iff.mp settled).2

theorem settled_looks (looks : Nat) (state : List α × α) (settled : Settled state) : Settled (look^[looks] state) := by
  induction looks generalizing state with
  | zero => exact settled
  | succ looks ih => exact ih _ (settled_look state settled)

/-- As many looks as entries wait leave nothing to give out. -/
theorem looks_settle (looks : Nat) (queue : List α) (last : α) (enough : queue.length ≤ looks) :
    Settled (look^[looks] (queue,last)) := by
  induction looks generalizing queue last with
  | zero =>
    rw [List.length_eq_zero_iff.mp (Nat.le_zero.mp enough)]
    rfl
  | succ looks ih =>
    rw [Function.iterate_succ_apply]
    cases queue with
    | nil => exact ih [] last (Nat.zero_le _)
    | cons front rest =>
      cases rest with
      | nil =>
        apply settled_looks
        rw [Settled,look,changes_popKeeping]
        rfl
      | cons second rest => exact ih (second :: rest) front (Nat.le_of_succ_le_succ enough)

/-- One look at a queue that is flushed after its front is taken, unless all of it counts. -/
def lookFlushing (all : Bool) : List α × α → List α × α
  | ([],last) => ([],last)
  | (front :: rest,_) => (if all then popKeeping (front :: rest) else keepLast (popKeeping (front :: rest)),front)

/-- This entry was looked at last, and no other waits. -/
def OnlyLatest (u : α) (state : List α × α) : Prop := state.2 = u ∧ ∀ entry ∈ state.1, entry = u

omit [DecidableEq α] in
theorem lookFlushing_all : lookFlushing true = (look : List α × α → List α × α) := by
  funext state
  obtain ⟨queue,last⟩ := state
  cases queue <;> rfl

omit [DecidableEq α] in
theorem lookFlushing_last (all : Bool) (state : List α × α) :
    (lookFlushing all state).1.getLast? = state.1.getLast? := by
  obtain ⟨queue,last⟩ := state
  cases queue with
  | nil => rfl
  | cons front rest =>
    cases all with
    | true => exact popKeeping_last _
    | false => exact (keepLast_last _).trans (popKeeping_last _)

omit [DecidableEq α] in
theorem looks_last (all : Bool) (looks : Nat) (state : List α × α) :
    ((lookFlushing all)^[looks] state).1.getLast? = state.1.getLast? := by
  induction looks generalizing state with
  | zero => rfl
  | succ looks ih => exact (ih _).trans (lookFlushing_last all state)

omit [DecidableEq α] in
theorem lookFlushing_onlyLatest (all : Bool) (u : α) (state : List α × α) (only : OnlyLatest u state) :
    OnlyLatest u (lookFlushing all state) := by
  obtain ⟨queue,last⟩ := state
  cases queue with
  | nil => exact only
  | cons front rest =>
    refine ⟨only.2 front List.mem_cons_self,fun entry member => only.2 entry (popKeeping_subset _ ?_)⟩
    cases all with
    | true => exact member
    | false => exact (keepLast_suffix _).subset member

theorem changes_nothing (last : α) (queue : List α) (nothing : changes last queue = []) :
    ∀ entry ∈ queue, entry = last := by
  induction queue generalizing last with
  | nil => simp
  | cons front rest ih =>
    rw [changes_cons] at nothing
    obtain ⟨known,later⟩ := List.append_eq_nil_iff.mp nothing
    have same : front = last := by
      unfold news at known
      split at known
      · assumption
      · contradiction
    intro entry member
    rcases List.mem_cons.mp member with here | there
    · exact here.trans same
    · exact (ih front later entry there).trans same

omit [DecidableEq α] in
theorem flushed_twice (looks : Nat) (u last : α) (queue : List α) (latest : queue.getLast? = some u) :
    (lookFlushing false)^[looks + 2] (queue,last) = ([u],u) := by
  have flushed (last : α) (queue : List α) (latest : queue.getLast? = some u) :
      ∃ front, lookFlushing false (queue,last) = ([u],front) := by
    cases queue with
    | nil => contradiction
    | cons front rest =>
      exact ⟨front,Prod.ext (keepLast_of_last _ _ ((popKeeping_last _).trans latest)) rfl⟩
  have fixed (looks : Nat) : (lookFlushing false)^[looks] ([u],u) = ([u],u) := by
    induction looks with
    | zero => rfl
    | succ looks ih => exact ih
  obtain ⟨front,first⟩ := flushed last queue latest
  rw [Function.iterate_add_apply]
  change (lookFlushing false)^[looks] (lookFlushing false (lookFlushing false (queue,last))) = _
  rw [first]
  exact fixed looks

/-- Two looks at a queue that is flushed, and as many as entries wait at any other, leave only the
latest entry. -/
theorem looks_onlyLatest (all : Bool) (looks : Nat) (u last : α) (queue : List α)
    (latest : queue.getLast? = some u) (enough : (if all then queue.length else 2) ≤ looks) :
    OnlyLatest u ((lookFlushing all)^[looks] (queue,last)) := by
  cases all with
  | false =>
    have twice : 2 ≤ looks := enough
    obtain ⟨more,rfl⟩ := Nat.exists_eq_add_of_le' twice
    rw [flushed_twice more u last queue latest]
    exact ⟨rfl,by simp⟩
  | true =>
    have ends := looks_last true looks (queue,last)
    rw [lookFlushing_all] at ends ⊢
    have only := changes_nothing _ _ (looks_settle looks queue last enough)
    have sent : (look^[looks] (queue,last)).2 = u :=
      (only u (List.mem_of_getLast? (ends.trans latest))).symm
    rw [sent] at only
    exact ⟨sent,only⟩

omit [DecidableEq α] in
theorem popKeeping_map {β : Type} (f : α → β) (queue : List α) : (popKeeping queue).map f = popKeeping (queue.map f) := by
  cases queue with
  | nil => rfl
  | cons front rest => cases rest <;> rfl

omit [DecidableEq α] in
theorem keepLast_map {β : Type} (f : α → β) (queue : List α) : (keepLast queue).map f = keepLast (queue.map f) := by
  induction queue using keepLast.induct with
  | case1 first next rest ih => exact ih
  | case2 queue short =>
    cases queue with
    | nil => rfl
    | cons entry rest =>
      cases rest with
      | nil => rfl
      | cons next rest => exact absurd rfl (short entry next rest)

inductive Access (α : Type)
  | put (entry : α)
  | poll
  deriving DecidableEq

def Access.entry? : Access α → Option α
  | .put entry => some entry
  | .poll => none

def newsOf (last entry : α) : Option α := if entry = last then none else some entry

theorem newsOf_toList (last entry : α) : (newsOf last entry).toList = news last entry := by
  unfold newsOf news
  split <;> rfl

/-- The queue that gives out its entries in order, without repetitions. -/
def fifo : Machine (List α × α) (Access α) (Option α) where
  step := fun state access =>
    match access with
    | .put entry => ((state.1 ++ [entry],state.2),none)
    | .poll => (look state,state.1.head?.bind (newsOf state.2))

/-- The one cell that tells what it holds after it has changed. -/
def register : Machine (Option α × α) (Access α) (Option α) where
  step := fun state access =>
    match access with
    | .put entry => ((some entry,state.2),none)
    | .poll => ((state.1,state.1.getD state.2),state.1.bind (newsOf state.2))

theorem fifo_delivered (initial : α) (accesses : List (Access α)) :
    Delivered initial (accesses.filterMap Access.entry?) (fifo.shown ([],initial) accesses)
      (fifo.run ([],initial) accesses).1 (fifo.run ([],initial) accesses).2 := by
  induction accesses using List.reverseRecOn with
  | nil => exact delivered_nothing initial
  | append_singleton earlier access ih =>
    rw [Machine.run_append,Machine.shown_append,Machine.shown_one,List.filterMap_append]
    rcases after : fifo.run ([],initial) earlier with ⟨queue,last⟩
    rw [after] at ih
    cases access with
    | put entry =>
      have put := delivered_put initial _ _ _ _ entry ih
      rwa [← List.append_nil (fifo.shown _ _)] at put
    | poll =>
      cases queue with
      | nil =>
        rw [← List.append_nil (List.filterMap _ _),← List.append_nil (fifo.shown _ _)] at ih
        exact ih
      | cons front rest =>
        have looked := delivered_look initial _ _ front rest last ih
        rw [← newsOf_toList,← List.append_nil (List.filterMap _ _)] at looked
        exact looked

/-- What such a queue has given out begins what it owes, and is all of it after as many looks
as entries waited. -/
theorem fifo_settles (initial : α) (accesses : List (Access α)) (polls : Nat)
    (enough : (fifo.run ([],initial) accesses).1.length ≤ polls) :
    fifo.shown ([],initial) (accesses ++ List.replicate polls .poll) =
      changes initial (accesses.filterMap Access.entry?) := by
  have looked (polls : Nat) (state : List α × α) : fifo.run state (List.replicate polls .poll) = look^[polls] state := by
    induction polls generalizing state with
    | zero => rfl
    | succ polls ih => exact ih _
  have idle : (List.replicate polls (Access.poll : Access α)).filterMap Access.entry? = [] := by
    rw [List.filterMap_eq_nil_iff]
    intro access member
    rw [List.eq_of_mem_replicate member]
    rfl
  have settled := looks_settle polls _ (fifo.run ([],initial) accesses).2 enough
  have owed := (fifo_delivered initial (accesses ++ List.replicate polls .poll)).owed
  rw [Machine.run_append,looked,List.filterMap_append,idle,List.append_nil] at owed
  rw [← owed,settled,List.append_nil]

theorem fifo_stream {S I O : Type} (machine : Machine S I O) (view : S → List α × α) (read : I → Option (Access α))
    (shows : I × O → Option α) (invariant : S → Prop) (allowed : I → Prop)
    (simulates : machine.Simulates fifo view read shows invariant allowed)
    (state : S) (initial : invariant state) (last : α) (empty : view state = ([],last))
    (inputs : List I) (all : ∀ input ∈ inputs, allowed input) :
    (machine.answers state inputs).filterMap shows <+: changes last ((inputs.filterMap read).filterMap Access.entry?) ∧
      ∀ poll polls, allowed poll → read poll = some .poll → (view (machine.run state inputs)).1.length ≤ polls →
        (machine.answers state (inputs ++ List.replicate polls poll)).filterMap shows =
          changes last ((inputs.filterMap read).filterMap Access.entry?) := by
  have simulated := machine.run_simulates fifo view read shows invariant allowed simulates state initial
  rw [empty] at simulated
  refine ⟨?_,?_⟩
  · rw [← (simulated inputs all).2.2]
    exact delivered_prefix _ _ _ _ _ (fifo_delivered last _)
  · intro poll polls mine asks enough
    have polling : (List.replicate polls poll).filterMap read = List.replicate polls .poll := by
      rw [List.filterMap_replicate,asks]
    have eachAllowed : ∀ input ∈ inputs ++ List.replicate polls poll, allowed input := by
      intro input member
      rcases List.mem_append.mp member with earlier | later
      · exact all input earlier
      · rw [List.eq_of_mem_replicate later]
        exact mine
    rw [← (simulated inputs all).2.1] at enough
    rw [← (simulated _ eachAllowed).2.2,List.filterMap_append,polling]
    exact fifo_settles last _ polls enough

/-- The cell holds what was put last, and its memory is what it told last, which is never what
it told before. -/
structure Tells (latest : Option α) (initial : α) (accesses : List (Access α)) (state : Option α × α) (told : List α) :
    Prop where
  latest : state.1 = (latest.toList ++ accesses.filterMap Access.entry?).getLast?
  known : state.2 = told.getLastD initial
  apart : (initial :: told).IsChain (· ≠ ·)

theorem register_tells (latest : Option α) (initial : α) (accesses : List (Access α)) :
    Tells latest initial accesses (register.run (latest,initial) accesses) (register.shown (latest,initial) accesses) := by
  induction accesses using List.reverseRecOn with
  | nil => exact ⟨by cases latest <;> rfl,rfl,List.isChain_singleton _⟩
  | append_singleton earlier access ih =>
    rw [Machine.run_append,Machine.shown_append,Machine.shown_one]
    rcases after : register.run (latest,initial) earlier with ⟨held,known⟩
    rw [after] at ih
    generalize register.shown (latest,initial) earlier = told at ih
    obtain ⟨latestIs,knownIs,apart⟩ := ih
    cases access with
    | put entry =>
      refine ⟨?_,?_,?_⟩
      · rw [List.filterMap_append,← List.append_assoc]
        exact List.getLast?_concat.symm
      · rw [show (register.step (held,known) (.put entry)).2.toList = [] from rfl,List.append_nil]
        exact knownIs
      · rw [show (register.step (held,known) (.put entry)).2.toList = [] from rfl,List.append_nil]
        exact apart
    | poll =>
      have kept : (earlier ++ [Access.poll]).filterMap Access.entry? = earlier.filterMap Access.entry? := by
        rw [List.filterMap_append]
        exact List.append_nil _
      rw [show register.run (held,known) [.poll] = (held,held.getD known) from rfl,
        show (register.step (held,known) .poll).2 = held.bind (newsOf known) from rfl]
      cases held with
      | none =>
        rw [show (none.bind (newsOf known)).toList = [] from rfl,List.append_nil]
        exact ⟨kept ▸ latestIs,knownIs,apart⟩
      | some value =>
        rw [show (some value).bind (newsOf known) = newsOf known value from rfl,newsOf_toList]
        unfold news
        split
        next same =>
          rw [List.append_nil]
          exact ⟨kept ▸ latestIs,same.trans knownIs,apart⟩
        next fresh =>
          refine ⟨kept ▸ latestIs,by simp,?_⟩
          rw [← List.cons_append]
          apply List.isChain_append.mpr
          refine ⟨apart,List.isChain_singleton _,?_⟩
          intro last found other head
          rw [List.head?_cons,Option.mem_some_iff] at head
          rw [← head]
          have memory : known = told.getLastD initial := knownIs
          rw [List.getLast?_cons,Option.mem_some_iff] at found
          rw [← found,← List.getLastD_eq_getLast?,← memory]
          exact Ne.symm fresh

end Retained
