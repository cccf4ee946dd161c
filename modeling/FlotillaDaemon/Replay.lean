import Mathlib.Data.List.Induction
import Mathlib.Logic.Function.Basic

/-! Keyed logs. Replaying a log writes each entry's value under its key, so what a key
holds in the end is the value of the last entry for it, and of nothing else. -/
namespace Replay
variable {E K V : Type} [DecidableEq K]

def latest (key : E → K) (k : K) (log : List E) : Option E := (log.filter (fun entry => key entry = k)).getLast?

def replay (key : E → K) (value : E → V) (start : K → V) (log : List E) : K → V :=
  log.foldl (fun table entry => Function.update table (key entry) (value entry)) start

variable (key : E → K) (value : E → V) (k : K)

theorem latest_append (earlier later : List E) :
    latest key k (earlier ++ later) = (latest key k later).or (latest key k earlier) := by
  simp [latest]

theorem latest_own (entry : E) (own : key entry = k) : latest key k [entry] = some entry := by
  simp [latest,own]

theorem latest_other (entry : E) (other : key entry ≠ k) : latest key k [entry] = none := by
  simp [latest,other]

theorem latest_key (log : List E) (entry : E) (last : latest key k log = some entry) : key entry = k := by
  have kept := List.mem_of_getLast? last
  simpa using (List.mem_filter.mp kept).2

theorem replay_append (start : K → V) (earlier later : List E) :
    replay key value start (earlier ++ later) = replay key value (replay key value start earlier) later :=
  List.foldl_append

theorem replay_singleton (start : K → V) (entry : E) :
    replay key value start [entry] = Function.update start (key entry) (value entry) := rfl

theorem replay_apply (start : K → V) (log : List E) :
    replay key value start log k = ((latest key k log).map value).getD (start k) := by
  induction log using List.reverseRecOn with
  | nil => rfl
  | append_singleton log entry ih =>
    rw [replay_append,latest_append,replay_singleton]
    by_cases own : key entry = k
    · subst own
      simp [latest_own key (key entry) entry rfl]
    · rw [Function.update_of_ne (Ne.symm own),ih,latest_other key k entry own,Option.none_or]

theorem replay_untouched (start : K → V) (log : List E) (untouched : ∀ entry ∈ log, key entry ≠ k) :
    replay key value start log k = start k := by
  rw [replay_apply,latest,List.filter_eq_nil_iff.mpr (by simpa using untouched)]
  rfl

theorem latest_none_iff (log : List E) : latest key k log = none ↔ ∀ entry ∈ log, key entry ≠ k := by
  rw [latest,List.getLast?_eq_none_iff,List.filter_eq_nil_iff]
  simp only [decide_eq_true_eq]

theorem replay_again (start : K → V) (log more : List E) (absorbed : replay key value start log = start) :
    replay key value (replay key value start more) (log ++ more) = replay key value start more := by
  funext k
  rw [replay_append,replay_apply key value k (replay key value (replay key value start more) log),
    replay_apply key value k start more]
  cases later : latest key k more with
  | some entry => rfl
  | none =>
    have same := congrFun absorbed k
    rw [replay_apply] at same
    rw [replay_apply key value k (replay key value start more) log,replay_apply key value k start more,later]
    exact same

/-- Entries that say what the table holds set a key as the table has it, or leave it. -/
theorem replay_agreeing (table start : K → V) (log : List E) (agree : ∀ entry ∈ log, value entry = table (key entry)) :
    replay key value start log k = start k ∨ replay key value start log k = table k := by
  rw [replay_apply]
  cases last : latest key k log with
  | none => exact .inl rfl
  | some entry =>
    have own := latest_key key k log entry last
    have member := List.mem_of_getLast? last
    refine .inr ?_
    rw [← own]
    exact agree entry (List.mem_filter.mp member).1

/-- They lead to the table when they tell of every key that does not start as the table has it. -/
theorem replay_covering (table start : K → V) (log : List E) (agree : ∀ entry ∈ log, value entry = table (key entry))
    (covered : ∀ k, start k ≠ table k → ∃ entry ∈ log, key entry = k) : replay key value start log = table := by
  funext k
  rcases replay_agreeing key value k table start log agree with kept | told
  · by_contra other
    rw [kept] at other
    obtain ⟨entry,member,own⟩ := covered k other
    obtain ⟨last,found⟩ := Option.ne_none_iff_exists'.mp
      (fun missing => (latest_none_iff key k log).mp missing entry member own)
    rw [replay_apply,found] at kept
    have said := agree last (List.mem_filter.mp (List.mem_of_getLast? found)).1
    rw [latest_key key k log last found] at said
    exact other (kept.symm.trans said)
  · exact told

/-- Where a log leads to the table, it also does from a start that is nearer to it. -/
theorem replay_nearer (table first second : K → V) (log : List E) (leads : replay key value first log = table)
    (nearer : ∀ k, second k = first k ∨ second k = table k) : replay key value second log = table := by
  funext k
  have reached := congrFun leads k
  rw [replay_apply] at reached ⊢
  cases last : latest key k log with
  | some entry =>
    rw [last] at reached
    exact reached
  | none =>
    rw [last] at reached
    rcases nearer k with same | told
    · exact (congrArg _ same).trans reached
    · exact told

end Replay
