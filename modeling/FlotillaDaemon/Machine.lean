import Mathlib.Data.List.Basic

/-! Deterministic machines that answer every input, and the two-run arguments about
them: invariants of a run, deletion of inputs that an observer cannot notice, and
two machines that answer alike exactly while a condition holds at every step. -/

structure Machine (S I O : Type) where
  step : S → I → S × O

namespace Machine
variable {S T I O P : Type}

def run (machine : Machine S I O) : S → List I → S
  | state,[] => state
  | state,input :: rest => run machine (machine.step state input).1 rest

def answers (machine : Machine S I O) : S → List I → List (I × O)
  | _,[] => []
  | state,input :: rest =>
    (input,(machine.step state input).2) :: answers machine (machine.step state input).1 rest

def observed (machine : Machine S I O) (sees : I → Bool) (state : S) (inputs : List I) : List O :=
  ((machine.answers state inputs).filter (fun pair => sees pair.1)).map Prod.snd

/-- What the answers of a run hold, one after the other. -/
def emitted (machine : Machine S I (List O)) : S → List I → List O
  | _,[] => []
  | state,input :: rest => (machine.step state input).2 ++ emitted machine (machine.step state input).1 rest

def Along (machine : Machine S I O) (condition : S → I → Prop) : S → List I → Prop
  | _,[] => True
  | state,input :: rest =>
    condition state input ∧ Along machine condition (machine.step state input).1 rest

def paired (first : Machine S I O) (second : Machine T I P) : Machine (S × T) I (O × P) where
  step := fun state input =>
    (((first.step state.1 input).1,(second.step state.2 input).1),
      ((first.step state.1 input).2,(second.step state.2 input).2))

/-- The machine with a record that every step extends and none reads. -/
def tracked {G : Type} (machine : Machine S I O) (note : S → I → G → G) : Machine (S × G) I O where
  step := fun state input =>
    (((machine.step state.1 input).1,note state.1 input state.2),(machine.step state.1 input).2)

instance decidableAlong (machine : Machine S I O) (condition : S → I → Prop)
    [∀ state input, Decidable (condition state input)] :
    (state : S) → (inputs : List I) → Decidable (machine.Along condition state inputs)
  | _,[] => isTrue trivial
  | state,input :: rest =>
    have := decidableAlong machine condition (machine.step state input).1 rest
    inferInstanceAs (Decidable (condition state input ∧ _))

/-- What the answers of a run show, where an answer may show nothing. -/
def shown (machine : Machine S I (Option O)) (state : S) (inputs : List I) : List O :=
  (machine.answers state inputs).filterMap Prod.snd

/-- Seen through `view`, an input that is read as one of the second machine does there what it
does here and shows the same; one that is not read changes and shows nothing. -/
structure Simulates {J Q : Type} (first : Machine S I O) (second : Machine T J (Option Q)) (view : S → T)
    (read : I → Option J) (shows : I × O → Option Q) (invariant : S → Prop) (allowed : I → Prop) : Prop where
  kept : ∀ state input, invariant state → allowed input → invariant (first.step state input).1
  moved : ∀ state input taken, invariant state → allowed input → read input = some taken →
    second.step (view state) taken = (view (first.step state input).1,shows (input,(first.step state input).2))
  still : ∀ state input, invariant state → allowed input → read input = none →
    view (first.step state input).1 = view state ∧ shows (input,(first.step state input).2) = none

theorem run_append (machine : Machine S I O) (state : S) (first second : List I) :
    machine.run state (first ++ second) = machine.run (machine.run state first) second := by
  induction first generalizing state with
  | nil => rfl
  | cons input rest ih => exact ih _

theorem answers_append (machine : Machine S I O) (state : S) (first second : List I) :
    machine.answers state (first ++ second) =
      machine.answers state first ++ machine.answers (machine.run state first) second := by
  induction first generalizing state with
  | nil => rfl
  | cons input rest ih => exact congrArg _ (ih _)

theorem run_invariant (machine : Machine S I O) (invariant : S → Prop)
    (preserved : ∀ state input, invariant state → invariant (machine.step state input).1)
    (state : S) (initial : invariant state) (inputs : List I) :
    invariant (machine.run state inputs) := by
  induction inputs generalizing state with
  | nil => exact initial
  | cons input rest ih => exact ih _ (preserved state input initial)

theorem along_invariant (machine : Machine S I O) (invariant : S → Prop) (condition : S → I → Prop)
    (preserved : ∀ state input, invariant state → condition state input → invariant (machine.step state input).1)
    (state : S) (initial : invariant state) (inputs : List I) (along : machine.Along condition state inputs) :
    invariant (machine.run state inputs) := by
  induction inputs generalizing state with
  | nil => exact initial
  | cons input rest ih => exact ih _ (preserved state input initial along.1) along.2

/-- A machine that never comes up again is up after a run exactly when each step has kept it up. -/
theorem run_up_iff (machine : Machine S I O) (invariant up : S → Prop) (goes : S → I → Prop)
    (preserved : ∀ state input, invariant state → invariant (machine.step state input).1)
    (stepped : ∀ state input, invariant state → up state → (up (machine.step state input).1 ↔ goes state input))
    (down : ∀ state input, ¬ up state → ¬ up (machine.step state input).1)
    (state : S) (initial : invariant state) (begun : up state) (inputs : List I) :
    up (machine.run state inputs) ↔ machine.Along goes state inputs := by
  have stays (inputs : List I) (state : S) (fallen : ¬ up state) : ¬ up (machine.run state inputs) :=
    machine.run_invariant (fun s => ¬ up s) down state fallen inputs
  induction inputs generalizing state with
  | nil => exact iff_of_true begun trivial
  | cons input rest ih =>
    have here := stepped state input initial begun
    constructor
    · intro last
      have kept : up (machine.step state input).1 := by
        by_contra fallen
        exact stays rest _ fallen last
      exact ⟨here.mp kept,(ih _ (preserved state input initial) kept).mp last⟩
    · intro along
      exact (ih _ (preserved state input initial) (here.mpr along.1)).mpr along.2

/-- An invariant of the state and of everything emitted so far. -/
theorem emitted_invariant (machine : Machine S I (List O)) (invariant : S → List O → Prop) (condition : S → I → Prop)
    (preserved : ∀ state emitted input, invariant state emitted → condition state input →
      invariant (machine.step state input).1 (emitted ++ (machine.step state input).2))
    (state : S) (earlier : List O) (initial : invariant state earlier) (inputs : List I)
    (along : machine.Along condition state inputs) :
    invariant (machine.run state inputs) (earlier ++ machine.emitted state inputs) := by
  induction inputs generalizing state earlier with
  | nil =>
    rw [emitted,List.append_nil]
    exact initial
  | cons input rest ih =>
    rw [emitted,← List.append_assoc]
    exact ih _ _ (preserved state earlier input initial along.1) along.2

theorem emitted_congr (first second : Machine S I (List O)) (condition : S → I → Prop)
    (same : ∀ state input, condition state input → first.step state input = second.step state input)
    (state : S) (inputs : List I) (along : first.Along condition state inputs) :
    first.emitted state inputs = second.emitted state inputs := by
  induction inputs generalizing state with
  | nil => rfl
  | cons input rest ih =>
    have here := same state input along.1
    rw [emitted,emitted,← here]
    exact congrArg _ (ih _ along.2)

theorem run_emitted {J : Type} (first : Machine S I (List J)) (second : Machine T J O) (view : S → T)
    (played : ∀ state input, second.run (view state) (first.step state input).2 = view (first.step state input).1)
    (state : S) (inputs : List I) : second.run (view state) (first.emitted state inputs) = view (first.run state inputs) := by
  induction inputs generalizing state with
  | nil => rfl
  | cons input rest ih =>
    rw [emitted,run_append,played]
    exact ih _

theorem along_tracked {G : Type} (machine : Machine S I O) (note : S → I → G → G) (condition : S → I → Prop)
    (state : S) (record : G) (inputs : List I) :
    (machine.tracked note).Along (fun s input => condition s.1 input) (state,record) inputs ↔
      machine.Along condition state inputs := by
  induction inputs generalizing state record with
  | nil => exact Iff.rfl
  | cons input rest ih => exact and_congr_right fun _ => ih _ _

theorem run_tracked {G : Type} (machine : Machine S I O) (note : S → I → G → G) (state : S) (record : G) (inputs : List I) :
    ((machine.tracked note).run (state,record) inputs).1 = machine.run state inputs := by
  induction inputs generalizing state record with
  | nil => rfl
  | cons input rest ih => exact ih _ _

/-- Conditions that mean the same while an invariant holds, which the second one keeps. -/
theorem along_congr (machine : Machine S I O) (invariant : S → Prop) (first second : S → I → Prop)
    (preserved : ∀ state input, invariant state → second state input → invariant (machine.step state input).1)
    (same : ∀ state input, invariant state → (first state input ↔ second state input))
    (state : S) (initial : invariant state) (inputs : List I) :
    machine.Along first state inputs ↔ machine.Along second state inputs := by
  induction inputs generalizing state with
  | nil => exact Iff.rfl
  | cons input rest ih =>
    rw [Along,Along,same state input initial]
    exact and_congr_right fun met => ih _ (preserved state input initial met)

theorem along_of_forall (machine : Machine S I O) (allowed : I → Prop) (state : S) (inputs : List I)
    (all : ∀ input ∈ inputs, allowed input) : machine.Along (fun _ input => allowed input) state inputs := by
  induction inputs generalizing state with
  | nil => trivial
  | cons input rest ih => exact ⟨all input (by simp),ih _ (fun i member => all i (by simp [member]))⟩

theorem shown_append (machine : Machine S I (Option O)) (state : S) (first second : List I) :
    machine.shown state (first ++ second) = machine.shown state first ++ machine.shown (machine.run state first) second := by
  rw [shown,answers_append,List.filterMap_append]
  rfl

theorem shown_cons (machine : Machine S I (Option O)) (state : S) (input : I) (rest : List I) :
    machine.shown state (input :: rest) =
      (machine.step state input).2.toList ++ machine.shown (machine.step state input).1 rest := by
  unfold shown
  rw [answers]
  cases answer : (machine.step state input).2 with
  | none => exact List.filterMap_cons_none rfl
  | some item => exact List.filterMap_cons_some rfl

theorem shown_one (machine : Machine S I (Option O)) (state : S) (input : I) :
    machine.shown state [input] = (machine.step state input).2.toList :=
  (machine.shown_cons state input []).trans (List.append_nil _)

theorem run_simulates {J Q : Type} (first : Machine S I O) (second : Machine T J (Option Q)) (view : S → T)
    (read : I → Option J) (shows : I × O → Option Q) (invariant : S → Prop) (allowed : I → Prop)
    (simulates : Simulates first second view read shows invariant allowed)
    (state : S) (initial : invariant state) (inputs : List I) (all : ∀ input ∈ inputs, allowed input) :
    invariant (first.run state inputs) ∧
      second.run (view state) (inputs.filterMap read) = view (first.run state inputs) ∧
      second.shown (view state) (inputs.filterMap read) = (first.answers state inputs).filterMap shows := by
  induction inputs generalizing state with
  | nil => exact ⟨initial,rfl,rfl⟩
  | cons input rest ih =>
    have mine := all input List.mem_cons_self
    obtain ⟨kept,ran,showed⟩ := ih _ (simulates.kept state input initial mine)
      fun other member => all other (List.mem_cons_of_mem _ member)
    refine ⟨kept,?_⟩
    rw [run,answers]
    cases taken : read input with
    | none =>
      obtain ⟨same,nothing⟩ := simulates.still state input initial mine taken
      rw [List.filterMap_cons_none taken,List.filterMap_cons_none nothing,← same]
      exact ⟨ran,showed⟩
    | some one =>
      have moved := simulates.moved state input one initial mine taken
      rw [List.filterMap_cons_some taken,run,shown_cons,moved]
      refine ⟨ran,?_⟩
      dsimp only
      rw [showed]
      cases result : shows (input,(first.step state input).2) with
      | none => exact (List.filterMap_cons_none result).symm
      | some item => exact (List.filterMap_cons_some result).symm

/-- When an input keeps the state good exactly where it meets the condition, a run that
starts in a good state ends in one exactly when all its steps meet the condition. -/
theorem good_iff_along (machine : Machine S I O) (invariant good : S → Prop) (condition : S → I → Prop)
    (preserved : ∀ state input, invariant state → invariant (machine.step state input).1)
    (decided : ∀ state input, invariant state →
      (good (machine.step state input).1 ↔ good state ∧ condition state input))
    (state : S) (initial : invariant state) (inputs : List I) :
    good (machine.run state inputs) ↔ good state ∧ machine.Along condition state inputs := by
  induction inputs generalizing state with
  | nil => exact (and_iff_left trivial).symm
  | cons input rest ih =>
    have later := ih _ (preserved state input initial)
    have here := decided state input initial
    exact later.trans ((and_congr_left' here).trans and_assoc)

theorem observed_cons (machine : Machine S I O) (sees : I → Bool) (state : S) (input : I) (rest : List I) :
    machine.observed sees state (input :: rest) =
      if sees input = true
      then (machine.step state input).2 :: machine.observed sees (machine.step state input).1 rest
      else machine.observed sees (machine.step state input).1 rest := by
  by_cases visible : sees input = true <;> simp [observed,answers,visible]

/-- Unwinding. When every kept input moves related states to related states with one
answer for the observer, and every other input leaves the first state related to the
second, the observer cannot tell the run from the run without the other inputs. -/
theorem observed_filter (first : Machine S I O) (second : Machine T I O) (sees keep : I → Bool)
    (related : S → T → Prop)
    (visible : ∀ input, sees input = true → keep input = true)
    (kept : ∀ s t input, related s t → keep input = true →
      related (first.step s input).1 (second.step t input).1 ∧
        (sees input = true → (first.step s input).2 = (second.step t input).2))
    (deleted : ∀ s t input, related s t → keep input = false → related (first.step s input).1 t)
    (s : S) (t : T) (start : related s t) (inputs : List I) :
    first.observed sees s inputs = second.observed sees t (inputs.filter keep) := by
  induction inputs generalizing s t with
  | nil => rfl
  | cons input rest ih =>
    rw [observed_cons]
    cases keeps : keep input with
    | true =>
      obtain ⟨next,same⟩ := kept s t input start keeps
      rw [List.filter_cons_of_pos keeps,observed_cons,ih _ _ next]
      by_cases seen : sees input = true
      · rw [if_pos seen,if_pos seen,same seen]
      · rw [if_neg seen,if_neg seen]
    | false =>
      have hidden : ¬ sees input = true := fun seen => by simp [visible input seen] at keeps
      rw [List.filter_cons_of_neg (by simp [keeps]),if_neg hidden]
      exact ih _ _ (deleted s t input start keeps)

/-- Deletion. When kept inputs keep states related and the others change the first state
only, the run is related to the run without the others. -/
theorem run_filter (machine : Machine S I O) (keep : I → Bool) (related : S → S → Prop) (condition : S → I → Prop)
    (kept : ∀ s t input, related s t → condition s input → keep input = true →
      related (machine.step s input).1 (machine.step t input).1)
    (deleted : ∀ s t input, related s t → condition s input → keep input = false →
      related (machine.step s input).1 t)
    (s t : S) (start : related s t) (inputs : List I) (along : machine.Along condition s inputs) :
    related (machine.run s inputs) (machine.run t (inputs.filter keep)) := by
  induction inputs generalizing s t with
  | nil => exact start
  | cons input rest ih =>
    cases keeps : keep input with
    | true =>
      rw [List.filter_cons_of_pos keeps]
      exact ih _ _ (kept s t input start along.1 keeps) along.2
    | false =>
      rw [List.filter_cons_of_neg (by simp [keeps])]
      exact ih _ _ (deleted s t input start along.1 keeps) along.2

/-- Agreement. When related states stay related whatever happens, and the answers to a
seen input agree exactly under the condition, two machines show the observer the same
run exactly when the condition holds at each of its steps. -/
theorem observed_eq_iff (first : Machine S I O) (second : Machine T I O) (sees : I → Bool)
    (related : S → T → Prop) (condition : S × T → I → Prop)
    (preserved : ∀ s t input, related s t → related (first.step s input).1 (second.step t input).1)
    (decided : ∀ s t input, related s t → sees input = true →
      ((first.step s input).2 = (second.step t input).2 ↔ condition (s,t) input))
    (unseen : ∀ state input, sees input = false → condition state input)
    (s : S) (t : T) (start : related s t) (inputs : List I) :
    first.observed sees s inputs = second.observed sees t inputs ↔
      (first.paired second).Along condition (s,t) inputs := by
  induction inputs generalizing s t with
  | nil => simp [observed,answers,Along]
  | cons input rest ih =>
    have next := ih _ _ (preserved s t input start)
    rw [observed_cons,observed_cons]
    unfold Along
    cases seen : sees input with
    | true =>
      simp only [if_true,List.cons.injEq,decided s t input start seen]
      exact and_congr_right fun _ => next
    | false =>
      simp only [Bool.false_eq_true,if_false,unseen (s,t) input seen,true_and]
      exact next

theorem along_and (machine : Machine S I O) (first second : S → I → Prop) (state : S) (inputs : List I) :
    machine.Along (fun s i => first s i ∧ second s i) state inputs ↔
      machine.Along first state inputs ∧ machine.Along second state inputs := by
  induction inputs generalizing state with
  | nil => simp [Along]
  | cons input rest ih =>
    simp only [Along,ih]
    tauto

theorem run_paired (first : Machine S I O) (second : Machine T I P) (s : S) (t : T) (inputs : List I) :
    (first.paired second).run (s,t) inputs = (first.run s inputs,second.run t inputs) := by
  induction inputs generalizing s t with
  | nil => rfl
  | cons input rest ih => exact ih _ _

theorem countP_paired (first : Machine S I O) (second : Machine T I P) (counts : I × O → Bool)
    (s : S) (t : T) (inputs : List I) :
    ((first.paired second).answers (s,t) inputs).countP (fun pair => counts (pair.1,pair.2.1)) =
      (first.answers s inputs).countP counts := by
  induction inputs generalizing s t with
  | nil => rfl
  | cons input rest ih =>
    have tail := ih (first.step s input).1 (second.step t input).1
    simp only [answers,List.countP_cons] at tail ⊢
    rw [← tail]
    rfl

/-- Counting against a potential. When every step under the condition pays for the answer
it counts, a run counts no more answers than the potential it starts with. -/
theorem countP_le_potential (machine : Machine S I O) (invariant : S → Prop) (condition : S → I → Prop)
    (counts : I × O → Bool) (potential : S → Nat)
    (paid : ∀ state input, invariant state → condition state input →
      invariant (machine.step state input).1 ∧
        (counts (input,(machine.step state input).2)).toNat + potential (machine.step state input).1 ≤
          potential state)
    (state : S) (initial : invariant state) (inputs : List I)
    (along : machine.Along condition state inputs) :
    (machine.answers state inputs).countP counts ≤ potential state := by
  induction inputs generalizing state with
  | nil => simp [answers]
  | cons input rest ih =>
    obtain ⟨here,later⟩ := along
    obtain ⟨next,payment⟩ := paid state input initial here
    have tail := ih _ next later
    rw [answers,List.countP_cons]
    cases counted : counts (input,(machine.step state input).2) <;>
      simp only [counted,Bool.toNat_true,Bool.toNat_false,if_true,if_false,Bool.false_eq_true] at payment ⊢ <;>
      omega

end Machine
