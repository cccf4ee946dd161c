import Mathlib.Logic.Function.Basic
import Mathlib.Logic.Relation

/-! Transition systems with a partial step for each action: runs, the states reached when
every step meets a condition, the invariant rule, and families in which each action moves
one member. A run of a family is a run of each of its members. -/

structure System (S A : Type) where
  initial : S
  step : S → A → Option S

namespace System
variable {S A I : Type}

def run (system : System S A) : S → List A → Option S
  | state,[] => some state
  | state,action :: rest => (system.step state action).bind (fun next => run system next rest)

/-- Some run leads from one state to another, in which every step meets a condition. -/
def Leads (system : System S A) (condition : S → A → Prop) : S → S → Prop :=
  Relation.ReflTransGen fun state next => ∃ action, condition state action ∧ system.step state action = some next

/-- Every step of the run is taken in a state in which it meets the condition. -/
def Meets (system : System S A) (condition : S → A → Prop) : S → List A → Prop
  | _,[] => True
  | state,action :: rest =>
    condition state action ∧ ∀ next ∈ system.step state action, Meets system condition next rest

inductive Reached (system : System S A) (condition : S → A → Prop) : S → Prop
  | start : Reached system condition system.initial
  | move (state : S) (action : A) (next : S) (earlier : Reached system condition state)
      (meets : condition state action) (moved : system.step state action = some next) :
      Reached system condition next

def family [DecidableEq I] (member : I → System S A) (allowed : (I → S) → I → A → Bool) :
    System (I → S) (I × A) where
  initial := fun i => (member i).initial
  step := fun states action =>
    if allowed states action.1 action.2 = true
    then ((member action.1).step (states action.1) action.2).map (Function.update states action.1)
    else none

/-- The system with a record that every step extends and none reads. -/
def tracked {G : Type} (system : System S A) (note : S → A → G → G) (start : G) : System (S × G) A where
  initial := (system.initial,start)
  step := fun state action => (system.step state.1 action).map (fun next => (next,note state.1 action state.2))

instance decidableMeets (system : System S A) (condition : S → A → Prop)
    [∀ state action, Decidable (condition state action)] :
    (state : S) → (actions : List A) → Decidable (system.Meets condition state actions)
  | _,[] => isTrue trivial
  | state,action :: rest =>
    have (next : S) := decidableMeets system condition next rest
    inferInstanceAs (Decidable (condition state action ∧ _))

theorem reached_run (system : System S A) (condition : S → A → Prop) (state last : S) (actions : List A)
    (earlier : system.Reached condition state) (meets : system.Meets condition state actions)
    (ran : system.run state actions = some last) : system.Reached condition last := by
  induction actions generalizing state with
  | nil =>
    rw [← Option.some.inj ran]
    exact earlier
  | cons action rest ih =>
    obtain ⟨next,moved,later⟩ := Option.bind_eq_some_iff.mp ran
    exact ih next (.move state action next earlier meets.1 moved) (meets.2 next moved) later

theorem meets_of_forall (system : System S A) (condition : S → A → Prop)
    (all : ∀ state action, condition state action) (state : S) (actions : List A) :
    system.Meets condition state actions := by
  induction actions generalizing state with
  | nil => trivial
  | cons action rest ih => exact ⟨all state action,fun next _ => ih next⟩

theorem run_reached (system : System S A) (last : S) (actions : List A)
    (ran : system.run system.initial actions = some last) : system.Reached (fun _ _ => True) last :=
  system.reached_run _ _ _ actions .start (system.meets_of_forall _ (fun _ _ => trivial) _ actions) ran

theorem reached_invariant (system : System S A) (condition : S → A → Prop) (invariant : S → Prop)
    (initial : invariant system.initial)
    (preserved : ∀ state action next, invariant state → condition state action →
      system.step state action = some next → invariant next)
    (state : S) (reached : system.Reached condition state) : invariant state := by
  induction reached with
  | start => exact initial
  | move state action next earlier meets moved ih => exact preserved state action next ih meets moved

theorem reached_weaken (system : System S A) (stronger weaker : S → A → Prop)
    (implied : ∀ state action, stronger state action → weaker state action)
    (state : S) (reached : system.Reached stronger state) : system.Reached weaker state := by
  induction reached with
  | start => exact .start
  | move state action next earlier meets moved ih =>
    exact .move state action next ih (implied state action meets) moved

theorem tracked_step_iff {G : Type} (system : System S A) (note : S → A → G → G) (start : G)
    (state next : S × G) (action : A) :
    (system.tracked note start).step state action = some next ↔
      system.step state.1 action = some next.1 ∧ next.2 = note state.1 action state.2 := by
  obtain ⟨target,record⟩ := next
  change (system.step state.1 action).map _ = _ ↔ _
  cases system.step state.1 action with
  | none => simp
  | some moved => simp [eq_comm]

theorem family_step_iff [DecidableEq I] (member : I → System S A) (allowed : (I → S) → I → A → Bool)
    (states next : I → S) (i : I) (action : A) :
    (family member allowed).step states (i,action) = some next ↔
      allowed states i action = true ∧
        ∃ moved, (member i).step (states i) action = some moved ∧ next = Function.update states i moved := by
  change (if _ then _ else _) = _ ↔ _
  split
  next free => simp [free,eq_comm]
  next held => simp [held]

/-- Projection. Steps of the other members are not seen, so a condition on the steps of one
member is enough for that member. -/
theorem family_reached [DecidableEq I] (member : I → System S A) (allowed : (I → S) → I → A → Bool)
    (i : I) (condition : S → A → Prop) (states : I → S)
    (reached : (family member allowed).Reached
      (fun states action => action.1 = i → condition (states i) action.2) states) :
    (member i).Reached condition (states i) := by
  refine reached_invariant _ _ (fun states => (member i).Reached condition (states i)) .start ?_ states reached
  intro states (j,action) next earlier meets moved
  obtain ⟨_,target,stepped,rfl⟩ := (family_step_iff _ _ _ _ _ _).mp moved
  by_cases same : j = i
  · subst same
    rw [Function.update_self]
    exact .move (states j) action target earlier (meets rfl) stepped
  · rw [Function.update_of_ne (Ne.symm same)]
    exact earlier

/-- Embedding. Where a member may move while the others are still in their initial states,
its runs are runs of the family. -/
theorem family_embed [DecidableEq I] (member : I → System S A) (allowed : (I → S) → I → A → Bool) (i : I)
    (free : ∀ states action, (∀ j ≠ i, states j = (member j).initial) → allowed states i action = true)
    (condition : S → A → Prop) (state : S) (reached : (member i).Reached condition state) :
    (family member allowed).Reached (fun states action => action.1 = i → condition (states i) action.2)
      (Function.update (family member allowed).initial i state) := by
  induction reached with
  | start =>
    rw [show (member i).initial = (family member allowed).initial i from rfl,Function.update_eq_self]
    exact .start
  | move state action next earlier meets moved ih =>
    refine .move _ (i,action) _ ih ?_ ((family_step_iff _ _ _ _ _ _).mpr ⟨?_,next,?_,?_⟩)
    · intro _
      rw [Function.update_self]
      exact meets
    · exact free _ action fun j other => Function.update_of_ne other _ _
    · rw [Function.update_self]
      exact moved
    · rw [Function.update_idem]

theorem leads_weaken (system : System S A) (stronger weaker : S → A → Prop)
    (implied : ∀ state action, stronger state action → weaker state action)
    (state next : S) (leads : system.Leads stronger state next) : system.Leads weaker state next := by
  refine Relation.ReflTransGen.mono (fun before after moved => ?_) state next leads
  obtain ⟨action,meets,stepped⟩ := moved
  exact ⟨action,implied before action meets,stepped⟩

theorem leads_reached (system : System S A) (condition : S → A → Prop) (state next : S)
    (reached : system.Reached condition state) (leads : system.Leads condition state next) :
    system.Reached condition next := by
  induction leads with
  | refl => exact reached
  | @tail state next _ moved ih =>
    obtain ⟨action,meets,moved⟩ := moved
    exact .move state action next ih meets moved

section Leading
variable [DecidableEq I] (member : I → System S A) (allowed : (I → S) → I → A → Bool) (condition : S → A → Prop)

/-- A run of one member, while it may move, leads the family. -/
theorem family_leads_one (i : I) (states : I → S) (free : ∀ state action, allowed (Function.update states i state) i action = true)
    (target : S) (leads : (member i).Leads condition (states i) target)
    (reached : (family member allowed).Reached (fun states action => condition (states action.1) action.2) states) :
    (family member allowed).Reached (fun states action => condition (states action.1) action.2)
      (Function.update states i target) := by
  induction leads with
  | refl =>
    rw [Function.update_eq_self]
    exact reached
  | @tail state next _ moved ih =>
    obtain ⟨action,meets,moved⟩ := moved
    refine .move _ (i,action) _ ih ?_ ((family_step_iff _ _ _ _ _ _).mpr ⟨free state action,next,?_,?_⟩)
    · rw [Function.update_self]
      exact meets
    · rw [Function.update_self]
      exact moved
    · rw [Function.update_idem]

/-- Where a member may move while each other member is in a state in which it rests, runs of all
members that lead from such states to such states lead the family there. -/
theorem family_leads (rests : S → Prop)
    (free : ∀ states i action, (∀ j ≠ i, rests (states j)) → allowed states i action = true)
    (members : List I) (states next : I → S) (initial : ∀ i, rests (states i)) (final : ∀ i, rests (next i))
    (leads : ∀ i, (member i).Leads condition (states i) (next i))
    (reached : (family member allowed).Reached (fun states action => condition (states action.1) action.2) states) :
    (family member allowed).Reached (fun states action => condition (states action.1) action.2)
      fun i => if i ∈ members then next i else states i := by
  induction members with
  | nil =>
    simp only [List.not_mem_nil,if_false]
    exact reached
  | cons i rest ih =>
    have resting (j : I) : rests (if j ∈ rest then next j else states j) := by
      split
      · exact final j
      · exact initial j
    have led : (member i).Leads condition (if i ∈ rest then next i else states i) (next i) := by
      split
      · exact .refl
      · exact leads i
    have moved := family_leads_one member allowed condition i _ (fun state action => free _ i action fun j other => by
      rw [Function.update_of_ne other]
      exact resting j) (next i) led ih
    have same : Function.update (fun j => if j ∈ rest then next j else states j) i (next i) =
        fun j => if j ∈ i :: rest then next j else states j := by
      funext j
      by_cases own : j = i
      · subst own
        simp
      · simp [own]
    rw [← same]
    exact moved

end Leading

end System
