import FlotillaDaemon.Transition
import Mathlib

/-! A controller and its worker threads. The controller follows a program: it starts workers,
makes calls, lowers the flag that the loop of every worker tests before a round, and joins the
workers. What a round or a call does to the state they share is a parameter. -/

namespace Pool

inductive Stage
  | absent
  | testing
  | working
  | finished
  deriving DecidableEq

inductive Command (W C : Type)
  | start (w : W)
  | call (c : C)
  | lower
  | join (w : W)
  deriving DecidableEq

inductive Move (W A B : Type)
  | test (w : W)
  | work (w : W) (action : A)
  | again (w : W)
  | next
  | act (action : B)
  | returned

end Pool

/-- A worker is `away` in a shared state that shows no round of it in progress. -/
structure Routines (S W C A B : Type) where
  initial : S
  begins : W → S → S
  work : W → S → A → Option S
  away : W → S → Bool
  enter : C → S → S
  act : C → S → B → Option S
  returns : C → S → Bool

structure Pool (S W C : Type) where
  shared : S
  running : Bool
  stage : W → Pool.Stage
  calling : Option C
  program : List (Pool.Command W C)

namespace Pool
variable {S W C : Type}

def started (pool : Pool S W C) (w : W) : Bool := decide (pool.stage w ≠ .absent)

/-- Each worker is joined after it is started, and started again only after that. -/
def Ordered [DecidableEq W] (started : W → Bool) : List (Command W C) → Prop
  | [] => ∀ w, started w = false
  | .start w :: rest => started w = false ∧ Ordered (Function.update started w true) rest
  | .join w :: rest => started w = true ∧ Ordered (Function.update started w false) rest
  | .call _ :: rest => Ordered started rest
  | .lower :: rest => Ordered started rest

/-- Where a program lowers the flag, what is left of it then is `closed`. -/
def Closes (closed : List (Command W C) → Prop) : List (Command W C) → Prop
  | [] => True
  | .lower :: rest => closed rest
  | _ :: rest => Closes closed rest

/-- What is left of a closed program is closed too, and it makes calls that are `settled`. -/
structure Closed (settled : C → Prop) (closed : List (Command W C) → Prop) : Prop where
  tail : ∀ command rest, closed (command :: rest) → closed rest
  call : ∀ c rest, closed (.call c :: rest) → settled c

/-- With the flag lowered the program that is left is closed and the call in progress is settled. -/
def Closing (settled : C → Prop) (closed : List (Command W C) → Prop) (pool : Pool S W C) : Prop :=
  if pool.running then Closes closed pool.program else (∀ c ∈ pool.calling, settled c) ∧ closed pool.program

theorem closing_pop (settled : C → Prop) (closed : List (Command W C) → Prop) (closes : Closed settled closed)
    (pool next : Pool S W C) (command : Command W C) (rest : List (Command W C))
    (closing : Closing settled closed pool) (first : pool.program = command :: rest) (program : next.program = rest)
    (running : next.running = pool.running) (other : command ≠ .lower)
    (calling : ∀ c ∈ next.calling, command = .call c ∨ c ∈ pool.calling) : Closing settled closed next := by
  unfold Closing at closing ⊢
  rw [running,program]
  rw [first] at closing
  split at closing
  next up =>
    rw [if_pos up]
    cases command with
    | lower => exact absurd rfl other
    | start w | call c | join w => exact closing
  next down =>
    rw [if_neg down]
    refine ⟨fun c inside => ?_,closes.tail command rest closing.2⟩
    rcases calling c inside with rfl | earlier
    · exact closes.call c rest closing.2
    · exact closing.1 c earlier

theorem closing_lowered (settled : C → Prop) (closed : List (Command W C) → Prop) (pool : Pool S W C)
    (closing : Closing settled closed pool) (lowered : pool.running = false) :
    (∀ c ∈ pool.calling, settled c) ∧ closed pool.program := by
  unfold Closing at closing
  rw [if_neg (Bool.eq_false_iff.mp lowered)] at closing
  exact closing

def Stage.left : Stage → Nat
  | .working => 2
  | .testing => 1
  | .finished | .absent => 0

def Move.cost {A B : Type} (cost : A → Nat) : Move W A B → Nat
  | .work _ action => cost action
  | _ => 0

end Pool

namespace Routines
open Pool
variable {S W C A B : Type} [DecidableEq W]

def control (routines : Routines S W C A B) (pool : Pool S W C) : Option (Pool S W C) :=
  match pool.calling,pool.program with
  | none,.start w :: rest =>
    if pool.stage w = .absent
    then some {pool with stage := Function.update pool.stage w .testing,program := rest} else none
  | none,.call c :: rest =>
    some {pool with shared := routines.enter c pool.shared,calling := some c,program := rest}
  | none,.lower :: rest => some {pool with running := false,program := rest}
  | none,.join w :: rest =>
    if pool.stage w = .finished
    then some {pool with stage := Function.update pool.stage w .absent,program := rest} else none
  | _,_ => none

def step (routines : Routines S W C A B) (pool : Pool S W C) : Move W A B → Option (Pool S W C)
  | .test w =>
    if pool.stage w = .testing then
      if pool.running
      then some {pool with shared := routines.begins w pool.shared,stage := Function.update pool.stage w .working}
      else some {pool with stage := Function.update pool.stage w .finished}
    else none
  | .work w action =>
    if pool.stage w = .working
    then (routines.work w pool.shared action).map (fun shared => {pool with shared := shared}) else none
  | .again w =>
    if pool.stage w = .working ∧ routines.away w pool.shared = true
    then some {pool with stage := Function.update pool.stage w .testing} else none
  | .next => routines.control pool
  | .act action =>
    pool.calling.bind fun c => (routines.act c pool.shared action).map (fun shared => {pool with shared := shared})
  | .returned =>
    pool.calling.bind fun c => if routines.returns c pool.shared = true then some {pool with calling := none} else none

def system (routines : Routines S W C A B) (program : List (Command W C)) : System (Pool S W C) (Move W A B) :=
  ⟨⟨routines.initial,true,fun _ => .absent,none,program⟩,routines.step⟩

/-- No round of a worker is begun or ended by another worker or by the controller. -/
structure Lawful (routines : Routines S W C A B) : Prop where
  initial : ∀ w, routines.away w routines.initial = true
  begins : ∀ w other s, other ≠ w → routines.away other (routines.begins w s) = routines.away other s
  work : ∀ w other s action t, other ≠ w → routines.work w s action = some t →
    routines.away other t = routines.away other s
  enter : ∀ c s w, routines.away w (routines.enter c s) = routines.away w s
  act : ∀ c s action t w, routines.act c s action = some t → routines.away w t = routines.away w s

/-- Everything a step can do, with the tests that allow it. -/
inductive Moved (routines : Routines S W C A B) (pool : Pool S W C) : Move W A B → Pool S W C → Prop
  | began (w : W) (testing : pool.stage w = .testing) (running : pool.running = true) :
    Moved routines pool (.test w)
      {pool with shared := routines.begins w pool.shared,stage := Function.update pool.stage w .working}
  | left (w : W) (testing : pool.stage w = .testing) (lowered : pool.running = false) :
    Moved routines pool (.test w) {pool with stage := Function.update pool.stage w .finished}
  | worked (w : W) (action : A) (shared : S) (working : pool.stage w = .working)
    (acted : routines.work w pool.shared action = some shared) :
    Moved routines pool (.work w action) {pool with shared := shared}
  | rounded (w : W) (working : pool.stage w = .working) (away : routines.away w pool.shared = true) :
    Moved routines pool (.again w) {pool with stage := Function.update pool.stage w .testing}
  | started (w : W) (rest : List (Command W C)) (outside : pool.calling = none)
    (first : pool.program = .start w :: rest) (absent : pool.stage w = .absent) :
    Moved routines pool .next {pool with stage := Function.update pool.stage w .testing,program := rest}
  | called (c : C) (rest : List (Command W C)) (outside : pool.calling = none)
    (first : pool.program = .call c :: rest) :
    Moved routines pool .next {pool with shared := routines.enter c pool.shared,calling := some c,program := rest}
  | lowered (rest : List (Command W C)) (outside : pool.calling = none) (first : pool.program = .lower :: rest) :
    Moved routines pool .next {pool with running := false,program := rest}
  | joined (w : W) (rest : List (Command W C)) (outside : pool.calling = none)
    (first : pool.program = .join w :: rest) (finished : pool.stage w = .finished) :
    Moved routines pool .next {pool with stage := Function.update pool.stage w .absent,program := rest}
  | acted (c : C) (action : B) (shared : S) (calling : pool.calling = some c)
    (acts : routines.act c pool.shared action = some shared) :
    Moved routines pool (.act action) {pool with shared := shared}
  | returned (c : C) (calling : pool.calling = some c) (returns : routines.returns c pool.shared = true) :
    Moved routines pool .returned {pool with calling := none}

theorem control_moved (routines : Routines S W C A B) (pool next : Pool S W C)
    (moved : routines.control pool = some next) : Moved routines pool .next next := by
  unfold control at moved
  split at moved
  case h_1 w rest outside first =>
    split at moved
    next absent =>
      rw [← Option.some.inj moved]
      exact .started w rest outside first absent
    next => contradiction
  case h_2 c rest outside first =>
    rw [← Option.some.inj moved]
    exact .called c rest outside first
  case h_3 rest outside first =>
    rw [← Option.some.inj moved]
    exact .lowered rest outside first
  case h_4 w rest outside first =>
    split at moved
    next finished =>
      rw [← Option.some.inj moved]
      exact .joined w rest outside first finished
    next => contradiction
  case h_5 => contradiction

theorem step_moved (routines : Routines S W C A B) (pool next : Pool S W C) (move : Move W A B)
    (moved : routines.step pool move = some next) : Moved routines pool move next := by
  unfold step at moved
  split at moved
  case h_1 w =>
    split at moved
    next testing =>
      split at moved
      next running =>
        rw [← Option.some.inj moved]
        exact .began w testing running
      next lowered =>
        rw [← Option.some.inj moved]
        exact .left w testing (eq_false_of_ne_true lowered)
    next => contradiction
  case h_2 w action =>
    split at moved
    next working =>
      obtain ⟨shared,acted,rfl⟩ := Option.map_eq_some_iff.mp moved
      exact .worked w action shared working acted
    next => contradiction
  case h_3 w =>
    split at moved
    next ended =>
      rw [← Option.some.inj moved]
      exact .rounded w ended.1 ended.2
    next => contradiction
  case h_4 => exact routines.control_moved pool next moved
  case h_5 action =>
    obtain ⟨c,calling,acted⟩ := Option.bind_eq_some_iff.mp moved
    obtain ⟨shared,acts,rfl⟩ := Option.map_eq_some_iff.mp acted
    exact .acted c action shared calling acts
  case h_6 =>
    obtain ⟨c,calling,ended⟩ := Option.bind_eq_some_iff.mp moved
    split at ended
    next returns =>
      rw [← Option.some.inj ended]
      exact .returned c calling returns
    next => contradiction

section Order

theorem started_update (pool : Pool S W C) (shared : S) (w : W) (stage : Stage) (program : List (Command W C)) :
    Pool.started {pool with shared := shared,stage := Function.update pool.stage w stage,program := program} =
      Function.update pool.started w (decide (stage ≠ .absent)) := by
  funext other
  change decide (Function.update pool.stage w stage other ≠ .absent) = _
  by_cases own : other = w
  · subst own
    rw [Function.update_self,Function.update_self]
  · rw [Function.update_of_ne own,Function.update_of_ne own]
    rfl

theorem started_present (pool : Pool S W C) (shared : S) (w : W) (stage : Stage) (before : pool.stage w ≠ .absent)
    (present : stage ≠ .absent) :
    Pool.started {pool with shared := shared,stage := Function.update pool.stage w stage} = pool.started := by
  have changed := started_update pool shared w stage pool.program
  have own : pool.started w = true := decide_eq_true before
  rw [decide_eq_true present,← own,Function.update_eq_self] at changed
  exact changed

theorem ordered_step (routines : Routines S W C A B) (pool next : Pool S W C) (move : Move W A B)
    (ordered : Ordered pool.started pool.program) (moved : Moved routines pool move next) :
    Ordered next.started next.program := by
  cases moved with
  | began w testing running =>
    rw [started_present pool _ w .working (by rw [testing]; exact Stage.noConfusion) Stage.noConfusion]
    exact ordered
  | left w testing lowered =>
    rw [started_present pool _ w .finished (by rw [testing]; exact Stage.noConfusion) Stage.noConfusion]
    exact ordered
  | rounded w working away =>
    rw [started_present pool _ w .testing (by rw [working]; exact Stage.noConfusion) Stage.noConfusion]
    exact ordered
  | worked w action shared working acted => exact ordered
  | started w rest outside first absent =>
    rw [first] at ordered
    rw [started_update]
    exact ordered.2
  | joined w rest outside first finished =>
    rw [first] at ordered
    rw [started_update]
    exact ordered.2
  | called c rest outside first =>
    rw [first] at ordered
    exact ordered
  | lowered rest outside first =>
    rw [first] at ordered
    exact ordered
  | acted c action shared calling acts => exact ordered
  | returned c calling returns => exact ordered

theorem ordered_reached (routines : Routines S W C A B) (program : List (Command W C))
    (ordered : Ordered (fun _ => false) program) (pool : Pool S W C)
    (reached : (routines.system program).Reached (fun _ _ => True) pool) : Ordered pool.started pool.program :=
  System.reached_invariant _ _ (fun pool : Pool S W C => Ordered pool.started pool.program)
    (by rw [show Pool.started (routines.system program).initial = fun _ => false from
      funext fun _ => decide_eq_false (not_not.mpr rfl)]; exact ordered)
    (fun pool move next kept _ moved => routines.ordered_step pool next move kept (routines.step_moved pool next move moved))
    pool reached

theorem ordered_calls (started : W → Bool) (calls : List C)
    (ordered : Ordered started (calls.map .call : List (Command W C))) (w : W) : started w = false := by
  induction calls with
  | nil => exact ordered w
  | cons c rest ih => exact ih ordered

end Order

section Rest

def Rested (routines : Routines S W C A B) (pool : Pool S W C) : Prop :=
  ∀ w, pool.stage w ≠ .working → routines.away w pool.shared = true

theorem rested_stage (routines : Routines S W C A B) (pool : Pool S W C) (rested : routines.Rested pool) (w : W)
    (stage : Stage) (away : stage ≠ .working → routines.away w pool.shared = true) (other : W)
    (idle : Function.update pool.stage w stage other ≠ .working) : routines.away other pool.shared = true := by
  by_cases own : other = w
  · subst own
    rw [Function.update_self] at idle
    exact away idle
  · rw [Function.update_of_ne own] at idle
    exact rested other idle

theorem rested_step (routines : Routines S W C A B) (lawful : routines.Lawful) (pool next : Pool S W C)
    (move : Move W A B) (rested : routines.Rested pool) (moved : Moved routines pool move next) : routines.Rested next := by
  intro other idle
  cases moved with
  | began w testing running =>
    change Function.update pool.stage w .working other ≠ .working at idle
    by_cases own : other = w
    · subst own
      rw [Function.update_self] at idle
      exact absurd rfl idle
    · rw [Function.update_of_ne own] at idle
      exact (lawful.begins w other pool.shared own).trans (rested other idle)
  | left w testing lowered =>
    exact routines.rested_stage pool rested w .finished
      (fun _ => rested w (by rw [testing]; exact Stage.noConfusion)) other idle
  | rounded w working away => exact routines.rested_stage pool rested w .testing (fun _ => away) other idle
  | worked w action shared working acted =>
    have apart : other ≠ w := fun same => idle (same ▸ working)
    exact (lawful.work w other _ action shared apart acted).trans (rested other idle)
  | started w rest outside first absent =>
    exact routines.rested_stage pool rested w .testing
      (fun _ => rested w (by rw [absent]; exact Stage.noConfusion)) other idle
  | joined w rest outside first finished =>
    exact routines.rested_stage pool rested w .absent
      (fun _ => rested w (by rw [finished]; exact Stage.noConfusion)) other idle
  | called c rest outside first => exact (lawful.enter c pool.shared other).trans (rested other idle)
  | lowered rest outside first => exact rested other idle
  | acted c action shared calling acts => exact (lawful.act c _ action shared other acts).trans (rested other idle)
  | returned c calling returns => exact rested other idle

theorem rested_reached (routines : Routines S W C A B) (lawful : routines.Lawful) (program : List (Command W C))
    (pool : Pool S W C) (reached : (routines.system program).Reached (fun _ _ => True) pool) :
    routines.Rested pool :=
  System.reached_invariant _ _ routines.Rested (fun w _ => lawful.initial w)
    (fun pool move next kept _ moved =>
      routines.rested_step lawful pool next move kept (routines.step_moved pool next move moved))
    pool reached

end Rest

section Progress

/-- The rounds and the call in progress do not wait for what never comes: one of them can go on. -/
structure Able (routines : Routines S W C A B) (pool : Pool S W C) : Prop where
  work : ∀ w, routines.away w pool.shared = false →
    ∃ other action, routines.away other pool.shared = false ∧ (routines.work other pool.shared action).isSome = true
  call : ∀ c ∈ pool.calling, routines.returns c pool.shared = false →
    (∃ action, (routines.act c pool.shared action).isSome = true) ∨ ∃ w, routines.away w pool.shared = false

def Done (pool : Pool S W C) : Prop := pool.calling = none ∧ pool.program = []

theorem work_moves (routines : Routines S W C A B) (pool : Pool S W C) (rested : routines.Rested pool)
    (able : routines.Able pool) (w : W) (busy : routines.away w pool.shared = false) :
    ∃ move, (routines.step pool move).isSome = true := by
  obtain ⟨other,action,inside,acts⟩ := able.work w busy
  have working : pool.stage other = .working := by
    by_contra idle
    rw [rested other idle] at inside
    contradiction
  refine ⟨.work other action,?_⟩
  rw [step,if_pos working,Option.isSome_map]
  exact acts

theorem started_moves (routines : Routines S W C A B) (pool : Pool S W C) (rested : routines.Rested pool)
    (able : routines.Able pool) (w : W) (present : pool.stage w ≠ .absent) (unfinished : pool.stage w ≠ .finished) :
    ∃ move, (routines.step pool move).isSome = true := by
  cases stage : pool.stage w with
  | absent => exact absurd stage present
  | finished => exact absurd stage unfinished
  | testing =>
    refine ⟨.test w,?_⟩
    rw [step,if_pos stage]
    split <;> rfl
  | working =>
    cases away : routines.away w pool.shared with
    | true =>
      refine ⟨.again w,?_⟩
      rw [step,if_pos ⟨stage,away⟩]
      rfl
    | false => exact routines.work_moves pool rested able w away

/-- A program in order comes to its end or can move. -/
theorem progress (routines : Routines S W C A B) (pool : Pool S W C) (rested : routines.Rested pool)
    (ordered : Ordered pool.started pool.program) (able : routines.Able pool) :
    Done pool ∨ ∃ move, (routines.step pool move).isSome = true := by
  cases calling : pool.calling with
  | some c =>
    apply Or.inr
    cases returns : routines.returns c pool.shared with
    | true =>
      refine ⟨.returned,?_⟩
      rw [step,calling,Option.bind_some,if_pos returns]
      rfl
    | false =>
      rcases able.call c calling returns with ⟨action,acts⟩ | ⟨w,busy⟩
      · refine ⟨.act action,?_⟩
        rw [step,calling,Option.bind_some,Option.isSome_map]
        exact acts
      · exact routines.work_moves pool rested able w busy
  | none =>
    cases program : pool.program with
    | nil => exact Or.inl ⟨calling,program⟩
    | cons command rest =>
      apply Or.inr
      rw [program] at ordered
      cases command with
      | start w =>
        have absent : pool.stage w = .absent := not_not.mp (of_decide_eq_false ordered.1)
        exact ⟨.next,by simp [step,control,calling,program,absent]⟩
      | call c => exact ⟨.next,by simp [step,control,calling,program]⟩
      | lower => exact ⟨.next,by simp [step,control,calling,program]⟩
      | join w =>
        have present := of_decide_eq_true ordered.1
        by_cases finished : pool.stage w = .finished
        · exact ⟨.next,by simp [step,control,calling,program,finished]⟩
        · exact routines.started_moves pool rested able w present finished

end Progress

section Calls

/-- For the calls that are `settled`, `result` says how they end from where they stand. -/
structure Determined (routines : Routines S W C A B) (settled : C → Prop) (result : C → S → S) : Prop where
  act : ∀ c s action t, settled c → routines.act c s action = some t → result c t = result c s
  returned : ∀ c s, settled c → routines.returns c s = true → result c s = s

/-- What the calls leave that are in progress and still to be made. -/
def outcome (routines : Routines S W C A B) (result : C → S → S) (calling : Option C) (calls : List C) (s : S) : S :=
  calls.foldl (fun s c => result c (routines.enter c s)) (calling.elim s (fun c => result c s))

def Settled (settled : C → Prop) (calling : Option C) (calls : List C) : Prop :=
  (∀ c ∈ calling, settled c) ∧ ∀ c ∈ calls, settled c

theorem outcome_step (routines : Routines S W C A B) (settled : C → Prop) (result : C → S → S)
    (determined : routines.Determined settled result) (pool next : Pool S W C) (move : Move W A B) (calls : List C)
    (quiet : ∀ w, pool.stage w = .absent) (program : pool.program = calls.map .call)
    (known : Settled settled pool.calling calls) (moved : Moved routines pool move next) :
    (∀ w, next.stage w = .absent) ∧ ∃ left : List C, next.program = left.map .call ∧ Settled settled next.calling left ∧
      routines.outcome result next.calling left next.shared = routines.outcome result pool.calling calls pool.shared := by
  cases moved with
  | began w testing | left w testing =>
    rw [quiet w] at testing
    contradiction
  | rounded w working away =>
    rw [quiet w] at working
    contradiction
  | worked w action shared working acted =>
    rw [quiet w] at working
    contradiction
  | started w rest outside first absent =>
    rw [program] at first
    obtain ⟨c,left,rfl,same,_⟩ := List.map_eq_cons_iff.mp first
    contradiction
  | joined w rest outside first finished =>
    rw [quiet w] at finished
    contradiction
  | lowered rest outside first =>
    rw [program] at first
    obtain ⟨c,left,rfl,same,_⟩ := List.map_eq_cons_iff.mp first
    contradiction
  | called c rest outside first =>
    rw [program] at first
    obtain ⟨_,left,rfl,same,tail⟩ := List.map_eq_cons_iff.mp first
    obtain rfl := Command.call.inj same
    obtain ⟨here,later⟩ := List.forall_mem_cons.mp known.2
    refine ⟨quiet,left,tail.symm,⟨fun _ own => Option.some.inj own ▸ here,later⟩,?_⟩
    rw [outside]
    rfl
  | acted c action shared calling acts =>
    refine ⟨quiet,calls,program,known,?_⟩
    rw [outcome,outcome,calling]
    exact congrArg (calls.foldl fun s c => result c (routines.enter c s))
      (determined.act c _ action shared (known.1 c calling) acts)
  | returned c calling returns =>
    refine ⟨quiet,calls,program,⟨fun _ own => (Option.not_mem_none _ own).elim,known.2⟩,?_⟩
    rw [outcome,outcome,calling]
    exact congrArg (calls.foldl fun s c => result c (routines.enter c s))
      (determined.returned c _ (known.1 c calling) returns).symm

theorem outcome_run (routines : Routines S W C A B) (settled : C → Prop) (result : C → S → S)
    (determined : routines.Determined settled result) (program : List (Command W C)) (pool last : Pool S W C)
    (calls : List C) (moves : List (Move W A B)) (quiet : ∀ w, pool.stage w = .absent)
    (left : pool.program = calls.map .call) (known : Settled settled pool.calling calls)
    (ran : (routines.system program).run pool moves = some last) (done : Done last) :
    last.shared = routines.outcome result pool.calling calls pool.shared := by
  induction moves generalizing pool calls with
  | nil =>
    obtain rfl := Option.some.inj ran
    have none_left : calls = [] := List.map_eq_nil_iff.mp (left.symm.trans done.2)
    rw [outcome,none_left,done.1]
    rfl
  | cons move rest ih =>
    obtain ⟨next,moved,later⟩ := Option.bind_eq_some_iff.mp ran
    obtain ⟨still,remaining,program,known,same⟩ := routines.outcome_step settled result determined pool next move calls
      quiet left known (routines.step_moved pool next move moved)
    exact (ih next remaining still program known later).trans same

end Calls

section Whole
variable (routines : Routines S W C A B)

def Steps (w : W) : S → S → Prop := Relation.ReflTransGen fun s t => ∃ action, routines.work w s action = some t

theorem steps_lead (program : List (Command W C)) (w : W) (pool : Pool S W C) (working : pool.stage w = .working) (t : S)
    (steps : routines.Steps w pool.shared t) :
    (routines.system program).Leads (fun _ _ => True) pool {pool with shared := t} := by
  induction steps with
  | refl => exact .refl
  | @tail s t _ moved ih =>
    obtain ⟨action,acted⟩ := moved
    refine ih.tail ⟨.work w action,trivial,?_⟩
    change (if pool.stage w = .working then _ else none) = _
    rw [if_pos working,acted]
    rfl

/-- A whole round, from one test of the flag to the next. -/
theorem round_leads (program : List (Command W C)) (w : W) (pool : Pool S W C) (testing : pool.stage w = .testing)
    (running : pool.running = true) (t : S) (steps : routines.Steps w (routines.begins w pool.shared) t)
    (away : routines.away w t = true) :
    (routines.system program).Leads (fun _ _ => True) pool {pool with shared := t} := by
  let working : Pool S W C :=
    {pool with shared := routines.begins w pool.shared,stage := Function.update pool.stage w .working}
  have began : (routines.system program).Leads (fun _ _ => True) pool working := by
    refine .single ⟨.test w,trivial,?_⟩
    change (if pool.stage w = .testing then if pool.running = true then _ else _ else none) = _
    rw [if_pos testing,if_pos running]
  have inside : working.stage w = .working := Function.update_self ..
  have ended : (routines.system program).Leads (fun _ _ => True) {working with shared := t} {pool with shared := t} := by
    refine .single ⟨.again w,trivial,?_⟩
    change (if working.stage w = .working ∧ routines.away w t = true then some _ else none) = _
    rw [if_pos ⟨inside,away⟩]
    simp only [working,Function.update_idem]
    rw [← testing,Function.update_eq_self]
  exact began.trans ((routines.steps_lead program w working inside t steps).trans ended)

end Whole

section Bounds
variable (routines : Routines S W C A B)

theorem lowered_step (pool next : Pool S W C) (move : Move W A B) (lowered : pool.running = false)
    (moved : Moved routines pool move next) : next.running = false := by
  cases moved with
  | lowered => rfl
  | began | left | worked | rounded | started | called | joined | acted | returned => exact lowered

theorem sum_changed {I P : Type} [Fintype I] [DecidableEq I] (weight : P → Nat) (state : I → P) (i : I) (new : P) :
    ∑ j, weight (Function.update state i new j) + weight (state i) = ∑ j, weight (state j) + weight new := by
  have others : ∑ j ∈ Finset.univ.erase i, weight (Function.update state i new j) =
      ∑ j ∈ Finset.univ.erase i, weight (state j) :=
    Finset.sum_congr rfl fun j inside => by rw [Function.update_of_ne (Finset.ne_of_mem_erase inside)]
  rw [← Finset.add_sum_erase _ _ (Finset.mem_univ i),
    ← Finset.add_sum_erase _ (fun j => weight (state j)) (Finset.mem_univ i),others,Function.update_self]
  omega

/-- Each step of a worker uses up fuel but for what its action brings, and so does each step of a
settled call but for what the call brings when it is made. -/
structure Bounded (routines : Routines S W C A B) (settled : C → Prop) (fuel : S → Nat) (cost : A → Nat)
    (entry : Nat) : Prop where
  work : ∀ w s action t, routines.work w s action = some t → fuel t + 1 ≤ fuel s + cost action
  act : ∀ c s action t, settled c → routines.act c s action = some t → fuel t + 1 ≤ fuel s
  enter : ∀ c s, settled c → fuel (routines.enter c s) ≤ fuel s + entry

def fuel [Fintype W] (shared : S → Nat) (entry : Nat) (pool : Pool S W C) : Nat :=
  shared pool.shared + ∑ w, (pool.stage w).left + pool.program.length * (entry + 2) + pool.calling.toList.length

variable (settled : C → Prop) (closed : List (Command W C) → Prop) (closes : Closed settled closed)
include closes

theorem closing_step (pool next : Pool S W C) (move : Move W A B) (closing : Closing settled closed pool)
    (moved : Moved routines pool move next) : Closing settled closed next := by
  cases moved with
  | began | left | worked | rounded | acted => exact closing
  | started w rest outside first absent =>
    exact closing_pop settled closed closes pool _ _ rest closing first rfl rfl (by simp) fun c inside => Or.inr inside
  | joined w rest outside first finished =>
    exact closing_pop settled closed closes pool _ _ rest closing first rfl rfl (by simp) fun c inside => Or.inr inside
  | called c rest outside first =>
    exact closing_pop settled closed closes pool _ _ rest closing first rfl rfl (by simp)
      fun other own => Or.inl (congrArg _ (Option.some.inj own))
  | lowered rest outside first =>
    unfold Closing at closing ⊢
    rw [first] at closing
    rw [if_neg Bool.false_ne_true]
    refine ⟨fun c inside => absurd inside (by simp [outside]),?_⟩
    split at closing
    · exact closing
    · exact closes.tail _ rest closing.2
  | returned c calling returns =>
    unfold Closing at closing ⊢
    split at closing
    next up =>
      rw [if_pos up]
      exact closing
    next down =>
      rw [if_neg down]
      exact ⟨fun c inside => (Option.not_mem_none c inside).elim,closing.2⟩

theorem closing_reached (program : List (Command W C)) (ends : Closes closed program) (pool : Pool S W C)
    (reached : (routines.system program).Reached (fun _ _ => True) pool) : Closing settled closed pool :=
  System.reached_invariant _ _ (Closing settled closed)
    (by rw [Closing]; exact (if_pos rfl).mpr ends)
    (fun pool move next kept _ moved =>
      closing_step routines settled closed closes pool next move kept (routines.step_moved pool next move moved))
    pool reached

variable [Fintype W] (shared : S → Nat) (cost : A → Nat) (entry : Nat)
  (bounded : routines.Bounded settled shared cost entry)
include bounded

theorem fuel_step (pool next : Pool S W C) (move : Move W A B) (closing : Closing settled closed pool)
    (lowered : pool.running = false) (moved : Moved routines pool move next) :
    fuel shared entry next + 1 ≤ fuel shared entry pool + move.cost cost := by
  obtain ⟨call,program⟩ := closing_lowered settled closed pool closing lowered
  have stages := sum_changed Stage.left pool.stage
  have popped (rest : List (Command W C)) (command : Command W C) (first : pool.program = command :: rest) :
      pool.program.length * (entry + 2) = rest.length * (entry + 2) + (entry + 2) := by
    rw [first,List.length_cons,Nat.succ_mul]
  unfold fuel Move.cost
  cases moved with
  | began w testing running =>
    rw [lowered] at running
    contradiction
  | left w testing lowered =>
    have change := stages w .finished
    rw [testing] at change
    simp only [Stage.left] at change ⊢
    omega
  | rounded w working away =>
    have change := stages w .testing
    rw [working] at change
    simp only [Stage.left] at change ⊢
    omega
  | worked w action t working acted =>
    have step := bounded.work w _ action t acted
    dsimp only
    omega
  | started w rest outside first absent =>
    have change := stages w .testing
    have shorter := popped rest _ first
    rw [absent] at change
    simp only [Stage.left] at change ⊢
    omega
  | called c rest outside first =>
    have made := bounded.enter c pool.shared (closes.call c rest (first ▸ program))
    have shorter := popped rest _ first
    simp only [outside,Option.toList,List.length_cons,List.length_nil] at *
    omega
  | lowered rest outside first =>
    have shorter := popped rest _ first
    dsimp only
    omega
  | joined w rest outside first finished =>
    have change := stages w .absent
    have shorter := popped rest _ first
    rw [finished] at change
    simp only [Stage.left] at change ⊢
    omega
  | acted c action t calling acts =>
    have step := bounded.act c _ action t (call c calling) acts
    dsimp only
    omega
  | returned c calling returns =>
    simp only [calling,Option.toList,List.length_cons,List.length_nil]
    omega

/-- Once the flag is lowered a run takes no more steps than there is fuel for, however the threads
take turns, but for the steps that its actions bring. -/
theorem run_bounded (program : List (Command W C)) (pool last : Pool S W C) (moves : List (Move W A B))
    (closing : Closing settled closed pool) (lowered : pool.running = false)
    (ran : (routines.system program).run pool moves = some last) :
    moves.length + fuel shared entry last ≤ fuel shared entry pool + (moves.map (Move.cost cost)).sum := by
  induction moves generalizing pool with
  | nil =>
    obtain rfl := Option.some.inj ran
    simp
  | cons move rest ih =>
    obtain ⟨next,stepped,later⟩ := Option.bind_eq_some_iff.mp ran
    have moved := routines.step_moved pool next move stepped
    have step := routines.fuel_step settled closed closes shared cost entry bounded pool next move closing lowered moved
    have further := ih next (routines.closing_step settled closed closes pool next move closing moved)
      (routines.lowered_step pool next move lowered moved) later
    rw [List.length_cons,List.map_cons,List.sum_cons]
    omega

end Bounds

end Routines
