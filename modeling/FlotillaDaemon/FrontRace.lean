import FlotillaDaemon.DockRaces
import FlotillaDaemon.TickAlone

/-! The command queue of a module under two threads. `get_next_command` tests the size of the
queue before it takes the mutex, and `disconnect` of the other thread empties the queue under
the mutex. A step is one test, one locked region or one change of a module. -/
namespace FlotillaDaemon
open Cpp Retained

/-- What a module operation does to its module, one step of the thread after the other. -/
inductive Change
  | setName (moduleName : Text)
  | setState (state : ModuleState)
  | emptyQueue
  | queueCommand (cmd : Text)
  deriving DecidableEq

def Change.apply (m : FlotillaModule) : Change → FlotillaModule
  | .setName moduleName => {m with name := moduleName}
  | .setState state => {m with state := state}
  | .emptyQueue => m.emptyQueue
  | .queueCommand cmd => m.queueCommand cmd

/-- `disconnect`, and `connect` of a module that is not connected. -/
def disconnectChanges : List Change := [.setState .moduleDisconnected,.emptyQueue]

def connectChanges (moduleName : Text) : List Change := [.setName moduleName,.emptyQueue,.setState .moduleConnected]

theorem disconnectChanges_eq (m : FlotillaModule) : disconnectChanges.foldl Change.apply m = m.disconnect := rfl

theorem connectChanges_eq (m : FlotillaModule) (moduleName : Text) (off : m.state = .moduleDisconnected) :
    (connectChanges moduleName).foldl Change.apply m = m.connect moduleName := by
  rw [m.connect_disconnected moduleName off]
  rfl

/-- What `process_command` is going to do, after its parse. -/
inductive LineEffect
  | information (dock : FlotillaDock)
  | data (c : Fin maxChannels) (data : Text)
  | lost (c : Fin maxChannels)
  | found (c : Fin maxChannels) (name : Text)
  | ignored

namespace FlotillaDock

def namedChannel (command : Text) : Outcome (Option (Fin maxChannels × Text)) := do
  let (channel,size) ← lineChannel command
  if channel < maxChannels then
    let name ← substr command (size + 3)
    let c ← arrayIndex maxChannels channel
    return some (c,name)
  else return none

def dataChannel (dock : FlotillaDock) (command : Text) : Outcome (Option (Fin maxChannels × Text)) := do
  let (channel,size) ← lineChannel command
  if channel < maxChannels then
    let c ← arrayIndex maxChannels channel
    let data ← substr command (size + 4 + (dock.module c).name.length)
    return some (c,data)
  else return none

def LineEffect.of (effect : Fin maxChannels → Text → LineEffect) : Option (Fin maxChannels × Text) → LineEffect
  | some (c,text) => effect c text
  | none => .ignored

def lineEffect (dock : FlotillaDock) (command : Text) : Outcome LineEffect := do
  let first ← charAt command 0
  if first = '#' then return .information (← dock.processInformation command)
  else if first = 'u' then return LineEffect.of .data (← dock.dataChannel command)
  else if first = 'd' then return LineEffect.of (fun c _ => .lost c) (← namedChannel command)
  else if first = 'c' then return LineEffect.of .found (← namedChannel command)
  else return .ignored

def perform (dock : FlotillaDock) : LineEffect → FlotillaDock
  | .information dock => dock
  | .data c data => dock.setModule c ((dock.module c).queueCommand data)
  | .lost c => (dock.setModule c (dock.module c).disconnect).queueModuleEvent c
  | .found c name => (dock.setModule c ((dock.module c).connect name)).queueModuleEvent c
  | .ignored => dock

theorem processChange_perform (change : Text → FlotillaModule → FlotillaModule) (dock : FlotillaDock)
    (command : Text) (effect : Fin maxChannels → Text → LineEffect)
    (performs : ∀ c name, dock.perform (effect c name) =
      (dock.setModule c (change name (dock.module c))).queueModuleEvent c) :
    (fun found => dock.perform (LineEffect.of effect found)) <$> namedChannel command =
      dock.processChange change command := by
  unfold namedChannel processChange
  refine outcome_bind_map _ _ _ _ fun found => ?_
  dsimp only
  split
  · refine outcome_bind_map _ _ _ _ fun name => ?_
    refine outcome_bind_map _ _ _ _ fun c => ?_
    exact congrArg Except.ok (performs c name)
  · rfl

theorem processUpdate_perform (dock : FlotillaDock) (command : Text) :
    (fun found => dock.perform (LineEffect.of .data found)) <$> dock.dataChannel command =
      dock.processUpdate command := by
  unfold dataChannel processUpdate
  refine outcome_bind_map _ _ _ _ fun found => ?_
  dsimp only
  split
  · refine outcome_bind_map _ _ _ _ fun c => ?_
    exact outcome_map_bind _ _ _
  · rfl

theorem lineEffect_perform (dock : FlotillaDock) (command : Text) :
    dock.perform <$> dock.lineEffect command = dock.processCommand command := by
  cases command with
  | nil => rfl
  | cons first rest =>
    rw [processCommand_cons]
    change dock.perform <$> (if first = '#' then _ else if first = 'u' then _ else if first = 'd' then _
      else if first = 'c' then _ else _) = _
    split
    · cases dock.processInformation (first :: rest) <;> rfl
    · split
      · rw [← dock.processUpdate_perform]
        cases dock.dataChannel (first :: rest) <;> rfl
      · split
        · rw [← dock.processChange_perform _ _ (fun c _ => .lost c) fun c name => rfl]
          cases namedChannel (first :: rest) <;> rfl
        · split
          · rw [← dock.processChange_perform _ _ .found fun c name => rfl]
            cases namedChannel (first :: rest) <;> rfl
          · rfl

end FlotillaDock

inductive TickPlace
  | away
  | called
  | input
  | connecting (c : Fin maxChannels) (moduleName : Text)
  | changing (c : Fin maxChannels) (changes : List Change)
  | queueing (c : Fin maxChannels) (cmd : Text)
  | announcing (c : Fin maxChannels)
  | flushed
  | serving (next : Nat)
  | sizing (c : Fin maxChannels)
  | locked (c : Fin maxChannels)
  | comparing (c : Fin maxChannels) (command : Entry)
  deriving DecidableEq

inductive SweepPlace
  | idle
  | sweeping (next : Nat)
  | dropping (c : Fin maxChannels) (changes : List Change)
  | losing (c : Fin maxChannels)
  deriving DecidableEq

/-- The update thread and the scan thread at the modules of one dock. The writes of a tick,
which touch no command queue, are one step. -/
structure Crossing where
  dock : FlotillaDock
  update : TickPlace
  scan : SweepPlace

inductive CrossingAction
  | tick
  | line (command : Text)
  | updateClients
  | update
  | setPort
  | disconnect
  | scan
  deriving DecidableEq

namespace Crossing

def change (x : Crossing) (c : Fin maxChannels) (changed : Change) : FlotillaDock :=
  x.dock.setModule c (changed.apply (x.dock.module c))

/-- A line in the input loop of `tick`, up to the first change of a module. -/
def lineStep (x : Crossing) (command : Text) : Option Crossing :=
  match x.dock.lineEffect command with
  | .ok (.information dock) => some {x with dock := dock}
  | .ok (.data c cmd) => some {x with update := .queueing c cmd}
  | .ok (.lost c) => some {x with update := .changing c disconnectChanges}
  | .ok (.found c moduleName) => some {x with update := .connecting c moduleName}
  | .ok .ignored => some x
  | .error _ => none

def updateStep (x : Crossing) : Option Crossing :=
  match x.update with
  | .away => none
  | .called =>
    if x.dock.state = .connected then some {x with dock := (x.dock.writeQueues ⟨[],[]⟩).1,update := .input}
    else some {x with update := .away}
  | .input => some {x with update := .away}
  | .connecting c moduleName =>
    let connected := (x.dock.module c).state = .moduleConnected
    some {x with update := if connected then .announcing c else .changing c (connectChanges moduleName)}
  | .changing c [] => some {x with update := .announcing c}
  | .changing c (changed :: rest) => some {x with dock := x.change c changed,update := .changing c rest}
  | .queueing c cmd => some {x with dock := x.change c (.queueCommand cmd),update := .input}
  | .announcing c => some {x with dock := x.dock.queueModuleEvent c,update := .input}
  | .flushed => some {x with update := if x.dock.state = .connected then .serving 0 else .away}
  | .serving next =>
    let inside (c : Fin maxChannels) : TickPlace :=
      if (x.dock.module c).state = .moduleConnected then .sizing c else .serving (next + 1)
    some {x with update := Slot.eachChannel next inside .away}
  | .sizing c =>
    let waiting := (x.dock.module c).commandQueue ≠ []
    some {x with update := if waiting then .locked c else .serving (c.val + 1)}
  | .locked c =>
    let m := x.dock.module c
    match takeCommand m.isVolatile m.commandQueue with
    | none => none
    | some (command,left) =>
      some {x with dock := x.dock.setModule c {m with commandQueue := left},update := .comparing c command}
  | .comparing c command =>
    let m := x.dock.module c
    let next := if command.val = m.lastUpdate then m else {m with lastUpdate := command.val}
    some {x with dock := x.dock.setModule c next,update := .serving (c.val + 1)}

def scanStep (x : Crossing) : Option Crossing :=
  match x.scan with
  | .idle => none
  | .sweeping next =>
    let inside (c : Fin maxChannels) : SweepPlace :=
      if (x.dock.module c).state = .moduleConnected then .dropping c disconnectChanges else .sweeping (next + 1)
    some {x with scan := Slot.eachChannel next inside .idle}
  | .dropping c [] => some {x with scan := .losing c}
  | .dropping c (changed :: rest) => some {x with dock := x.change c changed,scan := .dropping c rest}
  | .losing c => some {x with dock := x.dock.queueModuleEvent c,scan := .sweeping (c.val + 1)}

def step (x : Crossing) : CrossingAction → Option Crossing
  | .tick => if x.update = .away ∧ x.dock.state = .connected then some {x with update := .called} else none
  | .line command => if x.update = .input then x.lineStep command else none
  | .updateClients =>
    if x.update = .away then some {x with dock := {x.dock with eventQueue := []},update := .flushed} else none
  | .update => x.updateStep
  | .setPort =>
    if x.scan = .idle ∧ x.dock.state = .disconnected then some {x with dock := {x.dock with state := .connected}}
    else none
  | .disconnect =>
    if x.scan = .idle ∧ x.dock.state ≠ .disconnected
    then some {x with dock := {x.dock with state := .disconnected},scan := .sweeping 0} else none
  | .scan => x.scanStep

/-- `front()` is evaluated in the next step of the update thread, if at all, on an entry. -/
def FrontFilled (x : Crossing) : Prop := ∀ c, x.update = .locked c → (x.dock.module c).commandQueue ≠ []

/-- The scan thread does not empty a queue between the size test and the locked region. -/
def Unraced (x : Crossing) (action : CrossingAction) : Prop :=
  match x.update,x.scan,action with
  | .locked c,.dropping d (.emptyQueue :: _),.scan => c ≠ d
  | _,_,_ => True

instance (x : Crossing) : Decidable x.FrontFilled := inferInstanceAs (Decidable (∀ _, _))

instance (x : Crossing) (action : CrossingAction) : Decidable (x.Unraced action) := by
  unfold Unraced
  split <;> infer_instance

end Crossing

def crossings (index : Nat) : System Crossing CrossingAction := ⟨⟨.new index,.away,.idle⟩,Crossing.step⟩

namespace Crossing

section Alone

/-- The steps of one thread with none of the other in between. -/
def UpdateRuns : Crossing → Crossing → Prop := Relation.ReflTransGen fun x y => x.updateStep = some y

def ScanRuns : Crossing → Crossing → Prop := Relation.ReflTransGen fun x y => x.scanStep = some y

def ticks (x : Crossing) (dock : FlotillaDock) (update : TickPlace) : Crossing := {x with dock := dock,update := update}

def sweeps (x : Crossing) (dock : FlotillaDock) (scan : SweepPlace) : Crossing := {x with dock := dock,scan := scan}

theorem setModule_same (dock : FlotillaDock) (c : Fin maxChannels) : dock.setModule c (dock.module c) = dock := by
  rw [FlotillaDock.setModule,Function.update_eq_self]

theorem setModule_again (dock : FlotillaDock) (c : Fin maxChannels) (first second : FlotillaModule) :
    (dock.setModule c first).setModule c second = dock.setModule c second := by
  simp only [FlotillaDock.setModule,Function.update_idem]

theorem setModule_own (dock : FlotillaDock) (c : Fin maxChannels) (m : FlotillaModule) :
    (dock.setModule c m).module c = m := Function.update_self ..

/-- A thread that makes changes of a module one after the other has made them all in the end. -/
theorem changes_run (step : Crossing → Option Crossing) (place : FlotillaDock → List Change → Crossing)
    (done : FlotillaDock → Crossing) (c : Fin maxChannels) (last : ∀ dock, step (place dock []) = some (done dock))
    (next : ∀ dock changed rest, step (place dock (changed :: rest)) =
      some (place (dock.setModule c (changed.apply (dock.module c))) rest))
    (dock : FlotillaDock) (changes : List Change) :
    Relation.ReflTransGen (fun x y => step x = some y) (place dock changes)
      (done (dock.setModule c (changes.foldl Change.apply (dock.module c)))) := by
  induction changes generalizing dock with
  | nil =>
    rw [List.foldl_nil,setModule_same]
    exact .single (last dock)
  | cons changed rest ih =>
    have later := ih (dock.setModule c (changed.apply (dock.module c)))
    rw [setModule_own,setModule_again] at later
    exact .head (next dock changed rest) later

theorem changes_update (x : Crossing) (dock : FlotillaDock) (c : Fin maxChannels) (changes : List Change) :
    UpdateRuns (x.ticks dock (.changing c changes))
      (x.ticks (dock.setModule c (changes.foldl Change.apply (dock.module c))) (.announcing c)) :=
  changes_run updateStep (fun dock changes => x.ticks dock (.changing c changes))
    (fun dock => x.ticks dock (.announcing c)) c (fun _ => rfl) (fun _ _ _ => rfl) dock changes

theorem changes_scan (x : Crossing) (dock : FlotillaDock) (c : Fin maxChannels) (changes : List Change) :
    ScanRuns (x.sweeps dock (.dropping c changes))
      (x.sweeps (dock.setModule c (changes.foldl Change.apply (dock.module c))) (.losing c)) :=
  changes_run scanStep (fun dock changes => x.sweeps dock (.dropping c changes))
    (fun dock => x.sweeps dock (.losing c)) c (fun _ => rfl) (fun _ _ _ => rfl) dock changes

theorem polled_alone (x : Crossing) (dock : FlotillaDock) (c : Fin maxChannels)
    (connected : (dock.module c).state = .moduleConnected) :
    UpdateRuns (x.ticks dock (.serving c.val)) (x.ticks (dock.getNextCommand c).1 (.serving (c.val + 1))) := by
  have tested : (x.ticks dock (.serving c.val)).updateStep = some (x.ticks dock (.sizing c)) := by
    simp [ticks,updateStep,Slot.eachChannel_inside c.val c.isLt,connected]
  refine .head tested ?_
  change UpdateRuns _ (x.ticks (dock.setModule c (dock.module c).getNextCommand.1) _)
  rcases (dock.module c).getNextCommand_cases with ⟨empty,polled⟩ | ⟨command,left,taken,polled⟩
  · rw [polled,setModule_same]
    exact .single (by simp [ticks,updateStep,empty])
  · have waiting : (dock.module c).commandQueue ≠ [] := by
      intro empty
      rw [(takeCommand_eq_none_iff _ _).mpr empty] at taken
      contradiction
    have sized : (x.ticks dock (.sizing c)).updateStep = some (x.ticks dock (.locked c)) := by
      simp [ticks,updateStep,waiting]
    let mid : FlotillaModule := {dock.module c with commandQueue := left}
    have popped : (x.ticks dock (.locked c)).updateStep =
        some (x.ticks (dock.setModule c mid) (.comparing c command)) := by
      simp only [ticks,updateStep,taken,mid]
    have compared : (x.ticks (dock.setModule c mid) (.comparing c command)).updateStep =
        some (x.ticks (dock.setModule c {mid with lastUpdate := command.val}) (.serving (c.val + 1))) := by
      simp only [ticks,updateStep,setModule_own,setModule_again]
      by_cases same : command.val = mid.lastUpdate
      · rw [if_pos same,same]
      · rw [if_neg same]
    rw [polled]
    exact .head sized (.head popped (.single compared))

theorem line_alone (x : Crossing) (dock next : FlotillaDock) (command : Text)
    (processed : dock.processCommand command = .ok next) :
    ∃ mid, (x.ticks dock .input).lineStep command = some mid ∧ UpdateRuns mid (x.ticks next .input) := by
  rw [← dock.lineEffect_perform] at processed
  cases read : dock.lineEffect command with
  | error fault =>
    rw [read] at processed
    contradiction
  | ok effect =>
    rw [read] at processed
    obtain rfl := Except.ok.inj processed
    have own : (x.ticks dock .input).dock = dock := rfl
    unfold lineStep
    rw [own,read]
    cases effect with
    | information informed => exact ⟨_,rfl,.refl⟩
    | ignored => exact ⟨_,rfl,.refl⟩
    | data c cmd => exact ⟨_,rfl,.single rfl⟩
    | lost c => exact ⟨_,rfl,(changes_update x dock c disconnectChanges).tail rfl⟩
    | found c moduleName =>
      refine ⟨_,rfl,?_⟩
      change UpdateRuns (x.ticks dock (.connecting c moduleName)) _
      by_cases connected : (dock.module c).state = .moduleConnected
      · have skipped : (x.ticks dock (.connecting c moduleName)).updateStep =
            some (x.ticks dock (.announcing c)) := by simp [ticks,updateStep,connected]
        have same : dock.perform (.found c moduleName) = dock.queueModuleEvent c := by
          rw [FlotillaDock.perform,FlotillaModule.connect_connected _ _ connected,setModule_same]
        rw [same]
        exact .head skipped (.single rfl)
      · have entered : (x.ticks dock (.connecting c moduleName)).updateStep =
            some (x.ticks dock (.changing c (connectChanges moduleName))) := by
          simp [ticks,updateStep,connected]
        have changed := changes_update x dock c (connectChanges moduleName)
        rw [connectChanges_eq _ _ (Slot.disconnected_of_not _ connected)] at changed
        exact .head entered (changed.tail rfl)

theorem disconnect_alone (x : Crossing) (dock : FlotillaDock) (up : dock.state ≠ .disconnected) :
    ScanRuns (x.sweeps {dock with state := .disconnected} (.sweeping 0)) (x.sweeps dock.disconnect .idle) := by
  have swept (d : FlotillaDock) (c : Fin maxChannels) :
      ScanRuns (x.sweeps d (.sweeping c.val)) (x.sweeps (d.loseModule c) (.sweeping (c.val + 1))) := by
    unfold FlotillaDock.loseModule
    by_cases connected : (d.module c).state = .moduleConnected
    · rw [if_pos connected]
      have tested : (x.sweeps d (.sweeping c.val)).scanStep = some (x.sweeps d (.dropping c disconnectChanges)) := by
        simp [sweeps,scanStep,Slot.eachChannel_inside c.val c.isLt,connected]
      exact .head tested ((changes_scan x d c disconnectChanges).tail rfl)
    · rw [if_neg connected]
      exact .single (by simp [sweeps,scanStep,Slot.eachChannel_inside c.val c.isLt,connected])
  have from_channel (left next : Nat) (rest : next + left = maxChannels) (d : FlotillaDock) :
      ScanRuns (x.sweeps d (.sweeping next))
        (x.sweeps (((List.finRange maxChannels).drop next).foldl FlotillaDock.loseModule d) .idle) := by
    induction left generalizing next d with
    | zero =>
      have done : ¬ next < maxChannels := by omega
      rw [List.drop_of_length_le (by rw [List.length_finRange]; omega)]
      exact .single (by simp only [sweeps,scanStep,Slot.eachChannel_done next done,List.foldl_nil])
    | succ left ih =>
      have bound : next < maxChannels := by omega
      rw [List.drop_eq_getElem_cons (by rw [List.length_finRange]; exact bound),List.getElem_finRange,
        List.foldl_cons]
      exact (swept d ⟨next,bound⟩).trans (ih (next + 1) (by omega) (d.loseModule ⟨next,bound⟩))
  rw [FlotillaDock.disconnect,if_neg up]
  exact from_channel maxChannels 0 (Nat.zero_add _) _

end Alone

theorem lineStep_unlocked (x y : Crossing) (command : Text) (input : x.update = .input)
    (moved : x.lineStep command = some y) (c : Fin maxChannels) : y.update ≠ .locked c := by
  unfold lineStep at moved
  split at moved
  case h_6 => contradiction
  all_goals
    rw [← Option.some.inj moved]
    simp [input]

/-- The update thread reaches the locked region only through its test. -/
theorem updateStep_front (x y : Crossing) (moved : x.updateStep = some y) : y.FrontFilled := by
  intro c locked
  unfold updateStep at moved
  split at moved
  case h_1 => contradiction
  case h_2 => split at moved <;> (rw [← Option.some.inj moved] at locked; contradiction)
  case h_4 =>
    rw [← Option.some.inj moved] at locked
    dsimp only at locked
    split at locked <;> contradiction
  case h_9 =>
    rw [← Option.some.inj moved] at locked
    dsimp only at locked
    split at locked <;> contradiction
  case h_10 next place =>
    rw [← Option.some.inj moved] at locked
    by_cases bound : next < maxChannels
    · simp only [Slot.eachChannel_inside next bound] at locked
      split at locked <;> contradiction
    · simp only [Slot.eachChannel_done next bound] at locked
      contradiction
  case h_11 d place =>
    rw [← Option.some.inj moved] at locked ⊢
    dsimp only at locked ⊢
    split at locked
    next waiting =>
      rw [← TickPlace.locked.inj locked]
      exact waiting
    next => contradiction
  case h_12 d place =>
    dsimp only at moved
    split at moved
    · contradiction
    · rw [← Option.some.inj moved] at locked
      contradiction
  all_goals
    rw [← Option.some.inj moved] at locked
    contradiction

theorem change_waiting (m : FlotillaModule) (changed : Change) (waiting : m.commandQueue ≠ []) :
    (changed.apply m).commandQueue ≠ [] ↔ changed ≠ .emptyQueue := by
  cases changed with
  | emptyQueue => simp [Change.apply,FlotillaModule.emptyQueue]
  | setName moduleName => simpa [Change.apply] using waiting
  | setState state => simpa [Change.apply] using waiting
  | queueCommand cmd =>
    simp only [Change.apply,FlotillaModule.queueCommand,enqueue]
    split <;> simp [waiting]

theorem unraced_iff (x : Crossing) (action : CrossingAction) : x.Unraced action ↔
    ∀ c rest, x.update = .locked c → x.scan = .dropping c (.emptyQueue :: rest) → action ≠ .scan := by
  unfold Unraced
  split
  next c d changes update scan =>
    constructor
    · intro apart e rest locked dropping
      have first := TickPlace.locked.inj (update.symm.trans locked)
      have second := (SweepPlace.dropping.inj (scan.symm.trans dropping)).1
      exact absurd (first.trans second.symm) apart
    · intro raced same
      exact raced c changes update (same ▸ scan) rfl
  next other =>
    apply iff_of_true trivial
    intro c rest locked dropping acted
    subst acted
    exact other c c rest locked dropping rfl

theorem scanStep_front_iff (x y : Crossing) (filled : x.FrontFilled) (moved : x.scanStep = some y) :
    y.FrontFilled ↔ x.Unraced .scan := by
  unfold scanStep at moved
  split at moved
  case h_1 => contradiction
  case h_2 next place | h_3 c place | h_5 c place =>
    rw [← Option.some.inj moved]
    refine iff_of_true filled ((unraced_iff x .scan).mpr fun d rest _ dropping => ?_)
    simp [place] at dropping
  case h_4 c changed rest place =>
    rw [← Option.some.inj moved]
    by_cases own : x.update = .locked c
    · have decided : x.Unraced .scan ↔ changed ≠ .emptyQueue := by
        rw [unraced_iff]
        constructor
        · intro raced empties
          exact raced c rest own (empties ▸ place) rfl
        · intro other d later _ dropping
          rw [place] at dropping
          exact absurd (List.cons.inj (SweepPlace.dropping.inj dropping).2).1 other
      rw [decided,← change_waiting (x.dock.module c) changed (filled c own)]
      constructor
      · intro later
        simpa [change,FlotillaDock.setModule] using later c own
      · intro waiting d locked
        obtain rfl := TickPlace.locked.inj (own.symm.trans locked)
        simpa [change,FlotillaDock.setModule] using waiting
    · refine iff_of_true (fun d locked => ?_) ((unraced_iff x .scan).mpr fun d rest locked dropping => ?_)
      · have apart : d ≠ c := fun same => own (same ▸ locked)
        simpa [change,FlotillaDock.setModule,apart] using filled d locked
      · rw [place] at dropping
        exact absurd ((SweepPlace.dropping.inj dropping).1 ▸ locked) own

/-- One step: what the scan thread does is harmless exactly where it is not raced. -/
theorem step_front_iff (x y : Crossing) (action : CrossingAction) (filled : x.FrontFilled)
    (moved : x.step action = some y) : y.FrontFilled ↔ x.Unraced action := by
  have calm (other : action ≠ .scan) : x.Unraced action := (unraced_iff x action).mpr fun _ _ _ _ => other
  cases action with
  | scan => exact scanStep_front_iff x y filled moved
  | update => exact iff_of_true (updateStep_front x y moved) (calm (by simp))
  | tick =>
    change (if _ then _ else _) = _ at moved
    split at moved
    · rw [← Option.some.inj moved]
      exact iff_of_true (fun c locked => by contradiction) (calm (by simp))
    · contradiction
  | line command =>
    change (if _ then _ else _) = _ at moved
    split at moved
    next input =>
      exact iff_of_true (fun c locked => absurd locked (lineStep_unlocked x y command input moved c)) (calm (by simp))
    next => contradiction
  | updateClients =>
    change (if _ then _ else _) = _ at moved
    split at moved
    · rw [← Option.some.inj moved]
      exact iff_of_true (fun c locked => by contradiction) (calm (by simp))
    · contradiction
  | setPort | disconnect =>
    change (if _ then _ else _) = _ at moved
    split at moved
    · rw [← Option.some.inj moved]
      exact iff_of_true filled (calm (by simp))
    · contradiction

end Crossing

/-- `front()` is evaluated on an entry, in every run in which no queue is emptied between its
size test and its locked region. -/
theorem front_filled (index : Nat) (x : Crossing) (reached : (crossings index).Reached Crossing.Unraced x) :
    x.FrontFilled :=
  System.reached_invariant (crossings index) Crossing.Unraced Crossing.FrontFilled
    (fun c locked => by contradiction)
    (fun x action y filled unraced moved => (Crossing.step_front_iff x y action filled moved).mpr unraced) x reached

section Runs

/-- A dial has reported, its queue has been tested, and the dock is being lost. -/
def dialTested : List CrossingAction :=
  [.setPort,.tick,.update,.line "c 1/dial".toList] ++ List.replicate 6 .update ++
    [.line "u 1/dial 42".toList,.update,.update,.updateClients,.update,.update,.update,.disconnect,.scan,.scan]

def dialLocked : Crossing := ((crossings 0).run (crossings 0).initial dialTested).get (by decide +kernel)

def dialEmptied : Crossing :=
  ((crossings 0).run (crossings 0).initial (dialTested ++ [.scan])).get (by decide +kernel)

end Runs

theorem front_filled_dial : (dialLocked.dock.module 0).commandQueue ≠ [] := by
  have meets : (crossings 0).Meets Crossing.Unraced (crossings 0).initial dialTested := by decide +kernel
  have reached := System.reached_run (crossings 0) _ _ dialLocked _ .start meets (Option.some_get _).symm
  exact front_filled 0 dialLocked reached 0 (by decide +kernel)

theorem front_emptied_dial :
    ¬ ∀ (index : Nat) (x : Crossing), (crossings index).Reached (fun _ _ => True) x → x.FrontFilled := by
  intro filled
  have reached := System.run_reached (crossings 0) dialEmptied _ (Option.some_get _).symm
  exact absurd (filled 0 dialEmptied reached) (by decide +kernel)

end FlotillaDaemon
