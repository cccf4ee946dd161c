import FlotillaDaemon.Module

/-! The two directions of a module. The intended component has a queue and a memory of
its own for each direction. The code gives both directions one remembered text, so it
behaves as intended exactly while every repeat test comes out as it would against the
memory of the polling direction. -/
namespace FlotillaDaemon
open Cpp Retained

/-- A module whose directions share nothing but its state and name. -/
structure TwoWayModule where
  state : ModuleState
  name : Text
  command : Channel Entry
  update : Channel Entry

namespace TwoWayModule

def isVolatile (t : TwoWayModule) : Bool := t.name == "touch".toList

def getNextCommand (t : TwoWayModule) : TwoWayModule × Reply :=
  let polled := t.command.poll (takeCommand t.isVolatile)
  ({t with command := polled.1},.command ((polled.2.map Subtype.val).getD []))

def getNextUpdate (t : TwoWayModule) : TwoWayModule × Reply :=
  let polled := t.update.poll (takeUpdate t.isVolatile)
  ({t with update := polled.1},
    .update polled.2.isSome (((takeUpdate t.isVolatile t.update.queue).map (fun taken => taken.1.val)).getD []))

def connect (t : TwoWayModule) (moduleName : Text) : TwoWayModule :=
  if t.state = .moduleConnected then t
  else {t with state := .moduleConnected,name := moduleName,command := t.command.clear}

def disconnect (t : TwoWayModule) : TwoWayModule :=
  {t with state := .moduleDisconnected,command := t.command.clear}

end TwoWayModule

def twoWayCalls : Machine TwoWayModule Call Reply where
  step := fun t call =>
    match call with
    | .queueCommand cmd => ({t with command := {t.command with queue := enqueue t.command.queue cmd}},.returned)
    | .queueUpdate cmd => ({t with update := {t.update with queue := enqueue t.update.queue cmd}},.returned)
    | .getNextCommand => t.getNextCommand
    | .getNextUpdate => t.getNextUpdate
    | .connect moduleName => (t.connect moduleName,.returned)
    | .disconnect => (t.disconnect,.returned)

namespace Call

def asksCommand : Call → Bool
  | .getNextCommand => true
  | _ => false

def asksUpdate : Call → Bool
  | .getNextUpdate => true
  | _ => false

def leavesUpdates : Call → Bool
  | .queueUpdate _ | .getNextUpdate => false
  | _ => true

def leavesCommands : Call → Bool
  | .queueCommand _ | .getNextCommand => false
  | _ => true

end Call

def remembered (text : Text) : Option Entry := if present : text ≠ [] then some ⟨text,present⟩ else none

theorem remembered_eq_iff (text : Text) (entry : Entry) :
    remembered text = some entry ↔ entry.val = text := by
  have present := entry.property
  unfold remembered
  split
  next known => simp [Subtype.ext_iff,eq_comm]
  next forgotten =>
    simp only [reduceCtorEq,false_iff]
    intro same
    exact forgotten (same ▸ present)

/-- The two-way module with a module's queues, each direction remembering what it remembers. -/
def separate (m : FlotillaModule) : TwoWayModule :=
  ⟨m.state,m.name,⟨m.commandQueue,remembered m.lastUpdate⟩,⟨m.updateQueue,remembered m.lastUpdate⟩⟩

structure SameQueues (m : FlotillaModule) (t : TwoWayModule) : Prop where
  state : m.state = t.state
  name : m.name = t.name
  command : m.commandQueue = t.command.queue
  update : m.updateQueue = t.update.queue

/-- The entry that `get_next_command` looks at equals the remembered text exactly when it
equals the entry that the last `get_next_command` looked at. -/
def ownCommandMemory (s : FlotillaModule × TwoWayModule) (call : Call) : Prop :=
  call = .getNextCommand → ∀ taken ∈ takeCommand s.1.isVolatile s.1.commandQueue,
    (taken.1.val = s.1.lastUpdate ↔ s.2.command.last = some taken.1)

def ownUpdateMemory (s : FlotillaModule × TwoWayModule) (call : Call) : Prop :=
  call = .getNextUpdate → ∀ taken ∈ takeUpdate s.1.isVolatile s.1.updateQueue,
    (taken.1.val = s.1.lastUpdate ↔ s.2.update.last = some taken.1)

def ownMemory (s : FlotillaModule × TwoWayModule) (call : Call) : Prop :=
  ownCommandMemory s call ∧ ownUpdateMemory s call

instance (s : FlotillaModule × TwoWayModule) (call : Call) : Decidable (ownMemory s call) :=
  inferInstanceAs (Decidable ((_ → ∀ taken ∈ takeCommand _ _,(_ ↔ _)) ∧ (_ → ∀ taken ∈ takeUpdate _ _,(_ ↔ _))))

theorem sameQueues_volatile (m : FlotillaModule) (t : TwoWayModule) (same : SameQueues m t) :
    t.isVolatile = m.isVolatile := by
  rw [TwoWayModule.isVolatile,FlotillaModule.isVolatile,same.name]

theorem command_poll_taken (t : TwoWayModule) (command : Entry) (left : List Entry)
    (taken : takeCommand t.isVolatile t.command.queue = some (command,left)) :
    t.getNextCommand = ({t with command := ⟨left,some command⟩},
      .command (if t.command.last = some command then [] else command.val)) := by
  unfold TwoWayModule.getNextCommand
  by_cases same : t.command.last = some command <;> simp [Channel.poll,taken,same]

theorem update_poll_taken (t : TwoWayModule) (update : Entry) (left : List Entry)
    (taken : takeUpdate t.isVolatile t.update.queue = some (update,left)) :
    t.getNextUpdate = ({t with update := ⟨left,some update⟩},
      .update (decide (t.update.last ≠ some update)) update.val) := by
  unfold TwoWayModule.getNextUpdate
  by_cases same : t.update.last = some update <;> simp [Channel.poll,taken,same]

theorem command_poll_idle (t : TwoWayModule) (idle : t.command.queue = []) :
    t.getNextCommand = (t,.command []) := by
  simp [TwoWayModule.getNextCommand,Channel.poll,idle,(takeCommand_retains _).empty]

theorem update_poll_idle (t : TwoWayModule) (idle : t.update.queue = []) :
    t.getNextUpdate = (t,.update false []) := by
  simp [TwoWayModule.getNextUpdate,Channel.poll,idle,(takeUpdate_retains _).empty]

theorem sameQueues_step (m : FlotillaModule) (t : TwoWayModule) (call : Call) (same : SameQueues m t) :
    SameQueues (moduleCalls.step m call).1 (twoWayCalls.step t call).1 := by
  have speed := sameQueues_volatile m t same
  obtain ⟨state,name,command,update⟩ := same
  cases call with
  | queueCommand cmd => exact ⟨state,name,congrArg (enqueue · cmd) command,update⟩
  | queueUpdate cmd => exact ⟨state,name,command,congrArg (enqueue · cmd) update⟩
  | getNextCommand =>
    rcases m.getNextCommand_cases with ⟨idle,polled⟩ | ⟨front,left,taken,polled⟩
    · simp only [moduleCalls,twoWayCalls,polled,command_poll_idle t (command ▸ idle)]
      exact ⟨state,name,command,update⟩
    · have alike := command_poll_taken t front left (by rw [speed,← command]; exact taken)
      simp only [moduleCalls,twoWayCalls,polled,alike]
      exact ⟨state,name,rfl,update⟩
  | getNextUpdate =>
    rcases m.getNextUpdate_cases with ⟨idle,polled⟩ | ⟨front,left,taken,polled⟩
    · simp only [moduleCalls,twoWayCalls,polled,update_poll_idle t (update ▸ idle)]
      exact ⟨state,name,command,update⟩
    · have alike := update_poll_taken t front left (by rw [speed,← update]; exact taken)
      simp only [moduleCalls,twoWayCalls,polled,alike]
      exact ⟨state,name,command,rfl⟩
  | connect moduleName =>
    simp only [moduleCalls,twoWayCalls,FlotillaModule.connect,TwoWayModule.connect,← state]
    split
    · exact ⟨state,name,command,update⟩
    · exact ⟨rfl,rfl,rfl,update⟩
  | disconnect => exact ⟨rfl,name,rfl,update⟩

theorem command_answer_iff (m : FlotillaModule) (t : TwoWayModule) (same : SameQueues m t) :
    (moduleCalls.step m .getNextCommand).2 = (twoWayCalls.step t .getNextCommand).2 ↔
      ownCommandMemory (m,t) .getNextCommand := by
  have speed := sameQueues_volatile m t same
  rcases m.getNextCommand_cases with ⟨idle,polled⟩ | ⟨front,left,taken,polled⟩
  · have nothing : takeCommand m.isVolatile m.commandQueue = none := by
      rw [idle,(takeCommand_retains _).empty]
    simp [moduleCalls,twoWayCalls,polled,command_poll_idle t (same.command ▸ idle),ownCommandMemory,nothing]
  · have alike := command_poll_taken t front left (by rw [speed,← same.command]; exact taken)
    have present := front.property
    simp only [moduleCalls,twoWayCalls,polled,alike,ownCommandMemory,taken,
      Reply.command.injEq,forall_const]
    by_cases code : front.val = m.lastUpdate <;> by_cases own : t.command.last = some front <;>
      simp_all [eq_comm]

theorem update_answer_iff (m : FlotillaModule) (t : TwoWayModule) (same : SameQueues m t) :
    (moduleCalls.step m .getNextUpdate).2 = (twoWayCalls.step t .getNextUpdate).2 ↔
      ownUpdateMemory (m,t) .getNextUpdate := by
  have speed := sameQueues_volatile m t same
  rcases m.getNextUpdate_cases with ⟨idle,polled⟩ | ⟨front,left,taken,polled⟩
  · have nothing : takeUpdate m.isVolatile m.updateQueue = none := by
      rw [idle,(takeUpdate_retains _).empty]
    simp [moduleCalls,twoWayCalls,polled,update_poll_idle t (same.update ▸ idle),ownUpdateMemory,nothing]
  · have alike := update_poll_taken t front left (by rw [speed,← same.update]; exact taken)
    simp only [moduleCalls,twoWayCalls,polled,alike,ownUpdateMemory,taken,
      Reply.update.injEq,forall_const]
    by_cases code : front.val = m.lastUpdate <;> by_cases own : t.update.last = some front <;>
      simp_all

theorem observed_commands_iff (m : FlotillaModule) (t : TwoWayModule) (same : SameQueues m t)
    (calls : List Call) :
    moduleCalls.observed Call.asksCommand m calls = twoWayCalls.observed Call.asksCommand t calls ↔
      (moduleCalls.paired twoWayCalls).Along ownCommandMemory (m,t) calls := by
  refine Machine.observed_eq_iff _ _ _ SameQueues _ sameQueues_step ?_ ?_ m t same calls
  · intro m t call same asks
    cases call with
    | getNextCommand => exact command_answer_iff m t same
    | _ => simp [Call.asksCommand] at asks
  · intro state call unseen polled
    simp [polled,Call.asksCommand] at unseen

theorem observed_updates_iff (m : FlotillaModule) (t : TwoWayModule) (same : SameQueues m t)
    (calls : List Call) :
    moduleCalls.observed Call.asksUpdate m calls = twoWayCalls.observed Call.asksUpdate t calls ↔
      (moduleCalls.paired twoWayCalls).Along ownUpdateMemory (m,t) calls := by
  refine Machine.observed_eq_iff _ _ _ SameQueues _ sameQueues_step ?_ ?_ m t same calls
  · intro m t call same asks
    cases call with
    | getNextUpdate => exact update_answer_iff m t same
    | _ => simp [Call.asksUpdate] at asks
  · intro state call unseen polled
    simp [polled,Call.asksUpdate] at unseen

structure SameCommandSide (t : TwoWayModule) (m : FlotillaModule) : Prop where
  state : t.state = m.state
  name : t.name = m.name
  queue : t.command.queue = m.commandQueue
  memory : t.command.last = remembered m.lastUpdate

structure SameUpdateSide (t : TwoWayModule) (m : FlotillaModule) : Prop where
  state : t.state = m.state
  name : t.name = m.name
  queue : t.update.queue = m.updateQueue
  memory : t.update.last = remembered m.lastUpdate

theorem commandSide_step (t : TwoWayModule) (m : FlotillaModule) (call : Call)
    (same : SameCommandSide t m) (kept : call.leavesUpdates = true) :
    SameCommandSide (twoWayCalls.step t call).1 (moduleCalls.step m call).1 ∧
      (call.asksCommand = true → (twoWayCalls.step t call).2 = (moduleCalls.step m call).2) := by
  obtain ⟨state,name,queue,memory⟩ := same
  cases call with
  | queueCommand cmd =>
    exact ⟨⟨state,name,congrArg (enqueue · cmd) queue,memory⟩,by simp [Call.asksCommand]⟩
  | queueUpdate cmd => simp [Call.leavesUpdates] at kept
  | getNextUpdate => simp [Call.leavesUpdates] at kept
  | getNextCommand =>
    rcases m.getNextCommand_cases with ⟨idle,polled⟩ | ⟨front,left,taken,polled⟩
    · simp only [moduleCalls,twoWayCalls,polled,command_poll_idle t (queue ▸ idle)]
      exact ⟨⟨state,name,queue,memory⟩,fun _ => trivial⟩
    · have looked : takeCommand t.isVolatile t.command.queue = some (front,left) := by
        rw [TwoWayModule.isVolatile,name,queue]
        exact taken
      simp only [moduleCalls,twoWayCalls,polled,command_poll_taken t front left looked,memory,
        remembered_eq_iff]
      exact ⟨⟨state,name,rfl,((remembered_eq_iff _ _).mpr rfl).symm⟩,fun _ => trivial⟩
  | connect moduleName =>
    simp only [moduleCalls,twoWayCalls,FlotillaModule.connect,TwoWayModule.connect,state]
    split
    · exact ⟨⟨state,name,queue,memory⟩,by simp [Call.asksCommand]⟩
    · exact ⟨⟨rfl,rfl,rfl,memory⟩,by simp [Call.asksCommand]⟩
  | disconnect => exact ⟨⟨rfl,name,rfl,memory⟩,by simp [Call.asksCommand]⟩

theorem updateSide_step (t : TwoWayModule) (m : FlotillaModule) (call : Call)
    (same : SameUpdateSide t m) (kept : call.leavesCommands = true) :
    SameUpdateSide (twoWayCalls.step t call).1 (moduleCalls.step m call).1 ∧
      (call.asksUpdate = true → (twoWayCalls.step t call).2 = (moduleCalls.step m call).2) := by
  obtain ⟨state,name,queue,memory⟩ := same
  cases call with
  | queueUpdate cmd =>
    exact ⟨⟨state,name,congrArg (enqueue · cmd) queue,memory⟩,by simp [Call.asksUpdate]⟩
  | queueCommand cmd => simp [Call.leavesCommands] at kept
  | getNextCommand => simp [Call.leavesCommands] at kept
  | getNextUpdate =>
    rcases m.getNextUpdate_cases with ⟨idle,polled⟩ | ⟨front,left,taken,polled⟩
    · simp only [moduleCalls,twoWayCalls,polled,update_poll_idle t (queue ▸ idle)]
      exact ⟨⟨state,name,queue,memory⟩,fun _ => trivial⟩
    · have looked : takeUpdate t.isVolatile t.update.queue = some (front,left) := by
        rw [TwoWayModule.isVolatile,name,queue]
        exact taken
      simp only [moduleCalls,twoWayCalls,polled,update_poll_taken t front left looked,memory,ne_eq,
        remembered_eq_iff]
      exact ⟨⟨state,name,rfl,((remembered_eq_iff _ _).mpr rfl).symm⟩,fun _ => trivial⟩
  | connect moduleName =>
    simp only [moduleCalls,twoWayCalls,FlotillaModule.connect,TwoWayModule.connect,state]
    split
    · exact ⟨⟨state,name,queue,memory⟩,by simp [Call.asksUpdate]⟩
    · exact ⟨⟨rfl,rfl,queue,memory⟩,by simp [Call.asksUpdate]⟩
  | disconnect => exact ⟨⟨rfl,name,queue,memory⟩,by simp [Call.asksUpdate]⟩

theorem twoWay_commands (m : FlotillaModule) (calls : List Call) :
    twoWayCalls.observed Call.asksCommand (separate m) calls =
      moduleCalls.observed Call.asksCommand m (calls.filter Call.leavesUpdates) := by
  refine Machine.observed_filter _ _ _ _ SameCommandSide ?_ commandSide_step ?_ _ _ ⟨rfl,rfl,rfl,rfl⟩ calls
  · intro call asks
    cases call with
    | getNextCommand => rfl
    | _ => simp [Call.asksCommand] at asks
  · intro t m call ⟨state,name,queue,memory⟩ deleted
    cases call with
    | queueUpdate cmd => exact ⟨state,name,queue,memory⟩
    | getNextUpdate => exact ⟨state,name,queue,memory⟩
    | _ => simp [Call.leavesUpdates] at deleted

theorem twoWay_updates (m : FlotillaModule) (calls : List Call) :
    twoWayCalls.observed Call.asksUpdate (separate m) calls =
      moduleCalls.observed Call.asksUpdate m (calls.filter Call.leavesCommands) := by
  refine Machine.observed_filter _ _ _ _ SameUpdateSide ?_ updateSide_step ?_ _ _ ⟨rfl,rfl,rfl,rfl⟩ calls
  · intro call asks
    cases call with
    | getNextUpdate => rfl
    | _ => simp [Call.asksUpdate] at asks
  · intro t m call ⟨state,name,queue,memory⟩ deleted
    cases call with
    | queueCommand cmd => exact ⟨state,name,queue,memory⟩
    | getNextCommand => exact ⟨state,name,queue,memory⟩
    | _ => simp [Call.leavesCommands] at deleted

def Independent (m : FlotillaModule) (calls : List Call) : Prop :=
  moduleCalls.observed Call.asksCommand m calls =
      moduleCalls.observed Call.asksCommand m (calls.filter Call.leavesUpdates) ∧
    moduleCalls.observed Call.asksUpdate m calls =
      moduleCalls.observed Call.asksUpdate m (calls.filter Call.leavesCommands)

instance (m : FlotillaModule) (calls : List Call) : Decidable (Independent m calls) :=
  inferInstanceAs (Decidable (_ ∧ _))

/-- The directions are independent in a run exactly when each repeat test of the run
comes out as it would against the memory of the polling direction alone. -/
theorem independent_iff (m : FlotillaModule) (calls : List Call) :
    Independent m calls ↔ (moduleCalls.paired twoWayCalls).Along ownMemory (m,separate m) calls := by
  have start : SameQueues m (separate m) := ⟨rfl,rfl,rfl,rfl⟩
  unfold Independent ownMemory
  rw [Machine.along_and,← observed_commands_iff m _ start,← observed_updates_iff m _ start,
    twoWay_commands,twoWay_updates]

theorem independent_fails_echo :
    ¬ ∀ (m : FlotillaModule) (calls : List Call), Independent m calls := by
  intro independent
  exact absurd (independent .new [.connect "dial".toList,.queueCommand "7".toList,.getNextCommand,
    .queueUpdate "7".toList,.getNextUpdate]) (by decide)

def reports : Call × Reply → Bool
  | (_,.command text) => text ≠ []
  | (_,.update fresh _) => fresh
  | _ => false

def owed (t : TwoWayModule) : Nat := t.command.owed + t.update.owed

theorem poll_pays (m : FlotillaModule) (t : TwoWayModule) (same : SameQueues m t) (call : Call)
    (polls : call.asksCommand = true ∨ call.asksUpdate = true) (own : ownMemory (m,t) call) :
    (reports (call,(moduleCalls.step m call).2)).toNat + owed (twoWayCalls.step t call).1 ≤ owed t := by
  cases call with
  | getNextCommand =>
    rw [(command_answer_iff m t same).mpr own.1]
    have payment := Channel.poll_owed _ (takeCommand_retains t.isVolatile) t.command
    have reported : reports (.getNextCommand,(twoWayCalls.step t .getNextCommand).2) =
        (t.command.poll (takeCommand t.isVolatile)).2.isSome := by
      cases answer : (t.command.poll (takeCommand t.isVolatile)).2 with
      | none => simp [twoWayCalls,TwoWayModule.getNextCommand,answer,reports]
      | some entry => simpa [twoWayCalls,TwoWayModule.getNextCommand,answer,reports] using entry.property
    rw [reported]
    simp only [owed,twoWayCalls,TwoWayModule.getNextCommand]
    omega
  | getNextUpdate =>
    rw [(update_answer_iff m t same).mpr own.2]
    have payment := Channel.poll_owed _ (takeUpdate_retains t.isVolatile) t.update
    simp only [owed,twoWayCalls,TwoWayModule.getNextUpdate,reports]
    omega
  | _ => simp [Call.asksCommand,Call.asksUpdate] at polls

/-- Polls in any number and order, after any history, report at most as many entries as
were waiting, provided each poll of theirs tests against the memory of its own direction. -/
theorem polls_bounded (history polls : List Call)
    (polling : ∀ call ∈ polls, call.asksCommand = true ∨ call.asksUpdate = true)
    (own : (moduleCalls.paired twoWayCalls).Along ownMemory
      ((moduleCalls.paired twoWayCalls).run (.new,separate .new) history) polls) :
    (moduleCalls.answers (moduleCalls.run .new history) polls).countP reports ≤
      (moduleCalls.run .new history).commandQueue.length +
        (moduleCalls.run .new history).updateQueue.length := by
  have start : SameQueues .new (separate .new) := ⟨rfl,rfl,rfl,rfl⟩
  have reached := Machine.run_invariant (moduleCalls.paired twoWayCalls) (fun s => SameQueues s.1 s.2)
    (fun s call => sameQueues_step s.1 s.2 call) (.new,separate .new) start history
  have along := (Machine.along_and _ _ _ _ _).mpr ⟨own,Machine.along_of_forall _ _ _ polls polling⟩
  have bound := Machine.countP_le_potential _ (fun s => SameQueues s.1 s.2) _
    (fun pair => reports (pair.1,pair.2.1)) (fun s => owed s.2) ?_ _ reached polls along
  · rw [Machine.run_paired] at bound reached
    rw [Machine.countP_paired] at bound
    have commands := Channel.owed_le (twoWayCalls.run (separate .new) history).command
    have updates := Channel.owed_le (twoWayCalls.run (separate .new) history).update
    have queues : SameQueues (moduleCalls.run .new history) (twoWayCalls.run (separate .new) history) := reached
    rw [queues.command,queues.update]
    simp only [owed] at bound
    omega
  · intro s call same met
    exact ⟨sameQueues_step s.1 s.2 call same,poll_pays s.1 s.2 same call met.2 met.1⟩

theorem polls_bounded_lone :
    (moduleCalls.answers (moduleCalls.run .new [.connect "dial".toList,.queueCommand "7".toList])
        [.getNextCommand,.getNextUpdate,.getNextCommand]).countP reports ≤
      (moduleCalls.run .new [.connect "dial".toList,.queueCommand "7".toList]).commandQueue.length +
        (moduleCalls.run .new [.connect "dial".toList,.queueCommand "7".toList]).updateQueue.length :=
  polls_bounded [.connect "dial".toList,.queueCommand "7".toList]
    [.getNextCommand,.getNextUpdate,.getNextCommand] (by decide) (by decide)

theorem polls_unbounded :
    ¬ ∀ history polls : List Call, (moduleCalls.run .new history).state = .moduleConnected →
      (∀ call ∈ polls, call.asksCommand = true ∨ call.asksUpdate = true) →
      (moduleCalls.answers (moduleCalls.run .new history) polls).countP reports ≤
        (moduleCalls.run .new history).commandQueue.length +
          (moduleCalls.run .new history).updateQueue.length := by
  intro bounded
  exact absurd (bounded [.connect "dial".toList,.queueCommand "1".toList,.queueUpdate "2".toList]
    [.getNextCommand,.getNextUpdate,.getNextCommand] (by decide) (by decide)) (by decide)

end FlotillaDaemon
