import FlotillaDaemon.Changes
import FlotillaDaemon.ModuleValues
import FlotillaDaemon.UpdateRouting

/-! One direction of a module while the other one is silent. A volatile module gives out what it
takes in like a queue without repetitions. For the clients, any other module is a cell that tells
its latest value when it has changed; for the dock it is not, since the front of the update queue
is taken before the queue is flushed. -/
namespace FlotillaDaemon
open Cpp Retained

namespace Call

def commandsOnly : Call → Bool
  | .queueCommand _ | .getNextCommand => true
  | _ => false

def updatesOnly : Call → Bool
  | .queueUpdate _ | .getNextUpdate => true
  | _ => false

def reported : Call → Option Text
  | .queueCommand cmd => if cmd = [] then none else some cmd
  | _ => none

def commandAccess : Call → Option (Access Text)
  | .queueCommand cmd => if cmd = [] then none else some (.put cmd)
  | .getNextCommand => some .poll
  | _ => none

def updateAccess : Call → Option (Access Text)
  | .queueUpdate cmd => if cmd = [] then none else some (.put cmd)
  | .getNextUpdate => some .poll
  | _ => none

end Call

def commandOut : Call × Reply → Option Text
  | (_,.command text) => if text = [] then none else some text
  | _ => none

namespace FlotillaModule

def reports (calls : List Call) : List Text := calls.filterMap Call.reported

/-- The results of the polls of the commands that are not empty. -/
def results (m : FlotillaModule) (calls : List Call) : List Text := (moduleCalls.answers m calls).filterMap commandOut

def commandStore (m : FlotillaModule) : List Text × Text := (m.commandQueue.map Subtype.val,m.lastUpdate)

def updateStore (m : FlotillaModule) : List Text × Text := (m.updateQueue.map Subtype.val,m.lastUpdate)

/-- The latest command and what was told last. -/
def commandCell (m : FlotillaModule) : Option Text × Text := (m.commandQueue.getLast?.map Subtype.val,m.lastUpdate)

theorem enqueue_texts (queue : List Entry) (cmd : Text) (present : cmd ≠ []) :
    (enqueue queue cmd).map Subtype.val = queue.map Subtype.val ++ [cmd] := by
  rw [enqueue_present _ _ present,List.map_append]
  rfl

theorem commandAccess_entries (calls : List Call) :
    (calls.filterMap Call.commandAccess).filterMap Access.entry? = reports calls := by
  rw [List.filterMap_filterMap,reports]
  apply List.filterMap_congr
  intro call _
  cases call with
  | queueCommand cmd => by_cases empty : cmd = [] <;> simp [Call.commandAccess,Call.reported,Access.entry?,empty]
  | _ => rfl

theorem updateAccess_entries (calls : List Call) :
    (calls.filterMap Call.updateAccess).filterMap Access.entry? = puts calls := by
  rw [List.filterMap_filterMap,puts]
  apply List.filterMap_congr
  intro call _
  cases call with
  | queueUpdate cmd => by_cases empty : cmd = [] <;> simp [Call.updateAccess,Call.put,Access.entry?,empty]
  | _ => rfl

theorem getNextCommand_volatile (m : FlotillaModule) (isVolatile : m.isVolatile = true) :
    fifo.step m.commandStore .poll = (m.getNextCommand.1.commandStore,commandOut (.getNextCommand,.command m.getNextCommand.2)) := by
  rcases m.getNextCommand_cases with ⟨empty,polled⟩ | ⟨command,left,taken,polled⟩
  · rw [polled,commandStore,empty]
    rfl
  · rw [isVolatile,takeCommand_volatile] at taken
    obtain ⟨rest,queue,left⟩ := takeUpdate_some _ _ _ _ taken
    rw [polled,commandStore,commandStore,queue,left]
    dsimp only
    rw [if_pos rfl,popKeeping_map]
    have present := command.property
    by_cases same : command.val = m.lastUpdate
    · simp [fifo,look,newsOf,commandOut,same]
    · simp [fifo,look,newsOf,commandOut,same,present]

theorem getNextCommand_name (m : FlotillaModule) : m.getNextCommand.1.name = m.name := by
  rcases m.getNextCommand_cases with ⟨_,polled⟩ | ⟨_,_,_,polled⟩ <;> rw [polled]

theorem getNextUpdate_name (m : FlotillaModule) : (m.getNextUpdate []).1.name = m.name := by
  rcases m.getNextUpdate_cases with ⟨_,polled⟩ | ⟨_,_,_,polled⟩ <;> rw [polled]

theorem commands_volatile (m : FlotillaModule) (call : Call) (only : call.commandsOnly = true) :
    (moduleCalls.step m call).1.isVolatile = m.isVolatile := by
  cases call with
  | queueCommand cmd => rfl
  | getNextCommand => exact congrArg (· == _) m.getNextCommand_name
  | queueUpdate _ | getNextUpdate | connect _ | disconnect => contradiction

theorem updates_volatile (m : FlotillaModule) (call : Call) (only : call.updatesOnly = true) :
    (moduleCalls.step m call).1.isVolatile = m.isVolatile := by
  cases call with
  | queueUpdate cmd => rfl
  | getNextUpdate => exact congrArg (· == _) m.getNextUpdate_name
  | queueCommand _ | getNextCommand | connect _ | disconnect => contradiction

section Commands
variable {T : Type} (store : Machine T (Access Text) (Option Text)) (view : FlotillaModule → T) (kind : Bool)

/-- A module under commands alone is a store when putting and polling agree with it. -/
theorem commands_simulate
    (puts : ∀ m cmd, cmd ≠ [] → store.step (view m) (.put cmd) = (view (m.queueCommand cmd),none))
    (polls : ∀ m : FlotillaModule, m.isVolatile = kind → store.step (view m) .poll =
      (view m.getNextCommand.1,commandOut (.getNextCommand,.command m.getNextCommand.2))) :
    Machine.Simulates moduleCalls store view Call.commandAccess commandOut (fun m => m.isVolatile = kind)
      (fun call => call.commandsOnly = true) where
  kept := fun m call same only => (m.commands_volatile call only).trans same
  moved := by
    intro m call access same only read
    cases call with
    | getNextCommand =>
      rw [← Option.some.inj read]
      exact polls m same
    | queueCommand cmd =>
      by_cases empty : cmd = []
      · simp [Call.commandAccess,empty] at read
      · rw [Call.commandAccess,if_neg empty] at read
        rw [← Option.some.inj read]
        exact puts m cmd empty
    | queueUpdate _ | getNextUpdate | connect _ | disconnect => contradiction
  still := by
    intro m call same only read
    cases call with
    | getNextCommand => contradiction
    | queueCommand cmd =>
      by_cases empty : cmd = []
      · rw [empty]
        exact ⟨rfl,rfl⟩
      · simp [Call.commandAccess,empty] at read
    | queueUpdate _ | getNextUpdate | connect _ | disconnect => contradiction

end Commands

theorem volatile_commands : Machine.Simulates moduleCalls fifo commandStore Call.commandAccess commandOut
    (fun m => m.isVolatile = true) (fun call => call.commandsOnly = true) := by
  apply commands_simulate
  · intro m cmd present
    exact congrArg (fun queue => ((queue,m.lastUpdate),none)) (enqueue_texts m.commandQueue cmd present).symm
  · exact fun m isVolatile => m.getNextCommand_volatile isVolatile

theorem getNextCommand_steady (m : FlotillaModule) (steady : m.isVolatile = false) :
    register.step m.commandCell .poll = (m.getNextCommand.1.commandCell,commandOut (.getNextCommand,.command m.getNextCommand.2)) := by
  rcases m.getNextCommand_cases with ⟨empty,polled⟩ | ⟨command,left,taken,polled⟩
  · rw [polled,commandCell,empty]
    rfl
  · obtain ⟨kept,last⟩ := takeCommand_last _ _ _ _ taken
    rw [polled,commandCell,commandCell,kept,last steady]
    have present := command.property
    by_cases same : command.val = m.lastUpdate
    · simp [register,newsOf,commandOut,same]
    · simp [register,newsOf,commandOut,same,present]

theorem steady_commands : Machine.Simulates moduleCalls register commandCell Call.commandAccess commandOut
    (fun m => m.isVolatile = false) (fun call => call.commandsOnly = true) := by
  apply commands_simulate
  · intro m cmd present
    rw [commandCell,commandCell,queueCommand,enqueue_present _ _ present,List.getLast?_concat]
    rfl
  · exact fun m steady => m.getNextCommand_steady steady

theorem getNextUpdate_look (m : FlotillaModule) :
    (m.getNextUpdate []).1.updateStore = lookFlushing m.isVolatile m.updateStore := by
  rcases m.getNextUpdate_cases with ⟨empty,polled⟩ | ⟨update,left,taken,polled⟩
  · rw [polled,updateStore,empty]
    rfl
  · obtain ⟨rest,queue,left⟩ := takeUpdate_some _ _ _ _ taken
    rw [polled,updateStore,updateStore,queue,left]
    cases m.isVolatile with
    | true => exact Prod.ext (popKeeping_map _ _) rfl
    | false => exact Prod.ext ((keepLast_map _ _).trans (congrArg keepLast (popKeeping_map _ _))) rfl

theorem getNextUpdate_given (m : FlotillaModule) :
    givenOut (.getNextUpdate,.update (m.getNextUpdate []).2.1 (m.getNextUpdate []).2.2) =
      m.updateStore.1.head?.bind (newsOf m.updateStore.2) := by
  rcases m.getNextUpdate_cases with ⟨empty,polled⟩ | ⟨update,left,taken,polled⟩
  · rw [polled,updateStore,empty]
    rfl
  · obtain ⟨rest,queue,_⟩ := takeUpdate_some _ _ _ _ taken
    rw [polled,updateStore,queue]
    by_cases same : update.val = m.lastUpdate <;> simp [newsOf,givenOut,same]

theorem getNextUpdate_volatile (m : FlotillaModule) (isVolatile : m.isVolatile = true) :
    fifo.step m.updateStore .poll = ((m.getNextUpdate []).1.updateStore,
      givenOut (.getNextUpdate,.update (m.getNextUpdate []).2.1 (m.getNextUpdate []).2.2)) := by
  rw [m.getNextUpdate_look,m.getNextUpdate_given,isVolatile,lookFlushing_all]
  rfl

theorem volatile_updates : Machine.Simulates moduleCalls fifo updateStore Call.updateAccess givenOut
    (fun m => m.isVolatile = true) (fun call => call.updatesOnly = true) where
  kept := fun m call isVolatile only => (m.updates_volatile call only).trans isVolatile
  moved := by
    intro m call access isVolatile only read
    cases call with
    | getNextUpdate =>
      rw [← Option.some.inj read]
      exact m.getNextUpdate_volatile isVolatile
    | queueUpdate cmd =>
      by_cases empty : cmd = []
      · simp [Call.updateAccess,empty] at read
      · rw [Call.updateAccess,if_neg empty] at read
        rw [← Option.some.inj read]
        exact congrArg (fun queue => ((queue,m.lastUpdate),none)) (enqueue_texts m.updateQueue cmd empty).symm
    | queueCommand _ | getNextCommand | connect _ | disconnect => contradiction
  still := by
    intro m call isVolatile only read
    cases call with
    | getNextUpdate => contradiction
    | queueUpdate cmd =>
      by_cases empty : cmd = []
      · rw [empty]
        exact ⟨rfl,rfl⟩
      · simp [Call.updateAccess,empty] at read
    | queueCommand _ | getNextCommand | connect _ | disconnect => contradiction

/-- In each direction what a module gives out is at all times the beginning of what it was given,
without repetitions, and all of it after as many polls as entries wait. -/
structure Lossless (m : FlotillaModule) : Prop where
  commands : ∀ calls, (∀ call ∈ calls, call.commandsOnly = true) →
    m.results calls <+: changes m.lastUpdate (reports calls) ∧
      ∀ polls, (moduleCalls.run m calls).commandQueue.length ≤ polls →
        m.results (calls ++ List.replicate polls .getNextCommand) = changes m.lastUpdate (reports calls)
  updates : ∀ calls, (∀ call ∈ calls, call.updatesOnly = true) →
    m.gives calls <+: changes m.lastUpdate (puts calls) ∧
      ∀ polls, (moduleCalls.run m calls).updateQueue.length ≤ polls →
        m.gives (calls ++ List.replicate polls .getNextUpdate) = changes m.lastUpdate (puts calls)

def lastReported (m : FlotillaModule) (calls : List Call) : Option Text :=
  (m.commandQueue.map Subtype.val ++ reports calls).getLast?

/-- A poll after these calls gives the latest text or nothing, no two results in a row are equal,
and after a poll with something waiting the last result is the latest text. -/
structure LatestValue (m : FlotillaModule) (calls : List Call) : Prop where
  latest : (moduleCalls.run m calls).getNextCommand.2 ≠ [] →
    m.lastReported calls = some (moduleCalls.run m calls).getNextCommand.2
  apart : (m.results calls).IsChain (· ≠ ·)
  settled : (moduleCalls.run m calls).commandQueue ≠ [] →
    m.lastReported calls = some ((m.results (calls ++ [.getNextCommand])).getLastD m.lastUpdate)

/-- The update that was taken in last. -/
def noteUpdate (_ : FlotillaModule) (call : Call) (latest : Option Text) : Option Text := call.put.or latest

/-- What a poll for an update gives a module that is not volatile is the latest one. -/
def SendsLatest (s : FlotillaModule × Option Text) (call : Call) : Prop :=
  call = .getNextUpdate → s.1.isVolatile = false → (s.1.getNextUpdate []).2.1 = true →
    s.2 = some (s.1.getNextUpdate []).2.2

/-- The front of the update queue has been sent last or is the only one that matters. -/
def FrontIsLatest (m : FlotillaModule) (call : Call) : Prop :=
  call = .getNextUpdate → m.isVolatile = false → ∀ front ∈ m.updateQueue.head?,
    front.val = m.lastUpdate ∨ m.updateQueue.getLast? = some front

instance (s : FlotillaModule × Option Text) (call : Call) : Decidable (SendsLatest s call) :=
  inferInstanceAs (Decidable (_ → _ → _ → _))

instance (m : FlotillaModule) (call : Call) : Decidable (m.FrontIsLatest call) :=
  inferInstanceAs (Decidable (_ → _ → ∀ front ∈ m.updateQueue.head?, _ ∨ _))

theorem takeUpdate_last (isVolatile : Bool) (queue left : List Entry) (update : Entry)
    (taken : takeUpdate isVolatile queue = some (update,left)) :
    queue.head? = some update ∧ left.getLast? = queue.getLast? := by
  obtain ⟨rest,rfl,rfl⟩ := takeUpdate_some _ _ _ _ taken
  refine ⟨rfl,?_⟩
  cases isVolatile with
  | true => exact popKeeping_last _
  | false => exact (keepLast_last _).trans (popKeeping_last _)

/-- The last entry of the update queue is the update taken in last, whatever happens. -/
def UpdateNoted (s : FlotillaModule × Option Text) : Prop := s.1.updateQueue.getLast?.map Subtype.val = s.2

theorem call_updateNoted (s : FlotillaModule × Option Text) (call : Call) (noted : UpdateNoted s) :
    UpdateNoted ((moduleCalls.tracked noteUpdate).step s call).1 := by
  obtain ⟨m,latest⟩ := s
  have kept := m.call_updateQueue call
  change (moduleCalls.step m call).1.updateQueue.getLast?.map Subtype.val = call.put.or latest
  rw [kept]
  cases call with
  | getNextUpdate =>
    change (m.getNextUpdate []).1.updateQueue.getLast?.map Subtype.val = latest
    rcases m.getNextUpdate_cases with ⟨_,polled⟩ | ⟨update,left,taken,polled⟩
    · rw [polled]
      exact noted
    · rw [polled,(takeUpdate_last _ _ _ _ taken).2]
      exact noted
  | queueUpdate cmd =>
    change (enqueue m.updateQueue cmd).getLast?.map Subtype.val = (if cmd = [] then none else some cmd).or latest
    by_cases empty : cmd = []
    · rw [empty,enqueue_empty,if_pos rfl]
      exact noted
    · rw [enqueue_present _ _ empty,if_neg empty,List.getLast?_concat]
      rfl
  | queueCommand _ | getNextCommand | connect _ | disconnect => exact noted

theorem sendsLatest_iff (s : FlotillaModule × Option Text) (call : Call) (noted : UpdateNoted s) :
    SendsLatest s call ↔ s.1.FrontIsLatest call := by
  obtain ⟨m,latest⟩ := s
  have waiting : m.updateQueue.getLast?.map Subtype.val = latest := noted
  apply imp_congr_right
  intro polled
  apply imp_congr_right
  intro steady
  dsimp only
  rcases m.getNextUpdate_cases with ⟨empty,given⟩ | ⟨update,left,taken,given⟩
  · rw [given,empty]
    simp
  · have head := (takeUpdate_last _ _ _ _ taken).1
    have latestIs : latest = some update.val ↔ m.updateQueue.getLast? = some update := by
      rw [← waiting,Option.map_eq_some_iff]
      constructor
      · intro ⟨last,found,same⟩
        rw [found,Subtype.ext same]
      · exact fun found => ⟨update,found,rfl⟩
    rw [given,head,decide_eq_true_iff,latestIs]
    simp only [Option.mem_some_iff,forall_eq',Classical.or_iff_not_imp_left]

end FlotillaModule

open FlotillaModule

/-- Volatile modules lose nothing, in either direction. -/
theorem volatile_loses_nothing (m : FlotillaModule) (touch : m.name = "touch".toList) (commands : m.commandQueue = [])
    (updates : m.updateQueue = []) : m.Lossless := by
  have isVolatile : m.isVolatile = true := by
    rw [FlotillaModule.isVolatile,touch,beq_self_eq_true]
  refine ⟨?_,?_⟩
  · intro calls only
    have empty : m.commandStore = ([],m.lastUpdate) := by rw [commandStore,commands,List.map_nil]
    obtain ⟨started,settled⟩ := fifo_stream _ _ _ _ _ _ volatile_commands m isVolatile _ empty calls only
    rw [commandAccess_entries] at started settled
    refine ⟨started,fun polls enough => settled _ polls rfl rfl ?_⟩
    rw [commandStore,List.length_map]
    exact enough
  · intro calls only
    have empty : m.updateStore = ([],m.lastUpdate) := by rw [updateStore,updates,List.map_nil]
    obtain ⟨started,settled⟩ := fifo_stream _ _ _ _ _ _ volatile_updates m isVolatile _ empty calls only
    rw [updateAccess_entries] at started settled
    refine ⟨started,fun polls enough => settled _ polls rfl rfl ?_⟩
    rw [updateStore,List.length_map]
    exact enough

theorem volatile_loses_nothing_touch : FlotillaModule.Lossless ⟨.moduleConnected,"touch".toList,"5".toList,[],[]⟩ :=
  volatile_loses_nothing _ rfl rfl rfl

/-- For the clients a module that is not volatile is a register of its latest value. -/
theorem latest_value_register (m : FlotillaModule) (steady : m.name ≠ "touch".toList) (calls : List Call)
    (only : ∀ call ∈ calls, call.commandsOnly = true) : m.LatestValue calls := by
  have kind : m.isVolatile = false := beq_eq_false_iff_ne.mpr steady
  have runs (calls : List Call) (only : ∀ call ∈ calls, call.commandsOnly = true) :
      (moduleCalls.run m calls).isVolatile = false ∧
        Tells m.commandCell.1 m.lastUpdate (calls.filterMap Call.commandAccess) (moduleCalls.run m calls).commandCell
          (m.results calls) := by
    obtain ⟨kept,ran,showed⟩ := Machine.run_simulates _ _ _ _ _ _ _ steady_commands m kind calls only
    refine ⟨kept,?_⟩
    rw [← ran,results,← showed]
    exact register_tells _ _ _
  have latestIs : (moduleCalls.run m calls).commandCell.1 = m.lastReported calls := by
    rw [(runs calls only).2.latest,commandAccess_entries,lastReported,List.getLast?_append,List.getLast?_append,
      commandCell,List.getLast?_map]
    cases m.commandQueue.getLast? <;> rfl
  have polled := getNextCommand_steady _ (runs calls only).1
  refine ⟨?_,(runs calls only).2.apart.tail,?_⟩
  · intro given
    have shown := congrArg Prod.snd polled
    rw [commandOut,if_neg given] at shown
    obtain ⟨value,held,fresh⟩ := Option.bind_eq_some_iff.mp shown
    unfold newsOf at fresh
    split at fresh
    · contradiction
    · rw [← latestIs,held,fresh]
  · intro waiting
    have after := (runs (calls ++ [.getNextCommand]) (by
      intro call member
      rcases List.mem_append.mp member with earlier | last
      · exact only call earlier
      · rw [List.mem_singleton.mp last]
        rfl)).2.known
    rw [Machine.run_append] at after
    rw [← after,← latestIs]
    have known := congrArg (fun moved => moved.1.2) polled
    have held : (moduleCalls.run m calls).commandCell.1 =
        some ((moduleCalls.run m calls).commandQueue.getLast waiting).val := by
      rw [commandCell,List.getLast?_eq_some_getLast waiting]
      rfl
    change (moduleCalls.run m calls).commandCell.1.getD _ = (moduleCalls.run m calls).getNextCommand.1.commandCell.2
      at known
    rw [held,Option.getD_some] at known
    rw [held]
    exact congrArg some known

theorem latest_value_register_dial :
    FlotillaModule.LatestValue ⟨.moduleConnected,"dial".toList,[],[],[]⟩
      [.queueCommand "1".toList,.queueCommand "2".toList,.getNextCommand,.queueCommand "2".toList] :=
  latest_value_register _ (by decide) _ (by decide)

/-- Polls of a module that is not volatile give its latest update exactly when each finds at the
front of the queue what was sent last or what was taken in last. -/
theorem superseded_updates_iff (calls : List Call) :
    (moduleCalls.tracked noteUpdate).Along SendsLatest (.new,none) calls ↔ moduleCalls.Along FrontIsLatest .new calls := by
  rw [← moduleCalls.along_tracked noteUpdate FrontIsLatest .new none]
  exact (moduleCalls.tracked noteUpdate).along_congr UpdateNoted _ _ (fun s call noted _ => call_updateNoted s call noted)
    sendsLatest_iff (.new,none) rfl calls

theorem superseded_update_sent :
    ¬ ∀ calls, (moduleCalls.tracked noteUpdate).Along SendsLatest (.new,none) calls := by
  intro latest
  exact absurd (latest [.connect "motor".toList,.queueUpdate "1".toList,.queueUpdate "2".toList,.getNextUpdate])
    (by decide)

end FlotillaDaemon
