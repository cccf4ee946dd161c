import FlotillaDaemon.Cpp.Text
import FlotillaDaemon.Machine
import FlotillaDaemon.Retained

/-! One module on a channel of a dock. Data reported by the dock waits in the command
queue for the clients; data sent by a client waits in the update queue for the dock.
The fixed buffer `data[512]` is never used and is left out. -/
namespace FlotillaDaemon
open Cpp Retained

inductive ModuleState
  | moduleConnected
  | moduleDisconnected
  deriving DecidableEq, Repr

/-- A waiting text. Both queues refuse empty texts, so none is ever waiting. -/
abbrev Entry := {text : Text // text ≠ []}

structure FlotillaModule where
  state : ModuleState
  name : Text
  lastUpdate : Text
  commandQueue : List Entry
  updateQueue : List Entry
  deriving DecidableEq

def enqueue (queue : List Entry) (cmd : Text) : List Entry :=
  if present : cmd ≠ [] then queue ++ [⟨cmd,present⟩] else queue

/-- The locked region of `get_next_command`; nothing when `front()` has no entry. -/
def takeCommand (isVolatile : Bool) (queue : List Entry) : Option (Entry × List Entry) :=
  match (if isVolatile then queue else keepLast queue) with
  | [] => none
  | command :: rest => some (command,popKeeping (command :: rest))

/-- The locked region of `get_next_update`. Here the entry is taken before the queue
of a module that is not volatile is flushed. -/
def takeUpdate (isVolatile : Bool) (queue : List Entry) : Option (Entry × List Entry) :=
  match queue with
  | [] => none
  | update :: rest =>
    let left := popKeeping (update :: rest)
    some (update,if isVolatile then left else keepLast left)

namespace FlotillaModule

def new : FlotillaModule := ⟨.moduleDisconnected,[],[],[],[]⟩

def isVolatile (m : FlotillaModule) : Bool := m.name == "touch".toList

def emptyQueue (m : FlotillaModule) : FlotillaModule := {m with commandQueue := []}

def connect (m : FlotillaModule) (moduleName : Text) : FlotillaModule :=
  if m.state = .moduleConnected then m
  else {emptyQueue {m with name := moduleName} with state := .moduleConnected}

def disconnect (m : FlotillaModule) : FlotillaModule := emptyQueue {m with state := .moduleDisconnected}

def queueCommand (m : FlotillaModule) (cmd : Text) : FlotillaModule :=
  {m with commandQueue := enqueue m.commandQueue cmd}

def queueUpdate (m : FlotillaModule) (cmd : Text) : FlotillaModule :=
  {m with updateQueue := enqueue m.updateQueue cmd}

def getNextCommand (m : FlotillaModule) : FlotillaModule × Text :=
  match takeCommand m.isVolatile m.commandQueue with
  | none => (m,[])
  | some (command,left) =>
    if command.val = m.lastUpdate then ({m with commandQueue := left},[])
    else ({m with commandQueue := left,lastUpdate := command.val},command.val)

/-- The text passed in is what the caller's variable holds before the call. -/
def getNextUpdate (m : FlotillaModule) (update : Text) : FlotillaModule × Bool × Text :=
  let (m,update) := match takeUpdate m.isVolatile m.updateQueue with
    | none => (m,update)
    | some (front,left) => ({m with updateQueue := left},front.val)
  if update = [] ∨ m.lastUpdate = update then (m,false,update)
  else ({m with lastUpdate := update},true,update)

end FlotillaModule

inductive Call
  | queueCommand (cmd : Text)
  | queueUpdate (cmd : Text)
  | getNextCommand
  | getNextUpdate
  | connect (moduleName : Text)
  | disconnect
  deriving DecidableEq

inductive Reply
  | returned
  | command (text : Text)
  | update (fresh : Bool) (text : Text)
  deriving DecidableEq

/-- The public operations of a module. `get_next_update` is called as `tick` calls it,
with a variable that has just been declared. -/
def moduleCalls : Machine FlotillaModule Call Reply where
  step := fun m call =>
    match call with
    | .queueCommand cmd => (m.queueCommand cmd,.returned)
    | .queueUpdate cmd => (m.queueUpdate cmd,.returned)
    | .getNextCommand => (m.getNextCommand.1,.command m.getNextCommand.2)
    | .getNextUpdate =>
      ((m.getNextUpdate []).1,.update (m.getNextUpdate []).2.1 (m.getNextUpdate []).2.2)
    | .connect moduleName => (m.connect moduleName,.returned)
    | .disconnect => (m.disconnect,.returned)

theorem takeCommand_retains (isVolatile : Bool) : Retains (takeCommand isVolatile) where
  empty := by cases isVolatile <;> rfl
  waiting := by
    intro queue waiting
    cases isVolatile with
    | true =>
      cases queue with
      | nil => exact absurd rfl waiting
      | cons first rest => simp [takeCommand]
    | false => simp [takeCommand,keepLast_eq_getLast queue waiting]
  lone := by intro entry; cases isVolatile <;> rfl
  shrinks := by
    intro first second rest entry left taken
    cases isVolatile with
    | true =>
      simp only [takeCommand,if_true,popKeeping_cons,Option.some.injEq,Prod.mk.injEq] at taken
      simp [← taken.2]
    | false =>
      rw [takeCommand,if_neg (by simp),keepLast_eq_getLast _ (by simp)] at taken
      simp only [popKeeping_lone,Option.some.injEq,Prod.mk.injEq] at taken
      simp [← taken.2]

theorem takeUpdate_retains (isVolatile : Bool) : Retains (takeUpdate isVolatile) where
  empty := rfl
  waiting := by
    intro queue waiting
    cases queue with
    | nil => exact absurd rfl waiting
    | cons first rest => simp [takeUpdate]
  lone := by intro entry; cases isVolatile <;> rfl
  shrinks := by
    intro first second rest entry left taken
    simp only [takeUpdate,popKeeping_cons,Option.some.injEq,Prod.mk.injEq] at taken
    rw [← taken.2]
    cases isVolatile with
    | true => simp
    | false => simp [keepLast_eq_getLast]

theorem takeCommand_eq_none_iff (isVolatile : Bool) (queue : List Entry) :
    takeCommand isVolatile queue = none ↔ queue = [] := by
  constructor
  · intro none
    by_contra waiting
    exact (takeCommand_retains isVolatile).waiting queue waiting none
  · intro empty
    rw [empty]
    exact (takeCommand_retains isVolatile).empty

theorem takeUpdate_eq_none_iff (isVolatile : Bool) (queue : List Entry) :
    takeUpdate isVolatile queue = none ↔ queue = [] := by
  cases queue <;> simp [takeUpdate]

theorem takeUpdate_some (isVolatile : Bool) (queue left : List Entry) (update : Entry)
    (taken : takeUpdate isVolatile queue = some (update,left)) : ∃ rest, queue = update :: rest ∧
      left = if isVolatile then popKeeping (update :: rest) else keepLast (popKeeping (update :: rest)) := by
  cases queue with
  | nil => contradiction
  | cons front rest =>
    obtain ⟨rfl,rfl⟩ := Prod.mk.inj (Option.some.inj taken)
    exact ⟨rest,rfl,rfl⟩

/-- Without the flush both directions take the front. -/
theorem takeCommand_volatile (queue : List Entry) : takeCommand true queue = takeUpdate true queue := by
  cases queue <;> rfl

@[simp] theorem enqueue_empty (queue : List Entry) : enqueue queue [] = queue := rfl

theorem enqueue_present (queue : List Entry) (cmd : Text) (present : cmd ≠ []) :
    enqueue queue cmd = queue ++ [⟨cmd,present⟩] := by
  simp [enqueue,present]

namespace FlotillaModule

theorem connect_disconnected (m : FlotillaModule) (moduleName : Text)
    (disconnected : m.state = .moduleDisconnected) :
    m.connect moduleName = ⟨.moduleConnected,moduleName,m.lastUpdate,[],m.updateQueue⟩ := by
  simp [connect,disconnected,emptyQueue]

theorem connect_connected (m : FlotillaModule) (moduleName : Text)
    (connected : m.state = .moduleConnected) : m.connect moduleName = m := by
  simp [connect,connected]

theorem getNextCommand_state (m : FlotillaModule) : m.getNextCommand.1.state = m.state := by
  unfold getNextCommand
  split
  · rfl
  · split <;> rfl

theorem getNextUpdate_state (m : FlotillaModule) (update : Text) : (m.getNextUpdate update).1.state = m.state := by
  unfold getNextUpdate
  cases takeUpdate m.isVolatile m.updateQueue <;> dsimp only <;> split <;> rfl

/-- A poll of the command queue either finds it empty and does nothing, or takes one
entry, remembers it, and reports it unless it was the one remembered. -/
theorem getNextCommand_cases (m : FlotillaModule) :
    (m.commandQueue = [] ∧ m.getNextCommand = (m,[])) ∨
    ∃ command left, takeCommand m.isVolatile m.commandQueue = some (command,left) ∧
      m.getNextCommand = ({m with commandQueue := left,lastUpdate := command.val},
        if command.val = m.lastUpdate then [] else command.val) := by
  unfold getNextCommand
  cases taken : takeCommand m.isVolatile m.commandQueue with
  | none => exact Or.inl ⟨(takeCommand_eq_none_iff _ _).mp taken,rfl⟩
  | some found =>
    obtain ⟨command,left⟩ := found
    refine Or.inr ⟨command,left,rfl,?_⟩
    by_cases same : command.val = m.lastUpdate <;> simp [same]

theorem getNextUpdate_cases (m : FlotillaModule) :
    (m.updateQueue = [] ∧ m.getNextUpdate [] = (m,false,[])) ∨
    ∃ update left, takeUpdate m.isVolatile m.updateQueue = some (update,left) ∧
      m.getNextUpdate [] = ({m with updateQueue := left,lastUpdate := update.val},
        decide (update.val ≠ m.lastUpdate),update.val) := by
  unfold getNextUpdate
  cases taken : takeUpdate m.isVolatile m.updateQueue with
  | none => exact Or.inl ⟨(takeUpdate_eq_none_iff _ _).mp taken,by simp⟩
  | some found =>
    obtain ⟨update,left⟩ := found
    refine Or.inr ⟨update,left,rfl,?_⟩
    have present := update.property
    by_cases same : m.lastUpdate = update.val
    · simp [same]
    · simp [same,present,Ne.symm same]

/-- Two operations use the update queue. -/
theorem call_updateQueue (m : FlotillaModule) (call : Call) :
    (moduleCalls.step m call).1.updateQueue =
      match call with
      | .queueUpdate cmd => enqueue m.updateQueue cmd
      | .getNextUpdate => (m.getNextUpdate []).1.updateQueue
      | _ => m.updateQueue := by
  cases call with
  | queueCommand cmd => rfl
  | queueUpdate cmd => rfl
  | getNextUpdate => rfl
  | disconnect => rfl
  | connect moduleName =>
    change (m.connect moduleName).updateQueue = m.updateQueue
    unfold connect
    split <;> rfl
  | getNextCommand =>
    change m.getNextCommand.1.updateQueue = m.updateQueue
    rcases m.getNextCommand_cases with ⟨_,polled⟩ | ⟨_,_,_,polled⟩ <;> rw [polled]

end FlotillaModule

end FlotillaDaemon
