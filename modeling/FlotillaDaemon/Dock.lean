import FlotillaDaemon.Cpp.Stoi
import FlotillaDaemon.Module
import Mathlib.Data.Fin.Basic
import Mathlib.Logic.Function.Basic

/-! One dock slot: the lines it reads from its serial port, the module table, the
commands and updates it writes, and the events and data it hands to the clients.
Console output is left out, the texts it evaluates are not. -/
namespace FlotillaDaemon
open Cpp Retained

abbrev maxDocks : Nat := 8
abbrev maxChannels : Nat := 8

instance : NeZero maxDocks := ⟨by decide⟩

inductive DockState
  | connecting
  | connected
  | disconnected
  deriving DecidableEq, Repr

structure FlotillaDock where
  index : Nat
  state : DockState
  name : Text
  user : Text
  serial : Text
  version : Text
  module : Fin maxChannels → FlotillaModule
  commandQueue : List Text
  eventQueue : List Text

/-- One byte from the dock, or a second in which a blocking read gets none. -/
inductive Arrival
  | byte (c : Char)
  | timeout
  deriving DecidableEq

/-- `stoi(text, &size) - 1`, with `size`. -/
def channelNumber (text : Text) : Outcome (Int × Nat) := do
  let (number,size) ← stoi text
  return (← int32 (number - 1),size)

structure SerialPort where
  written : Text
  input : List Arrival
  deriving DecidableEq

def spReadline : List Arrival → Text × List Arrival
  | [] => ([],[])
  | .timeout :: rest => ([],rest)
  | .byte c :: rest =>
    if c = '\n' then ([],rest)
    else
      let tail := spReadline rest
      (if c = '\r' then tail.1 else c :: tail.1,tail.2)

def spInputWaiting : List Arrival → Bool
  | .byte _ :: _ => true
  | _ => false

def SerialPort.spBlockingWrite (port : SerialPort) (bytes : Text) : SerialPort :=
  {port with written := port.written ++ bytes}

theorem spReadline_length (input : List Arrival) : (spReadline input).2.length ≤ input.length := by
  induction input with
  | nil => simp [spReadline]
  | cons arrival rest ih =>
    cases arrival with
    | timeout => simp [spReadline]
    | byte c =>
      unfold spReadline
      split
      · simp
      · simp only [List.length_cons]
        omega

theorem spReadline_shortens (input : List Arrival) (waiting : spInputWaiting input = true) :
    (spReadline input).2.length < input.length := by
  match input with
  | [] => simp [spInputWaiting] at waiting
  | .timeout :: rest => simp [spInputWaiting] at waiting
  | .byte c :: rest =>
    have tail := spReadline_length rest
    unfold spReadline
    split
    · simp
    · simp only [List.length_cons]
      omega

namespace FlotillaDock

/-- The state of a slot after construction; the members of the base are set elsewhere. -/
def new (index : Nat) : FlotillaDock :=
  ⟨index,.disconnected,[],[],[],[],fun _ => .new,[],[]⟩

def setModule (dock : FlotillaDock) (channel : Fin maxChannels) (m : FlotillaModule) : FlotillaDock :=
  {dock with module := Function.update dock.module channel m}

def moduleEvent (dock : FlotillaDock) (channel : Fin maxChannels) : Text :=
  "Dock:".toList ++ decimal dock.index ++ " Data:".toList ++
    (if (dock.module channel).state = .moduleConnected then "c".toList else "d".toList) ++
    " ".toList ++ decimal channel.val ++ "/".toList ++ (dock.module channel).name

def queueModuleEvent (dock : FlotillaDock) (channel : Fin maxChannels) : FlotillaDock :=
  {dock with eventQueue := dock.eventQueue ++ [dock.moduleEvent channel]}

def queueCommand (dock : FlotillaDock) (command : Text) : FlotillaDock :=
  {dock with commandQueue := dock.commandQueue ++ [command]}

def ident (dock : FlotillaDock) : Text :=
  "# Dock: ".toList ++ dock.version ++ ",".toList ++ dock.serial ++ ",".toList ++ dock.user ++
    ",".toList ++ dock.name ++ ",".toList ++ decimal dock.index

def lineChannel (command : Text) : Outcome (Int × Nat) := do
  channelNumber (← substr command 2)

def processUpdate (dock : FlotillaDock) (command : Text) : Outcome FlotillaDock := do
  let (channel,size) ← lineChannel command
  if channel < maxChannels then
    let c ← arrayIndex maxChannels channel
    let data ← substr command (size + 4 + (dock.module c).name.length)
    return dock.setModule c ((dock.module c).queueCommand data)
  else return dock

/-- The lines `d` and `c`: the same parse, then a change of the module and its event. -/
def processChange (change : Text → FlotillaModule → FlotillaModule) (dock : FlotillaDock) (command : Text) :
    Outcome FlotillaDock := do
  let (channel,size) ← lineChannel command
  if channel < maxChannels then
    let name ← substr command (size + 3)
    let c ← arrayIndex maxChannels channel
    return (dock.setModule c (change name (dock.module c))).queueModuleEvent c
  else return dock

/-- The line `#`. The debug text is cut out for the console only, and can fail. -/
def processInformation (dock : FlotillaDock) (command : Text) : Outcome FlotillaDock := do
  if (find "User: ".toList command).isSome then
    let user ← substr command 8
    return {dock with user := user}
  if (find "Dock: ".toList command).isSome then
    let name ← substr command 8
    return {dock with name := name}
  let _ ← substr command 2
  return dock

def processCommand (dock : FlotillaDock) (command : Text) : Outcome FlotillaDock := do
  let first ← charAt command 0
  if first = '#' then dock.processInformation command
  else if first = 'u' then dock.processUpdate command
  else if first = 'd' then dock.processChange (fun _ m => m.disconnect) command
  else if first = 'c' then dock.processChange (fun name m => m.connect name) command
  else return dock

def writeCommands (dock : FlotillaDock) (port : SerialPort) : FlotillaDock × SerialPort :=
  ({dock with commandQueue := []},dock.commandQueue.foldl SerialPort.spBlockingWrite port)

def writeUpdate (dock : FlotillaDock) (port : SerialPort) (channel : Fin maxChannels) :
    FlotillaDock × SerialPort :=
  if (dock.module channel).state ≠ .moduleConnected then (dock,port)
  else
    let (m,fresh,update) := (dock.module channel).getNextUpdate []
    let update := "s ".toList ++ decimal (channel.val + 1) ++ " ".toList ++ update
    (dock.setModule channel m,
      if fresh then (port.spBlockingWrite update).spBlockingWrite "\r".toList else port)

def writeUpdates (dock : FlotillaDock) (port : SerialPort) : FlotillaDock × SerialPort :=
  (List.finRange maxChannels).foldl (fun state channel => writeUpdate state.1 state.2 channel) (dock,port)

def writeQueues (dock : FlotillaDock) (port : SerialPort) : FlotillaDock × SerialPort :=
  writeUpdates (dock.writeCommands port).1 (dock.writeCommands port).2

def readInput (dock : FlotillaDock) (input : List Arrival) : Outcome (FlotillaDock × List Arrival) :=
  if _waiting : spInputWaiting input = true then
    match dock.processCommand (spReadline input).1 with
    | .ok dock => readInput dock (spReadline input).2
    | .error fault => .error fault
  else .ok (dock,input)
termination_by input.length
decreasing_by exact spReadline_shortens input _waiting

def tick (dock : FlotillaDock) (port : SerialPort) : Outcome (FlotillaDock × SerialPort) :=
  if dock.state ≠ .connected then .ok (dock,port)
  else
    let (dock,port) := dock.writeQueues port
    match dock.readInput port.input with
    | .ok (dock,input) => .ok (dock,{port with input := input})
    | .error fault => .error fault

def getNextCommand (dock : FlotillaDock) (channel : Fin maxChannels) : FlotillaDock × Text :=
  let (m,command) := (dock.module channel).getNextCommand
  (dock.setModule channel m,
    if command = [] then []
    else "Dock:".toList ++ decimal dock.index ++ " Data:u ".toList ++ decimal channel.val ++ "/".toList ++
      (dock.module channel).name ++ " ".toList ++ command)

/-- One round of the loop of `get_pending_commands`. -/
def pendingRound (state : FlotillaDock × List Text) (channel : Fin maxChannels) : FlotillaDock × List Text :=
  if (state.1.module channel).state ≠ .moduleConnected then state
  else
    let (dock,command) := state.1.getNextCommand channel
    (dock,if command = [] then state.2 else state.2 ++ [command])

def getPendingCommands (dock : FlotillaDock) : FlotillaDock × List Text :=
  (List.finRange maxChannels).foldl pendingRound (dock,[])

def getPendingEvents (dock : FlotillaDock) : FlotillaDock × List Text :=
  ({dock with eventQueue := []},dock.eventQueue)

def loseModule (dock : FlotillaDock) (channel : Fin maxChannels) : FlotillaDock :=
  if (dock.module channel).state = .moduleConnected
  then (dock.setModule channel (dock.module channel).disconnect).queueModuleEvent channel
  else dock

def disconnect (dock : FlotillaDock) : FlotillaDock :=
  if dock.state = .disconnected then dock
  else (List.finRange maxChannels).foldl loseModule {dock with state := .disconnected}

/-- What each line that is taken keeps, of the dock and of the input that is left, holds at the
end, where nothing waits. -/
theorem readInput_run (kept : FlotillaDock → List Arrival → Prop)
    (line : ∀ dock next input, spInputWaiting input = true → dock.processCommand (spReadline input).1 = .ok next →
      kept dock input → kept next (spReadline input).2)
    (dock next : FlotillaDock) (input left : List Arrival) (read : dock.readInput input = .ok (next,left))
    (start : kept dock input) : kept next left ∧ spInputWaiting left = false := by
  induction dock, input using readInput.induct with
  | case1 dock input waiting mid processed ih =>
    rw [readInput,dif_pos waiting,processed] at read
    exact ih read (line dock mid input waiting processed start)
  | case2 dock input waiting fault failed =>
    rw [readInput,dif_pos waiting,failed] at read
    contradiction
  | case3 dock input idle =>
    rw [readInput,dif_neg idle] at read
    obtain ⟨rfl,rfl⟩ := Prod.mk.inj (Except.ok.inj read)
    exact ⟨start,Bool.eq_false_iff.mpr idle⟩

theorem setModule_states (dock : FlotillaDock) (channel : Fin maxChannels) (m : FlotillaModule)
    (same : m.state = (dock.module channel).state) (c : Fin maxChannels) :
    ((dock.setModule channel m).module c).state = (dock.module c).state := by
  by_cases own : c = channel
  · subst own
    simp [setModule,same]
  · simp [setModule,own]

theorem writeCommands_input (dock : FlotillaDock) (port : SerialPort) :
    (dock.writeCommands port).2.input = port.input := by
  have written (commands : List Text) (p : SerialPort) :
      (commands.foldl SerialPort.spBlockingWrite p).input = p.input := by
    induction commands generalizing p with
    | nil => rfl
    | cons command rest ih => exact ih _
  exact written dock.commandQueue port

theorem writeUpdate_input (dock : FlotillaDock) (port : SerialPort) (channel : Fin maxChannels) :
    (dock.writeUpdate port channel).2.input = port.input := by
  unfold writeUpdate
  split
  · rfl
  · dsimp only
    split <;> rfl

theorem writeUpdates_input (dock : FlotillaDock) (port : SerialPort) :
    (dock.writeUpdates port).2.input = port.input := by
  unfold writeUpdates
  generalize List.finRange maxChannels = channels
  induction channels generalizing dock port with
  | nil => rfl
  | cons channel rest ih =>
    rw [List.foldl_cons]
    exact (ih (dock.writeUpdate port channel).1 (dock.writeUpdate port channel).2).trans
      (writeUpdate_input dock port channel)

theorem writeQueues_input (dock : FlotillaDock) (port : SerialPort) :
    (dock.writeQueues port).2.input = port.input := by
  rw [writeQueues,writeUpdates_input,writeCommands_input]

end FlotillaDock

end FlotillaDaemon
