import FlotillaDaemon.Handshake
import FlotillaDaemon.DockLines
import FlotillaDaemon.Transition

/-! The threads of the daemon at one dock slot. The update thread runs `update_docks` with
its `tick` and then `update_clients`; the scan thread runs `update_connected_docks` with
`disconnect` and `set_port`; the websocket thread queues. A step is one test, one call of
the serial library, one locked region or one change of the shared state. -/
namespace FlotillaDaemon
open Cpp Retained

inductive PortStatus
  | absent
  | copied
  | opened
  | freed
  deriving DecidableEq

/-- Where the update thread stands. It holds the mutex of the dock while `writing`. -/
inductive UpdatePlace
  | away
  | called
  | writing
  | channel (next : Nat)
  | polling (c : Fin maxChannels)
  | draining (c : Fin maxChannels)
  | sending (c : Fin maxChannels)
  | ending (c : Fin maxChannels)
  | input
  | reading
  | processing (line : Text)
  | announcing (c : Fin maxChannels)
  | flushed
  | serving (next : Nat)
  deriving DecidableEq

/-- Where the scan thread stands: in `disconnect` from `leaving` to `losing`, in `set_port`
from `copying` to `accepting`. -/
inductive ScanPlace
  | idle
  | leaving
  | sweeping (next : Nat)
  | dropping (c : Fin maxChannels)
  | losing (c : Fin maxChannels)
  | copying
  | opening
  | shaking
  | failing
  | accepting
  | enumerating
  deriving DecidableEq

structure Slot where
  dock : FlotillaDock
  port : PortStatus
  update : UpdatePlace
  scan : ScanPlace

inductive UpdateAction
  | updateDocks
  | updateClients
  | proceed
  | waiting (more : Bool)
  | readline (arrived : List Arrival)
  deriving DecidableEq

inductive ScanAction
  | missing
  | found
  | proceed
  | outcome (ok : Bool)
  | handshake (banner : Bool) (arrived : List Arrival)
  deriving DecidableEq

inductive ClientAction
  | queueCommand (command : Text)
  | queueUpdate (c : Fin maxChannels) (cmd : Text)
  deriving DecidableEq

inductive Action
  | update (action : UpdateAction)
  | scan (action : ScanAction)
  | client (action : ClientAction)
  deriving DecidableEq

namespace FlotillaDock

def changeLine (change : Text → FlotillaModule → FlotillaModule) (dock : FlotillaDock) (command : Text) :
    Outcome (FlotillaDock × Option (Fin maxChannels)) := do
  let (channel,size) ← lineChannel command
  if channel < maxChannels then
    let name ← substr command (size + 3)
    let c ← arrayIndex maxChannels channel
    return (dock.setModule c (change name (dock.module c)),some c)
  else return (dock,none)

def applyLine (dock : FlotillaDock) (command : Text) : Outcome (FlotillaDock × Option (Fin maxChannels)) := do
  let first ← charAt command 0
  if first = '#' then return (← dock.processInformation command,none)
  else if first = 'u' then return (← dock.processUpdate command,none)
  else if first = 'd' then dock.changeLine (fun _ m => m.disconnect) command
  else if first = 'c' then dock.changeLine (fun name m => m.connect name) command
  else return (dock,none)

def announce (changed : FlotillaDock × Option (Fin maxChannels)) : FlotillaDock :=
  match changed.2 with
  | some c => changed.1.queueModuleEvent c
  | none => changed.1

theorem changeLine_announce (change : Text → FlotillaModule → FlotillaModule) (dock : FlotillaDock)
    (command : Text) : announce <$> dock.changeLine change command = dock.processChange change command := by
  unfold changeLine processChange
  cases read : lineChannel command with
  | error fault => rfl
  | ok found =>
    change announce <$> (if found.1 < maxChannels then _ else _) = (if found.1 < maxChannels then _ else _)
    split
    · cases cut : substr command (found.2 + 3) with
      | error fault => rfl
      | ok name =>
        change announce <$> (arrayIndex maxChannels found.1 >>= _) = (arrayIndex maxChannels found.1 >>= _)
        cases arrayIndex maxChannels found.1 <;> rfl
    · rfl

theorem applyLine_announce (dock : FlotillaDock) (command : Text) :
    announce <$> dock.applyLine command = dock.processCommand command := by
  cases command with
  | nil => rfl
  | cons first rest =>
    rw [processCommand_cons]
    change announce <$> (if first = '#' then _ else if first = 'u' then _ else if first = 'd' then _
      else if first = 'c' then _ else _) = _
    split
    · cases dock.processInformation (first :: rest) <;> rfl
    · split
      · cases dock.processUpdate (first :: rest) <;> rfl
      · split
        · exact dock.changeLine_announce _ _
        · split
          · exact dock.changeLine_announce _ _
          · rfl

end FlotillaDock

namespace Slot

def new (index : Nat) : Slot := ⟨.new index,.absent,.away,.idle⟩

def moduleConnected (s : Slot) (c : Fin maxChannels) : Bool :=
  decide ((s.dock.module c).state = .moduleConnected)

def setState (s : Slot) (state : DockState) : Slot := {s with dock := {s.dock with state := state}}

def eachChannel {P : Type} (next : Nat) (inside : Fin maxChannels → P) (done : P) : P :=
  if bound : next < maxChannels then inside ⟨next,bound⟩ else done

def updateStep (s : Slot) (action : UpdateAction) : Option Slot :=
  match s.update,action with
  | .away,.updateDocks => some {s with update := if s.dock.state = .connected then .called else .away}
  | .called,.proceed => some {s with update := if s.dock.state = .connected then .writing else .away}
  | .writing,.proceed =>
    match s.dock.commandQueue with
    | [] => some {s with update := .channel 0}
    | _ :: rest => some {s with dock := {s.dock with commandQueue := rest}}
  | .channel next,.proceed =>
    let inside (c : Fin maxChannels) := if s.moduleConnected c then .polling c else .channel (next + 1)
    some {s with update := eachChannel next inside .input}
  | .polling c,.proceed =>
    let (m,fresh,_) := (s.dock.module c).getNextUpdate []
    some {s with dock := s.dock.setModule c m,update := if fresh then .draining c else .channel (c.val + 1)}
  | .draining c,.waiting more => some {s with update := if more then .draining c else .sending c}
  | .sending c,.proceed => some {s with update := .ending c}
  | .ending c,.proceed => some {s with update := .channel (c.val + 1)}
  | .input,.waiting more => some {s with update := if more then .reading else .away}
  | .reading,.readline arrived => some {s with update := .processing (spReadline arrived).1}
  | .processing line,.proceed =>
    match s.dock.applyLine line with
    | .ok (dock,some c) => some {s with dock := dock,update := .announcing c}
    | .ok (dock,none) => some {s with dock := dock,update := .input}
    | .error _ => none
  | .announcing c,.proceed => some {s with dock := s.dock.queueModuleEvent c,update := .input}
  | .away,.updateClients => some {s with dock := {s.dock with eventQueue := []},update := .flushed}
  | .flushed,.proceed => some {s with update := if s.dock.state = .connected then .serving 0 else .away}
  | .serving next,.proceed =>
    let inside (c : Fin maxChannels) : Slot :=
      {s with
        dock := if s.moduleConnected c then (s.dock.getNextCommand c).1 else s.dock
        update := .serving (next + 1)}
    some (eachChannel next inside {s with update := .away})
  | _,_ => none

def scanStep (s : Slot) (action : ScanAction) : Option Slot :=
  match s.scan,action with
  | .idle,.missing =>
    some {s with scan := if s.port = .absent ∨ s.dock.state = .disconnected then .idle else .leaving}
  | .leaving,.proceed =>
    if s.dock.state = .disconnected then some {s with scan := .idle}
    else some {s.setState .disconnected with scan := .sweeping 0}
  | .sweeping next,.proceed =>
    let inside (c : Fin maxChannels) : Slot :=
      {s with scan := if s.moduleConnected c then .dropping c else .sweeping (next + 1)}
    some (eachChannel next inside {s with port := .freed,scan := .idle})
  | .dropping c,.proceed =>
    some {s with dock := s.dock.setModule c (s.dock.module c).disconnect,scan := .losing c}
  | .losing c,.proceed =>
    if s.update = .writing then none
    else some {s with dock := s.dock.queueModuleEvent c,scan := .sweeping (c.val + 1)}
  | .idle,.found =>
    if s.dock.state = .disconnected then some {s.setState .connecting with scan := .copying} else some s
  | .copying,.outcome ok =>
    some {s with port := if ok then .copied else .absent,scan := if ok then .opening else .failing}
  | .opening,.outcome ok =>
    some {s with port := if ok then .opened else s.port,scan := if ok then .shaking else .failing}
  | .shaking,.handshake banner arrived =>
    let (dock,ok) := s.dock.getVersionInfo banner arrived
    some {s with dock := dock,scan := if ok then .accepting else .failing}
  | .failing,.proceed => some {s.setState .disconnected with scan := .idle}
  | .accepting,.proceed => some {s.setState .connected with scan := .enumerating}
  | .enumerating,.proceed => some {s with scan := .idle}
  | _,_ => none

def clientStep (s : Slot) : ClientAction → Option Slot
  | .queueCommand command => if s.update = .writing then none else some {s with dock := s.dock.queueCommand command}
  | .queueUpdate c cmd => some {s with dock := s.dock.setModule c ((s.dock.module c).queueUpdate cmd)}

def step (s : Slot) : Action → Option Slot
  | .update action => s.updateStep action
  | .scan action => s.scanStep action
  | .client action => s.clientStep action

end Slot

def slotSystem (index : Nat) : System Slot Action := ⟨.new index,Slot.step⟩

/-- A thread that is busy at one dock takes no step at another. -/
def threadFree (docks : Fin maxDocks → Slot) (dockIdx : Fin maxDocks) : Action → Bool
  | .update _ => decide (∀ other ≠ dockIdx, (docks other).update = .away)
  | .scan _ => decide (∀ other ≠ dockIdx, (docks other).scan = .idle)
  | .client _ => true

def daemon : System (Fin maxDocks → Slot) (Fin maxDocks × Action) :=
  System.family (fun dockIdx => slotSystem dockIdx.val) threadFree

theorem threadFree_alone (dockIdx : Fin maxDocks) (docks : Fin maxDocks → Slot) (action : Action)
    (alone : ∀ other ≠ dockIdx, docks other = .new other.val) : threadFree docks dockIdx action = true := by
  cases action with
  | update action => exact decide_eq_true fun other apart => by rw [alone other apart]; rfl
  | scan action => exact decide_eq_true fun other apart => by rw [alone other apart]; rfl
  | client action => rfl

end FlotillaDaemon
