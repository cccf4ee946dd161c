import FlotillaDaemon.ClientMessages
import FlotillaDaemon.DockSession
import FlotillaDaemon.DockTable
import FlotillaDaemon.Handshake

/-! The whole daemon over time: the clients' events, the ticks and the attachment of its docks,
and its update passes, each as one step. A fault that is not caught ends the daemon. -/
namespace FlotillaDaemon
open Cpp Retained Framing

inductive Request
  | session (m : ClientMessage)
  | update (d : Fin maxDocks) (c : Fin maxChannels) (data : Entry)
  | other (payload : Text)
  deriving DecidableEq

def Request.payload : Request → Text
  | .session m => m.payload
  | .update d c data =>
    "dock:".toList ++ decimal d.val ++ " data:".toList ++ FlotillaDock.updateText c data.val
  | .other payload => payload

inductive HostInput (H : Type)
  | opened (hdl : H)
  | closed (hdl : H)
  | failed (hdl : H)
  | message (hdl : H) (request : Request)
  | updateClients
  | tick (d : Fin maxDocks) (arrived : List Arrival)
  | disconnect (d : Fin maxDocks)
  | setPort (d : Fin maxDocks) (copied opened banner : Bool) (arrived : List Arrival)
  deriving DecidableEq

/-- The daemon with the bytes that the ticks of each slot have written. -/
structure Host (H : Type) where
  flotilla : Flotilla H
  written : Fin maxDocks → Text
  halted : Bool

/-- An update that a client sends for a module, and one that a tick writes to its port. -/
inductive Traffic
  | queued (d : Fin maxDocks) (c : Fin maxChannels) (data : Text)
  | written (d : Fin maxDocks) (c : Fin maxChannels) (data : Text)
  deriving DecidableEq

/-- The text of an update that a module gives out, if it gives one. -/
def FlotillaModule.takenUpdate (m : FlotillaModule) : Option Text :=
  if m.state = .moduleConnected ∧ (m.getNextUpdate []).2.1 = true then some (m.getNextUpdate []).2.2 else none

namespace FlotillaDock

def updates (dock : FlotillaDock) : List (Fin maxChannels × Text) :=
  if dock.state = .connected
  then (List.finRange maxChannels).filterMap fun c => (dock.module c).takenUpdate.map fun data => (c,data)
  else []

theorem updateItems_eq (dock : FlotillaDock) (connected : dock.state = .connected) :
    dock.updateItems = dock.updates.map fun update => updateText update.1 update.2 := by
  rw [updates,if_pos connected,List.map_filterMap,updateItems]
  congr 1
  funext c
  unfold updateItem FlotillaModule.takenUpdate
  split <;> rfl

end FlotillaDock

namespace Host
variable {H : Type}

def start (dock : Fin maxDocks → FlotillaDock) (canonicalAddress : Text) : Host H :=
  ⟨⟨dock,∅,canonicalAddress,false,true,false,[]⟩,fun _ => [],false⟩

def handle (h : Host H) (handler : Handler H Unit) : Host H :=
  match handler.run h.flotilla with
  | .ok _ f => {h with flotilla := f}
  | .error _ f => {h with flotilla := f,halted := true}

def changeDock (h : Host H) (d : Fin maxDocks) (dock : FlotillaDock) : Host H :=
  {h with flotilla := h.flotilla.changeDock d dock}

def tick (h : Host H) (d : Fin maxDocks) (arrived : List Arrival) : Host H :=
  match (h.flotilla.dock d).tick ⟨h.written d,arrived⟩ with
  | .ok (dock,port) => {h.changeDock d dock with written := Function.update h.written d port.written}
  | .error _ =>
    let (dock,port) := (h.flotilla.dock d).writeQueues ⟨h.written d,arrived⟩
    {h.changeDock d dock with written := Function.update h.written d port.written,halted := true}

variable [DecidableEq H]

def step (network : Network H) (h : Host H) (input : HostInput H) : Host H :=
  if h.halted then h
  else
    match input with
    | .opened hdl => h.handle (Flotilla.websocketOnOpen hdl)
    | .closed hdl => h.handle (Flotilla.websocketOnClose hdl)
    | .failed hdl => h.handle (Flotilla.websocketOnFail hdl)
    | .message hdl request => h.handle (Flotilla.websocketOnMessage network hdl request.payload)
    | .updateClients => h.handle (Flotilla.updateClients network)
    | .tick d arrived => h.tick d arrived
    | .disconnect d => h.changeDock d (h.flotilla.dock d).disconnect
    | .setPort d copied opened banner arrived =>
      h.changeDock d ((h.flotilla.dock d).setPort copied opened banner arrived).1

/-- What a step takes in for the modules and what it writes to their ports. -/
def output (h : Host H) (input : HostInput H) : List Traffic :=
  if h.halted then []
  else
    match input with
    | .message hdl (.update d c data) => if hdl ∈ h.flotilla.clients then [.queued d c data.val] else []
    | .tick d _ => (h.flotilla.dock d).updates.map fun update => .written d update.1 update.2
    | _ => []

end Host

def hosts {H : Type} [DecidableEq H] (network : Network H) : Machine (Host H) (HostInput H) (List Traffic) :=
  ⟨fun h input => (h.step network input,h.output input)⟩

namespace Flotilla
variable {H : Type}

/-- The daemon with one more update waiting for a module. -/
def queued (f : Flotilla H) (d : Fin maxDocks) (c : Fin maxChannels) (data : Text) : Flotilla H :=
  f.changeDock d ((f.dock d).setModule c (((f.dock d).module c).queueUpdate data))

theorem update_address (d : Fin maxDocks) (c : Fin maxChannels) (data : Entry) :
    address (Request.update d c data).payload = decimal d.val ++ [' '] ∧
      body (Request.update d c data).payload = FlotillaDock.updateText c data.val := by
  unfold Request.payload
  fin_cases d <;> exact ⟨rfl,rfl⟩

theorem update_start (d : Fin maxDocks) (c : Fin maxChannels) (data : Entry) :
    "dock:".toList <+: (Request.update d c data).payload := by
  unfold Request.payload
  simp only [List.append_assoc]
  exact List.prefix_append ..

theorem updateText_eq (c : Fin maxChannels) (data : Text) :
    FlotillaDock.updateText c data = 's' :: ' ' :: (decimal (c.val + 1) ++ ' ' :: data) := by
  have letter : "s ".toList = ['s',' '] := by decide
  have blank : " ".toList = [' '] := by decide
  rw [FlotillaDock.updateText,letter,blank]
  simp only [List.append_assoc,List.cons_append,List.nil_append]

theorem updateMessage_update (f : Flotilla H) (d : Fin maxDocks) (c : Fin maxChannels) (data : Text) :
    f.updateMessage d.val (FlotillaDock.updateText c data) = .ok (f.queued d c data) := by
  have docked := d.isLt
  have channelled := c.isLt
  have read := FlotillaDock.lineNumber_text 's' c (' ' :: data) (by simp)
  have cut : substr (decimal (c.val + 1) ++ ' ' :: data) ((decimal (c.val + 1)).length + 1) = .ok data :=
    (substr_ok_iff _ _ _).mpr ⟨by simp,by simp [List.drop_append]⟩
  have dock : arrayIndex maxDocks (d.val : Int) = .ok d := (arrayIndex_ok_iff _ _ _).mpr (by omega)
  have channel : arrayIndex maxChannels ((c.val : Int) + 1 - 1) = .ok c := (arrayIndex_ok_iff _ _ _).mpr (by omega)
  rw [updateMessage_eq,updateText_eq,numbered_eq _ _ _ _ read (by simp only [intMin]; omega),if_neg (by omega)]
  change (substr (decimal (c.val + 1) ++ ' ' :: data) _ >>= _) = _
  rw [cut,dock,channel]
  rfl

theorem dockMessage_update (f : Flotilla H) (d : Fin maxDocks) (c : Fin maxChannels) (data : Entry) :
    f.dockMessage (Request.update d c data).payload = .ok (f.queued d c data.val) := by
  obtain ⟨address,body⟩ := update_address d c data
  have start := update_start d c data
  have read : Numeral (FlotillaDaemon.address (Request.update d c data).payload) d.val (decimal d.val).length := by
    rw [address]
    exact numeral_decimal d.val [' '] (by simp [Char.isDigit])
  have letter : charAt (FlotillaDock.updateText c data.val) 0 = .ok 's' := rfl
  rw [dockMessage_eq f _ start,body]
  refine (bind_ok_iff _ _ _).mpr ⟨_,(address_ok_iff _ start _ _).mpr read,(bind_ok_iff _ _ _).mpr ⟨'s',letter,?_⟩⟩
  rw [if_pos rfl]
  exact f.updateMessage_update d c data.val

end Flotilla

end FlotillaDaemon
