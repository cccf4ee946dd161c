import FlotillaDaemon.Dock
import Mathlib.Data.List.AList

/-! The server side of the daemon: the clients and their subscriptions, the handlers of
the websocket events, and the texts sent to the clients. The library behind the sockets
is not modelled; a network says which of its calls succeed. -/
namespace FlotillaDaemon
open Cpp Retained

structure FlotillaClient where
  connected : Bool
  ready : Bool
  dockSubscription : Int → Option Bool
  commandQueue : List Text

namespace FlotillaClient

def new : FlotillaClient := ⟨false,false,fun _ => none,[]⟩

def subscribedTo (client : FlotillaClient) (dockIdx : Int) : Bool := (client.dockSubscription dockIdx).getD false

def subscribe (client : FlotillaClient) (dockIdx : Int) : FlotillaClient :=
  {client with dockSubscription := Function.update client.dockSubscription dockIdx (some true)}

def unsubscribe (client : FlotillaClient) (dockIdx : Int) : FlotillaClient :=
  {client with dockSubscription := Function.update client.dockSubscription dockIdx (some false)}

def assign (a b : FlotillaClient) : FlotillaClient :=
  {a with connected := b.connected,ready := b.ready,commandQueue := b.commandQueue}

end FlotillaClient

inductive Transmission (H : Type)
  | text (hdl : H) (message : Text)
  | binary (hdl : H) (message : Text)
  | close (hdl : H)
  deriving DecidableEq

/-- Which sends of a run succeed, by their position, and which connections can be closed.
A call that fails throws `websocketpp::exception`. -/
structure Network (H : Type) where
  sends : Nat → Bool
  closes : H → Bool

def Network.accepts {H : Type} (network : Network H) (earlier : Nat) : Transmission H → Bool
  | .close hdl => network.closes hdl
  | _ => network.sends earlier

structure Flotilla (H : Type) where
  dock : Fin maxDocks → FlotillaDock
  clients : AList (fun _ : H => FlotillaClient)
  canonicalAddress : Text
  mutexClients : Bool
  listening : Bool
  stopped : Bool
  transmissions : List (Transmission H)

def daemonVersionString : Text := "1.13".toList

abbrev Handler (H : Type) := EStateM Fault (Flotilla H)

namespace Flotilla
variable {H : Type} [DecidableEq H]

def new : Flotilla H := ⟨fun dockIdx => .new dockIdx.val,∅,[],false,false,false,[]⟩

def liftOutcome {α : Type} : Outcome α → Handler H α
  | .ok value => pure value
  | .error fault => throw fault

def transmit (network : Network H) (transmission : Transmission H) : Handler H Unit := do
  let f ← get
  set {f with transmissions := f.transmissions ++ [transmission]}
  unless network.accepts f.transmissions.length transmission do throw .otherException

def lockClients : Handler H Unit := do
  let f ← get
  if f.mutexClients then throw .blocked
  set {f with mutexClients := true}

def unlockClients : Handler H Unit := modify fun f => {f with mutexClients := false}

def getClientFromHdl (hdl : H) : Handler H FlotillaClient := do
  match (← get).clients.lookup hdl with
  | some client => return client
  | none => throw .invalidArgument

/-- A change through the reference that `get_client_from_hdl` returns. -/
def changeClient (hdl : H) (change : FlotillaClient → FlotillaClient) : Handler H Unit := do
  let client ← getClientFromHdl hdl
  modify fun f => {f with clients := f.clients.replace hdl (change client)}

/-- The failure of a send is caught and the loop goes on. -/
def sendToClients (network : Network H) (command : Text) (dockIdx : Int) : Handler H Unit := do
  if (← get).stopped then return
  lockClients
  let clients := (← get).clients.entries
  for client in clients do
    if client.2.ready && client.2.subscribedTo dockIdx then
      try transmit network (.text client.1 command)
      catch fault => unless fault.isException do throw fault
  unlockClients

def stopListening : Handler H Unit := do
  let f ← get
  unless f.listening do throw .otherException
  set {f with listening := false}

/-- The handler around `close` catches `lib::error_code`, which `close` does not throw. -/
def stopServer (network : Network H) : Handler H Unit := do
  stopListening
  let clients := (← get).clients.entries
  for client in clients do
    transmit network (.text client.1 "bye".toList)
    transmit network (.close client.1)

def initDock (network : Network H) (hdl : H) (dockIdx : Fin maxDocks) : Handler H Unit := do
  let dock := (← get).dock dockIdx
  if dock.state = .connected then
    transmit network (.binary hdl dock.ident)
    for channelIdx in List.finRange maxChannels do
      if (dock.module channelIdx).state = .moduleConnected then
        transmit network (.text hdl (dock.moduleEvent channelIdx))

def initClient (network : Network H) (hdl : H) : Handler H Unit := do
  transmit network (.text hdl ("# Daemon: ".toList ++ daemonVersionString ++ ",".toList ++
    (← get).canonicalAddress))
  for dockIdx in List.finRange maxDocks do
    initDock network hdl dockIdx
  transmit network (.text hdl "# Done".toList)

def changeDock (f : Flotilla H) (dockIdx : Fin maxDocks) (dock : FlotillaDock) : Flotilla H :=
  {f with dock := Function.update f.dock dockIdx dock}

def updateDockClients (network : Network H) (dockIdx : Fin maxDocks) : Handler H Unit := do
  let (dock,events) := ((← get).dock dockIdx).getPendingEvents
  modify fun f => f.changeDock dockIdx dock
  for event in events do
    sendToClients network event dockIdx.val
  let dock := (← get).dock dockIdx
  if dock.state = .connected then
    let (dock,commands) := dock.getPendingCommands
    modify fun f => f.changeDock dockIdx dock
    for command in commands do
      sendToClients network command dockIdx.val

def updateClients (network : Network H) : Handler H Unit := do
  for dockIdx in List.finRange maxDocks do
    updateDockClients network dockIdx

def updateMessage (f : Flotilla H) (dockIndex : Int) (data : Text) : Outcome (Flotilla H) := do
  let data ← substr data 2
  let (channelIndex,channelOffset) ← channelNumber data
  if channelIndex < 0 ∨ channelIndex ≥ maxChannels then return f
  let data ← substr data (channelOffset + 1)
  let d ← arrayIndex maxDocks dockIndex
  let c ← arrayIndex maxChannels channelIndex
  return f.changeDock d ((f.dock d).setModule c (((f.dock d).module c).queueUpdate data))

def commandMessage (f : Flotilla H) (dockIndex : Int) (data : Text) : Outcome (Flotilla H) :=
  if dockIndex < maxDocks then do
    let d ← arrayIndex maxDocks dockIndex
    return f.changeDock d ((f.dock d).queueCommand data)
  else return f

def dockMessage (f : Flotilla H) (payload : Text) : Outcome (Flotilla H) := do
  let (dockIndex,_) ← stoi (← substrN payload "dock:".toList.length 2)
  let data ← substr payload (offsetAfter (find "data:".toList payload) "data:".toList.length)
  let first ← charAt data 0
  if first = 's' then f.updateMessage dockIndex data else f.commandMessage dockIndex data

/-- The `subscribe:` and `unsubscribe:` branches; any exception of the parse is caught. -/
def subscriptionMessage (key : Text) (change : FlotillaClient → Int → FlotillaClient) (hdl : H)
    (payload : Text) : Handler H Unit := do
  let parsed : Outcome (Int × Nat) := do stoi (← substrN payload key.length 2)
  match parsed with
  | .error fault => unless fault.isException do throw fault
  | .ok (dockIndex,_) =>
    if dockIndex > -1 ∧ dockIndex < maxDocks then changeClient hdl (fun client => change client dockIndex)

def handleMessage (network : Network H) (hdl : H) (payload : Text) : Handler H Unit := do
  if beginsWith "dock:".toList payload then
    let f ← liftOutcome ((← get).dockMessage payload)
    set f
  else if beginsWith "subscribe:".toList payload then
    subscriptionMessage "subscribe:".toList FlotillaClient.subscribe hdl payload
  else if beginsWith "unsubscribe:".toList payload then
    subscriptionMessage "unsubscribe:".toList FlotillaClient.unsubscribe hdl payload
  else if payload = "quit".toList then stopServer network
  else if payload = "hello".toList then initClient network hdl
  else if payload = "ready".toList then
    changeClient hdl (fun client => {client with ready := true,connected := true})
    initClient network hdl
  else if payload = "pause".toList then changeClient hdl (fun client => {client with ready := false})

def websocketOnMessage (network : Network H) (hdl : H) (payload : Text) : Handler H Unit := do
  let _ ← getClientFromHdl hdl
  handleMessage network hdl payload

/-- `clients[hdl] = client`: a new entry is constructed, then assigned to. -/
def websocketOnOpen (hdl : H) : Handler H Unit := do
  lockClients
  let f ← get
  let client := ((f.clients.lookup hdl).getD .new).assign .new
  set {f with clients := f.clients.insert hdl client}
  unlockClients

def websocketOnClose (hdl : H) : Handler H Unit := do
  lockClients
  modify fun f => {f with clients := f.clients.erase hdl}
  unlockClients

def websocketOnFail (hdl : H) : Handler H Unit := do
  lockClients
  modify fun f => {f with clients := f.clients.erase hdl}
  unlockClients

end Flotilla

end FlotillaDaemon
