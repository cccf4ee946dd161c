import FlotillaDaemon.Messages
import FlotillaDaemon.UpdatePass

/-! What each handler does in one run, as an equation: what it sends, to whom and in which
order, and which part of the state it changes. -/
namespace FlotillaDaemon
open Cpp Retained

namespace Flotilla
variable {H : Type}

def sent (f : Flotilla H) (transmissions : List (Transmission H)) : Flotilla H :=
  {f with transmissions := f.transmissions ++ transmissions}

theorem sent_nil (f : Flotilla H) : f.sent [] = f := by
  rw [sent,List.append_nil]

theorem sent_append (f : Flotilla H) (first second : List (Transmission H)) :
    f.sent (first ++ second) = (f.sent first).sent second := by
  simp only [sent,List.append_assoc]

theorem sent_cons (f : Flotilla H) (first : Transmission H) (rest : List (Transmission H)) :
    f.sent (first :: rest) = (f.sent [first]).sent rest := f.sent_append [first] rest

theorem transmit_run (network : Network H) (transmission : Transmission H) (f : Flotilla H) :
    (transmit network transmission).run f =
      if network.accepts f.transmissions.length transmission then .ok () (f.sent [transmission])
      else .error .otherException (f.sent [transmission]) := by
  unfold transmit
  simp only [EStateM.run_bind,EStateM.run_get,EStateM.run_set]
  cases network.accepts f.transmissions.length transmission <;> rfl

def transmitAll (network : Network H) : List (Transmission H) → Handler H Unit
  | [] => pure ()
  | transmission :: rest => do
    transmit network transmission
    transmitAll network rest

/-- The transmissions that are attempted: all of them, or those up to the first that fails. -/
def attempts (network : Network H) : Nat → List (Transmission H) → List (Transmission H) × Bool
  | _,[] => ([],true)
  | earlier,transmission :: rest =>
    if network.accepts earlier transmission then
      let (later,ok) := attempts network (earlier + 1) rest
      (transmission :: later,ok)
    else ([transmission],false)

theorem transmitAll_run (network : Network H) (transmissions : List (Transmission H)) (f : Flotilla H) :
    (transmitAll network transmissions).run f =
      if (attempts network f.transmissions.length transmissions).2
      then .ok () (f.sent (attempts network f.transmissions.length transmissions).1)
      else .error .otherException (f.sent (attempts network f.transmissions.length transmissions).1) := by
  induction transmissions generalizing f with
  | nil =>
    rw [attempts,sent_nil]
    rfl
  | cons transmission rest ih =>
    rw [transmitAll,EStateM.run_bind,transmit_run,attempts]
    by_cases accepted : network.accepts f.transmissions.length transmission = true
    · simp only [if_pos accepted,ih]
      have count : (f.sent [transmission]).transmissions.length = f.transmissions.length + 1 := by simp [sent]
      rw [count,sent_cons f transmission (attempts network (f.transmissions.length + 1) rest).1]
    · simp only [if_neg accepted,Bool.false_eq_true,if_false]

/-- The state after a handler, also if a send that fails ends it. -/
def after (f : Flotilla H) (handler : Handler H Unit) : Flotilla H :=
  match handler.run f with
  | .ok _ next => next
  | .error _ next => next

theorem after_transmitAll (network : Network H) (transmissions : List (Transmission H)) (f : Flotilla H) :
    f.after (transmitAll network transmissions) =
      f.sent (attempts network f.transmissions.length transmissions).1 := by
  rw [after,transmitAll_run]
  by_cases all : (attempts network f.transmissions.length transmissions).2 = true
  · simp only [if_pos all]
  · simp only [if_neg all]

theorem transmitAll_append (network : Network H) (first second : List (Transmission H)) :
    transmitAll network (first ++ second) = (do transmitAll network first; transmitAll network second) := by
  induction first with
  | nil => rfl
  | cons transmission rest ih =>
    rw [List.cons_append,transmitAll,transmitAll,ih,bind_assoc]

/-- A handler that only sends, and decides what from the state without its transmissions. -/
def Sends (network : Network H) (handler : Handler H Unit) (message : Flotilla H → List (Transmission H)) : Prop :=
  ∀ f, handler.run f = (transmitAll network (message f)).run f

theorem bind_run_congr {A B : Type} (first : Handler H A) (next other : A → Handler H B) (f : Flotilla H)
    (same : ∀ value g, (next value).run g = (other value).run g) : (first >>= next).run f = (first >>= other).run f := by
  rw [EStateM.run_bind,EStateM.run_bind]
  cases first.run f with
  | ok value g => exact same value g
  | error fault g => rfl

/-- A loop of handlers that only send sends everything in order. -/
theorem loop_sends {A : Type} (network : Network H) (items : List A)
    (body : A → PUnit → Handler H (ForInStep PUnit)) (message : A → Flotilla H → List (Transmission H))
    (sends : ∀ item f, (body item PUnit.unit).run f =
      (do transmitAll network (message item f); pure (ForInStep.yield PUnit.unit)).run f)
    (reads : ∀ item f transmissions, message item (f.sent transmissions) = message item f) :
    Sends network (forIn items PUnit.unit body) (fun f => items.flatMap (message · f)) := by
  intro f
  induction items generalizing f with
  | nil => rfl
  | cons item rest ih =>
    dsimp only at ih ⊢
    rw [List.forIn_cons,List.flatMap_cons,transmitAll_append,EStateM.run_bind,sends]
    simp only [EStateM.run_bind,EStateM.run_pure,transmitAll_run network (message item f)]
    by_cases all : (attempts network f.transmissions.length (message item f)).2 = true
    · simp only [if_pos all,ih,reads]
    · simp only [if_neg all]

def moduleGreeting (f : Flotilla H) (hdl : H) (d : Fin maxDocks) (c : Fin maxChannels) : List (Transmission H) :=
  if ((f.dock d).module c).state = .moduleConnected then [.text hdl ((f.dock d).moduleEvent c)] else []

def dockGreeting (f : Flotilla H) (hdl : H) (d : Fin maxDocks) : List (Transmission H) :=
  if (f.dock d).state = .connected then
    .binary hdl (f.dock d).ident :: (List.finRange maxChannels).flatMap (f.moduleGreeting hdl d)
  else []

/-- What `init_client` sends. -/
def greeting (f : Flotilla H) (hdl : H) : List (Transmission H) :=
  .text hdl ("# Daemon: ".toList ++ daemonVersionString ++ ",".toList ++ f.canonicalAddress) ::
    ((List.finRange maxDocks).flatMap (f.dockGreeting hdl) ++ [.text hdl "# Done".toList])

theorem transmit_sends (network : Network H) (transmission : Transmission H) :
    Sends network (transmit network transmission) (fun _ => [transmission]) := by
  intro f
  rw [transmitAll,transmitAll]
  simp only [EStateM.run_bind,EStateM.run_pure]
  cases (transmit network transmission).run f <;> rfl

theorem initDock_sends (network : Network H) (hdl : H) (d : Fin maxDocks) :
    Sends network (initDock network hdl d) (fun f => f.dockGreeting hdl d) := by
  intro f
  unfold initDock dockGreeting
  simp only [EStateM.run_bind,EStateM.run_get]
  by_cases up : (f.dock d).state = .connected
  · rw [if_pos up,if_pos up,transmitAll]
    apply bind_run_congr
    intro _ g
    rw [bind_pure_unit]
    refine loop_sends network (List.finRange maxChannels) _ (fun c _ => f.moduleGreeting hdl d c)
      (fun c g => ?_) (fun _ _ _ => rfl) g
    unfold moduleGreeting
    split
    · rw [transmitAll,transmitAll,bind_assoc]
      rfl
    · rfl
  · rw [if_neg up,if_neg up]
    rfl

theorem initClient_sends (network : Network H) (hdl : H) :
    Sends network (initClient network hdl) (fun f => f.greeting hdl) := by
  intro f
  have loop := loop_sends network (List.finRange maxDocks)
    (fun d _ => do initDock network hdl d; pure (ForInStep.yield PUnit.unit)) (fun d f => f.dockGreeting hdl d)
    (fun d g => by simp only [EStateM.run_bind,initDock_sends network hdl d g]) (fun _ _ _ => rfl)
  unfold initClient greeting
  rw [transmitAll,transmitAll_append]
  simp only [EStateM.run_bind,EStateM.run_get,transmit_run]
  generalize (Transmission.text hdl
    ("# Daemon: ".toList ++ daemonVersionString ++ ",".toList ++ f.canonicalAddress)) = first
  by_cases accepted : network.accepts f.transmissions.length first = true
  · simp only [if_pos accepted]
    have same : (forIn (List.finRange maxDocks) PUnit.unit (fun d _ => do
        initDock network hdl d
        pure (ForInStep.yield PUnit.unit) : Fin maxDocks → PUnit → Handler H (ForInStep PUnit))).run (f.sent [first]) =
        (transmitAll network ((List.finRange maxDocks).flatMap (f.dockGreeting hdl))).run (f.sent [first]) := loop (f.sent [first])
    rw [same]
    cases (transmitAll network ((List.finRange maxDocks).flatMap (f.dockGreeting hdl))).run (f.sent [first]) with
    | ok _ g => exact (transmit_run network _ g).symm.trans (transmit_sends network _ g)
    | error fault g => rfl
  · simp only [if_neg accepted]

def listens (dockIdx : Int) (client : Σ _ : H, FlotillaClient) : Bool :=
  client.2.ready && client.2.subscribedTo dockIdx

/-- The clients to which `send_to_clients` sends. -/
def audience (f : Flotilla H) (dockIdx : Int) : List H := (f.clients.entries.filter (listens dockIdx)).map Sigma.fst

/-- Each command goes to everyone in the audience, one command after the other. -/
def broadcast (f : Flotilla H) (dockIdx : Int) (commands : List Text) : Flotilla H :=
  if f.stopped then f else f.sent (commands.flatMap fun command => (f.audience dockIdx).map (.text · command))

/-- A send that fails is caught. -/
theorem transmit_caught (network : Network H) (transmission : Transmission H) (f : Flotilla H) :
    (tryCatch (transmit network transmission) fun fault =>
      if fault.isException = true then pure () else throw fault : Handler H Unit).run f =
      EStateM.Result.ok () (f.sent [transmission]) := by
  have sending : transmit network transmission f = _ := transmit_run network transmission f
  change EStateM.tryCatch (transmit network transmission) _ f = _
  simp only [EStateM.tryCatch,sending]
  cases network.accepts f.transmissions.length transmission <;> rfl

theorem broadcast_loop (network : Network H) (command : Text) (dockIdx : Int)
    (clients : List (Σ _ : H, FlotillaClient)) (f : Flotilla H) :
    (forIn clients PUnit.unit (fun client _ =>
        if (client.2.ready && client.2.subscribedTo dockIdx) = true then do
          tryCatch (transmit network (.text client.1 command)) fun fault =>
            if fault.isException = true then pure () else throw fault
          pure (ForInStep.yield PUnit.unit)
        else pure (ForInStep.yield PUnit.unit)) : Handler H PUnit).run f =
      EStateM.Result.ok PUnit.unit
        (f.sent (((clients.filter (listens dockIdx)).map Sigma.fst).map (.text · command))) := by
  induction clients generalizing f with
  | nil =>
    rw [List.filter_nil,List.map_nil,List.map_nil,sent_nil]
    rfl
  | cons client rest ih =>
    rw [List.forIn_cons,EStateM.run_bind]
    by_cases due : (client.2.ready && client.2.subscribedTo dockIdx) = true
    · have kept : listens dockIdx client = true := due
      rw [if_pos due,List.filter_cons_of_pos kept,List.map_cons,List.map_cons,sent_cons]
      simp only [EStateM.run_bind,transmit_caught,EStateM.run_pure,ih]
    · have left : ¬ listens dockIdx client = true := due
      rw [if_neg due,List.filter_cons_of_neg left]
      simp only [EStateM.run_pure,ih]

theorem lockClients_run (f : Flotilla H) (free : f.mutexClients = false) :
    (lockClients : Handler H Unit).run f = .ok () {f with mutexClients := true} := by
  simp [lockClients,free]

theorem sendToClients_run (network : Network H) (command : Text) (dockIdx : Int) (f : Flotilla H)
    (free : f.mutexClients = false) :
    (sendToClients network command dockIdx).run f = .ok () (f.broadcast dockIdx [command]) := by
  unfold sendToClients broadcast
  rw [List.flatMap_singleton]
  simp only [EStateM.run_bind,EStateM.run_get]
  split
  next => rfl
  next =>
    have loop := broadcast_loop network command dockIdx f.clients.entries {f with mutexClients := true}
    simp only [EStateM.run_bind,EStateM.run_get,lockClients_run f free,loop]
    change EStateM.Result.ok () {sent {f with mutexClients := true} _ with mutexClients := false} = _
    rw [← free]
    rfl

theorem broadcast_nil (f : Flotilla H) (dockIdx : Int) : f.broadcast dockIdx [] = f := by
  rw [broadcast,List.flatMap_nil,sent_nil,ite_self]

theorem broadcast_mutex (f : Flotilla H) (dockIdx : Int) (commands : List Text) :
    (f.broadcast dockIdx commands).mutexClients = f.mutexClients := by
  unfold broadcast
  split <;> rfl

theorem broadcast_clients (f : Flotilla H) (dockIdx : Int) (commands : List Text) :
    (f.broadcast dockIdx commands).clients = f.clients := by
  unfold broadcast
  split <;> rfl

theorem broadcast_append (f : Flotilla H) (dockIdx : Int) (first second : List Text) :
    f.broadcast dockIdx (first ++ second) = (f.broadcast dockIdx first).broadcast dockIdx second := by
  unfold broadcast
  by_cases stopped : f.stopped = true
  · simp only [if_pos stopped]
  · simp only [if_neg stopped,List.flatMap_append,sent_append]
    exact (if_neg stopped).symm

theorem broadcast_dock (f : Flotilla H) (dockIdx : Int) (commands : List Text) :
    (f.broadcast dockIdx commands).dock = f.dock := by
  unfold broadcast
  split <;> rfl

theorem commands_run (network : Network H) (dockIdx : Int) (commands : List Text) (f : Flotilla H)
    (free : f.mutexClients = false) :
    (forIn commands PUnit.unit (fun command _ => do
        sendToClients network command dockIdx
        pure (ForInStep.yield PUnit.unit)) : Handler H PUnit).run f =
      EStateM.Result.ok PUnit.unit (f.broadcast dockIdx commands) := by
  induction commands generalizing f with
  | nil =>
    rw [broadcast_nil]
    rfl
  | cons command rest ih =>
    have later := ih (f.broadcast dockIdx [command]) ((f.broadcast_mutex dockIdx _).trans free)
    rw [← List.singleton_append,broadcast_append,List.singleton_append,List.forIn_cons]
    simp only [EStateM.run_bind,sendToClients_run network command dockIdx f free,EStateM.run_pure,later]

def servedDock (f : Flotilla H) (d : Fin maxDocks) : Flotilla H :=
  (f.changeDock d (f.dock d).afterPass).broadcast d.val
    ((f.dock d).passMessages.map (Message.text (f.dock d).index))

theorem changeDock_dock (f : Flotilla H) (d : Fin maxDocks) (dock : FlotillaDock) :
    (f.changeDock d dock).dock = Function.update f.dock d dock := rfl

theorem changeDock_again (f : Flotilla H) (d : Fin maxDocks) (first second : FlotillaDock) :
    (f.changeDock d first).changeDock d second = f.changeDock d second := by
  simp only [changeDock,Function.update_idem]

theorem broadcast_changeDock (f : Flotilla H) (dockIdx : Int) (commands : List Text) (d : Fin maxDocks)
    (dock : FlotillaDock) :
    (f.broadcast dockIdx commands).changeDock d dock = (f.changeDock d dock).broadcast dockIdx commands := by
  unfold broadcast
  by_cases stopped : f.stopped = true
  · rw [if_pos stopped,if_pos (show (f.changeDock d dock).stopped = true from stopped)]
  · rw [if_neg stopped,if_neg (show ¬ (f.changeDock d dock).stopped = true from stopped)]
    rfl

theorem passMessages_events (dock : FlotillaDock) :
    (dock.eventQueue.map Message.event).map (Message.text dock.index) = dock.eventQueue := by
  rw [List.map_map]
  exact List.map_id _

theorem updateDockClients_run (network : Network H) (d : Fin maxDocks) (f : Flotilla H)
    (free : f.mutexClients = false) :
    (updateDockClients network d).run f = .ok () (f.servedDock d) := by
  let flushed : FlotillaDock := {f.dock d with eventQueue := []}
  let mid := (f.changeDock d flushed).broadcast d.val (f.dock d).eventQueue
  have events := commands_run network d.val (f.dock d).eventQueue (f.changeDock d flushed) free
  have dock : mid.dock d = flushed := by
    rw [broadcast_dock]
    exact Function.update_self ..
  unfold updateDockClients servedDock FlotillaDock.afterPass FlotillaDock.passMessages
  simp only [EStateM.run_bind,EStateM.run_get,FlotillaDock.getPendingEvents,EStateM.run_modify]
  rw [events]
  change EStateM.run (if (mid.dock d).state = .connected then _ else _) mid = _
  rw [List.map_append,passMessages_events,dock]
  by_cases connected : (f.dock d).state = .connected
  · rw [if_pos (show flushed.state = .connected from connected)]
    simp only [EStateM.run_bind,EStateM.run_modify,if_pos connected]
    rw [commands_run network d.val flushed.getPendingCommands.2 (mid.changeDock d flushed.getPendingCommands.1)
      ((broadcast_mutex _ _ _).trans free)]
    have values : flushed.pendingCommand = (f.dock d).pendingCommand :=
      funext fun c => (f.dock d).pendingCommand_same flushed c rfl
    rw [flushed.getPendingCommands_eq,broadcast_changeDock,changeDock_again,← broadcast_append,values]
    simp only [EStateM.run_pure,flushed]
  · rw [if_neg (show ¬ flushed.state = .connected from connected)]
    simp only [connected,if_false,List.map_nil,List.append_nil]
    rfl

def servedAll (f : Flotilla H) : Flotilla H := (List.finRange maxDocks).foldl servedDock f

theorem updateClients_run (network : Network H) (f : Flotilla H) (free : f.mutexClients = false) :
    (updateClients network).run f = .ok () f.servedAll := by
  have loop (docks : List (Fin maxDocks)) (g : Flotilla H) (unlocked : g.mutexClients = false) :
      (forIn docks PUnit.unit (fun d _ => do
          updateDockClients network d
          pure (ForInStep.yield PUnit.unit)) : Handler H PUnit).run g =
        EStateM.Result.ok PUnit.unit (docks.foldl servedDock g) := by
    induction docks generalizing g with
    | nil => rfl
    | cons d rest ih =>
      have later := ih (g.servedDock d) ((broadcast_mutex _ _ _).trans unlocked)
      rw [List.forIn_cons]
      simp only [EStateM.run_bind,updateDockClients_run network d g unlocked,EStateM.run_pure,later,List.foldl_cons]
  unfold updateClients servedAll
  simp only [EStateM.run_bind,loop _ f free]
  rfl

/-- What an update pass sends for a dock. -/
def passSends (f : Flotilla H) (d : Fin maxDocks) : List (Transmission H) :=
  ((f.dock d).passMessages.map (Message.text (f.dock d).index)).flatMap fun command =>
    (f.audience d.val).map (.text · command)

theorem docks_served (f : Flotilla H) (running : f.stopped = false) (docks : List (Fin maxDocks)) (distinct : docks.Nodup) :
    docks.foldl servedDock f =
      {f with
        dock := fun d => if d ∈ docks then (f.dock d).afterPass else f.dock d
        transmissions := f.transmissions ++ docks.flatMap f.passSends} := by
  induction docks generalizing f with
  | nil => simp
  | cons x rest ih =>
    obtain ⟨fresh,distinct⟩ := List.nodup_cons.mp distinct
    have served : f.servedDock x = (f.changeDock x (f.dock x).afterPass).sent (f.passSends x) := by
      rw [servedDock,broadcast,changeDock,running]
      rfl
    have others : rest.flatMap (f.servedDock x).passSends = rest.flatMap f.passSends := by
      apply List.flatMap_congr
      intro d member
      have apart : d ≠ x := fun own => fresh (own ▸ member)
      have kept : (f.servedDock x).dock d = f.dock d := by
        rw [served]
        exact Function.update_of_ne apart ..
      rw [passSends,kept,served]
      rfl
    have still : (f.servedDock x).stopped = false := by
      rw [served]
      exact running
    rw [List.foldl_cons,ih _ still distinct,others,served]
    simp only [sent,changeDock,List.flatMap_cons,List.append_assoc]
    congr 1
    funext d
    by_cases own : d = x
    · subst own
      simp [fresh]
    · simp [own]

theorem servedAll_eq (f : Flotilla H) (running : f.stopped = false) :
    f.servedAll =
      {f with
        dock := fun d => (f.dock d).afterPass
        transmissions := f.transmissions ++ (List.finRange maxDocks).flatMap f.passSends} := by
  rw [servedAll,docks_served f running _ (List.nodup_finRange _)]
  simp

end Flotilla

end FlotillaDaemon
