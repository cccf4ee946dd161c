import FlotillaDaemon.ValueDelivery

/-! What the operations of a dock announce. Whatever changes the table of its modules queues the
events that lead from the old table to the new one, in order, and no others. -/
namespace FlotillaDaemon
open Cpp Retained Replay

namespace FlotillaDock

/-- The events that are queued from one state of a dock to a later one. -/
structure Announced (dock next : FlotillaDock) (events : List ModuleEvent) : Prop where
  index : next.index = dock.index
  queue : next.eventQueue = dock.eventQueue ++ events.map (ModuleEvent.text dock.index)
  table : next.table = replay ModuleEvent.channel ModuleEvent.shown dock.table events

theorem announced_none (dock next : FlotillaDock) (index : next.index = dock.index)
    (queue : next.eventQueue = dock.eventQueue) (table : next.table = dock.table) : dock.Announced next [] :=
  ⟨index,queue.trans (List.append_nil _).symm,table⟩

theorem announced_same (dock : FlotillaDock) : dock.Announced dock [] := announced_none dock dock rfl rfl rfl

theorem announced_trans (dock mid next : FlotillaDock) (first second : List ModuleEvent) (earlier : dock.Announced mid first)
    (later : mid.Announced next second) : dock.Announced next (first ++ second) := by
  refine ⟨later.index.trans earlier.index,?_,?_⟩
  · rw [later.queue,earlier.queue,earlier.index,List.map_append,List.append_assoc]
  · rw [later.table,earlier.table,replay_append]

/-- A change of one module that is announced at once. -/
theorem announced_change (dock : FlotillaDock) (c : Fin maxChannels) (m : FlotillaModule) :
    dock.Announced ((dock.setModule c m).queueModuleEvent c) [(dock.setModule c m).event c] := by
  refine ⟨rfl,?_,?_⟩
  · change dock.eventQueue ++ [(dock.setModule c m).moduleEvent c] = _
    rw [moduleEvent_eq]
    rfl
  · change (dock.setModule c m).table = Function.update dock.table c ((dock.setModule c m).table c)
    funext x
    by_cases own : x = c
    · rw [own,Function.update_self]
    · rw [Function.update_of_ne own]
      exact dock.table_own c x m own

theorem lineMove_announced (dock : FlotillaDock) (changed : FlotillaDock × Option (Fin maxChannels))
    (move : LineMove dock changed) : ∃ events, dock.Announced (announce changed) events := by
  cases move with
  | informed user name => exact ⟨[],announced_none _ _ rfl rfl rfl⟩
  | queued c data => exact ⟨[],announced_none _ _ rfl rfl (dock.table_same c _ rfl rfl)⟩
  | disconnected c => exact ⟨_,dock.announced_change c _⟩
  | connected c name => exact ⟨_,dock.announced_change c _⟩

theorem writeQueues_announced (dock : FlotillaDock) (port : SerialPort) : dock.Announced (dock.writeQueues port).1 [] := by
  rw [writeQueues_dock]
  refine announced_none _ _ rfl rfl ?_
  funext c
  have kept : (polledUpdate (dock.module c)).state = (dock.module c).state ∧
      (polledUpdate (dock.module c)).name = (dock.module c).name := by
    unfold polledUpdate
    split
    · exact ⟨(dock.module c).getNextUpdate_state [],getNextUpdate_name _⟩
    · exact ⟨rfl,rfl⟩
  unfold table event
  dsimp only
  rw [kept.1,kept.2]

theorem readInput_announced (dock next : FlotillaDock) (input left : List Arrival)
    (read : dock.readInput input = .ok (next,left)) : ∃ events, dock.Announced next events := by
  refine readInput_keeps (fun mid => ∃ events, dock.Announced mid events) ?_ dock next input left read
    ⟨[],dock.announced_same⟩
  rintro mid changed move ⟨earlier,announced⟩
  obtain ⟨later,more⟩ := mid.lineMove_announced changed move
  exact ⟨_,announced_trans _ _ _ _ _ announced more⟩

theorem afterTick_announced (dock : FlotillaDock) (port : SerialPort) :
    ∃ events, dock.Announced (dock.afterTick port) events := by
  by_cases connected : dock.state = .connected
  swap
  · rw [dock.afterTick_off port connected]
    exact ⟨[],dock.announced_same⟩
  have written := dock.writeQueues_announced port
  unfold afterTick
  cases returned : dock.tick port with
  | error fault => exact ⟨[],written⟩
  | ok result =>
    obtain ⟨next,after⟩ := result
    obtain ⟨_,read⟩ := dock.tick_connected next port after connected returned
    obtain ⟨events,announced⟩ := readInput_announced _ next _ _ read
    exact ⟨_,announced_trans _ _ _ _ _ written announced⟩

theorem disconnect_announced (dock : FlotillaDock) : ∃ events, dock.Announced dock.disconnect events := by
  have lost (channels : List (Fin maxChannels)) (mid : FlotillaDock) :
      ∃ events, mid.Announced (channels.foldl loseModule mid) events := by
    induction channels generalizing mid with
    | nil => exact ⟨[],mid.announced_same⟩
    | cons c rest ih =>
      have here : ∃ events, mid.Announced (mid.loseModule c) events := by
        unfold loseModule
        split
        · exact ⟨_,mid.announced_change c _⟩
        · exact ⟨[],mid.announced_same⟩
      obtain ⟨first,announced⟩ := here
      obtain ⟨second,more⟩ := ih (mid.loseModule c)
      exact ⟨_,announced_trans _ _ _ _ _ announced more⟩
  unfold disconnect
  split
  · exact ⟨[],dock.announced_same⟩
  · obtain ⟨events,announced⟩ := lost (List.finRange maxChannels) {dock with state := .disconnected}
    exact ⟨events,announced.index,announced.queue,announced.table⟩

theorem setPort_announced (dock : FlotillaDock) (copied opened banner : Bool) (arrived : List Arrival) :
    dock.Announced (dock.setPort copied opened banner arrived).1 [] := by
  obtain ⟨next,ok,set,_,introduced⟩ := dock.setPort_effect copied opened banner arrived
  obtain ⟨_,_,_,_,rfl⟩ := introduced
  rw [set]
  exact announced_none _ _ rfl rfl rfl

/-- A pass flushes the queue and leaves the table as it is. -/
theorem afterPass_table (dock : FlotillaDock) : dock.afterPass.table = dock.table := by
  funext c
  have kept : (dock.afterPass.module c).state = (dock.module c).state ∧
      (dock.afterPass.module c).name = (dock.module c).name := by
    change (if dock.state = .connected then polledCommand (dock.module c) else dock.module c).state = _ ∧
      (if dock.state = .connected then polledCommand (dock.module c) else dock.module c).name = _
    unfold polledCommand
    split
    · split
      · exact ⟨FlotillaModule.getNextCommand_state _,getNextCommand_name _⟩
      · exact ⟨rfl,rfl⟩
    · exact ⟨rfl,rfl⟩
  unfold table event
  rw [kept.1,kept.2]

end FlotillaDock

namespace Flotilla
variable {H : Type}

theorem changeDock_announced (f : Flotilla H) (e d : Fin maxDocks) (dock : FlotillaDock)
    (announced : ∃ events, (f.dock e).Announced dock events) :
    ∃ events, (f.dock d).Announced ((f.changeDock e dock).dock d) events := by
  rw [changeDock_dock]
  by_cases own : e = d
  · subst own
    rw [Function.update_self]
    exact announced
  · rw [Function.update_of_ne (Ne.symm own)]
    exact ⟨[],(f.dock d).announced_same⟩

theorem queued_announced (f : Flotilla H) (e d : Fin maxDocks) (c : Fin maxChannels) (data : Text) :
    ∃ events, (f.dock d).Announced ((f.queued e c data).dock d) events :=
  f.changeDock_announced e d _ ⟨[],FlotillaDock.announced_none _ _ rfl rfl ((f.dock e).table_same c _ rfl rfl)⟩

theorem message_announced [DecidableEq H] (network : Network H) (hdl : H) (payload : Text) (f : Flotilla H)
    (d : Fin maxDocks) :
    ∃ events, (f.dock d).Announced ((f.after (websocketOnMessage network hdl payload)).dock d) events := by
  by_cases start : "dock:".toList <+: payload
  · rcases dock_message_after network hdl payload f start with same | handled
    · rw [same]
      exact ⟨[],(f.dock d).announced_same⟩
    · rcases dockMessage_effect f _ payload handled with same | ⟨e,c,data,same⟩ | ⟨e,command,same⟩ <;> rw [same]
      · exact ⟨[],(f.dock d).announced_same⟩
      · exact f.queued_announced e d c data
      · exact f.changeDock_announced e d _ ⟨[],FlotillaDock.announced_none _ _ rfl rfl rfl⟩
  · obtain ⟨_,_,_,same,_⟩ := message_effect network hdl payload f start
    rw [same]
    exact ⟨[],(f.dock d).announced_same⟩

end Flotilla

namespace Host
variable {H : Type} [DecidableEq H]

/-- Every step but a pass announces what it changes. -/
theorem step_announced (network : Network H) (h : Host H) (serving : h.Serving) (d : Fin maxDocks) (input : HostInput H)
    (other : input ≠ .updateClients) :
    ∃ events, (h.flotilla.dock d).Announced ((h.step network input).flotilla.dock d) events := by
  rw [h.step_flotilla network serving input]
  split
  · exact ⟨[],(h.flotilla.dock d).announced_same⟩
  cases input with
  | opened _ | closed _ | failed _ => exact ⟨[],(h.flotilla.dock d).announced_same⟩
  | message hdl request => exact h.flotilla.message_announced network hdl request.payload d
  | updateClients => exact absurd rfl other
  | tick e arrived => exact h.flotilla.changeDock_announced e d _ ((h.flotilla.dock e).afterTick_announced _)
  | disconnect e => exact h.flotilla.changeDock_announced e d _ (h.flotilla.dock e).disconnect_announced
  | setPort e copied opened banner arrived =>
    exact h.flotilla.changeDock_announced e d _ ⟨[],(h.flotilla.dock e).setPort_announced copied opened banner arrived⟩

end Host

end FlotillaDaemon
