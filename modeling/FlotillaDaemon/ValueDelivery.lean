import FlotillaDaemon.ClientValues
import FlotillaDaemon.ModuleValues
import FlotillaDaemon.UpdateRouting

/-! Which value of a module a client holds. A value is sent once, to those that are due it at the
pass that polls it, and not again until another one is reported on its channel. -/
namespace FlotillaDaemon
open Cpp Retained

namespace FlotillaDock

/-- A slot keeps its own number, and the events that wait in it are its modules'. -/
structure Labelled (dock : FlotillaDock) (d : Fin maxDocks) : Prop where
  own : dock.index = d.val
  events : ∀ text ∈ dock.eventQueue, ∃ event : ModuleEvent, text = event.text d.val

/-- No module is connected in a slot that is not. -/
structure Wired (dock : FlotillaDock) (d : Fin maxDocks) : Prop where
  labelled : dock.Labelled d
  connected : ∀ c, (dock.module c).state = .moduleConnected → dock.state = .connected

theorem new_wired (d : Fin maxDocks) : (new d.val).Wired d :=
  ⟨⟨rfl,fun _ waiting => absurd waiting List.not_mem_nil⟩,fun _ up => by contradiction⟩

theorem moduleEvent_labelled (dock : FlotillaDock) (d : Fin maxDocks) (c : Fin maxChannels) (labelled : dock.Labelled d) :
    (dock.queueModuleEvent c).Labelled d := by
  refine ⟨labelled.own,fun text waiting => ?_⟩
  rcases List.mem_append.mp waiting with earlier | now
  · exact labelled.events text earlier
  · refine ⟨dock.event c,?_⟩
    rw [List.mem_singleton.mp now,dock.moduleEvent_eq c,labelled.own]

theorem line_wired (dock : FlotillaDock) (d : Fin maxDocks) (changed : FlotillaDock × Option (Fin maxChannels))
    (move : LineMove dock changed) (labelled : dock.Labelled d) (connected : dock.state = .connected) :
    (announce changed).Wired d := by
  have own (c : Fin maxChannels) (m : FlotillaModule) : (dock.setModule c m).Labelled d :=
    ⟨labelled.own,labelled.events⟩
  cases move with
  | informed user name => exact ⟨⟨labelled.own,labelled.events⟩,fun _ _ => connected⟩
  | queued c data => exact ⟨own c _,fun _ _ => connected⟩
  | disconnected c => exact ⟨moduleEvent_labelled _ d c (own c _),fun _ _ => connected⟩
  | connected c name => exact ⟨moduleEvent_labelled _ d c (own c _),fun _ _ => connected⟩

theorem afterTick_wired (dock : FlotillaDock) (d : Fin maxDocks) (port : SerialPort) (wired : dock.Wired d) :
    (dock.afterTick port).Wired d := by
  by_cases connected : dock.state = .connected
  swap
  · rw [dock.afterTick_off port connected]
    exact wired
  have written : (dock.writeQueues port).1.Wired d ∧ (dock.writeQueues port).1.state = .connected := by
    rw [writeQueues_dock]
    exact ⟨⟨⟨wired.labelled.own,wired.labelled.events⟩,fun _ _ => connected⟩,connected⟩
  unfold afterTick
  cases returned : dock.tick port with
  | error fault => exact written.1
  | ok result =>
    obtain ⟨next,after⟩ := result
    obtain ⟨_,read⟩ := dock.tick_connected next port after connected returned
    have kept := readInput_keeps (fun dock => dock.Wired d ∧ dock.state = .connected)
      (fun dock changed move kept => ⟨dock.line_wired d changed move kept.1.labelled kept.2,
        (dock.lineMove_state changed move).trans kept.2⟩) _ next _ _ read written
    exact kept.1

theorem disconnect_wired (dock : FlotillaDock) (d : Fin maxDocks) (wired : dock.Wired d) : dock.disconnect.Wired d := by
  have lost (channels : List (Fin maxChannels)) (dock : FlotillaDock) (labelled : dock.Labelled d) :
      (channels.foldl loseModule dock).Labelled d := by
    induction channels generalizing dock with
    | nil => exact labelled
    | cons c rest ih =>
      apply ih
      unfold loseModule
      split
      · exact moduleEvent_labelled _ d c ⟨labelled.own,labelled.events⟩
      · exact labelled
  unfold disconnect
  by_cases off : dock.state = .disconnected
  · rw [if_pos off]
    exact wired
  · rw [if_neg off]
    refine ⟨lost _ _ ⟨wired.labelled.own,wired.labelled.events⟩,fun c up => ?_⟩
    rw [loseModule_calls] at up
    split at up
    · contradiction
    next kept => exact absurd ⟨List.mem_finRange c,up⟩ kept

theorem setPort_wired (dock : FlotillaDock) (d : Fin maxDocks) (copied opened banner : Bool) (arrived : List Arrival)
    (wired : dock.Wired d) : (dock.setPort copied opened banner arrived).1.Wired d := by
  obtain ⟨next,ok,set,_,introduced⟩ := dock.setPort_effect copied opened banner arrived
  obtain ⟨_,_,_,_,rfl⟩ := introduced
  rw [set]
  refine ⟨⟨wired.labelled.own,wired.labelled.events⟩,fun c up => ?_⟩
  dsimp only at up ⊢
  cases ok with
  | true => rfl
  | false => exact wired.connected c up

theorem afterPass_wired (dock : FlotillaDock) (d : Fin maxDocks) (wired : dock.Wired d) : dock.afterPass.Wired d := by
  refine ⟨⟨wired.labelled.own,fun _ waiting => absurd waiting List.not_mem_nil⟩,fun c up => ?_⟩
  change (if dock.state = .connected then polledCommand (dock.module c) else dock.module c).state = _ at up
  by_cases connected : dock.state = .connected
  · exact connected
  · rw [if_neg connected] at up
    exact wired.connected c up

/-- The value that a pass sends for a channel, if it sends one. -/
def reports (dock : FlotillaDock) (c : Fin maxChannels) : Text :=
  if dock.state = .connected ∧ (dock.module c).state = .moduleConnected then (dock.module c).getNextCommand.2 else []

end FlotillaDock

namespace Flotilla
variable {H : Type}

theorem passSends_value (f : Flotilla H) (wired : ∀ e, (f.dock e).Wired e) (a : H) (d : Fin maxDocks)
    (c : Fin maxChannels) (name text value : Text) (read : readValue d c name text = some value)
    (sent : .text a text ∈ (List.finRange maxDocks).flatMap f.passSends) :
    (f.dock d).reports c ≠ [] ∧ text = (Message.value c ((f.dock d).module c).name ((f.dock d).reports c)).text d.val := by
  obtain ⟨e,_,sent⟩ := List.mem_flatMap.mp sent
  obtain ⟨command,queued,sent⟩ := List.mem_flatMap.mp sent
  obtain ⟨hdl,_,same⟩ := List.mem_map.mp sent
  obtain ⟨rfl,rfl⟩ := Transmission.text.inj same
  obtain ⟨message,passed,rfl⟩ := List.mem_map.mp queued
  rw [(wired e).labelled.own] at read ⊢
  rcases List.mem_append.mp passed with flushed | pending
  · obtain ⟨text,waiting,rfl⟩ := List.mem_map.mp flushed
    obtain ⟨event,rfl⟩ := (wired e).labelled.events text waiting
    have silent : readValue d c name ((Message.event (event.text e.val)).text e.val) = none :=
      readValue_event d c name e event
    rw [silent] at read
    contradiction
  · split at pending
    next connected =>
      obtain ⟨x,_,pending⟩ := List.mem_flatMap.mp pending
      unfold FlotillaDock.pendingCommand at pending
      split at pending
      next polled =>
        rw [List.mem_singleton.mp pending] at read ⊢
        by_cases own : e = d ∧ x = c
        · obtain ⟨rfl,rfl⟩ := own
          rw [FlotillaDock.reports,if_pos ⟨connected,polled.1⟩]
          exact ⟨polled.2,rfl⟩
        · rw [readValue_other d c name e x _ _ own] at read
          contradiction
      · contradiction
    · contradiction

theorem passSends_own (f : Flotilla H) (wired : ∀ e, (f.dock e).Wired e) (a : H) (d : Fin maxDocks)
    (c : Fin maxChannels) (due : a ∈ f.audience d.val) (fresh : (f.dock d).reports c ≠ []) :
    .text a ((Message.value c ((f.dock d).module c).name ((f.dock d).reports c)).text d.val) ∈
      (List.finRange maxDocks).flatMap f.passSends := by
  refine List.mem_flatMap.mpr ⟨d,List.mem_finRange d,List.mem_flatMap.mpr ⟨_,?_,List.mem_map.mpr ⟨a,due,rfl⟩⟩⟩
  rw [← (wired d).labelled.own]
  refine List.mem_map.mpr ⟨_,?_,rfl⟩
  unfold FlotillaDock.reports at fresh ⊢
  split at fresh
  next polled =>
    rw [if_pos polled,FlotillaDock.passMessages,if_pos polled.1]
    refine List.mem_append.mpr (.inr (List.mem_flatMap.mpr ⟨c,List.mem_finRange c,?_⟩))
    rw [FlotillaDock.pendingCommand,if_pos ⟨polled.2,fresh⟩]
    exact List.mem_cons_self
  · contradiction

theorem changeDock_wired (f : Flotilla H) (wired : ∀ e, (f.dock e).Wired e) (e : Fin maxDocks) (dock : FlotillaDock)
    (own : dock.Wired e) : ∀ d, ((f.changeDock e dock).dock d).Wired d := by
  intro d
  rw [changeDock_dock]
  by_cases docked : e = d
  · subst docked
    rw [Function.update_self]
    exact own
  · rw [Function.update_of_ne (Ne.symm docked)]
    exact wired d

theorem message_wired [DecidableEq H] (network : Network H) (hdl : H) (payload : Text) (f : Flotilla H)
    (wired : ∀ e, (f.dock e).Wired e) :
    ∀ e, ((f.after (websocketOnMessage network hdl payload)).dock e).Wired e := by
  by_cases start : "dock:".toList <+: payload
  · rcases dock_message_after network hdl payload f start with same | handled
    · rw [same]
      exact wired
    · rcases dockMessage_effect f _ payload handled with same | ⟨d,c,data,same⟩ | ⟨d,command,same⟩ <;> rw [same]
      · exact wired
      · refine f.changeDock_wired wired d _ ⟨⟨(wired d).labelled.own,(wired d).labelled.events⟩,fun x up => ?_⟩
        have state := (f.dock d).setModule_states c (((f.dock d).module c).queueUpdate data) rfl x
        exact (wired d).connected x (state.symm.trans up)
      · exact f.changeDock_wired wired d _ ⟨⟨(wired d).labelled.own,(wired d).labelled.events⟩,(wired d).connected⟩
  · obtain ⟨_,_,_,same,_⟩ := message_effect network hdl payload f start
    rw [same]
    exact wired

theorem greeting_valueless (f : Flotilla H) (wired : ∀ e, (f.dock e).Wired e) (hdl a : H) (d : Fin maxDocks)
    (c : Fin maxChannels) (name text : Text) (sent : .text a text ∈ f.greeting hdl) :
    readValue d c name text = none := by
  rcases List.mem_cons.mp sent with first | later
  · rw [(Transmission.text.inj first).2]
    exact readValue_plain d c name _ (by simp)
  · rcases List.mem_append.mp later with inside | last
    · obtain ⟨e,_,docked⟩ := List.mem_flatMap.mp inside
      unfold dockGreeting at docked
      split at docked
      · rcases List.mem_cons.mp docked with ident | modules
        · contradiction
        · obtain ⟨x,_,shown⟩ := List.mem_flatMap.mp modules
          unfold moduleGreeting at shown
          split at shown
          · rw [(Transmission.text.inj (List.mem_singleton.mp shown)).2,FlotillaDock.moduleEvent_eq,
              (wired e).labelled.own]
            exact readValue_event d c name e _
          · contradiction
      · contradiction
    · rw [(Transmission.text.inj (List.mem_singleton.mp last)).2]
      exact readValue_plain d c name _ (by simp)

theorem farewell_valueless (f : Flotilla H) (a : H) (d : Fin maxDocks) (c : Fin maxChannels) (name text : Text)
    (sent : .text a text ∈ f.farewell) : readValue d c name text = none := by
  obtain ⟨client,_,ended⟩ := List.mem_flatMap.mp sent
  rcases List.mem_cons.mp ended with bye | closed
  · rw [(Transmission.text.inj bye).2]
    exact readValue_plain d c name _ (by simp)
  · exact absurd (List.mem_singleton.mp closed) (by simp)

theorem message_valueless [DecidableEq H] (network : Network H) (hdl : H) (payload : Text) (f : Flotilla H)
    (wired : ∀ e, (f.dock e).Wired e) (a : H) (d : Fin maxDocks) (c : Fin maxChannels) (name : Text) :
    heldValue network a d c name (f.after (websocketOnMessage network hdl payload)).transmissions =
      heldValue network a d c name f.transmissions := by
  by_cases start : "dock:".toList <+: payload
  · rcases dock_message_after network hdl payload f start with same | handled
    · rw [same]
    · rcases dockMessage_effect f _ payload handled with same | ⟨_,_,_,same⟩ | ⟨_,_,same⟩ <;> rw [same] <;> rfl
  · obtain ⟨_,_,texts,same,sent⟩ := message_effect network hdl payload f start
    rw [same]
    apply heldValue_kept network a d c name
    intro text member
    rcases sent _ member with greeted | ended
    · exact f.greeting_valueless wired hdl a d c name text greeted
    · exact f.farewell_valueless a d c name text ended

end Flotilla

/-- What is known of a module and a client in a run: the value of the latest data line since
the module connected, whether a pass has been made with the client in the audience since it,
and the name under which the client was sent the last value that was sent for the channel. -/
structure Watch where
  latest : Option Text
  settled : Bool
  told : Option Text
  deriving DecidableEq

namespace Host
variable {H : Type} [DecidableEq H] (network : Network H) (a : H) (d : Fin maxDocks) (c : Fin maxChannels)

def watch (h : Host H) (input : HostInput H) (w : Watch) : Watch :=
  let f := h.flotilla
  let seen := ((f.dock d).module c).noteCalls (w.latest,w.settled) (h.calls d c input)
  match input with
  | .updateClients =>
    if h.halted then w
    else
      ⟨seen.1,seen.2 || decide (a ∈ f.audience d.val),
        if (f.dock d).reports c = [] then w.told
        else if a ∈ f.audience d.val ∧
          reached network a f.transmissions.length ((List.finRange maxDocks).flatMap f.passSends) = true
        then some ((f.dock d).module c).name else none⟩
  | _ => ⟨seen.1,seen.2,w.told⟩

def NoUpdate (h : Host H) (input : HostInput H) : Prop :=
  (((h.step network input).flotilla.dock d).module c).updateQueue = []

instance (h : Host H) (input : HostInput H) : Decidable (h.NoUpdate network d c input) :=
  inferInstanceAs (Decidable (_ = _))

theorem noUpdate_direct (h : Host H) (input : HostInput H) (quiet : h.NoUpdate network d c input) :
    h.Direct network d c input := by
  unfold Direct
  split
  next hdl payload =>
    unfold NoUpdate at quiet
    unfold step at quiet ⊢
    split at quiet
    next halted => rw [if_pos halted]
    next running =>
      rw [if_neg running]
      dsimp only at quiet ⊢
      rw [handle_flotilla] at quiet ⊢
      by_cases start : "dock:".toList <+: (Request.other payload).payload
      · rcases Flotilla.dock_message_after network hdl _ h.flotilla start with same | handled
        · rw [same]
        · rcases Flotilla.dockMessage_effect h.flotilla _ _ handled with same | ⟨e,x,data,same⟩ | ⟨e,command,same⟩
          · rw [same]
          · rw [same,queued_module] at quiet ⊢
            split at quiet
            next own =>
              rw [if_pos own]
              change enqueue _ data = [] at quiet
              by_cases empty : data = []
              · rw [empty]
                rfl
              · rw [enqueue_present _ _ empty] at quiet
                simp at quiet
            next other => rw [if_neg other]
          · rw [same,changeDock_module]
            split
            next own =>
              rw [own]
              rfl
            · rfl
      · obtain ⟨_,_,_,same,_⟩ := Flotilla.message_effect network hdl _ h.flotilla start
        rw [same]
  next => trivial

theorem noUpdate_calls (h : Host H) (input : HostInput H) (quiet : h.NoUpdate network d c input) :
    ∀ call ∈ h.calls d c input, ∀ cmd, call ≠ .queueUpdate cmd := by
  intro call made cmd asked
  rcases h.calls_cases d c input call made with ⟨hdl,data,rfl,running,known,_⟩ | ⟨_,_,_,other⟩ | other | line
  · rw [NoUpdate,step_update network h hdl d c data running known,queued_module,if_pos ⟨rfl,rfl⟩] at quiet
    change enqueue _ data.val = [] at quiet
    rw [enqueue_present _ _ data.property] at quiet
    simp at quiet
  · rw [asked] at other
    contradiction
  · rw [asked] at other
    contradiction
  · rw [asked] at line
    contradiction

theorem step_wired (h : Host H) (serving : h.Serving) (wired : ∀ e, (h.flotilla.dock e).Wired e)
    (input : HostInput H) : ∀ e, ((h.step network input).flotilla.dock e).Wired e := by
  rw [h.step_flotilla network serving input]
  split
  · exact wired
  cases input with
  | opened hdl | closed hdl | failed hdl => exact wired
  | message hdl request => exact Flotilla.message_wired network hdl request.payload h.flotilla wired
  | updateClients => exact fun e => (h.flotilla.dock e).afterPass_wired e (wired e)
  | tick e arrived => exact h.flotilla.changeDock_wired wired e _ ((h.flotilla.dock e).afterTick_wired e _ (wired e))
  | disconnect e => exact h.flotilla.changeDock_wired wired e _ ((h.flotilla.dock e).disconnect_wired e (wired e))
  | setPort e copied opened banner arrived =>
    exact h.flotilla.changeDock_wired wired e _
      ((h.flotilla.dock e).setPort_wired e copied opened banner arrived (wired e))

theorem step_held (h : Host H) (serving : h.Serving) (wired : ∀ e, (h.flotilla.dock e).Wired e) (input : HostInput H)
    (other : input ≠ .updateClients) (name : Text) :
    heldValue network a d c name (h.step network input).flotilla.transmissions =
      heldValue network a d c name h.flotilla.transmissions := by
  rw [h.step_flotilla network serving input]
  split
  · rfl
  cases input with
  | message hdl request =>
    exact Flotilla.message_valueless network hdl request.payload h.flotilla wired a d c name
  | updateClients => exact absurd rfl other
  | opened _ | closed _ | failed _ | tick _ _ | disconnect _ | setPort _ _ _ _ _ => rfl

/-- The value that the client holds is the one that the module remembers, as long as the client
was sent the last one under the module's name. -/
structure Tells (h : Host H) (w : Watch) : Prop where
  serving : h.Serving
  wired : ∀ e, (h.flotilla.dock e).Wired e
  watched : ((h.flotilla.dock d).module c).Watched (w.latest,w.settled)
  told : ∀ name ∈ w.told, heldValue network a d c name h.flotilla.transmissions =
    some ((h.flotilla.dock d).module c).lastUpdate

theorem tells_new (canonicalAddress : Text) : (new canonicalAddress : Host H).Tells network a d c ⟨none,false,none⟩ :=
  ⟨⟨rfl,rfl⟩,fun e => FlotillaDock.new_wired e,⟨rfl,fun up => by contradiction,fun settled => by contradiction⟩,
    fun _ known => nomatch known⟩

theorem tells_pass (h : Host H) (w : Watch) (tells : h.Tells network a d c w) :
    (h.step network .updateClients).Tells network a d c (h.watch network a d c .updateClients w) := by
  by_cases halted : h.halted = true
  · rw [step,if_pos halted,watch,if_pos halted]
    exact tells
  have serving := h.step_serving network tells.serving .updateClients
  have wired := h.step_wired network tells.serving tells.wired .updateClients
  have stepped := h.step_flotilla network tells.serving .updateClients
  rw [if_neg halted,next] at stepped
  have polled : ((h.step network .updateClients).flotilla.dock d).module c =
      if ((h.flotilla.dock d).module c).state = .moduleConnected then ((h.flotilla.dock d).module c).getNextCommand.1
      else (h.flotilla.dock d).module c := by
    rw [stepped]
    change (if (h.flotilla.dock d).state = .connected then FlotillaDock.polledCommand _ else _) = _
    by_cases up : ((h.flotilla.dock d).module c).state = .moduleConnected
    · rw [if_pos ((tells.wired d).connected c up)]
      rfl
    · rw [FlotillaDock.polledCommand,if_neg up,ite_self]
  have seen : ((h.flotilla.dock d).module c).noteCalls (w.latest,w.settled) (h.calls d c .updateClients) =
      (w.latest,w.settled) := by
    rw [calls,if_neg halted]
    split <;> rfl
  have remembered : (((h.step network .updateClients).flotilla.dock d).module c).lastUpdate =
      if (h.flotilla.dock d).reports c = [] then ((h.flotilla.dock d).module c).lastUpdate
      else (h.flotilla.dock d).reports c := by
    rw [polled]
    by_cases up : ((h.flotilla.dock d).module c).state = .moduleConnected
    · have reported : (h.flotilla.dock d).reports c = ((h.flotilla.dock d).module c).getNextCommand.2 :=
        if_pos ⟨(tells.wired d).connected c up,up⟩
      rw [if_pos up,reported]
      exact FlotillaModule.getNextCommand_last _
    · have silent : (h.flotilla.dock d).reports c = [] := if_neg fun both => up both.2
      rw [if_neg up,silent,if_pos rfl]
  rw [watch,if_neg halted,seen]
  refine ⟨serving,wired,?_,fun name known => ?_⟩
  · rw [polled]
    by_cases up : ((h.flotilla.dock d).module c).state = .moduleConnected
    · have after := FlotillaModule.poll_watched _ _ tells.watched up
      rw [if_pos up]
      exact ⟨after.idle,after.latest,fun _ => after.current rfl⟩
    · rw [if_neg up]
      exact ⟨tells.watched.idle,tells.watched.latest,fun _ connected => absurd connected up⟩
  · rw [remembered,stepped]
    dsimp only at known ⊢
    split at known
    next silent =>
      rw [if_pos silent,← tells.told name known]
      apply heldValue_kept network a d c name
      intro text sent
      apply Option.eq_none_iff_forall_ne_some.mpr
      intro value read
      exact (h.flotilla.passSends_value tells.wired a d c name text value read sent).1 silent
    next fresh =>
      split at known
      next due =>
        obtain rfl := Option.mem_some.mp known
        have only (text : Text) (sent : .text a text ∈ (List.finRange maxDocks).flatMap h.flotilla.passSends) :
            ∀ other ∈ readValue d c ((h.flotilla.dock d).module c).name text,
              other = (h.flotilla.dock d).reports c := by
          intro other read
          obtain ⟨_,rfl⟩ := h.flotilla.passSends_value tells.wired a d c _ text other read sent
          rw [readValue_own] at read
          exact (Option.mem_some.mp read).symm
        rw [if_neg fresh]
        exact heldValue_sent network a d c _ _ _ _ _ due.2
          (h.flotilla.passSends_own tells.wired a d c due.1 fresh) (readValue_own ..) only
      next => contradiction

theorem tells_step (h : Host H) (w : Watch) (input : HostInput H) (tells : h.Tells network a d c w)
    (quiet : h.NoUpdate network d c input) :
    (h.step network input).Tells network a d c (h.watch network a d c input w) := by
  by_cases pass : input = .updateClients
  · rw [pass]
    exact h.tells_pass network a d c w tells
  have untouched := h.noUpdate_calls network d c input quiet
  have unpolled (call : Call) (made : call ∈ h.calls d c input) : call ≠ .getNextCommand := by
    intro asked
    rw [asked] at made
    rcases h.calls_cases d c input _ made with ⟨_,_,_,_,_,other⟩ | ⟨same,_⟩ | other | line
    · contradiction
    · exact pass same
    · contradiction
    · contradiction
  have noted : h.watch network a d c input w =
      ⟨(((h.flotilla.dock d).module c).noteCalls (w.latest,w.settled) (h.calls d c input)).1,
        (((h.flotilla.dock d).module c).noteCalls (w.latest,w.settled) (h.calls d c input)).2,w.told⟩ := by
    cases input with
    | updateClients => exact absurd rfl pass
    | opened hdl => rfl
    | closed hdl => rfl
    | failed hdl => rfl
    | message hdl request => rfl
    | tick e arrived => rfl
    | disconnect e => rfl
    | setPort e copied opened banner arrived => rfl
  have ran := h.step_calls network tells.serving d c input (h.noUpdate_direct network d c input quiet)
  rw [noted]
  refine ⟨h.step_serving network tells.serving input,h.step_wired network tells.serving tells.wired input,?_,?_⟩
  · rw [ran]
    exact FlotillaModule.calls_watched _ _ _ tells.watched untouched fun call made asked =>
      absurd asked (unpolled call made)
  · intro name known
    rw [h.step_held network a d c tells.serving tells.wired input pass name,ran,
      FlotillaModule.calls_last _ _ tells.watched.idle untouched unpolled]
    exact tells.told name known

end Host

/-- A run with what is known of one client and one module. -/
def watched {H : Type} [DecidableEq H] (network : Network H) (a : H) (d : Fin maxDocks) (c : Fin maxChannels)
    (canonicalAddress : Text) (inputs : List (HostInput H)) : Host H × Watch :=
  ((hosts network).tracked (Host.watch network a d c)).run (.new canonicalAddress,⟨none,false,none⟩) inputs

/-- Once a pass has been made for a client that was sent the last value of the module's channel,
it holds the value of the module's latest data line. -/
theorem value_delivered {H : Type} [DecidableEq H] (network : Network H) (a : H) (d : Fin maxDocks)
    (c : Fin maxChannels) (canonicalAddress : Text) (inputs : List (HostInput H))
    (quiet : (hosts network).Along (Host.NoUpdate network d c) (.new canonicalAddress) inputs) :
    let run := watched network a d c canonicalAddress inputs
    let m := (run.1.flotilla.dock d).module c
    m.state = .moduleConnected → m.isVolatile = false → run.2.settled = true → run.2.told = some m.name →
      ∀ value, run.2.latest = some value →
        heldValue network a d c m.name run.1.flotilla.transmissions = some value := by
  have tells := ((hosts network).tracked (Host.watch network a d c)).along_invariant
    (fun s => s.1.Tells network a d c s.2) (fun s input => s.1.NoUpdate network d c input)
    (fun s input kept none => s.1.tells_step network a d c s.2 input kept none) _
    (Host.tells_new network a d c canonicalAddress) inputs
    (((hosts network).along_tracked (Host.watch network a d c) _ _ ⟨none,false,none⟩ inputs).mpr quiet)
  intro run m connected steady settled told value latest
  have held := tells.told m.name told
  rw [tells.watched.current settled connected steady value latest] at held
  exact held

section Runs

def attachDial : HostInput Nat :=
  .setPort 0 true true true
    ("# Version: 1.0\n# Serial: 0123456789012345678901\n# User: a\n# Dock: b\n".toList.map .byte)

/-- The client is told the value, pauses, and is back after it has changed there and back. -/
def resumed : List (HostInput Nat) :=
  [attachDial,.tick 0 ("c 1/dial\nu 1/dial 5\n".toList.map .byte),.opened 1,.message 1 (.session .ready),
    .message 1 (.session (.subscribe "0".toList)),.updateClients,.message 1 (.session .pause),
    .tick 0 ("u 1/dial 6\nu 1/dial 5\n".toList.map .byte),.updateClients,.message 1 (.session .ready),.updateClients]

/-- The value is polled before the client has come. -/
def late : List (HostInput Nat) :=
  [attachDial,.tick 0 ("c 1/dial\nu 1/dial 5\n".toList.map .byte),.updateClients,.opened 1,
    .message 1 (.session .ready),.message 1 (.session (.subscribe "0".toList)),.updateClients]

end Runs

theorem value_delivered_resumed :
    heldValue allSucceed 1 0 0 (((watched allSucceed 1 0 0 [] resumed).1.flotilla.dock 0).module 0).name
      (watched allSucceed 1 0 0 [] resumed).1.flotilla.transmissions = some "5".toList :=
  value_delivered allSucceed 1 0 0 [] resumed (by decide +kernel) (by decide +kernel) (by decide +kernel)
    (by decide +kernel) (by decide +kernel) "5".toList (by decide +kernel)

/-- A client that comes late has received no value of the module, whatever passes are made. -/
theorem value_missed :
    let run := watched allSucceed 1 0 0 [] late
    let m := (run.1.flotilla.dock 0).module 0
    (hosts allSucceed).Along (Host.NoUpdate allSucceed 0 0) (.new []) late ∧
      m.state = .moduleConnected ∧ m.isVolatile = false ∧ run.2.settled = true ∧ run.2.latest = some "5".toList ∧
      heldValue allSucceed 1 0 0 m.name run.1.flotilla.transmissions = none := by
  decide +kernel

end FlotillaDaemon
