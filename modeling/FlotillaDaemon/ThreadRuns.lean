import FlotillaDaemon.TickAlone
import FlotillaDaemon.Lifecycle
import FlotillaDaemon.UpdateRouting

/-! The steps of the daemon as runs of its threads. What a handler, a tick, a pass, `disconnect` or
`set_port` makes of the docks when nothing comes between, the threads make of them step by step. -/
namespace FlotillaDaemon
open Cpp

namespace FlotillaDock

/-- What `get_pending_commands` still polls from a channel on. -/
def pollsFrom (dock : FlotillaDock) (next : Nat) : FlotillaDock :=
  ((List.finRange maxChannels).drop next).foldl (fun dock c => dock.setModule c (polledCommand (dock.module c))) dock

theorem pollsFrom_next (dock : FlotillaDock) (c : Fin maxChannels) :
    dock.pollsFrom c.val = (dock.setModule c (polledCommand (dock.module c))).pollsFrom (c.val + 1) := channels_next _ dock c

theorem pollsFrom_start (dock : FlotillaDock) : dock.getPendingCommands.1 = dock.pollsFrom 0 := by
  have rounds (channels : List (Fin maxChannels)) (dock : FlotillaDock) (commands : List Text) :
      (channels.foldl pendingRound (dock,commands)).1 =
        channels.foldl (fun dock c => dock.setModule c (polledCommand (dock.module c))) dock := by
    induction channels generalizing dock commands with
    | nil => rfl
    | cons c rest ih =>
      rw [List.foldl_cons,List.foldl_cons,pendingRound_eq]
      exact ih _ _
  exact rounds _ _ _

theorem afterPass_eq (dock : FlotillaDock) : dock.afterPass =
    if dock.state = .connected then dock.getPendingEvents.1.getPendingCommands.1 else dock.getPendingEvents.1 := by
  rw [getPendingCommands_eq]
  unfold afterPass getPendingEvents
  by_cases connected : dock.state = .connected
  · simp only [if_pos connected]
  · simp only [if_neg connected]

end FlotillaDock

namespace Slot
variable {index : Nat}

/-- Nothing is in progress at the slot. -/
structure Rests (s : Slot) (dock : FlotillaDock) : Prop where
  dock : s.dock = dock
  update : s.update = .away
  scan : s.scan = .idle

/-- A thread takes a step at the slot while no other one is there. -/
def Alone (s : Slot) : Action → Prop
  | .update _ => s.scan = .idle
  | .scan _ => s.update = .away
  | .client _ => s.update = .away ∧ s.scan = .idle

/-- A step inside an operation, with no other thread there. -/
def Inside (s : Slot) : Action → Prop
  | .update action => s.scan = .idle ∧ action.begins = false
  | .scan action => s.update = .away ∧ action.begins = false
  | .client _ => False

theorem leads_step (s t : Slot) (action : Action) (alone : s.Alone action) (moved : s.step action = some t) :
    (slotSystem index).Leads Alone s t := .single ⟨action,alone,moved⟩

theorem inside_step (s t : Slot) (action : Action) (inside : s.Inside action) (moved : s.step action = some t) :
    (slotSystem index).Leads Inside s t := .single ⟨action,inside,moved⟩

theorem inside_scan (s t : Slot) (action : ScanAction) (inside : action.begins = false)
    (moved : s.step (.scan action) = some t) (away : s.update = .away) : (slotSystem index).Leads Inside s t :=
  inside_step s t (.scan action) ⟨away,inside⟩ moved

theorem inside_alone (s : Slot) (action : Action) (inside : s.Inside action) : s.Alone action := by
  cases action with
  | update action | scan action => exact inside.1
  | client action => exact inside.elim

theorem inside_leads (s t : Slot) (leads : (slotSystem index).Leads Inside s t) : (slotSystem index).Leads Alone s t :=
  System.leads_weaken _ Inside Alone inside_alone s t leads

theorem inside_update (s t : Slot) (idle : s.scan = .idle) (steps : UpdateSteps s t) : (slotSystem index).Leads Inside s t := by
  have led : (slotSystem index).Leads Inside s t ∧ t.scan = .idle := by
    induction steps with
    | refl => exact ⟨.refl,idle⟩
    | tail _ moved ih =>
      obtain ⟨action,inside,moved⟩ := moved
      exact ⟨ih.1.tail ⟨.update action,⟨ih.2,inside⟩,moved⟩,(updateStep_effect _ _ action moved).scan.trans ih.2⟩
  exact led.1

theorem called_step (s : Slot) (rests : s.Rests s.dock) (connected : s.dock.state = .connected) :
    s.updateStep .updateDocks = some (s.place s.dock .called) := by
  simp [updateStep,rests.update,connected,place]

theorem tick_leads (s : Slot) (rests : s.Rests s.dock) (next : FlotillaDock) (port after : SerialPort)
    (returned : s.dock.tick port = .ok (next,after)) : (slotSystem index).Leads Alone s (s.place next .away) := by
  by_cases connected : s.dock.state = .connected
  · exact (leads_step s _ (.update .updateDocks) rests.scan (s.called_step rests connected)).trans
      (inside_leads _ _ (inside_update _ _ rests.scan (tick_alone s s.dock next port after returned)))
  · unfold FlotillaDock.tick at returned
    rw [if_pos connected] at returned
    obtain ⟨rfl,_⟩ := Prod.mk.inj (Except.ok.inj returned)
    have same : s.place s.dock .away = s := by
      rw [place,← rests.update]
    rw [same]
    exact .refl

/-- The loops over the channels, one round after the other. -/
theorem channels_lead (place : FlotillaDock → Nat → Slot) (last : FlotillaDock → Slot)
    (round : FlotillaDock → Fin maxChannels → FlotillaDock)
    (one : ∀ dock c, (slotSystem index).Leads Inside (place dock c.val) (place (round dock c) (c.val + 1)))
    (ends : ∀ dock next, ¬ next < maxChannels → (slotSystem index).Leads Inside (place dock next) (last dock)) (dock : FlotillaDock) :
    (slotSystem index).Leads Inside (place dock 0) (last ((List.finRange maxChannels).foldl round dock)) := by
  have from_channel (left next : Nat) (rest : next + left = maxChannels) (dock : FlotillaDock) :
      (slotSystem index).Leads Inside (place dock next) (last (((List.finRange maxChannels).drop next).foldl round dock)) := by
    induction left generalizing next dock with
    | zero =>
      have done : ¬ next < maxChannels := by omega
      rw [FlotillaDock.channels_done round dock next done]
      exact ends dock next done
    | succ left ih =>
      have bound : next < maxChannels := by omega
      rw [FlotillaDock.channels_next round dock ⟨next,bound⟩]
      exact (one dock ⟨next,bound⟩).trans (ih (next + 1) (by omega) _)
  exact from_channel maxChannels 0 (Nat.zero_add _) dock

/-- The loop of `get_pending_commands`. -/
theorem polls_lead (s : Slot) (idle : s.scan = .idle) (dock : FlotillaDock) :
    (slotSystem index).Leads Inside (s.place dock (.serving 0)) (s.place dock.getPendingCommands.1 .away) := by
  rw [dock.pollsFrom_start]
  refine channels_lead (fun dock next => s.place dock (.serving next)) (fun dock => s.place dock .away) _ ?_ ?_ dock
  · intro dock c
    refine inside_step _ _ (.update .proceed) ⟨idle,rfl⟩ ?_
    simp only [step,place,updateStep,eachChannel_inside c.val c.isLt,moduleConnected,FlotillaDock.polledCommand]
    by_cases connected : (dock.module c).state = .moduleConnected
    · simp only [connected,decide_true,if_true]
      rfl
    · simp only [connected,decide_false,if_false,Bool.false_eq_true,FlotillaDock.setModule,Function.update_eq_self]
  · intro dock next done
    refine inside_step _ _ (.update .proceed) ⟨idle,rfl⟩ ?_
    simp only [step,place,updateStep,eachChannel_done next done]

theorem flushed_step (s : Slot) (rests : s.Rests s.dock) :
    s.updateStep .updateClients = some (s.place s.dock.getPendingEvents.1 .flushed) := by
  simp [updateStep,rests.update,place,FlotillaDock.getPendingEvents]

theorem flushed_leads (s : Slot) (idle : s.scan = .idle) :
    (slotSystem index).Leads Inside (s.place s.dock.getPendingEvents.1 .flushed) (s.place s.dock.afterPass .away) := by
  have left : (s.place s.dock.getPendingEvents.1 .flushed).step (.update .proceed) =
      some (s.place s.dock.getPendingEvents.1 (if s.dock.state = .connected then .serving 0 else .away)) := rfl
  apply (inside_step (s.place s.dock.getPendingEvents.1 .flushed) _ (.update .proceed) ⟨idle,rfl⟩ left).trans
  rw [FlotillaDock.afterPass_eq]
  by_cases connected : s.dock.state = .connected
  · rw [if_pos connected,if_pos connected]
    exact polls_lead s idle s.dock.getPendingEvents.1
  · rw [if_neg connected,if_neg connected]

theorem pass_leads (s : Slot) (rests : s.Rests s.dock) :
    (slotSystem index).Leads Alone s (s.place s.dock.afterPass .away) :=
  (leads_step s _ (.update .updateClients) rests.scan (s.flushed_step rests)).trans
    (inside_leads _ _ (s.flushed_leads rests.scan))

theorem swept_leads (s : Slot) (away : s.update = .away) (dock : FlotillaDock) (c : Fin maxChannels) :
    (slotSystem index).Leads Inside {s with dock := dock,scan := .sweeping c.val}
      {s with dock := dock.loseModule c,scan := .sweeping (c.val + 1)} := by
  unfold FlotillaDock.loseModule
  by_cases connected : (dock.module c).state = .moduleConnected
  · rw [if_pos connected]
    have tested : step {s with dock := dock,scan := .sweeping c.val} (.scan .proceed) =
        some {s with dock := dock,scan := .dropping c} := by
      simp [step,scanStep,eachChannel_inside c.val c.isLt,moduleConnected,connected]
    have lost : step {s with dock := dock.setModule c (dock.module c).disconnect,scan := .losing c} (.scan .proceed) =
        some {s with
          dock := (dock.setModule c (dock.module c).disconnect).queueModuleEvent c
          scan := .sweeping (c.val + 1)} := by
      simp [step,scanStep,away]
    have dropped : step {s with dock := dock,scan := .dropping c} (.scan .proceed) =
        some {s with dock := dock.setModule c (dock.module c).disconnect,scan := .losing c} := rfl
    exact (inside_scan _ _ _ rfl tested away).trans
      ((inside_scan _ _ _ rfl dropped away).trans (inside_scan _ _ _ rfl lost away))
  · rw [if_neg connected]
    refine inside_step _ _ (.scan .proceed) ⟨away,rfl⟩ ?_
    simp [step,scanStep,eachChannel_inside c.val c.isLt,moduleConnected,connected]

theorem sweep_leads (s : Slot) (away : s.update = .away) (dock : FlotillaDock) :
    (slotSystem index).Leads Inside {s with dock := dock,scan := .sweeping 0} (s.freed (dock.loseFrom 0)) := by
  refine channels_lead (fun dock next => {s with dock := dock,scan := .sweeping next}) s.freed FlotillaDock.loseModule
    (s.swept_leads away) ?_ dock
  intro dock next done
  refine inside_step _ _ (.scan .proceed) ⟨away,rfl⟩ ?_
  simp only [step,scanStep,eachChannel_done next done,freed]

theorem missing_step (s : Slot) (rests : s.Rests s.dock) (agrees : s.Agrees) (on : s.dock.state ≠ .disconnected) :
    s.scanStep .missing = some {s with scan := .leaving} := by
  unfold Agrees at agrees
  rw [rests.scan] at agrees
  obtain ⟨_,opened⟩ := agrees.resolve_left on
  simp [scanStep,rests.scan,on,opened]

theorem leaving_leads (s : Slot) (rests : s.Rests s.dock) (on : s.dock.state ≠ .disconnected) :
    (slotSystem index).Leads Inside {s with scan := .leaving} s.closed := by
  have leaving : step {s with scan := .leaving} (.scan .proceed) =
      some {s with dock := {s.dock with state := .disconnected},scan := .sweeping 0} := by
    simp [step,scanStep,on,setState]
  have lost : s.closed = s.freed (FlotillaDock.loseFrom {s.dock with state := .disconnected} 0) := by
    rw [closed,if_neg on,FlotillaDock.disconnect,if_neg on,freed,← rests.scan]
    rfl
  rw [lost]
  exact (inside_scan _ _ _ rfl leaving rests.update).trans (sweep_leads s rests.update _)

theorem closed_leads (s : Slot) (rests : s.Rests s.dock) (agrees : s.Agrees) : (slotSystem index).Leads Alone s s.closed := by
  by_cases off : s.dock.state = .disconnected
  · rw [closed,if_pos off]
    exact .refl
  · exact (leads_step s _ (.scan .missing) rests.update (s.missing_step rests agrees off)).trans
      (inside_leads _ _ (s.leaving_leads rests off))

theorem closed_dock (s : Slot) : s.closed.dock = s.dock.disconnect := by
  unfold closed
  by_cases off : s.dock.state = .disconnected
  · rw [if_pos off,FlotillaDock.disconnect,if_pos off]
  · rw [if_neg off]

theorem closed_rests (s : Slot) (rests : s.Rests s.dock) : s.closed.Rests s.dock.disconnect := by
  refine ⟨s.closed_dock,?_,?_⟩
  · unfold closed
    split
    · exact rests.update
    · exact rests.update
  · unfold closed
    split
    · exact rests.scan
    · exact rests.scan

theorem found_step (s : Slot) (rests : s.Rests s.dock) (off : s.dock.state = .disconnected) :
    s.scanStep .found = some {s with dock := {s.dock with state := .connecting},scan := .copying} := by
  simp [scanStep,rests.scan,off,setState]

theorem copying_leads (s : Slot) (rests : s.Rests s.dock) (off : s.dock.state = .disconnected)
    (copied opened banner : Bool) (arrived : List Arrival) :
    ∃ t, (slotSystem index).Leads Inside {s with dock := {s.dock with state := .connecting},scan := .copying} t ∧
      t.Rests (s.dock.setPort copied opened banner arrived).1 := by
  unfold FlotillaDock.setPort
  rw [if_neg (not_not.mpr off)]
  let dialled : FlotillaDock := {s.dock with state := .connecting}
  let failed : FlotillaDock := {dialled with state := .disconnected}
  have ends (port : PortStatus) : (slotSystem index).Leads Inside ⟨dialled,port,s.update,.failing⟩ ⟨failed,port,s.update,.idle⟩ :=
    inside_scan _ _ .proceed rfl rfl rests.update
  cases copied with
  | false =>
    have uncopied : (slotSystem index).Leads Inside ⟨dialled,s.port,s.update,.copying⟩ ⟨dialled,.absent,s.update,.failing⟩ :=
      inside_scan _ _ (.outcome false) rfl rfl rests.update
    exact ⟨_,uncopied.trans (ends .absent),rfl,rests.update,rfl⟩
  | true =>
  have copy : (slotSystem index).Leads Inside ⟨dialled,s.port,s.update,.copying⟩ ⟨dialled,.copied,s.update,.opening⟩ :=
    inside_scan _ _ (.outcome true) rfl rfl rests.update
  cases opened with
  | false =>
    have unopened : (slotSystem index).Leads Inside ⟨dialled,.copied,s.update,.opening⟩ ⟨dialled,.copied,s.update,.failing⟩ :=
      inside_scan _ _ (.outcome false) rfl rfl rests.update
    exact ⟨_,copy.trans (unopened.trans (ends .copied)),rfl,rests.update,rfl⟩
  | true =>
  have opens : (slotSystem index).Leads Inside ⟨dialled,.copied,s.update,.opening⟩ ⟨dialled,.opened,s.update,.shaking⟩ :=
    inside_scan _ _ (.outcome true) rfl rfl rests.update
  rcases read : dialled.getVersionInfo banner arrived with ⟨shaken,ok⟩
  have answered : (slotSystem index).Leads Inside ⟨dialled,.opened,s.update,.shaking⟩
      ⟨shaken,.opened,s.update,if ok then .accepting else .failing⟩ := by
    refine inside_scan _ _ (.handshake banner arrived) rfl ?_ rests.update
    simp only [step,scanStep,read]
  have dialling := copy.trans (opens.trans answered)
  cases ok with
  | false =>
    exact ⟨_,dialling.trans (inside_scan _ ⟨{shaken with state := .disconnected},.opened,s.update,.idle⟩
      .proceed rfl rfl rests.update),by simp [dialled,read],rests.update,rfl⟩
  | true =>
    have accepted : (slotSystem index).Leads Inside ⟨shaken,.opened,s.update,.accepting⟩
        ⟨{shaken with state := .connected},.opened,s.update,.enumerating⟩ := inside_scan _ _ .proceed rfl rfl rests.update
    exact ⟨_,dialling.trans (accepted.trans (inside_scan _ ⟨{shaken with state := .connected},.opened,s.update,.idle⟩
      .proceed rfl rfl rests.update)),by simp [dialled,read],rests.update,rfl⟩

theorem setPort_leads (s : Slot) (rests : s.Rests s.dock) (copied opened banner : Bool) (arrived : List Arrival) :
    ∃ t, (slotSystem index).Leads Alone s t ∧ t.Rests (s.dock.setPort copied opened banner arrived).1 := by
  by_cases off : s.dock.state = .disconnected
  · obtain ⟨t,leads,final⟩ := s.copying_leads rests off copied opened banner arrived
    exact ⟨t,(leads_step s _ (.scan .found) rests.update (s.found_step rests off)).trans (inside_leads _ _ leads),final⟩
  · rw [FlotillaDock.setPort,if_pos off]
    exact ⟨s,.refl,rests⟩

theorem command_leads (s : Slot) (rests : s.Rests s.dock) (command : Text) :
    (slotSystem index).Leads Alone s {s with dock := s.dock.queueCommand command} := by
  refine leads_step _ _ (.client (.queueCommand command)) ⟨rests.update,rests.scan⟩ ?_
  simp [step,clientStep,rests.update]

end Slot

/-- At each dock one thread at a time. -/
def Separate (docks : Fin maxDocks → Slot) (action : Fin maxDocks × Action) : Prop := (docks action.1).Alone action.2

namespace Host
variable {H : Type} [DecidableEq H] (network : Network H)

/-- Each dock is at rest as the daemon has it. -/
def Covers (docks : Fin maxDocks → Slot) (h : Host H) : Prop := ∀ d, (docks d).Rests (h.flotilla.dock d)

/-- A message leaves the docks, or is one step of its thread at one of them. -/
theorem message_changes (hdl : H) (payload : Text) (f : Flotilla H) :
    (f.after (Flotilla.websocketOnMessage network hdl payload)).dock = f.dock ∨
      ∃ d action next, (f.after (Flotilla.websocketOnMessage network hdl payload)).dock = Function.update f.dock d next ∧
        ∀ s : Slot, s.Rests (f.dock d) → s.clientStep action = some {s with dock := next} := by
  by_cases start : "dock:".toList <+: payload
  · rcases Flotilla.dock_message_after network hdl payload f start with same | handled
    · exact .inl (congrArg Flotilla.dock same)
    · rcases Flotilla.dockMessage_effect _ _ _ handled with same | ⟨e,c,data,same⟩ | ⟨e,command,same⟩
      · exact .inl (congrArg Flotilla.dock same)
      · refine .inr ⟨e,.queueUpdate c data,_,congrArg Flotilla.dock same,fun s rests => ?_⟩
        rw [← rests.dock]
        rfl
      · refine .inr ⟨e,.queueCommand command,_,congrArg Flotilla.dock same,fun s rests => ?_⟩
        rw [← rests.dock]
        simp [Slot.clientStep,rests.update]
  · obtain ⟨_,_,_,same,_⟩ := Flotilla.message_effect network hdl payload f start
    rw [same]
    exact .inl rfl

theorem message_leads (index : Nat) (hdl : H) (payload : Text) (f : Flotilla H) (d : Fin maxDocks) (s : Slot)
    (rests : s.Rests (f.dock d)) : ∃ t, (slotSystem index).Leads Slot.Alone s t ∧
      t.Rests ((f.after (Flotilla.websocketOnMessage network hdl payload)).dock d) := by
  rcases message_changes network hdl payload f with same | ⟨e,action,next,same,queued⟩
  · rw [same]
    exact ⟨s,.refl,rests⟩
  · rw [same]
    by_cases own : d = e
    · subst own
      rw [Function.update_self]
      exact ⟨_,Slot.leads_step s _ (.client action) ⟨rests.update,rests.scan⟩ (queued s rests),rfl,rests.update,rests.scan⟩
    · rw [Function.update_of_ne own]
      exact ⟨s,.refl,rests⟩

/-- What an input makes of a dock, the threads can make of it from rest to rest. -/
theorem input_leads (h : Host H) (serving : h.Serving) (running : h.halted = false) (input : HostInput H)
    (goes : (h.step network input).halted = false) (index : Nat) (d : Fin maxDocks) (s : Slot)
    (rests : s.Rests (h.flotilla.dock d)) (agrees : s.Agrees) :
    ∃ t, (slotSystem index).Leads Slot.Alone s t ∧ t.Rests ((h.step network input).flotilla.dock d) := by
  have here : s.dock = h.flotilla.dock d := rests.dock
  have own : s.Rests s.dock := here ▸ rests
  rw [h.running_flotilla network serving running]
  cases input with
  | opened hdl | closed hdl | failed hdl => exact ⟨s,.refl,rests⟩
  | message hdl request => exact message_leads network index hdl request.payload h.flotilla d s rests
  | updateClients =>
    refine ⟨_,s.pass_leads own,?_,rfl,rests.scan⟩
    exact congrArg FlotillaDock.afterPass here
  | tick e arrived =>
    by_cases mine : d = e
    · subst mine
      rw [h.step_running network running] at goes
      obtain ⟨next,after,returned,_⟩ := h.tick_goes_on d arrived goes
      refine ⟨_,s.tick_leads own next _ after (here.symm ▸ returned),?_,rfl,rests.scan⟩
      simp [Host.next,Flotilla.changeDock,FlotillaDock.afterTick,returned,Slot.place]
    · simp only [Host.next,Flotilla.changeDock,Function.update_of_ne mine]
      exact ⟨s,.refl,rests⟩
  | disconnect e =>
    by_cases mine : d = e
    · subst mine
      simp only [Host.next,Flotilla.changeDock,Function.update_self,← here]
      exact ⟨_,s.closed_leads own agrees,s.closed_rests own⟩
    · simp only [Host.next,Flotilla.changeDock,Function.update_of_ne mine]
      exact ⟨s,.refl,rests⟩
  | setPort e copied opened banner arrived =>
    by_cases mine : d = e
    · subst mine
      simp only [Host.next,Flotilla.changeDock,Function.update_self,← here]
      exact s.setPort_leads own copied opened banner arrived
    · simp only [Host.next,Flotilla.changeDock,Function.update_of_ne mine]
      exact ⟨s,.refl,rests⟩

theorem step_covered (h : Host H) (serving : h.Serving) (running : h.halted = false) (input : HostInput H)
    (goes : (h.step network input).halted = false) (docks : Fin maxDocks → Slot)
    (reached : daemon.Reached Separate docks) (covers : Covers docks h) :
    ∃ after, daemon.Reached Separate after ∧ Covers after (h.step network input) := by
  have agrees (d : Fin maxDocks) : (docks d).Agrees := by
    have free : daemon.Reached (fun _ action => action.1 = d → True) docks :=
      System.reached_weaken _ Separate (fun _ action => action.1 = d → True) (fun _ _ _ _ => trivial) docks reached
    have single := System.family_reached (fun dockIdx : Fin maxDocks => slotSystem dockIdx.val) threadFree d
      (fun _ _ => True) docks free
    exact System.reached_invariant (slotSystem d.val) (fun _ _ => True) Slot.Agrees (Or.inl rfl)
      (fun s action t agrees _ moved => Slot.agrees_step s t action agrees moved) _ single
  choose after leads final using fun d => input_leads network h serving running input goes d.val d (docks d) (covers d) (agrees d)
  have led := System.family_leads (fun dockIdx : Fin maxDocks => slotSystem dockIdx.val) threadFree Slot.Alone
    (fun s => s.update = .away ∧ s.scan = .idle) (fun states d action others => by
      cases action with
      | update action => exact decide_eq_true fun other apart => (others other apart).1
      | scan action => exact decide_eq_true fun other apart => (others other apart).2
      | client action => rfl)
    (List.finRange maxDocks) docks after (fun d => ⟨(covers d).update,(covers d).scan⟩)
    (fun d => ⟨(final d).update,(final d).scan⟩) leads reached
  simp only [List.mem_finRange,if_true] at led
  exact ⟨after,led,final⟩

end Host

/-- The daemon step by step is one of the ways in which its threads run. For any run that does not
end it, the threads can come to a state where none is at a dock and each dock is the same. -/
theorem threads_cover_runs {H : Type} [DecidableEq H] (network : Network H) (canonicalAddress : Text)
    (inputs : List (HostInput H)) (running : ((hosts network).run (.new canonicalAddress) inputs).halted = false) :
    ∃ docks, daemon.Reached Separate docks ∧
      ∀ d, (docks d).dock = ((hosts network).run (.new canonicalAddress) inputs).flotilla.dock d ∧
        (docks d).update = .away ∧ (docks d).scan = .idle := by
  have along := ((hosts network).run_up_iff (fun _ => True) (fun h => h.halted = false)
    (fun h input => (h.step network input).halted = false) (fun _ _ _ => trivial) (fun _ _ _ _ => Iff.rfl)
    (fun h input fallen up => fallen (by
      rw [← h.step_halted network (eq_true_of_ne_false fallen) input]
      exact up)) (.new canonicalAddress) trivial rfl inputs).mp running
  obtain ⟨_,_,docks,reached,covers⟩ := (hosts network).along_invariant
    (fun h => h.Serving ∧ h.halted = false ∧ ∃ docks, daemon.Reached Separate docks ∧ Host.Covers docks h) _
    (fun h input kept goes => ⟨h.step_serving network kept.1 input,goes,by
      obtain ⟨serving,up,docks,reached,covers⟩ := kept
      exact Host.step_covered network h serving up input goes docks reached covers⟩)
    (.new canonicalAddress) ⟨⟨rfl,rfl⟩,rfl,daemon.initial,.start,fun _ => ⟨rfl,rfl,rfl⟩⟩ inputs along
  exact ⟨docks,reached,fun d => ⟨(covers d).dock,(covers d).update,(covers d).scan⟩⟩

theorem threads_cover_runs_dial : ∃ docks, daemon.Reached Separate docks ∧
    ∀ d, (docks d).dock = ((hosts allSucceed).run (.new []) dialDriven).flotilla.dock d ∧
      (docks d).update = .away ∧ (docks d).scan = .idle :=
  threads_cover_runs allSucceed [] dialDriven (by decide +kernel)

end FlotillaDaemon
