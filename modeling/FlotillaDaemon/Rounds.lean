import FlotillaDaemon.DockScans
import FlotillaDaemon.UpdateRouting

/-! The rounds of the worker threads. A round of `worker_dock_scan` goes through the listed ports, a
round of `worker_update_clients` ticks the connected docks and then serves the clients, and events
of the clients come between them. Each round is a run of the daemon. -/
namespace FlotillaDaemon
open Cpp Retained

namespace FlotillaDock

theorem afterTick_state (dock : FlotillaDock) (port : SerialPort) : (dock.afterTick port).state = dock.state := by
  by_cases connected : dock.state = .connected
  · unfold afterTick
    cases returned : dock.tick port with
    | ok result => exact (dock.tick_state result.1 port result.2 connected returned).trans connected.symm
    | error fault =>
      dsimp only
      rw [writeQueues_dock]
  · rw [dock.afterTick_off port connected]

end FlotillaDock

inductive ClientEvent (H : Type)
  | opened (hdl : H)
  | closed (hdl : H)
  | failed (hdl : H)
  | message (hdl : H) (request : Request)

inductive Round (H : Type)
  | client (event : ClientEvent H)
  | updateClients (arrived : Fin maxDocks → List Arrival)
  | dockScan (listed : Option (List ListedPort))

def ClientEvent.input {H : Type} : ClientEvent H → HostInput H
  | .opened hdl => .opened hdl
  | .closed hdl => .closed hdl
  | .failed hdl => .failed hdl
  | .message hdl request => .message hdl request

namespace Host
variable {H : Type}

/-- An exception of a tick leaves the loop. -/
def updateDocks (h : Host H) (arrived : Fin maxDocks → List Arrival) : Host H :=
  (List.finRange maxDocks).foldl (fun h d =>
    if h.halted = true ∨ (h.flotilla.dock d).state ≠ .connected then h else h.tick d (arrived d)) h

variable [DecidableEq H]

def updateRound (network : Network H) (h : Host H) (arrived : Fin maxDocks → List Arrival) : Host H :=
  let h := h.updateDocks arrived
  if h.halted then h else h.handle (Flotilla.updateClients network)

def updateInputs (arrived : Fin maxDocks → List Arrival) : List (HostInput H) :=
  (List.finRange maxDocks).map (fun d => .tick d (arrived d)) ++ [.updateClients]

omit [DecidableEq H] in
theorem tick_off (h : Host H) (d : Fin maxDocks) (arrived : List Arrival)
    (off : (h.flotilla.dock d).state ≠ .connected) : h.tick d arrived = h := by
  unfold tick
  rw [FlotillaDock.tick,if_pos off]
  simp [changeDock,Flotilla.changeDock]

theorem updateRound_run (network : Network H) (h : Host H) (arrived : Fin maxDocks → List Arrival) :
    (hosts network).run h (updateInputs arrived) = h.updateRound network arrived := by
  have ticked (docks : List (Fin maxDocks)) (h : Host H) :
      (hosts network).run h (docks.map fun d => .tick d (arrived d)) = docks.foldl (fun h d =>
        if h.halted = true ∨ (h.flotilla.dock d).state ≠ .connected then h else h.tick d (arrived d)) h := by
    induction docks generalizing h with
    | nil => rfl
    | cons d rest ih =>
      have here : h.step network (.tick d (arrived d)) =
          if h.halted = true ∨ (h.flotilla.dock d).state ≠ .connected then h else h.tick d (arrived d) := by
        unfold step
        by_cases halted : h.halted = true
        · rw [if_pos halted,if_pos (Or.inl halted)]
        · rw [if_neg halted]
          by_cases off : (h.flotilla.dock d).state ≠ .connected
          · rw [if_pos (Or.inr off)]
            exact h.tick_off d _ off
          · rw [if_neg (not_or.mpr ⟨halted,off⟩)]
      rw [List.map_cons,List.foldl_cons,← here]
      exact ih _
  rw [updateInputs,Machine.run_append,ticked]
  rfl

/-- Only the scan thread changes the state of a dock. -/
theorem step_states (network : Network H) (h : Host H) (serving : h.Serving) (input : HostInput H)
    (other : ∀ d, input ≠ .disconnect d) (unset : ∀ d copied opened banner arrived, input ≠ .setPort d copied opened banner arrived)
    (d : Fin maxDocks) : ((h.step network input).flotilla.dock d).state = (h.flotilla.dock d).state := by
  rw [h.step_flotilla network serving]
  split
  · rfl
  cases input with
  | opened hdl | closed hdl | failed hdl | updateClients => rfl
  | tick e arrived =>
    by_cases own : d = e
    · subst own
      simp [next,Flotilla.changeDock,FlotillaDock.afterTick_state]
    · simp [next,Flotilla.changeDock,own]
  | disconnect e => exact absurd rfl (other e)
  | setPort e copied opened banner arrived => exact absurd rfl (unset e copied opened banner arrived)
  | message hdl request =>
    change ((h.flotilla.after (Flotilla.websocketOnMessage network hdl request.payload)).dock d).state = _
    by_cases start : "dock:".toList <+: request.payload
    · rcases Flotilla.dock_message_after network hdl request.payload h.flotilla start with same | handled
      · rw [same]
      · rcases Flotilla.dockMessage_effect _ _ _ handled with same | ⟨e,c,data,same⟩ | ⟨e,command,same⟩
        · rw [same]
        · rw [same]
          by_cases own : d = e
          · subst own
            simp [Flotilla.queued,Flotilla.changeDock,FlotillaDock.setModule]
          · simp [Flotilla.queued,Flotilla.changeDock,own]
        · rw [same]
          by_cases own : d = e
          · subst own
            simp [Flotilla.changeDock,FlotillaDock.queueCommand]
          · simp [Flotilla.changeDock,own]
    · obtain ⟨_,_,_,same,_⟩ := Flotilla.message_effect network hdl request.payload h.flotilla start
      rw [same]

theorem run_states (network : Network H) (h : Host H) (serving : h.Serving) (inputs : List (HostInput H))
    (other : ∀ input ∈ inputs, (∀ d, input ≠ .disconnect d) ∧
      ∀ d copied opened banner arrived, input ≠ .setPort d copied opened banner arrived) :
    ((hosts network).run h inputs).Serving ∧
      ∀ d, (((hosts network).run h inputs).flotilla.dock d).state = (h.flotilla.dock d).state := by
  induction inputs generalizing h with
  | nil => exact ⟨serving,fun _ => rfl⟩
  | cons input rest ih =>
    obtain ⟨⟨undone,unset⟩,later⟩ := List.forall_mem_cons.mp other
    obtain ⟨served,kept⟩ := ih (h.step network input) (h.step_serving network serving input) later
    exact ⟨served,fun d => (kept d).trans (h.step_states network serving input undone unset d)⟩

end Host

/-- Whether the first pass finds that the port of a dock is missing. -/
def PortSlot.lost (s : PortSlot) (x : Fin maxDocks) (ports : List ListedPort) : Bool :=
  decide (¬ (s.port = none ∨ s.dock.state = .disconnected)) && s.found x ports == some false

/-- The first pass leaves a dock alone, or it has lost it. -/
theorem PortSlot.recheck_cases (s next : PortSlot) (x : Fin maxDocks) (ports : List ListedPort)
    (looked : s.recheck x ports = some next) :
    next = s ∧ s.lost x ports = false ∨ s.dock.state ≠ .disconnected ∧ next = s.disconnect ∧ s.lost x ports = true := by
  unfold recheck at looked
  unfold lost
  by_cases off : s.port = none ∨ s.dock.state = .disconnected
  · rw [if_pos off] at looked
    exact .inl ⟨(Option.some.inj looked).symm,by simp [off]⟩
  · rw [if_neg off] at looked
    obtain ⟨found,read,kept⟩ := Option.bind_eq_some_iff.mp looked
    rw [read,decide_eq_true off]
    cases found with
    | true => exact .inl ⟨(Option.some.inj kept).symm,rfl⟩
    | false => exact .inr ⟨fun down => off (.inr down),(Option.some.inj kept).symm,rfl⟩

namespace SlotTable
variable {H : Type}

/-- What a scan does to the docks, as inputs of the daemon. -/
def recheckInputs (table : SlotTable) (ports : List ListedPort) : List (Fin maxDocks) → List (HostInput H)
  | [] => []
  | x :: rest =>
    match (table x).recheck x ports with
    | none => []
    | some slot => (if (table x).lost x ports then [.disconnect x] else []) ++ recheckInputs (table.set x slot) ports rest

def attemptInputs (table : SlotTable) (port : ListedPort) (result : Option Bool) : List (HostInput H) :=
  match result,table.freeSlot with
  | some _,some x => [.setPort x port.attempt.copied port.attempt.opened port.attempt.banner port.attempt.input]
  | _,_ => []

/-- A scan of one port leaves the table, or sets the port of the first free slot. -/
theorem scanForHost_cases (table : SlotTable) (port : ListedPort) (next : SlotTable) (result : Option Bool)
    (looked : table.scanForHost port = some (next,result)) :
    next = table ∧ result = none ∨ ∃ x ok, table.freeSlot = some x ∧ result = some ok ∧
      next = table.set x ((table x).setPort port.name port.attempt).1 := by
  unfold scanForHost at looked
  split at looked
  · obtain ⟨rfl,rfl⟩ := Prod.mk.inj (Option.some.inj looked)
    exact .inl ⟨rfl,rfl⟩
  split at looked
  · obtain ⟨rfl,rfl⟩ := Prod.mk.inj (Option.some.inj looked)
    exact .inl ⟨rfl,rfl⟩
  obtain ⟨taken,_,looked⟩ := Option.bind_eq_some_iff.mp looked
  cases taken with
  | true =>
    obtain ⟨rfl,rfl⟩ := Prod.mk.inj (Option.some.inj looked)
    exact .inl ⟨rfl,rfl⟩
  | false =>
    cases free : table.freeSlot with
    | none =>
      rw [free] at looked
      obtain ⟨rfl,rfl⟩ := Prod.mk.inj (Option.some.inj looked)
      exact .inl ⟨rfl,rfl⟩
    | some x =>
      rw [free] at looked
      obtain ⟨rfl,rfl⟩ := Prod.mk.inj (Option.some.inj looked)
      exact .inr ⟨x,_,rfl,rfl,rfl⟩

theorem attemptInputs_tried (table : SlotTable) (port : ListedPort) (ok : Bool) (x : Fin maxDocks)
    (free : table.freeSlot = some x) : (table.attemptInputs port (some ok) : List (HostInput H)) =
      [.setPort x port.attempt.copied port.attempt.opened port.attempt.banner port.attempt.input] := by
  unfold attemptInputs
  rw [free]

def offerInputs (table : SlotTable) : List ListedPort → List (HostInput H)
  | [] => []
  | port :: rest =>
    match table.scanForHost port with
    | none => []
    | some (next,result) => table.attemptInputs port result ++ offerInputs next rest

def scanInputs (table : SlotTable) (listed : Option (List ListedPort)) : List (HostInput H) :=
  match listed with
  | none => []
  | some ports =>
    table.recheckInputs ports (List.finRange maxDocks) ++
      match table.recheckDocks ports with
      | none => []
      | some checked => checked.offerInputs ports

end SlotTable

theorem SlotTable.set_docks (table : SlotTable) (x : Fin maxDocks) (slot : PortSlot) :
    (fun y => (table.set x slot y).dock) = Function.update (fun y => (table y).dock) x slot.dock := by
  funext y
  by_cases own : y = x
  · subst own
    rw [table.set_same,Function.update_self]
  · rw [table.set_other x y slot own,Function.update_of_ne own]

namespace Host
variable {H : Type}

/-- The daemon with the docks of a slot table. -/
def docked (h : Host H) (table : SlotTable) : Host H :=
  {h with flotilla := {h.flotilla with dock := fun x => (table x).dock}}

theorem docked_set (h : Host H) (table : SlotTable) (x : Fin maxDocks) (slot : PortSlot) :
    h.docked (table.set x slot) = (h.docked table).changeDock x slot.dock := by
  unfold docked
  rw [table.set_docks]
  rfl

variable [DecidableEq H] (network : Network H)

theorem docked_disconnect (h : Host H) (running : h.halted = false) (table : SlotTable) (x : Fin maxDocks) :
    (h.docked table).step network (.disconnect x) = h.docked (table.set x (table x).disconnect) := by
  rw [docked_set,PortSlot.disconnect_dock,(h.docked table).step_running network running]
  rfl

theorem docked_setPort (h : Host H) (running : h.halted = false) (table : SlotTable) (x : Fin maxDocks) (name : Option Text)
    (attempt : Attempt) :
    (h.docked table).step network (.setPort x attempt.copied attempt.opened attempt.banner attempt.input) =
      h.docked (table.set x ((table x).setPort name attempt).1) := by
  have set := congrArg Prod.fst ((table x).setPort_dock name attempt)
  rw [docked_set,show ((table x).setPort name attempt).1.dock = _ from set,(h.docked table).step_running network running]
  rfl

theorem recheck_played (h : Host H) (running : h.halted = false) (ports : List ListedPort) (slots : List (Fin maxDocks))
    (table next : SlotTable)
    (passed : slots.foldlM (fun table x => ((table x).recheck x ports).map (table.set x)) table = some next) :
    (hosts network).run (h.docked table) (table.recheckInputs ports slots) = h.docked next := by
  induction slots generalizing table with
  | nil =>
    obtain rfl := Option.some.inj passed
    rfl
  | cons x rest ih =>
    obtain ⟨mid,checked,later⟩ := Option.bind_eq_some_iff.mp passed
    obtain ⟨slot,found,rfl⟩ := Option.map_eq_some_iff.mp checked
    rw [SlotTable.recheckInputs,found]
    dsimp only
    rw [Machine.run_append]
    have here : (hosts network).run (h.docked table) (if (table x).lost x ports then [.disconnect x] else []) =
        h.docked (table.set x slot) := by
      rcases (table x).recheck_cases slot x ports found with ⟨rfl,kept⟩ | ⟨_,rfl,lost⟩
      · rw [kept,show table.set x (table x) = table from Function.update_eq_self _ _]
        rfl
      · rw [lost]
        exact h.docked_disconnect network running table x
    rw [here]
    exact ih _ later

theorem offer_played (h : Host H) (running : h.halted = false) (ports : List ListedPort) (table next : SlotTable)
    (passed : table.scanPorts ports = some next) :
    (hosts network).run (h.docked table) (table.offerInputs ports) = h.docked next := by
  induction ports generalizing table with
  | nil =>
    obtain rfl := Option.some.inj passed
    rfl
  | cons port rest ih =>
    obtain ⟨mid,examined,later⟩ := Option.bind_eq_some_iff.mp passed
    obtain ⟨⟨mid,result⟩,looked,rfl⟩ := Option.map_eq_some_iff.mp examined
    rw [SlotTable.offerInputs,looked]
    dsimp only at later ⊢
    rw [Machine.run_append]
    refine Eq.trans (congrArg (fun state => (hosts network).run state _) ?_) (ih _ later)
    rcases table.scanForHost_cases port mid result looked with ⟨rfl,rfl⟩ | ⟨x,ok,free,rfl,rfl⟩
    · rfl
    · rw [table.attemptInputs_tried port ok x free]
      exact h.docked_setPort network running table x port.name port.attempt

theorem scan_played (h : Host H) (running : h.halted = false) (listed : Option (List ListedPort)) (table next : SlotTable)
    (scanned : table.updateConnectedDocks listed = some next) :
    (hosts network).run (h.docked table) (table.scanInputs listed) = h.docked next := by
  cases listed with
  | none =>
    obtain rfl := Option.some.inj scanned
    rfl
  | some ports =>
    obtain ⟨checked,passed,later⟩ := Option.bind_eq_some_iff.mp scanned
    rw [SlotTable.scanInputs,Machine.run_append,h.recheck_played network running ports _ table checked passed,passed]
    exact h.offer_played network running ports checked next later

end Host

namespace SlotTable

def withDocks (table : SlotTable) (dock : Fin maxDocks → FlotillaDock) : SlotTable :=
  fun x => {table x with dock := dock x}

theorem withDocks_holds (table : SlotTable) (dock : Fin maxDocks → FlotillaDock)
    (states : ∀ x, (dock x).state = (table x).dock.state) (x : Fin maxDocks) (name : Text) :
    (table.withDocks dock x).Holds name ↔ (table x).Holds name :=
  and_congr_left' (by rw [← states x]; rfl)

theorem withDocks_proper (table : SlotTable) (dock : Fin maxDocks → FlotillaDock)
    (states : ∀ x, (dock x).state = (table x).dock.state) (proper : table.Proper) : (table.withDocks dock).Proper := by
  constructor
  · intro x
    rcases proper.settled x with off | ⟨name,holds⟩
    · exact .inl ((states x).trans off)
    · exact .inr ⟨name,(table.withDocks_holds dock states x name).mpr holds⟩
  · intro x y name first second
    exact proper.distinct x y name ((table.withDocks_holds dock states x name).mp first)
      ((table.withDocks_holds dock states y name).mp second)

theorem updateConnectedDocks_proper (table : SlotTable) (proper : table.Proper) (listed : Option (List ListedPort)) :
    ∃ after, table.updateConnectedDocks listed = some after ∧ after.Proper := by
  cases listed with
  | none => exact ⟨table,rfl,proper⟩
  | some ports =>
    obtain ⟨after,scanned,proper,_⟩ := table.updateConnectedDocks_right ports proper
    exact ⟨after,scanned,proper⟩

/-- The table after a scan, which is defined for a proper table. -/
def scanned (table : SlotTable) (proper : table.Proper) (listed : Option (List ListedPort)) : {after : SlotTable // after.Proper} :=
  ⟨(table.updateConnectedDocks listed).get (by
    obtain ⟨after,scanned,_⟩ := table.updateConnectedDocks_proper proper listed
    rw [scanned]
    rfl),by
    obtain ⟨after,scanned,kept⟩ := table.updateConnectedDocks_proper proper listed
    simp only [scanned,Option.get_some]
    exact kept⟩

theorem scanned_eq (table : SlotTable) (proper : table.Proper) (listed : Option (List ListedPort)) :
    table.updateConnectedDocks listed = some (table.scanned proper listed).val := (Option.some_get _).symm

theorem new_proper : new.Proper := by
  refine ⟨fun _ => .inl rfl,fun x _ _ holds => ?_⟩
  have free : (new x).dock.state = .disconnected := rfl
  rw [holds.1] at free
  contradiction

end SlotTable

/-- The daemon with the ports of its docks. -/
structure Site (H : Type) where
  host : Host H
  table : SlotTable
  serving : host.Serving
  same : ∀ x, (table x).dock = host.flotilla.dock x
  proper : table.Proper

namespace Site
variable {H : Type}

def new (canonicalAddress : Text) : Site H :=
  ⟨.new canonicalAddress,.new,⟨rfl,rfl⟩,fun _ => rfl,SlotTable.new_proper⟩

/-- The slots keep their ports, and the docks their states. -/
def rehost (s : Site H) (h : Host H) (serving : h.Serving)
    (states : ∀ d, (h.flotilla.dock d).state = (s.host.flotilla.dock d).state) : Site H :=
  ⟨h,s.table.withDocks h.flotilla.dock,serving,fun _ => rfl,
    s.table.withDocks_proper _ (fun x => by rw [s.same x]; exact states x) s.proper⟩

def dockScan (s : Site H) (listed : Option (List ListedPort)) : Site H :=
  let after := s.table.scanned s.proper listed
  ⟨s.host.docked after.val,after.val,⟨s.serving.free,s.serving.running⟩,fun _ => rfl,after.property⟩

variable [DecidableEq H] (network : Network H)

theorem event_steps (s : Site H) (event : ClientEvent H) : (s.host.step network event.input).Serving ∧
    ∀ d, ((s.host.step network event.input).flotilla.dock d).state = (s.host.flotilla.dock d).state := by
  refine ⟨s.host.step_serving network s.serving _,s.host.step_states network s.serving _ ?_ ?_⟩
  · intro d
    cases event <;> simp [ClientEvent.input]
  · intro d copied opened banner arrived
    cases event <;> simp [ClientEvent.input]

theorem update_steps (s : Site H) (arrived : Fin maxDocks → List Arrival) : (s.host.updateRound network arrived).Serving ∧
    ∀ d, ((s.host.updateRound network arrived).flotilla.dock d).state = (s.host.flotilla.dock d).state := by
  rw [← s.host.updateRound_run network arrived]
  apply s.host.run_states network s.serving
  intro input member
  rcases List.mem_append.mp member with ticked | served
  · obtain ⟨d,_,rfl⟩ := List.mem_map.mp ticked
    simp
  · rw [List.mem_singleton.mp served]
    simp

/-- A round, and the inputs of the daemon that it amounts to. -/
def round (s : Site H) (round : Round H) : Site H × List (HostInput H) :=
  if s.host.halted then (s,[])
  else
    match round with
    | .client event =>
      (s.rehost (s.host.step network event.input) (s.event_steps network event).1 (s.event_steps network event).2,
        [event.input])
    | .updateClients arrived =>
      (s.rehost (s.host.updateRound network arrived) (s.update_steps network arrived).1 (s.update_steps network arrived).2,
        Host.updateInputs arrived)
    | .dockScan listed => (s.dockScan listed,s.table.scanInputs listed)

end Site

def rounds {H : Type} [DecidableEq H] (network : Network H) : Machine (Site H) (Round H) (List (HostInput H)) :=
  ⟨Site.round network⟩

theorem Site.round_played {H : Type} [DecidableEq H] (network : Network H) (s : Site H) (taken : Round H) :
    (hosts network).run s.host (s.round network taken).2 = (s.round network taken).1.host := by
  unfold round
  by_cases halted : s.host.halted = true
  · rw [if_pos halted]
    rfl
  rw [if_neg halted]
  cases taken with
  | client event => rfl
  | updateClients arrived => exact s.host.updateRound_run network arrived
  | dockScan listed =>
    have docks : s.host.docked s.table = s.host := by
      unfold Host.docked
      simp only [s.same]
    have played := s.host.scan_played network (Bool.eq_false_iff.mpr halted) listed s.table _
      (s.table.scanned_eq s.proper listed)
    rw [docks] at played
    exact played

/-- The rounds of the workers refine the daemon: whatever rounds and events follow one another, the
inputs that they amount to lead the daemon to the same state. All the while no two docks are
connected to one port, and the slots that are not free are connected to a port with a name. -/
theorem rounds_refine {H : Type} [DecidableEq H] (network : Network H) (canonicalAddress : Text) (taken : List (Round H)) :
    let s := (rounds network).run (.new canonicalAddress) taken
    s.host = (hosts network).run (.new canonicalAddress) ((rounds network).emitted (.new canonicalAddress) taken) ∧
      (∀ x, (s.host.flotilla.dock x).state = .disconnected ∨
        (s.host.flotilla.dock x).state = .connected ∧ ∃ name, (s.table x).portName = some name) ∧
      ∀ x y, (s.host.flotilla.dock x).state = .connected → (s.host.flotilla.dock y).state = .connected →
        (s.table x).portName = (s.table y).portName → x = y := by
  intro s
  refine ⟨?_,fun x => ?_,fun x y first second shared => ?_⟩
  · exact ((rounds network).run_emitted (hosts network) Site.host (Site.round_played network) _ taken).symm
  · rw [← s.same x]
    rcases s.proper.settled x with off | ⟨name,connected,named⟩
    · exact .inl off
    · exact .inr ⟨connected,name,named⟩
  · rw [← s.same x] at first
    rw [← s.same y] at second
    obtain ⟨name,holds⟩ := (s.proper.settled x).resolve_left ((s.table x).connected_up first)
    exact s.proper.distinct x y name holds ⟨second,shared.symm.trans holds.2⟩

end FlotillaDaemon
