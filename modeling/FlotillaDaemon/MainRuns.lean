import FlotillaDaemon.Rounds
import FlotillaDaemon.ThreadRuns

/-! The rounds as runs of `main`. Whole rounds of the workers and events of clients, one after the
other, are what the main thread and its workers do when each of them waits for the others, step by
step and in the order of their loops. -/
namespace FlotillaDaemon
open Cpp Pool

/-- A loop over the docks that gets from each of them to the next. -/
theorem dock_loop {S : Type} (moves : S → S → Prop) (place : Nat → S → Prop)
    (one : ∀ (dockIdx : Fin maxDocks) s, place dockIdx.val s → ∃ t, Relation.ReflTransGen moves s t ∧ place (dockIdx.val + 1) t)
    (s : S) (start : place 0 s) : ∃ t, Relation.ReflTransGen moves s t ∧ place maxDocks t := by
  have upTo (next : Nat) (bound : next ≤ maxDocks) : ∃ t, Relation.ReflTransGen moves s t ∧ place next t := by
    induction next with
    | zero => exact ⟨s,.refl,start⟩
    | succ next ih =>
      obtain ⟨t,earlier,here⟩ := ih (by omega)
      obtain ⟨u,later,there⟩ := one ⟨next,by omega⟩ t here
      exact ⟨u,earlier.trans later,there⟩
  exact upTo maxDocks (Nat.le_refl _)

theorem finRange_take (dockIdx : Fin maxDocks) :
    (List.finRange maxDocks).take (dockIdx.val + 1) = (List.finRange maxDocks).take dockIdx.val ++ [dockIdx] := by
  have bound : dockIdx.val < (List.finRange maxDocks).length := by
    rw [List.length_finRange]
    exact dockIdx.isLt
  rw [List.take_succ_eq_append_getElem bound,List.getElem_finRange]
  rfl

/-- Such a loop with a value that its rounds change. -/
theorem dock_fold {S T : Type} (moves : S → S → Prop) (round : T → Fin maxDocks → Option T) (place : Nat → T → S → Prop)
    (one : ∀ (dockIdx : Fin maxDocks) value next s, round value dockIdx = some next → place dockIdx.val value s →
      ∃ t, Relation.ReflTransGen moves s t ∧ place (dockIdx.val + 1) next t)
    (value last : T) (folded : (List.finRange maxDocks).foldlM round value = some last) (s : S) (start : place 0 value s) :
    ∃ t, Relation.ReflTransGen moves s t ∧ place maxDocks last t := by
  obtain ⟨t,steps,final,whole,there⟩ := dock_loop moves
    (fun next s => ∃ mid, ((List.finRange maxDocks).take next).foldlM round value = some mid ∧ place next mid s)
    (fun dockIdx s here => by
      obtain ⟨mid,before,here⟩ := here
      have parts := folded
      rw [← List.take_append_drop (dockIdx.val + 1) (List.finRange maxDocks),List.foldlM_append] at parts
      obtain ⟨next,upTo,_⟩ := Option.bind_eq_some_iff.mp parts
      have taken : round mid dockIdx = some next := by
        rw [finRange_take,List.foldlM_append,before] at upTo
        simpa using upTo
      obtain ⟨t,steps,there⟩ := one dockIdx mid next s taken here
      exact ⟨t,steps,next,upTo,there⟩)
    s ⟨value,rfl,start⟩
  have same : last = final := Option.some.inj (folded.symm.trans whole)
  rw [same]
  exact ⟨t,steps,there⟩

namespace Slot

theorem leads_agrees {index : Nat} (s t : Slot) (leads : (slotSystem index).Leads Alone s t) (agrees : s.Agrees) :
    t.Agrees := by
  induction leads with
  | refl => exact agrees
  | tail _ moved ih =>
    obtain ⟨action,_,stepped⟩ := moved
    exact agrees_step _ _ action ih stepped

theorem updateStep_begins (s t : Slot) (action : UpdateAction) (away : s.update = .away)
    (stepped : s.updateStep action = some t) : action.begins = true := by
  unfold updateStep at stepped
  rw [away] at stepped
  cases action with
  | updateDocks | updateClients => rfl
  | proceed | waiting more | readline arrived => contradiction

theorem scanStep_begins (s t : Slot) (action : ScanAction) (idle : s.scan = .idle)
    (stepped : s.scanStep action = some t) : action.begins = true := by
  unfold scanStep at stepped
  rw [idle] at stepped
  cases action with
  | missing | found => rfl
  | proceed | outcome ok | handshake banner arrived => contradiction

end Slot

namespace Process

/-- Each dock is at rest as given, and its state agrees with its port. -/
structure Rests (s : Process) (docks : Fin maxDocks → FlotillaDock) : Prop where
  rests : ∀ d, (s.dock d).Rests (docks d)
  agrees : ∀ d, (s.dock d).Agrees

theorem rests_update (s : Process) (docks : Fin maxDocks → FlotillaDock) (rests : s.Rests docks) (d : Fin maxDocks)
    (slot : Slot) (dock : FlotillaDock) (here : slot.Rests dock) (agrees : slot.Agrees) (place : ScanPlace)
    (updating : UpdateRound) (scanning : ScanRound) :
    Rests ⟨Function.update s.dock d slot,place,updating,scanning⟩ (Function.update docks d dock) := by
  constructor
  · intro e
    by_cases own : e = d
    · subst own
      simpa using here
    · simpa [own] using rests.rests e
  · intro e
    by_cases own : e = d
    · subst own
      simpa using agrees
    · simpa [own] using rests.agrees e

theorem work_step (w : Worker) (s t : Process) (action : WorkAction) (moved : work w s action = some t) :
    routines.Steps w s t := .single ⟨action,moved⟩

theorem update_inside (s : Process) (d : Fin maxDocks) (free : ∀ other ≠ d, (s.dock other).update = .away)
    (idle : (s.dock d).scan = .idle) (t : Slot) (leads : (slotSystem d.val).Leads Slot.Inside (s.dock d) t) :
    routines.Steps .updateClients s {s with dock := Function.update s.dock d t} := by
  have led : routines.Steps .updateClients s {s with dock := Function.update s.dock d t} ∧ t.scan = .idle := by
    induction leads with
    | refl =>
      rw [Function.update_eq_self]
      exact ⟨.refl,idle⟩
    | @tail t u _ moved ih =>
      obtain ⟨action,inside,stepped⟩ := moved
      cases action with
      | client action => exact inside.elim
      | scan action =>
        have begun := Slot.scanStep_begins t u action ih.2 stepped
        rw [inside.2] at begun
        contradiction
      | update action =>
        refine ⟨ih.1.tail ⟨.dock d (.update action),?_⟩,(Slot.updateStep_effect t u action stepped).scan.trans ih.2⟩
        have here : t.updateStep action = some u := stepped
        have moved := work_update {s with dock := Function.update s.dock d t} d action s.updating u
          (UpdateRound.after_inside _ _ _ inside.2)
          (fun other apart => by simpa [apart] using free other apart) (by simpa using here)
        rw [Function.update_idem] at moved
        exact moved
  exact led.1

theorem scan_inside (s : Process) (d : Fin maxDocks) (free : ∀ other ≠ d, (s.dock other).scan = .idle)
    (away : (s.dock d).update = .away) (t : Slot) (leads : (slotSystem d.val).Leads Slot.Inside (s.dock d) t) :
    routines.Steps .dockScan s {s with dock := Function.update s.dock d t} := by
  have led : routines.Steps .dockScan s {s with dock := Function.update s.dock d t} ∧ t.update = .away := by
    induction leads with
    | refl =>
      rw [Function.update_eq_self]
      exact ⟨.refl,away⟩
    | @tail t u _ moved ih =>
      obtain ⟨action,inside,stepped⟩ := moved
      cases action with
      | client action => exact inside.elim
      | update action =>
        have begun := Slot.updateStep_begins t u action ih.2 stepped
        rw [inside.2] at begun
        contradiction
      | scan action =>
        refine ⟨ih.1.tail ⟨.dock d (.scan action),?_⟩,
          (Slot.scanMove_update t u (Slot.scanStep_move t u action stepped)).trans ih.2⟩
        have here : t.scanStep action = some u := stepped
        have moved := work_scan {s with dock := Function.update s.dock d t} d action s.scanning u
          (firstFree_inside _ _ _ inside.2) (ScanRound.after_inside _ _ _ inside.2)
          (fun other apart => by simpa [apart] using free other apart) (by simpa using here)
        rw [Function.update_idem] at moved
        exact moved
  exact led.1

theorem update_operation (s : Process) (docks : Fin maxDocks → FlotillaDock) (rests : s.Rests docks) (d : Fin maxDocks)
    (action : UpdateAction) (round : UpdateRound) (after : s.updating.after d action = some round) (begun final : Slot)
    (begins : (s.dock d).updateStep action = some begun) (leads : (slotSystem d.val).Leads Slot.Inside begun final)
    (dock : FlotillaDock) (ends : final.Rests dock) :
    ∃ t, routines.Steps .updateClients s t ∧ t.Rests (Function.update docks d dock) ∧ t.updating = round := by
  have free : ∀ other ≠ d, (s.dock other).update = .away := fun other _ => (rests.rests other).update
  have idle : begun.scan = .idle := (Slot.updateStep_effect _ _ _ begins).scan.trans (rests.rests d).scan
  have began := s.work_update d action round begun after free begins
  have inside := update_inside {s with dock := Function.update s.dock d begun,updating := round} d
    (fun other apart => by simpa [apart] using free other apart) (by simpa using idle) final (by simpa using leads)
  rw [Function.update_idem] at inside
  have whole : (slotSystem d.val).Leads Slot.Alone (s.dock d) final :=
    (Slot.leads_step (s.dock d) begun (.update action) (rests.rests d).scan begins).trans (Slot.inside_leads _ _ leads)
  exact ⟨_,(work_step _ _ _ _ began).trans inside,rests_update s docks rests d final dock ends
    (Slot.leads_agrees _ _ whole (rests.agrees d)) _ _ _,rfl⟩

theorem scan_operation (s : Process) (docks : Fin maxDocks → FlotillaDock) (rests : s.Rests docks) (d : Fin maxDocks)
    (action : ScanAction) (first : s.firstFree d action = true) (round : ScanRound)
    (after : s.scanning.after d action = some round) (begun final : Slot)
    (begins : (s.dock d).scanStep action = some begun) (leads : (slotSystem d.val).Leads Slot.Inside begun final)
    (dock : FlotillaDock) (ends : final.Rests dock) :
    ∃ t, routines.Steps .dockScan s t ∧ t.Rests (Function.update docks d dock) ∧ t.scanning = round := by
  have free : ∀ other ≠ d, (s.dock other).scan = .idle := fun other _ => (rests.rests other).scan
  have away : begun.update = .away :=
    (Slot.scanMove_update _ _ (Slot.scanStep_move _ _ _ begins)).trans (rests.rests d).update
  have began := s.work_scan d action round begun first after free begins
  have inside := scan_inside {s with dock := Function.update s.dock d begun,scanning := round} d
    (fun other apart => by simpa [apart] using free other apart) (by simpa using away) final (by simpa using leads)
  rw [Function.update_idem] at inside
  have whole : (slotSystem d.val).Leads Slot.Alone (s.dock d) final :=
    (Slot.leads_step (s.dock d) begun (.scan action) (rests.rests d).update begins).trans (Slot.inside_leads _ _ leads)
  exact ⟨_,(work_step _ _ _ _ began).trans inside,rests_update s docks rests d final dock ends
    (Slot.leads_agrees _ _ whole (rests.agrees d)) _ _ _,rfl⟩

theorem tick_steps (s : Process) (docks : Fin maxDocks → FlotillaDock) (rests : s.Rests docks) (d : Fin maxDocks)
    (here : s.updating = .docks d) (next : FlotillaDock) (port written : SerialPort)
    (returned : (docks d).tick port = .ok (next,written)) :
    ∃ t, routines.Steps .updateClients s t ∧ t.Rests (Function.update docks d next) ∧
      t.updating = eachDock (d.val + 1) .docks (.clients 0) := by
  have after : s.updating.after d .updateDocks = some (eachDock (d.val + 1) .docks (.clients 0)) := by
    rw [here]
    exact if_pos rfl
  obtain ⟨dock,away,idle⟩ := rests.rests d
  have own : (s.dock d).Rests (s.dock d).dock := ⟨rfl,away,idle⟩
  rw [← dock] at returned
  by_cases connected : (s.dock d).dock.state = .connected
  · exact s.update_operation docks rests d .updateDocks _ after _ _ ((s.dock d).called_step own connected)
      (Slot.inside_update _ _ idle ((s.dock d).tick_alone _ next port written returned)) next ⟨rfl,rfl,idle⟩
  · rw [FlotillaDock.tick,if_pos connected] at returned
    obtain ⟨rfl,_⟩ := Prod.mk.inj (Except.ok.inj returned)
    have tested : (s.dock d).updateStep .updateDocks = some (s.dock d) := by
      simp only [Slot.updateStep,away,if_neg connected]
      rw [← away]
    exact s.update_operation docks rests d .updateDocks _ after _ _ tested .refl _ own

theorem pass_steps (s : Process) (docks : Fin maxDocks → FlotillaDock) (rests : s.Rests docks) (d : Fin maxDocks)
    (here : s.updating = .clients d) : ∃ t, routines.Steps .updateClients s t ∧
      t.Rests (Function.update docks d (docks d).afterPass) ∧ t.updating = eachDock (d.val + 1) .clients .ended := by
  have after : s.updating.after d .updateClients = some (eachDock (d.val + 1) .clients .ended) := by
    rw [here]
    exact if_pos rfl
  obtain ⟨dock,away,idle⟩ := rests.rests d
  have own : (s.dock d).Rests (s.dock d).dock := ⟨rfl,away,idle⟩
  exact s.update_operation docks rests d .updateClients _ after _ _ ((s.dock d).flushed_step own)
    ((s.dock d).flushed_leads idle) _ ⟨congrArg FlotillaDock.afterPass dock,rfl,idle⟩

theorem passes_steps (s : Process) (docks : Fin maxDocks → FlotillaDock) (rests : s.Rests docks)
    (start : s.updating = .clients 0) : ∃ t, routines.Steps .updateClients s t ∧
      t.Rests (fun d => (docks d).afterPass) ∧ t.updating = .ended := by
  let passed (next : Nat) (d : Fin maxDocks) : FlotillaDock := if d.val < next then (docks d).afterPass else docks d
  have passed_next (d : Fin maxDocks) : passed (d.val + 1) = Function.update (passed d.val) d (passed d.val d).afterPass := by
    funext e
    by_cases own : e = d
    · subst own
      simp [passed]
    · have apart : e.val ≠ d.val := fun same => own (Fin.ext same)
      rw [Function.update_of_ne own]
      exact if_congr (by omega) rfl rfl
  have none_passed : passed 0 = docks := funext fun d => if_neg (Nat.not_lt_zero _)
  have all_passed : passed maxDocks = fun d => (docks d).afterPass := funext fun d => if_pos d.isLt
  rw [← none_passed] at rests
  rw [← all_passed]
  exact dock_loop _ (fun next s => s.Rests (passed next) ∧ s.updating = eachDock next .clients .ended)
    (fun d s place => by
      rw [passed_next]
      exact s.pass_steps _ place.1 d (place.2.trans (dif_pos d.isLt))) s ⟨rests,start⟩

theorem passed_steps (s : Process) (docks : Fin maxDocks → FlotillaDock) (rests : s.Rests docks) (round : ScanRound)
    (passed : s.scanning.passed = some round) :
    ∃ t, routines.Steps .dockScan s t ∧ t.Rests docks ∧ t.scanning = round := by
  have moved : work .dockScan s .passed = some {s with scanning := round} := by
    rw [work,if_pos fun d => (rests.rests d).scan,passed]
    rfl
  exact ⟨_,work_step _ _ _ _ moved,⟨rests.rests,rests.agrees⟩,rfl⟩

theorem missing_steps (s : Process) (docks : Fin maxDocks → FlotillaDock) (rests : s.Rests docks) (d : Fin maxDocks)
    (ports : Nat) (here : s.scanning = .checking d ports) (on : (docks d).state ≠ .disconnected) :
    ∃ t, routines.Steps .dockScan s t ∧ t.Rests (Function.update docks d (docks d).disconnect) ∧
      t.scanning = .check (d.val + 1) ports := by
  have after : s.scanning.after d .missing = some (.check (d.val + 1) ports) := by
    rw [here]
    exact if_pos rfl
  obtain ⟨dock,away,idle⟩ := rests.rests d
  have own : (s.dock d).Rests (s.dock d).dock := ⟨rfl,away,idle⟩
  rw [← dock] at on ⊢
  exact s.scan_operation docks rests d .missing rfl _ after _ _ ((s.dock d).missing_step own (rests.agrees d) on)
    ((s.dock d).leaving_leads own on) _ ((s.dock d).closed_rests own)

theorem found_steps (s : Process) (docks : Fin maxDocks → FlotillaDock) (rests : s.Rests docks) (d : Fin maxDocks)
    (left : Nat) (here : s.scanning = .offering (left + 1)) (off : (docks d).state = .disconnected)
    (before : ∀ x < d, (docks x).state ≠ .disconnected) (copied opened banner : Bool) (arrived : List Arrival) :
    ∃ t, routines.Steps .dockScan s t ∧ t.Rests (Function.update docks d ((docks d).setPort copied opened banner arrived).1) ∧
      t.scanning = .offering left := by
  have after : s.scanning.after d .found = some (.offering left) := by rw [here]; rfl
  have first : s.firstFree d .found = true := decide_eq_true fun _ x earlier => by
    rw [(rests.rests x).dock]
    exact before x earlier
  obtain ⟨dock,away,idle⟩ := rests.rests d
  have own : (s.dock d).Rests (s.dock d).dock := ⟨rfl,away,idle⟩
  rw [← dock] at off ⊢
  obtain ⟨final,leads,ends⟩ := (s.dock d).copying_leads own off copied opened banner arrived
  exact s.scan_operation docks rests d .found first _ after _ _ ((s.dock d).found_step own off) leads _ ends

end Process

namespace Host
variable {H : Type} [DecidableEq H] (network : Network H)

theorem run_halted (h : Host H) (halted : h.halted = true) (inputs : List (HostInput H)) : (hosts network).run h inputs = h := by
  induction inputs with
  | nil => rfl
  | cons input rest ih =>
    change (hosts network).run (h.step network input) rest = h
    rw [h.step_halted network halted]
    exact ih

theorem run_running (h : Host H) (earlier later : List (HostInput H))
    (goes : ((hosts network).run h (earlier ++ later)).halted = false) : ((hosts network).run h earlier).halted = false := by
  rw [Machine.run_append] at goes
  by_contra halted
  rw [run_halted network _ (eq_true_of_ne_false halted)] at goes
  exact halted goes

/-- The daemon after the ticks of the docks before this one. -/
def ticked (h : Host H) (arrived : Fin maxDocks → List Arrival) (next : Nat) : Host H :=
  (hosts network).run h (((List.finRange maxDocks).take next).map fun d => .tick d (arrived d))

theorem ticked_next (h : Host H) (arrived : Fin maxDocks → List Arrival) (d : Fin maxDocks) :
    h.ticked network arrived (d.val + 1) = (h.ticked network arrived d.val).step network (.tick d (arrived d)) := by
  rw [ticked,finRange_take,List.map_append,Machine.run_append]
  rfl

theorem ticked_running (h : Host H) (arrived : Fin maxDocks → List Arrival)
    (goes : (h.updateRound network arrived).halted = false) (next : Nat) : (h.ticked network arrived next).halted = false := by
  rw [← h.updateRound_run network arrived,updateInputs,← List.take_append_drop next (List.finRange maxDocks),
    List.map_append,List.append_assoc] at goes
  exact run_running network h _ _ goes

theorem ticked_serving (h : Host H) (serving : h.Serving) (arrived : Fin maxDocks → List Arrival) (next : Nat) :
    (h.ticked network arrived next).Serving :=
  (hosts network).run_invariant Host.Serving (fun h input kept => h.step_serving network kept input) h serving _

theorem ticks_steps (h : Host H) (serving : h.Serving) (arrived : Fin maxDocks → List Arrival)
    (goes : ∀ next, (h.ticked network arrived next).halted = false) (s : Process) (rests : s.Rests h.flotilla.dock)
    (start : s.updating = .docks 0) : ∃ t, Process.routines.Steps .updateClients s t ∧
      t.Rests (h.ticked network arrived maxDocks).flotilla.dock ∧ t.updating = .clients 0 := by
  refine dock_loop _ (fun next s => s.Rests (h.ticked network arrived next).flotilla.dock ∧
    s.updating = eachDock next .docks (.clients 0)) (fun d s place => ?_) s ⟨rests,start⟩
  have here := goes d.val
  have after := goes (d.val + 1)
  rw [ticked_next] at after ⊢
  have served := h.ticked_serving network serving arrived d.val
  rw [step_running network _ here] at after
  obtain ⟨next,port,returned,_⟩ := tick_goes_on _ d (arrived d) after
  obtain ⟨t,steps,rests,round⟩ := s.tick_steps _ place.1 d (place.2.trans (dif_pos d.isLt)) next _ port returned
  refine ⟨t,steps,?_,round⟩
  rw [running_flotilla network _ served here]
  simpa [Host.next,Flotilla.changeDock,FlotillaDock.afterTick,returned] using rests

theorem updateRound_steps (h : Host H) (serving : h.Serving) (arrived : Fin maxDocks → List Arrival)
    (goes : (h.updateRound network arrived).halted = false) (s : Process) (rests : s.Rests h.flotilla.dock)
    (start : s.updating = .docks 0) : ∃ t, Process.routines.Steps .updateClients s t ∧
      t.Rests (h.updateRound network arrived).flotilla.dock ∧ t.updating = .ended := by
  have up := h.ticked_running network arrived goes
  have whole : h.updateRound network arrived = (h.ticked network arrived maxDocks).step network .updateClients := by
    rw [← h.updateRound_run network arrived,updateInputs,Machine.run_append]
    rfl
  obtain ⟨t,ticks,ticked,clients⟩ := h.ticks_steps network serving arrived up s rests start
  obtain ⟨u,passes,passed,ended⟩ := t.passes_steps _ ticked clients
  refine ⟨u,ticks.trans passes,?_,ended⟩
  rw [whole,running_flotilla network _ (h.ticked_serving network serving arrived maxDocks) (up maxDocks)]
  exact passed

end Host

namespace SlotTable

theorem recheck_step (table : SlotTable) (slot : PortSlot) (d : Fin maxDocks) (ports : List ListedPort)
    (looked : (table d).recheck d ports = some slot) (s : Process) (rests : s.Rests fun x => (table x).dock)
    (here : s.scanning = .checking d ports.length) :
    ∃ t, Process.routines.Steps .dockScan s t ∧ t.Rests (fun x => (table.set d slot x).dock) ∧
      t.scanning = .check (d.val + 1) ports.length := by
  rcases (table d).recheck_cases slot d ports looked with ⟨rfl,_⟩ | ⟨on,rfl,_⟩
  · rw [show table.set d (table d) = table from Function.update_eq_self _ _]
    exact s.passed_steps _ rests _ (by rw [here]; rfl)
  · rw [table.set_docks,PortSlot.disconnect_dock]
    exact s.missing_steps _ rests d _ here on

theorem recheck_steps (table checked : SlotTable) (ports : List ListedPort) (passed : table.recheckDocks ports = some checked)
    (s : Process) (rests : s.Rests fun x => (table x).dock) (start : s.scanning = .checking 0 ports.length) :
    ∃ t, Process.routines.Steps .dockScan s t ∧ t.Rests (fun x => (checked x).dock) ∧ t.scanning = .offering ports.length := by
  let place (next : Nat) (mid : SlotTable) (s : Process) : Prop :=
    s.Rests (fun x => (mid x).dock) ∧ s.scanning = .check next ports.length
  refine dock_fold _ _ place (fun d mid next s round here => ?_) table checked passed s ⟨rests,start⟩
  obtain ⟨slot,looked,rfl⟩ := Option.map_eq_some_iff.mp round
  exact mid.recheck_step slot d ports looked s here.1 (here.2.trans (dif_pos d.isLt))

theorem offer_steps (ports : List ListedPort) (table next : SlotTable) (passed : table.scanPorts ports = some next)
    (s : Process) (rests : s.Rests fun x => (table x).dock) (start : s.scanning = .offering ports.length) :
    ∃ t, Process.routines.Steps .dockScan s t ∧ t.Rests (fun x => (next x).dock) ∧ t.scanning = .offering 0 := by
  induction ports generalizing table s with
  | nil =>
    obtain rfl := Option.some.inj passed
    exact ⟨s,.refl,rests,start⟩
  | cons port rest ih =>
    obtain ⟨mid,examined,later⟩ := Option.bind_eq_some_iff.mp passed
    obtain ⟨⟨mid,result⟩,looked,rfl⟩ := Option.map_eq_some_iff.mp examined
    have one : ∃ t, Process.routines.Steps .dockScan s t ∧ t.Rests (fun x => (mid x).dock) ∧
        t.scanning = .offering rest.length := by
      rcases table.scanForHost_cases port mid result looked with ⟨rfl,_⟩ | ⟨x,ok,free,_,rfl⟩
      · exact s.passed_steps _ rests _ (by rw [start]; rfl)
      · obtain ⟨off,before⟩ := table.freeSlot_first x free
        have set := congrArg Prod.fst ((table x).setPort_dock port.name port.attempt)
        rw [table.set_docks,show ((table x).setPort port.name port.attempt).1.dock = _ from set]
        exact s.found_steps _ rests x _ start off before _ _ _ _
    obtain ⟨t,steps,rests,round⟩ := one
    obtain ⟨u,further,last⟩ := ih mid later t rests round
    exact ⟨u,steps.trans further,last⟩

theorem scan_steps (table next : SlotTable) (listed : Option (List ListedPort))
    (scanned : table.updateConnectedDocks listed = some next) (s : Process) (rests : s.Rests fun x => (table x).dock)
    (start : s.scanning = .listing) :
    ∃ t, Process.routines.Steps .dockScan s t ∧ t.Rests (fun x => (next x).dock) ∧ t.scanning = .offering 0 := by
  have lists (ports : Option Nat) : Process.routines.Steps .dockScan s
      {s with scanning := ports.elim (.offering 0) (.checking 0)} := Process.work_step _ _ _ (.listed ports) (if_pos start)
  cases listed with
  | none =>
    obtain rfl := Option.some.inj scanned
    exact ⟨_,lists none,⟨rests.rests,rests.agrees⟩,rfl⟩
  | some ports =>
    obtain ⟨checked,passed,later⟩ := Option.bind_eq_some_iff.mp scanned
    obtain ⟨t,steps,rests,round⟩ := table.recheck_steps checked ports passed
      {s with scanning := .checking 0 ports.length} ⟨rests.rests,rests.agrees⟩ rfl
    obtain ⟨u,further,last⟩ := checked.offer_steps ports next later t rests round
    exact ⟨u,(lists (some ports.length)).trans (steps.trans further),last⟩

end SlotTable

/-- The main thread runs the server, the workers are between two rounds, and the docks are at rest. -/
structure Waiting (docks : Fin maxDocks → FlotillaDock) (pool : Pool Process Worker MainCall) : Prop where
  calling : pool.calling = some .startServer
  running : pool.running = true
  notifies : pool.stage .ipNotify ≠ .working
  scans : pool.stage .dockScan = .testing
  updates : pool.stage .updateClients = .testing
  rests : pool.shared.Rests docks

theorem Waiting.between (docks : Fin maxDocks → FlotillaDock) (pool : Pool Process Worker MainCall)
    (waiting : Waiting docks pool) (w : Worker) : pool.stage w ≠ .working := by
  cases w with
  | ipNotify => exact waiting.notifies
  | dockScan =>
    rw [waiting.scans]
    exact Stage.noConfusion
  | updateClients =>
    rw [waiting.updates]
    exact Stage.noConfusion

section Pools
variable (shouldDiscover : Bool)

theorem starts : ∃ pool, (mainThread shouldDiscover).Reached (fun _ _ => True) pool ∧ Waiting (fun d => .new d.val) pool := by
  have rests : Process.Rests ⟨daemon.initial,.idle,.ended,.offering 0⟩ (fun d => .new d.val) :=
    ⟨fun _ => ⟨rfl,rfl,rfl⟩,fun _ => .inl rfl⟩
  cases shouldDiscover with
  | false => exact ⟨_,System.run_reached _ _ (List.replicate 3 .next) rfl,rfl,rfl,Stage.noConfusion,rfl,rfl,rests⟩
  | true => exact ⟨_,System.run_reached _ _ (List.replicate 4 .next) rfl,rfl,rfl,Stage.noConfusion,rfl,rfl,rests⟩

variable {H : Type} [DecidableEq H] (network : Network H)

theorem event_leads (h : Host H) (serving : h.Serving) (running : h.halted = false) (event : ClientEvent H)
    (pool : Pool Process Worker MainCall) (waiting : Waiting h.flotilla.dock pool) :
    ∃ after, (mainThread shouldDiscover).Leads (fun _ _ => True) pool after ∧
      Waiting (h.step network event.input).flotilla.dock after := by
  rw [h.running_flotilla network serving running]
  cases event with
  | opened hdl | closed hdl | failed hdl => exact ⟨pool,.refl,waiting⟩
  | message hdl request =>
    change ∃ after, _ ∧ Waiting (h.flotilla.after (Flotilla.websocketOnMessage network hdl request.payload)).dock after
    rcases Host.message_changes network hdl request.payload h.flotilla with same | ⟨d,action,next,same,queued⟩
    · rw [same]
      exact ⟨pool,.refl,waiting⟩
    · rw [same]
      have rests := waiting.rests.rests d
      have stepped := queued _ rests
      let slot : Slot := {pool.shared.dock d with dock := next}
      have agrees : slot.Agrees := Slot.agrees_step _ slot (.client action) (waiting.rests.agrees d) stepped
      have moved := Process.step_daemon pool.shared.dock d (.client action) slot rfl stepped
      have acted : (mainThread shouldDiscover).step pool (.act (.client d action)) =
          some {pool with shared := {pool.shared with dock := Function.update pool.shared.dock d slot}} := by
        change pool.calling.bind _ = _
        rw [waiting.calling]
        change ((daemon.step pool.shared.dock (d,.client action)).map _).map _ = _
        rw [moved]
        rfl
      exact ⟨_,.single ⟨_,trivial,acted⟩,waiting.calling,waiting.running,waiting.notifies,waiting.scans,waiting.updates,
        Process.rests_update _ _ waiting.rests d slot next ⟨rfl,rests.update,rests.scan⟩ agrees _ _ _⟩

theorem site_round_leads (s : Site H) (taken : Round H) (goes : (s.round network taken).1.host.halted = false)
    (pool : Pool Process Worker MainCall) (waiting : Waiting s.host.flotilla.dock pool) :
    ∃ after, (mainThread shouldDiscover).Leads (fun _ _ => True) pool after ∧
      Waiting (s.round network taken).1.host.flotilla.dock after := by
  unfold Site.round at goes ⊢
  by_cases halted : s.host.halted = true
  · rw [if_pos halted]
    exact ⟨pool,.refl,waiting⟩
  rw [if_neg halted] at goes ⊢
  have round (w : Worker) (testing : pool.stage w = .testing) (docks : Fin maxDocks → FlotillaDock) (t : Process)
      (steps : Process.routines.Steps w (Process.begins w pool.shared) t) (rests : t.Rests docks)
      (away : Process.away w t = true) :
      ∃ after, (mainThread shouldDiscover).Leads (fun _ _ => True) pool after ∧ Waiting docks after :=
    ⟨_,Process.routines.round_leads _ w pool testing waiting.running t steps away,
      waiting.calling,waiting.running,waiting.notifies,waiting.scans,waiting.updates,rests⟩
  cases taken with
  | client event => exact event_leads shouldDiscover network s.host s.serving (eq_false_of_ne_true halted) event pool waiting
  | updateClients arrived =>
    obtain ⟨t,steps,rests,ended⟩ := s.host.updateRound_steps network s.serving arrived goes
      (Process.begins .updateClients pool.shared) ⟨waiting.rests.rests,waiting.rests.agrees⟩ rfl
    exact round .updateClients waiting.updates _ t steps rests (decide_eq_true ⟨ended,fun d => (rests.rests d).update⟩)
  | dockScan listed =>
    obtain ⟨t,steps,rests,ended⟩ := s.table.scan_steps _ listed (s.table.scanned_eq s.proper listed)
      (Process.begins .dockScan pool.shared) (by
        rw [funext s.same]
        exact ⟨waiting.rests.rests,waiting.rests.agrees⟩) rfl
    exact round .dockScan waiting.scans _ t steps rests (decide_eq_true ⟨ended,fun d => (rests.rests d).scan⟩)

end Pools

/-- The rounds are runs of `main`. For any rounds and events that do not end the daemon, `main` and
its workers, step by step, can come to a state in which the server runs, no worker is in a round and
each dock is as the rounds leave it. -/
theorem main_covers_rounds {H : Type} [DecidableEq H] (network : Network H) (canonicalAddress : Text) (shouldDiscover : Bool)
    (taken : List (Round H)) (running : ((rounds network).run (.new canonicalAddress) taken).host.halted = false) :
    ∃ pool, (mainThread shouldDiscover).Reached (fun _ _ => True) pool ∧ pool.calling = some .startServer ∧
      pool.running = true ∧ (∀ w, pool.stage w ≠ .working) ∧
      ∀ d, (pool.shared.dock d).dock = ((rounds network).run (.new canonicalAddress) taken).host.flotilla.dock d ∧
        (pool.shared.dock d).update = .away ∧ (pool.shared.dock d).scan = .idle := by
  have along := ((rounds network).run_up_iff (fun _ => True) (fun s => s.host.halted = false)
    (fun s taken => (s.round network taken).1.host.halted = false) (fun _ _ _ => trivial) (fun _ _ _ _ => Iff.rfl)
    (fun s taken fallen up => fallen (by
      have same : (s.round network taken).1 = s := congrArg Prod.fst (if_pos (eq_true_of_ne_false fallen))
      rw [← same]
      exact up)) (.new canonicalAddress) trivial rfl taken).mp running
  obtain ⟨pool,reached,waiting⟩ := (rounds network).along_invariant
    (fun s => ∃ pool, (mainThread shouldDiscover).Reached (fun _ _ => True) pool ∧ Waiting s.host.flotilla.dock pool) _
    (fun s taken kept goes => by
      obtain ⟨pool,reached,waiting⟩ := kept
      obtain ⟨after,leads,still⟩ := site_round_leads shouldDiscover network s taken goes pool waiting
      exact ⟨after,System.leads_reached _ _ _ _ reached leads,still⟩)
    (.new canonicalAddress) (starts shouldDiscover) taken along
  exact ⟨pool,reached,waiting.calling,waiting.running,waiting.between _ _,fun d =>
    ⟨(waiting.rests.rests d).dock,(waiting.rests.rests d).update,(waiting.rests.rests d).scan⟩⟩

section Plugged

/-- A dock is plugged in, sends a dial that is passed to a client, and is found again. -/
def dialRounds : List (Round Nat) :=
  [.dockScan (some [dialPort]),.updateClients fun _ => "c 1/dial\n".toList.map .byte,.client (.opened 1),
    .updateClients fun _ => [],.dockScan (some [dialPort])]

end Plugged

theorem main_covers_rounds_dial :
    ∃ pool, (mainThread true).Reached (fun _ _ => True) pool ∧ pool.calling = some .startServer ∧
      pool.running = true ∧ (∀ w, pool.stage w ≠ .working) ∧
      ∀ d, (pool.shared.dock d).dock = ((rounds allSucceed).run (.new []) dialRounds).host.flotilla.dock d ∧
        (pool.shared.dock d).update = .away ∧ (pool.shared.dock d).scan = .idle :=
  main_covers_rounds allSucceed [] true dialRounds (by decide +kernel)

end FlotillaDaemon
