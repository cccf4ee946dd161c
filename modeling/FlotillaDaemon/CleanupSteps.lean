import FlotillaDaemon.LineMoves
import FlotillaDaemon.Lifecycle

/-! How soon the daemon ends. Once `running` is lowered the threads have a bounded number of steps
left, in whatever order they take them, but for the lines that the docks still send, the waits for
their ports and the ports that a scan finds. -/
namespace FlotillaDaemon
open Cpp Pool

instance : Fintype Worker := ⟨{.ipNotify,.dockScan,.updateClients},fun w => by cases w <;> simp⟩

/-- The steps that the update thread has left at a dock if nothing more comes from it. -/
def UpdatePlace.steps : UpdatePlace → Nat
  | .away => 0
  | .called => 4 + 5 * maxChannels
  | .writing => 3 + 5 * maxChannels
  | .channel next => 2 + 5 * (maxChannels - next)
  | .polling c => 6 + 5 * (maxChannels - (c.val + 1))
  | .draining c => 5 + 5 * (maxChannels - (c.val + 1))
  | .sending c => 4 + 5 * (maxChannels - (c.val + 1))
  | .ending c => 3 + 5 * (maxChannels - (c.val + 1))
  | .input => 1
  | .reading => 4
  | .processing _ => 3
  | .announcing _ => 2
  | .flushed => 2 + maxChannels
  | .serving next => 1 + (maxChannels - next)

/-- The steps that are left inside `disconnect` or `set_port`. -/
def ScanPlace.steps : ScanPlace → Nat
  | .idle => 0
  | .leaving => 2 + 3 * maxChannels
  | .sweeping next => 1 + 3 * (maxChannels - next)
  | .dropping c => 3 + 3 * (maxChannels - (c.val + 1))
  | .losing c => 2 + 3 * (maxChannels - (c.val + 1))
  | .copying => 5
  | .opening => 4
  | .shaking => 3
  | .accepting => 2
  | .failing | .enumerating => 1

theorem UpdatePlace.steps_le (place : UpdatePlace) : place.steps ≤ 44 := by
  cases place <;> simp only [UpdatePlace.steps,maxChannels] <;> omega

theorem ScanPlace.steps_le (place : ScanPlace) : place.steps ≤ 26 := by
  cases place <;> simp only [ScanPlace.steps,maxChannels] <;> omega

/-- A line that waits, or a port that is not drained yet, brings steps that no round has planned. -/
def UpdateAction.waits : UpdateAction → Nat
  | .waiting true => 4
  | _ => 0

def UpdateAction.brings : UpdateAction → Nat
  | .updateDocks => 5 + 5 * maxChannels
  | .updateClients => 3 + maxChannels
  | action => action.waits

def ScanAction.brings : ScanAction → Nat
  | .missing => 3 + 3 * maxChannels
  | .found => 6
  | _ => 0

theorem FlotillaDock.getVersionInfo_commands (dock : FlotillaDock) (banner : Bool) (input : List Arrival) :
    (dock.getVersionInfo banner input).1.commandQueue = dock.commandQueue := by
  obtain ⟨_,_,_,_,introduced⟩ := dock.getVersionInfo_introduces banner input
  rw [introduced]

namespace Slot

/-- A queued command is one step of `tick`. -/
def steps (s : Slot) : Nat := s.dock.commandQueue.length + s.update.steps + s.scan.steps

theorem applyLine_commands (dock next : FlotillaDock) (line : Text) (changed : Option (Fin maxChannels))
    (applied : dock.applyLine line = .ok (next,changed)) : next.commandQueue = dock.commandQueue := by
  have kept := FlotillaDock.lineMove_commands dock _ (dock.applyLine_move line _ applied)
  cases changed <;> exact kept

theorem updateStep_uses (s t : Slot) (action : UpdateAction) (moved : s.updateStep action = some t) :
    t.steps + 1 ≤ s.steps + action.brings := by
  have scan := (updateStep_effect s t action moved).scan
  unfold steps
  rw [scan]
  unfold updateStep at moved
  split at moved
  case h_1 place =>
    obtain rfl := Option.some.inj moved
    rw [place]
    split <;> simp only [UpdatePlace.steps,UpdateAction.brings] <;> omega
  case h_2 place =>
    obtain rfl := Option.some.inj moved
    rw [place]
    split <;> simp only [UpdatePlace.steps] <;> omega
  case h_3 place =>
    split at moved
    next empty =>
      obtain rfl := Option.some.inj moved
      simp only [place,UpdatePlace.steps]
      omega
    next front rest waiting =>
      obtain rfl := Option.some.inj moved
      simp only [waiting,List.length_cons]
      omega
  case h_4 next place =>
    obtain rfl := Option.some.inj moved
    rw [place]
    by_cases bound : next < maxChannels
    · simp only [eachChannel_inside next bound]
      split <;> simp only [UpdatePlace.steps] <;> omega
    · simp only [eachChannel_done next bound,UpdatePlace.steps]
      omega
  case h_5 c place =>
    rcases polled : (s.dock.module c).getNextUpdate [] with ⟨m,fresh,text⟩
    rw [polled] at moved
    obtain rfl := Option.some.inj moved
    have inside := c.isLt
    rw [place]
    cases fresh with
    | true =>
      simp only [if_true,UpdatePlace.steps,FlotillaDock.setModule]
      omega
    | false =>
      simp only [Bool.false_eq_true,if_false,UpdatePlace.steps,FlotillaDock.setModule]
      omega
  case h_6 c more place =>
    obtain rfl := Option.some.inj moved
    rw [place]
    cases more with
    | true =>
      simp only [if_true,UpdatePlace.steps,UpdateAction.brings,UpdateAction.waits]
      omega
    | false =>
      simp only [Bool.false_eq_true,if_false,UpdatePlace.steps]
      omega
  case h_7 c place | h_8 c place =>
    obtain rfl := Option.some.inj moved
    simp only [place,UpdatePlace.steps]
    omega
  case h_9 more place =>
    obtain rfl := Option.some.inj moved
    rw [place]
    cases more with
    | true =>
      simp only [if_true,UpdatePlace.steps,UpdateAction.brings,UpdateAction.waits]
      omega
    | false =>
      simp only [Bool.false_eq_true,if_false,UpdatePlace.steps]
      omega
  case h_10 arrived place =>
    obtain rfl := Option.some.inj moved
    simp only [place,UpdatePlace.steps]
    omega
  case h_11 line place =>
    split at moved
    next dock c applied =>
      obtain rfl := Option.some.inj moved
      simp only [place,UpdatePlace.steps,applyLine_commands _ _ _ _ applied]
      omega
    next dock applied =>
      obtain rfl := Option.some.inj moved
      simp only [place,UpdatePlace.steps,applyLine_commands _ _ _ _ applied]
      omega
    next => contradiction
  case h_12 c place =>
    obtain rfl := Option.some.inj moved
    simp only [place,UpdatePlace.steps,FlotillaDock.queueModuleEvent]
    omega
  case h_13 place =>
    obtain rfl := Option.some.inj moved
    simp only [place,UpdatePlace.steps,UpdateAction.brings]
    omega
  case h_14 place =>
    obtain rfl := Option.some.inj moved
    rw [place]
    split <;> simp only [UpdatePlace.steps] <;> omega
  case h_15 next place =>
    obtain rfl := Option.some.inj moved
    by_cases bound : next < maxChannels
    · have kept : (if s.moduleConnected ⟨next,bound⟩ then (s.dock.getNextCommand ⟨next,bound⟩).1 else s.dock).commandQueue =
          s.dock.commandQueue := by
        split <;> rfl
      simp only [eachChannel_inside next bound,place,UpdatePlace.steps,kept]
      omega
    · simp only [eachChannel_done next bound,place,UpdatePlace.steps]
      omega
  case h_16 => contradiction

theorem scanStep_uses (s t : Slot) (action : ScanAction) (moved : s.scanStep action = some t) :
    t.steps + 1 ≤ s.steps + action.brings := by
  have update := scanMove_update s t (scanStep_move s t action moved)
  unfold steps
  rw [update]
  unfold scanStep at moved
  split at moved
  case h_1 place =>
    obtain rfl := Option.some.inj moved
    rw [place]
    split <;> simp only [ScanPlace.steps,ScanAction.brings] <;> omega
  case h_2 place =>
    split at moved <;> obtain rfl := Option.some.inj moved <;> simp only [place,ScanPlace.steps,setState] <;> omega
  case h_3 next place =>
    obtain rfl := Option.some.inj moved
    rw [place]
    by_cases bound : next < maxChannels
    · simp only [eachChannel_inside next bound]
      split <;> simp only [ScanPlace.steps] <;> omega
    · simp only [eachChannel_done next bound,ScanPlace.steps]
      omega
  case h_4 c place =>
    obtain rfl := Option.some.inj moved
    simp only [place,ScanPlace.steps,FlotillaDock.setModule]
    omega
  case h_5 c place =>
    split at moved
    next => contradiction
    next =>
      obtain rfl := Option.some.inj moved
      simp only [place,ScanPlace.steps,FlotillaDock.queueModuleEvent]
      omega
  case h_6 place =>
    split at moved <;> obtain rfl := Option.some.inj moved <;>
      simp only [place,ScanPlace.steps,ScanAction.brings,setState] <;> omega
  case h_7 ok place | h_8 ok place =>
    obtain rfl := Option.some.inj moved
    rw [place]
    cases ok with
    | true =>
      simp only [if_true,ScanPlace.steps]
      omega
    | false =>
      simp only [Bool.false_eq_true,if_false,ScanPlace.steps]
      omega
  case h_9 banner arrived place =>
    have kept := s.dock.getVersionInfo_commands banner arrived
    rcases read : s.dock.getVersionInfo banner arrived with ⟨dock,ok⟩
    rw [read] at moved kept
    dsimp only at kept
    obtain rfl := Option.some.inj moved
    rw [place]
    cases ok with
    | true =>
      simp only [if_true,ScanPlace.steps,kept]
      omega
    | false =>
      simp only [Bool.false_eq_true,if_false,ScanPlace.steps,kept]
      omega
  case h_10 place | h_11 place =>
    obtain rfl := Option.some.inj moved
    simp only [place,ScanPlace.steps,setState]
    omega
  case h_12 place =>
    obtain rfl := Option.some.inj moved
    simp only [place,ScanPlace.steps]
    omega
  case h_13 => contradiction

end Slot

/-- The steps that the rest of the round can begin. -/
def UpdateRound.steps : UpdateRound → Nat
  | .docks next => (maxDocks - next) * (5 + 5 * maxChannels) + maxDocks * (3 + maxChannels)
  | .clients next => (maxDocks - next) * (3 + maxChannels)
  | .ended => 0

def ScanRound.steps : ScanRound → Nat
  | .listing => 1 + maxDocks * (3 + 3 * maxChannels)
  | .checking next ports => (maxDocks - next) * (3 + 3 * maxChannels) + 6 * ports
  | .offering ports => 6 * ports

/-- The ports that the scan still has to offer. -/
def ScanRound.ports : ScanRound → Nat
  | .listing => 0
  | .checking _ ports | .offering ports => ports

theorem UpdateRound.steps_le (round : UpdateRound) : round.steps ≤ 448 := by
  cases round <;> simp only [UpdateRound.steps,maxDocks,maxChannels] <;> omega

theorem ScanRound.steps_le (round : ScanRound) : round.steps ≤ 217 + 6 * round.ports := by
  cases round <;> simp only [ScanRound.steps,ScanRound.ports,maxDocks,maxChannels] <;> omega

def WorkAction.cost : WorkAction → Nat
  | .dock _ (.update action) => action.waits
  | .listed (some ports) => 6 * ports
  | _ => 0

theorem UpdateRound.after_steps (round next : UpdateRound) (dockIdx : Fin maxDocks) (action : UpdateAction)
    (after : round.after dockIdx action = some next) : next.steps + action.brings ≤ round.steps + action.waits := by
  cases action with
  | updateDocks =>
    obtain ⟨rfl,same⟩ := Option.ite_none_right_eq_some.mp after
    obtain rfl := Option.some.inj same
    fin_cases dockIdx <;> decide
  | updateClients =>
    obtain ⟨rfl,same⟩ := Option.ite_none_right_eq_some.mp after
    obtain rfl := Option.some.inj same
    fin_cases dockIdx <;> decide
  | proceed | waiting more | readline arrived =>
    obtain rfl := Option.some.inj after
    exact Nat.le_refl _

theorem ScanRound.check_steps (dockIdx : Fin maxDocks) (ports : Nat) :
    (check (dockIdx.val + 1) ports).steps + (3 + 3 * maxChannels) ≤ (ScanRound.checking dockIdx ports).steps := by
  have inside := dockIdx.isLt
  unfold check eachDock
  split <;> simp only [ScanRound.steps,maxDocks,maxChannels] at * <;> omega

theorem ScanRound.after_steps (round next : ScanRound) (dockIdx : Fin maxDocks) (action : ScanAction)
    (after : round.after dockIdx action = some next) : next.steps + action.brings ≤ round.steps := by
  cases action with
  | missing =>
    cases round with
    | listing | offering => contradiction
    | checking checked ports =>
      obtain ⟨_,same⟩ := Option.ite_none_right_eq_some.mp after
      obtain rfl := Option.some.inj same
      exact check_steps checked ports
  | found =>
    cases round with
    | listing | checking => contradiction
    | offering ports =>
      cases ports with
      | zero => contradiction
      | succ left =>
        obtain rfl := Option.some.inj after
        simp only [ScanRound.steps,ScanAction.brings]
        omega
  | proceed | outcome ok | handshake banner arrived =>
    cases round <;> obtain rfl := Option.some.inj after <;> exact Nat.le_refl _

theorem ScanRound.passed_steps (round next : ScanRound) (passed : round.passed = some next) :
    next.steps + 1 ≤ round.steps := by
  unfold ScanRound.passed at passed
  split at passed
  case h_1 | h_3 => contradiction
  case h_2 dockIdx ports =>
    obtain rfl := Option.some.inj passed
    have left := check_steps dockIdx ports
    omega
  case h_4 left =>
    obtain rfl := Option.some.inj passed
    simp only [ScanRound.steps]
    omega

namespace Process

/-- The steps that are left at the docks and in the rounds. -/
def steps (s : Process) : Nat := ∑ dockIdx, (s.dock dockIdx).steps + s.leaving.steps + s.updating.steps + s.scanning.steps

theorem work_steps (w : Worker) (s t : Process) (action : WorkAction) (moved : work w s action = some t) :
    t.steps + 1 ≤ s.steps + action.cost := by
  have docks := Routines.sum_changed Slot.steps s.dock
  cases work_cases w s t action moved with
  | update dockIdx action round slot after free stepped =>
    have began := UpdateRound.after_steps _ _ _ _ after
    have step := Slot.updateStep_uses _ _ _ stepped
    have sum := docks dockIdx slot
    simp only [steps,WorkAction.cost]
    omega
  | scan dockIdx action round slot after free stepped =>
    have began := ScanRound.after_steps _ _ _ _ after
    have step := Slot.scanStep_uses _ _ _ stepped
    have sum := docks dockIdx slot
    simp only [steps,WorkAction.cost]
    omega
  | listed ports listing =>
    cases ports with
    | none =>
      simp only [steps,listing,ScanRound.steps,Option.elim,maxDocks,maxChannels]
      omega
    | some ports =>
      simp only [steps,listing,ScanRound.steps,Option.elim,WorkAction.cost,maxDocks,maxChannels]
      omega
  | passed round idle passed =>
    have step := ScanRound.passed_steps _ _ passed
    simp only [steps,WorkAction.cost]
    omega

theorem act_steps (c : MainCall) (s t : Process) (action : MainAction) (settled : disconnecting c)
    (moved : act c s action = some t) : t.steps + 1 ≤ s.steps := by
  rcases act_cases c s t action moved with ⟨rfl,_⟩ | ⟨dockIdx,slot,rfl,_,stepped,rfl⟩
  · exact settled.elim
  · have step := Slot.scanStep_uses (s.seen dockIdx) slot .proceed stepped
    have sum := Routines.sum_changed Slot.steps s.dock dockIdx {slot with scan := (s.dock dockIdx).scan}
    simp only [Slot.steps,seen,ScanAction.brings] at step sum
    simp only [steps,left,Slot.steps]
    omega

theorem bounded : routines.Bounded disconnecting steps WorkAction.cost (ScanPlace.steps .leaving) where
  work w s action t moved := work_steps w s t action moved
  act c s action t settled moved := act_steps c s t action settled moved
  enter c s settled := by
    cases c with
    | startServer => exact settled.elim
    | disconnect dockIdx =>
      change steps {s with leaving := .leaving} ≤ _
      simp only [steps]
      omega

/-- The commands that wait at the docks for a tick. -/
def queued (s : Process) : Nat := ∑ dockIdx, (s.dock dockIdx).dock.commandQueue.length

theorem steps_le (s : Process) : s.steps ≤ 1251 + s.queued + 6 * s.scanning.ports := by
  have slot (dockIdx : Fin maxDocks) : (s.dock dockIdx).steps ≤ (s.dock dockIdx).dock.commandQueue.length + 70 := by
    have update := (s.dock dockIdx).update.steps_le
    have scan := (s.dock dockIdx).scan.steps_le
    unfold Slot.steps
    omega
  have docks := Finset.sum_le_sum fun dockIdx (_ : dockIdx ∈ Finset.univ) => slot dockIdx
  rw [Finset.sum_add_distrib,Finset.sum_const,Finset.card_univ,Fintype.card_fin,smul_eq_mul] at docks
  have leaving := s.leaving.steps_le
  have updating := s.updating.steps_le
  have scanning := s.scanning.steps_le
  unfold steps queued
  change _ ≤ _ + 8 * 70 at docks
  omega

end Process

/-- After the flag is lowered `main` makes the calls of `cleanup`. -/
theorem cleanup_closed (shouldDiscover : Bool) :
    Closed Process.disconnecting (· <:+ (cleanup shouldDiscover).tail) where
  tail command rest closed := (List.suffix_cons command rest).trans closed
  call c rest closed := by
    have inside := closed.mem List.mem_cons_self
    have last : Command.call c ∈ disconnects := by
      cases shouldDiscover <;> simpa [cleanup] using inside
    obtain ⟨_,among,same⟩ := List.mem_map.mp last
    obtain ⟨dockIdx,_,rfl⟩ := List.mem_map.mp among
    rw [← Command.call.inj same]
    trivial

theorem mainProgram_closes (shouldDiscover : Bool) :
    Closes (· <:+ (cleanup shouldDiscover).tail) (mainProgram shouldDiscover) := by
  cases shouldDiscover <;> exact List.suffix_rfl

/-- The daemon ends. Once `running` is lowered no interleaving takes more than this many steps, with
four for each line that a dock still sends and each wait for its port, and six for each port that a
scan lists. -/
theorem cleanup_bounded (shouldDiscover : Bool) (pool last : Pool Process Worker MainCall)
    (moves : List (Move Worker WorkAction MainAction))
    (reached : (mainThread shouldDiscover).Reached (fun _ _ => True) pool) (lowered : pool.running = false)
    (ran : (mainThread shouldDiscover).run pool moves = some last) :
    moves.length ≤ 1566 + pool.shared.queued + 6 * pool.shared.scanning.ports +
      (moves.map (Move.cost WorkAction.cost)).sum := by
  have closing := Process.routines.closing_reached _ _ (cleanup_closed shouldDiscover) _
    (mainProgram_closes shouldDiscover) pool reached
  have run := Process.routines.run_bounded _ _ (cleanup_closed shouldDiscover) _ _ _ Process.bounded _ pool last moves
    closing lowered ran
  have program : pool.program.length ≤ 11 :=
    (closing_lowered _ _ pool closing lowered).2.length_le.trans (by cases shouldDiscover <;> decide)
  have stages : ∑ w, (pool.stage w).left ≤ 6 := by
    have each (w : Worker) : (pool.stage w).left ≤ 2 := by cases pool.stage w <;> decide
    exact Finset.sum_le_card_nsmul Finset.univ _ 2 fun w _ => each w
  have calling : pool.calling.toList.length ≤ 1 := by cases pool.calling <;> simp
  have shared := pool.shared.steps_le
  have entry : ScanPlace.steps .leaving = 26 := rfl
  unfold Routines.fuel at run
  rw [entry] at run
  omega

theorem cleanup_bounded_dial : closing.length ≤ 1566 + joinedPool.shared.queued + 6 * joinedPool.shared.scanning.ports +
    (closing.map (Move.cost WorkAction.cost)).sum :=
  cleanup_bounded false joinedPool closedPool closing joinedPool_reached (by decide +kernel) (Option.some_get _).symm

end FlotillaDaemon
