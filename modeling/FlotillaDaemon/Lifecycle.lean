import FlotillaDaemon.Workers
import FlotillaDaemon.DockRaces
import FlotillaDaemon.DockSession

/-! The daemon from `main` to the end of `cleanup`. The main thread starts the workers, runs the
server, lowers `running`, joins the workers and disconnects every dock, while the workers go
through their rounds and take their steps at the dock slots. -/
namespace FlotillaDaemon
open Cpp Retained Pool

inductive Worker
  | ipNotify
  | dockScan
  | updateClients
  deriving DecidableEq

/-- The calls of the main thread that take steps at the docks. -/
inductive MainCall
  | startServer
  | disconnect (dockIdx : Fin maxDocks)
  deriving DecidableEq

inductive MainAction
  | client (dockIdx : Fin maxDocks) (action : ClientAction)
  | proceed

/-- `passed` is a dock whose port is still listed, or a port that comes to nothing. -/
inductive WorkAction
  | dock (dockIdx : Fin maxDocks) (action : Action)
  | listed (ports : Option Nat)
  | passed

/-- The place in a loop over the docks. -/
def eachDock {P : Type} (next : Nat) (inside : Fin maxDocks → P) (done : P) : P :=
  if bound : next < maxDocks then inside ⟨next,bound⟩ else done

/-- Where `worker_update_clients` stands in its round: before a dock of `update_docks` or of
`update_clients`, or behind the last one. -/
inductive UpdateRound
  | docks (next : Fin maxDocks)
  | clients (next : Fin maxDocks)
  | ended
  deriving DecidableEq

/-- Where `worker_dock_scan` stands in `update_connected_docks`: before the ports are listed, before
a dock that it checks, or with so many ports left for `scan_for_host`. -/
inductive ScanRound
  | listing
  | checking (next : Fin maxDocks) (ports : Nat)
  | offering (ports : Nat)
  deriving DecidableEq

def UpdateRound.after (round : UpdateRound) (dockIdx : Fin maxDocks) : UpdateAction → Option UpdateRound
  | .updateDocks => if round = .docks dockIdx then some (eachDock (dockIdx.val + 1) .docks (.clients 0)) else none
  | .updateClients => if round = .clients dockIdx then some (eachDock (dockIdx.val + 1) .clients .ended) else none
  | _ => some round

namespace ScanRound

def check (next ports : Nat) : ScanRound := eachDock next (fun dockIdx => .checking dockIdx ports) (.offering ports)

def after (round : ScanRound) (dockIdx : Fin maxDocks) (action : ScanAction) : Option ScanRound :=
  match action,round with
  | .missing,.checking next ports => if next = dockIdx then some (check (next.val + 1) ports) else none
  | .missing,_ => none
  | .found,.offering (left + 1) => some (.offering left)
  | .found,_ => none
  | _,_ => some round

def passed : ScanRound → Option ScanRound
  | .listing => none
  | .checking next ports => some (check (next.val + 1) ports)
  | .offering 0 => none
  | .offering (left + 1) => some (.offering left)

end ScanRound

/-- `leaving` is where the main thread stands in the `disconnect` that it calls. -/
structure Process where
  dock : Fin maxDocks → Slot
  leaving : ScanPlace
  updating : UpdateRound
  scanning : ScanRound

namespace Process

/-- `scan_for_host` sets the port of the first dock that is free. -/
def firstFree (s : Process) (dockIdx : Fin maxDocks) (action : ScanAction) : Bool :=
  decide (action = .found → ∀ x < dockIdx, (s.dock x).dock.state ≠ .disconnected)

/-- The round of `worker_ip_notify` does nothing at the docks. -/
def work (w : Worker) (s : Process) (action : WorkAction) : Option Process :=
  match w,action with
  | .dockScan,.dock dockIdx (.scan action) =>
    if s.firstFree dockIdx action = true then
      (s.scanning.after dockIdx action).bind fun round =>
        (daemon.step s.dock (dockIdx,.scan action)).map (fun dock => {s with dock := dock,scanning := round})
    else none
  | .dockScan,.listed ports =>
    if s.scanning = .listing then some {s with scanning := ports.elim (.offering 0) (.checking 0)} else none
  | .dockScan,.passed =>
    if ∀ dockIdx, (s.dock dockIdx).scan = .idle
    then s.scanning.passed.map (fun round => {s with scanning := round}) else none
  | .updateClients,.dock dockIdx (.update action) =>
    (s.updating.after dockIdx action).bind fun round =>
      (daemon.step s.dock (dockIdx,.update action)).map (fun dock => {s with dock := dock,updating := round})
  | _,_ => none

def begins (w : Worker) (s : Process) : Process :=
  match w with
  | .ipNotify => s
  | .dockScan => {s with scanning := .listing}
  | .updateClients => {s with updating := .docks 0}

def away (w : Worker) (s : Process) : Bool :=
  match w with
  | .ipNotify => true
  | .dockScan => decide (s.scanning = .offering 0 ∧ ∀ dockIdx, (s.dock dockIdx).scan = .idle)
  | .updateClients => decide (s.updating = .ended ∧ ∀ dockIdx, (s.dock dockIdx).update = .away)

def enter (c : MainCall) (s : Process) : Process :=
  match c with
  | .startServer => s
  | .disconnect _ => {s with leaving := .leaving}

/-- The slot as the main thread sees it, at its own place in `disconnect`. -/
def seen (s : Process) (dockIdx : Fin maxDocks) : Slot := {s.dock dockIdx with scan := s.leaving}

def left (s : Process) (dockIdx : Fin maxDocks) (slot : Slot) : Process :=
  {s with dock := Function.update s.dock dockIdx {slot with scan := (s.dock dockIdx).scan},leaving := slot.scan}

def act (c : MainCall) (s : Process) (action : MainAction) : Option Process :=
  match c,action with
  | .startServer,.client dockIdx action =>
    (daemon.step s.dock (dockIdx,.client action)).map (fun dock => {s with dock := dock})
  | .disconnect dockIdx,.proceed =>
    if s.leaving.disconnects = true then ((s.seen dockIdx).scanStep .proceed).map (s.left dockIdx) else none
  | _,_ => none

/-- `websocket_server.run()` may return at any time. -/
def returns (c : MainCall) (s : Process) : Bool :=
  match c with
  | .startServer => true
  | .disconnect _ => decide (s.leaving = .idle)

def routines : Routines Process Worker MainCall WorkAction MainAction :=
  ⟨⟨daemon.initial,.idle,.ended,.offering 0⟩,begins,work,away,enter,act,returns⟩

end Process

def disconnects : List (Command Worker MainCall) := ((List.finRange maxDocks).map .disconnect).map .call

def cleanup (shouldDiscover : Bool) : List (Command Worker MainCall) :=
  .lower :: .join .dockScan :: .join .updateClients ::
    ((if shouldDiscover then [.join .ipNotify] else []) ++ disconnects)

def mainProgram (shouldDiscover : Bool) : List (Command Worker MainCall) :=
  (if shouldDiscover then [.start .ipNotify] else []) ++
    .start .dockScan :: .start .updateClients :: .call .startServer :: cleanup shouldDiscover

def mainThread (shouldDiscover : Bool) :
    System (Pool Process Worker MainCall) (Move Worker WorkAction MainAction) :=
  Process.routines.system (mainProgram shouldDiscover)

theorem mainProgram_ordered (shouldDiscover : Bool) : Ordered (fun _ => false) (mainProgram shouldDiscover) := by
  have calls (started : Worker → Bool) (rest : List MainCall) (joined : ∀ w, started w = false) :
      Ordered started (rest.map .call : List (Command Worker MainCall)) := by
    induction rest with
    | nil => exact joined
    | cons c rest ih => exact ih
  cases shouldDiscover with
  | true =>
    refine ⟨rfl,rfl,rfl,rfl,rfl,rfl,calls _ _ ?_⟩
    intro w
    cases w <;> rfl
  | false =>
    refine ⟨rfl,rfl,rfl,rfl,calls _ _ ?_⟩
    intro w
    cases w <;> rfl

namespace Slot

theorem scanMove_update (s t : Slot) (move : ScanMove s t) : t.update = s.update := by
  cases move <;> rfl

/-- The steps inside `disconnect` stay inside it or leave it. -/
theorem scanMove_disconnects (s t : Slot) (inside : s.scan.disconnects = true) (move : ScanMove s t) :
    t.scan.disconnects = true ∨ t.scan = .idle := by
  cases move with
  | lost | torn | tested | skipped | dropped | announced => exact Or.inl rfl
  | returned | closed | failed | enumerated => exact Or.inr rfl
  | unchanged place | attached place | copied _ place | opened _ place | shaken _ _ place | accepted place =>
    rw [place] at inside
    contradiction

/-- The line before which the update thread stands, if it stands before one, does not throw. -/
def Processable (s : Slot) : Prop :=
  ∀ line, s.update = .processing line → ∃ dock, s.dock.processCommand line = .ok dock

theorem updateStep_some (s : Slot) (busy : s.update ≠ .away) (processable : s.Processable) :
    ∃ action, (s.updateStep action).isSome = true := by
  obtain ⟨dock,port,update,scan⟩ := s
  cases update with
  | away => exact absurd rfl busy
  | called | channel | polling | sending | ending | announcing | flushed | serving => exact ⟨.proceed,rfl⟩
  | draining | input => exact ⟨.waiting false,rfl⟩
  | reading => exact ⟨.readline [],rfl⟩
  | writing =>
    refine ⟨.proceed,?_⟩
    dsimp only [updateStep]
    split <;> rfl
  | processing line =>
    obtain ⟨next,processed⟩ := processable line rfl
    rw [← FlotillaDock.applyLine_announce] at processed
    refine ⟨.proceed,?_⟩
    dsimp only [updateStep]
    split
    next => rfl
    next => rfl
    next fault failed =>
      rw [failed] at processed
      contradiction

/-- Inside `disconnect` only the mutex can hold a thread up. -/
theorem disconnects_some (s : Slot) (inside : s.scan.disconnects = true) (free : s.update ≠ .writing) :
    (s.scanStep .proceed).isSome = true := by
  obtain ⟨dock,port,update,scan⟩ := s
  cases scan with
  | leaving =>
    dsimp only [scanStep]
    split <;> rfl
  | losing c =>
    dsimp only [scanStep]
    rw [if_neg free]
    rfl
  | sweeping next => rfl
  | dropping c => rfl
  | idle | copying | opening | shaking | failing | accepting | enumerating => contradiction

/-- A thread that is busy at a dock begins nothing there. -/
theorem updateStep_inside (s : Slot) (action : UpdateAction) (busy : s.update ≠ .away)
    (acts : (s.updateStep action).isSome = true) : action.begins = false := by
  cases action with
  | updateDocks | updateClients =>
    obtain ⟨dock,port,update,scan⟩ := s
    cases update <;> contradiction
  | proceed | waiting more | readline arrived => rfl

theorem scanStep_inside (s : Slot) (action : ScanAction) (busy : s.scan ≠ .idle)
    (acts : (s.scanStep action).isSome = true) : action.begins = false := by
  cases action with
  | missing | found =>
    obtain ⟨dock,port,update,scan⟩ := s
    cases scan <;> contradiction
  | proceed | outcome ok | handshake banner arrived => rfl

theorem scanStep_some (s : Slot) (busy : s.scan ≠ .idle) (free : s.update ≠ .writing) :
    ∃ action, (s.scanStep action).isSome = true := by
  cases inside : s.scan.disconnects with
  | true => exact ⟨.proceed,s.disconnects_some inside free⟩
  | false =>
    obtain ⟨dock,port,update,scan⟩ := s
    cases scan with
    | idle => exact absurd rfl busy
    | leaving | sweeping | dropping | losing => contradiction
    | copying | opening => exact ⟨.outcome true,rfl⟩
    | shaking => exact ⟨.handshake false [],rfl⟩
    | failing | accepting | enumerating => exact ⟨.proceed,rfl⟩

end Slot

theorem UpdateRound.after_inside (round : UpdateRound) (dockIdx : Fin maxDocks) (action : UpdateAction)
    (inside : action.begins = false) : round.after dockIdx action = some round := by
  cases action with
  | updateDocks | updateClients => contradiction
  | proceed | waiting more | readline arrived => rfl

theorem ScanRound.after_inside (round : ScanRound) (dockIdx : Fin maxDocks) (action : ScanAction)
    (inside : action.begins = false) : round.after dockIdx action = some round := by
  cases action with
  | missing | found => contradiction
  | proceed | outcome ok | handshake banner arrived => rfl

namespace Process

theorem daemon_step (docks next : Fin maxDocks → Slot) (dockIdx : Fin maxDocks) (action : Action)
    (moved : daemon.step docks (dockIdx,action) = some next) :
    threadFree docks dockIdx action = true ∧
      ∃ slot, (docks dockIdx).step action = some slot ∧ next = Function.update docks dockIdx slot :=
  (System.family_step_iff _ _ docks next dockIdx action).mp moved

theorem step_daemon (docks : Fin maxDocks → Slot) (dockIdx : Fin maxDocks) (action : Action) (slot : Slot)
    (free : threadFree docks dockIdx action = true) (moved : (docks dockIdx).step action = some slot) :
    daemon.step docks (dockIdx,action) = some (Function.update docks dockIdx slot) :=
  (System.family_step_iff _ _ docks _ dockIdx action).mpr ⟨free,slot,moved,rfl⟩

theorem firstFree_inside (s : Process) (dockIdx : Fin maxDocks) (action : ScanAction) (inside : action.begins = false) :
    s.firstFree dockIdx action = true := by
  apply decide_eq_true
  intro found
  rw [found] at inside
  contradiction

/-- Everything the step of a worker can do. -/
inductive Worked (s : Process) : Worker → WorkAction → Process → Prop
  | update (dockIdx : Fin maxDocks) (action : UpdateAction) (round : UpdateRound) (slot : Slot)
    (after : s.updating.after dockIdx action = some round)
    (free : ∀ other ≠ dockIdx, (s.dock other).update = .away)
    (stepped : (s.dock dockIdx).updateStep action = some slot) :
    Worked s .updateClients (.dock dockIdx (.update action))
      {s with dock := Function.update s.dock dockIdx slot,updating := round}
  | scan (dockIdx : Fin maxDocks) (action : ScanAction) (round : ScanRound) (slot : Slot)
    (after : s.scanning.after dockIdx action = some round)
    (free : ∀ other ≠ dockIdx, (s.dock other).scan = .idle)
    (stepped : (s.dock dockIdx).scanStep action = some slot) :
    Worked s .dockScan (.dock dockIdx (.scan action))
      {s with dock := Function.update s.dock dockIdx slot,scanning := round}
  | listed (ports : Option Nat) (listing : s.scanning = .listing) :
    Worked s .dockScan (.listed ports) {s with scanning := ports.elim (.offering 0) (.checking 0)}
  | passed (round : ScanRound) (idle : ∀ dockIdx, (s.dock dockIdx).scan = .idle)
    (passed : s.scanning.passed = some round) : Worked s .dockScan .passed {s with scanning := round}

theorem work_cases (w : Worker) (s t : Process) (action : WorkAction) (moved : work w s action = some t) :
    Worked s w action t := by
  unfold work at moved
  split at moved
  case h_1 dockIdx action =>
    split at moved
    next =>
      obtain ⟨round,after,made⟩ := Option.bind_eq_some_iff.mp moved
      obtain ⟨next,stepped,rfl⟩ := Option.map_eq_some_iff.mp made
      obtain ⟨free,slot,changed,rfl⟩ := daemon_step _ _ _ _ stepped
      exact .scan dockIdx action round slot after (of_decide_eq_true free) changed
    next => contradiction
  case h_2 ports =>
    split at moved
    next listing =>
      rw [← Option.some.inj moved]
      exact .listed ports listing
    next => contradiction
  case h_3 =>
    split at moved
    next idle =>
      obtain ⟨round,passed,rfl⟩ := Option.map_eq_some_iff.mp moved
      exact .passed round idle passed
    next => contradiction
  case h_4 dockIdx action =>
    obtain ⟨round,after,made⟩ := Option.bind_eq_some_iff.mp moved
    obtain ⟨next,stepped,rfl⟩ := Option.map_eq_some_iff.mp made
    obtain ⟨free,slot,changed,rfl⟩ := daemon_step _ _ _ _ stepped
    exact .update dockIdx action round slot after (of_decide_eq_true free) changed
  case h_5 => contradiction

theorem act_cases (c : MainCall) (s t : Process) (action : MainAction) (moved : act c s action = some t) :
    (c = .startServer ∧ ∃ dockIdx command next, daemon.step s.dock (dockIdx,.client command) = some next ∧
        t = {s with dock := next}) ∨
      ∃ dockIdx slot, c = .disconnect dockIdx ∧ s.leaving.disconnects = true ∧
        (s.seen dockIdx).scanStep .proceed = some slot ∧ t = s.left dockIdx slot := by
  unfold act at moved
  split at moved
  · obtain ⟨next,stepped,rfl⟩ := Option.map_eq_some_iff.mp moved
    exact Or.inl ⟨rfl,_,_,next,stepped,rfl⟩
  · split at moved
    next inside =>
      obtain ⟨slot,stepped,rfl⟩ := Option.map_eq_some_iff.mp moved
      exact Or.inr ⟨_,slot,rfl,inside,stepped,rfl⟩
    next => contradiction
  · contradiction

section Places

/-- Two processes whose worker threads stand at the same places. -/
structure Alongside (s t : Process) : Prop where
  updating : t.updating = s.updating
  scanning : t.scanning = s.scanning
  update : ∀ dockIdx, (t.dock dockIdx).update = (s.dock dockIdx).update
  scan : ∀ dockIdx, (t.dock dockIdx).scan = (s.dock dockIdx).scan

theorem place_kept {P : Type} (place : Slot → P) (docks : Fin maxDocks → Slot) (dockIdx : Fin maxDocks) (slot : Slot)
    (same : place slot = place (docks dockIdx)) (dock : Fin maxDocks) :
    place (Function.update docks dockIdx slot dock) = place (docks dock) := by
  by_cases own : dock = dockIdx
  · subst own
    rw [Function.update_self,same]
  · rw [Function.update_of_ne own]

theorem alongside_change (s : Process) (dockIdx : Fin maxDocks) (slot : Slot) (place : ScanPlace)
    (update : slot.update = (s.dock dockIdx).update) (scan : slot.scan = (s.dock dockIdx).scan) :
    Alongside s {s with dock := Function.update s.dock dockIdx slot,leaving := place} :=
  ⟨rfl,rfl,place_kept (·.update) s.dock dockIdx slot update,place_kept (·.scan) s.dock dockIdx slot scan⟩

theorem act_alongside (c : MainCall) (s t : Process) (action : MainAction) (moved : act c s action = some t) :
    Alongside s t := by
  rcases act_cases c s t action moved with ⟨_,dockIdx,command,next,stepped,rfl⟩ | ⟨dockIdx,slot,_,_,stepped,rfl⟩
  · obtain ⟨_,slot,queued,rfl⟩ := daemon_step _ _ _ _ stepped
    have effect := Slot.clientStep_effect _ _ _ queued
    exact alongside_change s dockIdx slot s.leaving effect.update effect.scan
  · have update := Slot.scanMove_update _ _ (Slot.scanStep_move (s.seen dockIdx) slot _ stepped)
    exact alongside_change s dockIdx _ _ update rfl

theorem away_alongside (s t : Process) (alongside : Alongside s t) (w : Worker) : away w t = away w s := by
  cases w with
  | ipNotify => rfl
  | dockScan => simp only [away,alongside.scan,alongside.scanning]
  | updateClients => simp only [away,alongside.update,alongside.updating]

theorem begins_away (w other : Worker) (s : Process) (apart : other ≠ w) : away other (begins w s) = away other s := by
  cases w <;> cases other <;> first | rfl | exact absurd rfl apart

theorem work_away (w other : Worker) (s t : Process) (action : WorkAction) (apart : other ≠ w)
    (moved : work w s action = some t) : away other t = away other s := by
  cases work_cases w s t action moved with
  | update dockIdx action round slot after free stepped =>
    cases other with
    | ipNotify => rfl
    | updateClients => exact absurd rfl apart
    | dockScan =>
      have scan := (Slot.updateStep_effect _ _ _ stepped).scan
      simp only [away,place_kept (·.scan) s.dock dockIdx slot scan]
  | scan dockIdx action round slot after free stepped =>
    cases other with
    | ipNotify => rfl
    | dockScan => exact absurd rfl apart
    | updateClients =>
      have update := Slot.scanMove_update _ _ (Slot.scanStep_move _ _ _ stepped)
      simp only [away,place_kept (·.update) s.dock dockIdx slot update]
  | listed | passed =>
    cases other with
    | ipNotify | updateClients => rfl
    | dockScan => exact absurd rfl apart

end Places

theorem lawful : routines.Lawful where
  initial w := by cases w <;> rfl
  begins w other s apart := begins_away w other s apart
  work w other s action t apart moved := work_away w other s t action apart moved
  enter c s w := by cases c <;> rfl
  act c s action t w moved := away_alongside s t (act_alongside c s t action moved) w

section Progress

/-- Each worker thread is busy at one dock at most. -/
structure Single (s : Process) : Prop where
  update : ∀ first second, (s.dock first).update ≠ .away → (s.dock second).update ≠ .away → first = second
  scan : ∀ first second, (s.dock first).scan ≠ .idle → (s.dock second).scan ≠ .idle → first = second

theorem single_alongside (s t : Process) (single : s.Single) (alongside : Alongside s t) : t.Single where
  update first second busy also :=
    single.update first second (by rw [← alongside.update]; exact busy) (by rw [← alongside.update]; exact also)
  scan first second busy also :=
    single.scan first second (by rw [← alongside.scan]; exact busy) (by rw [← alongside.scan]; exact also)

/-- At most the member that is changed fails what the others meet. -/
theorem single_update {P : Type} (place : Slot → P) (rest : P) (docks : Fin maxDocks → Slot) (dockIdx : Fin maxDocks)
    (slot : Slot) (others : ∀ other ≠ dockIdx, place (docks other) = rest) (first second : Fin maxDocks)
    (busy : place (Function.update docks dockIdx slot first) ≠ rest)
    (also : place (Function.update docks dockIdx slot second) ≠ rest) : first = second := by
  have own (dock : Fin maxDocks) (here : place (Function.update docks dockIdx slot dock) ≠ rest) : dock = dockIdx := by
    by_contra apart
    rw [Function.update_of_ne apart] at here
    exact here (others dock apart)
  exact (own first busy).trans (own second also).symm

theorem single_work (w : Worker) (s t : Process) (action : WorkAction) (single : s.Single)
    (moved : work w s action = some t) : t.Single := by
  cases work_cases w s t action moved with
  | update dockIdx action round slot after free stepped =>
    have scan := place_kept (·.scan) s.dock dockIdx slot (Slot.updateStep_effect _ _ _ stepped).scan
    refine ⟨single_update (·.update) .away s.dock dockIdx slot free,?_⟩
    simpa only [scan] using single.scan
  | scan dockIdx action round slot after free stepped =>
    have update := place_kept (·.update) s.dock dockIdx slot (Slot.scanMove_update _ _ (Slot.scanStep_move _ _ _ stepped))
    refine ⟨?_,single_update (·.scan) .idle s.dock dockIdx slot free⟩
    simpa only [update] using single.update
  | listed | passed => exact ⟨single.update,single.scan⟩

/-- Outside a `disconnect` of its own the main thread stands nowhere in it. -/
def Placed (s : Process) (calling : Option MainCall) : Prop :=
  s.leaving = .idle ∨ (s.leaving.disconnects = true ∧ ∃ dockIdx, calling = some (.disconnect dockIdx))

theorem placed_act (c : MainCall) (s t : Process) (action : MainAction) (placed : s.Placed (some c))
    (moved : act c s action = some t) : t.Placed (some c) := by
  rcases act_cases c s t action moved with ⟨_,_,_,_,_,rfl⟩ | ⟨dockIdx,slot,rfl,inside,stepped,rfl⟩
  · exact placed
  · rcases Slot.scanMove_disconnects (s.seen dockIdx) slot inside (Slot.scanStep_move _ _ _ stepped) with still | done
    · exact Or.inr ⟨still,dockIdx,rfl⟩
    · exact Or.inl done

structure Settled (pool : Pool Process Worker MainCall) : Prop where
  single : pool.shared.Single
  placed : pool.shared.Placed pool.calling

theorem settled_step (pool next : Pool Process Worker MainCall) (move : Move Worker WorkAction MainAction)
    (settled : Settled pool) (moved : Routines.Moved routines pool move next) : Settled next := by
  obtain ⟨single,placed⟩ := settled
  have outside (out : pool.calling = none) : pool.shared.leaving = .idle := by
    rcases placed with idle | ⟨_,dockIdx,calling⟩
    · exact idle
    · rw [out] at calling
      contradiction
  cases moved with
  | left | rounded | started | lowered | joined => exact ⟨single,placed⟩
  | began w testing running => cases w <;> exact ⟨⟨single.update,single.scan⟩,placed⟩
  | worked w action shared working acted =>
    refine ⟨single_work w _ _ action single acted,?_⟩
    cases work_cases w _ _ action acted <;> exact placed
  | called c rest out first =>
    cases c with
    | startServer => exact ⟨single,Or.inl (outside out)⟩
    | disconnect dockIdx => exact ⟨⟨single.update,single.scan⟩,Or.inr ⟨rfl,dockIdx,rfl⟩⟩
  | acted c action shared calling acts =>
    rw [calling] at placed
    refine ⟨single_alongside _ _ single (act_alongside c _ _ action acts),?_⟩
    have next := placed_act c _ _ action placed acts
    rw [← calling] at next
    exact next
  | returned c calling returns =>
    refine ⟨single,Or.inl ?_⟩
    cases c with
    | startServer =>
      rcases placed with idle | ⟨_,dockIdx,other⟩
      · exact idle
      · rw [calling] at other
        cases other
    | disconnect dockIdx => exact of_decide_eq_true returns

theorem update_busy (s : Process) (dockIdx : Fin maxDocks) (busy : (s.dock dockIdx).update ≠ .away) :
    away .updateClients s = false := decide_eq_false fun all => busy (all.2 dockIdx)

theorem work_update (s : Process) (dockIdx : Fin maxDocks) (action : UpdateAction) (round : UpdateRound) (slot : Slot)
    (after : s.updating.after dockIdx action = some round) (free : ∀ other ≠ dockIdx, (s.dock other).update = .away)
    (stepped : (s.dock dockIdx).updateStep action = some slot) :
    work .updateClients s (.dock dockIdx (.update action)) =
      some {s with dock := Function.update s.dock dockIdx slot,updating := round} := by
  have moved := step_daemon s.dock dockIdx (.update action) slot (decide_eq_true free) stepped
  change (s.updating.after dockIdx action).bind _ = _
  rw [after,Option.bind_some,moved]
  rfl

theorem work_scan (s : Process) (dockIdx : Fin maxDocks) (action : ScanAction) (round : ScanRound) (slot : Slot)
    (first : s.firstFree dockIdx action = true) (after : s.scanning.after dockIdx action = some round)
    (free : ∀ other ≠ dockIdx, (s.dock other).scan = .idle) (stepped : (s.dock dockIdx).scanStep action = some slot) :
    work .dockScan s (.dock dockIdx (.scan action)) =
      some {s with dock := Function.update s.dock dockIdx slot,scanning := round} := by
  have moved := step_daemon s.dock dockIdx (.scan action) slot (decide_eq_true free) stepped
  rw [work,if_pos first,after,Option.bind_some,moved]
  rfl

/-- In a round of its own the update thread can move, unless the line before it throws. -/
theorem update_works (s : Process) (single : s.Single) (processable : ∀ dockIdx, (s.dock dockIdx).Processable)
    (inside : away .updateClients s = false) : ∃ action, (work .updateClients s action).isSome = true := by
  have works (dockIdx : Fin maxDocks) (action : UpdateAction) (after : (s.updating.after dockIdx action).isSome = true)
      (free : ∀ other ≠ dockIdx, (s.dock other).update = .away)
      (acts : ((s.dock dockIdx).updateStep action).isSome = true) :
      (work .updateClients s (.dock dockIdx (.update action))).isSome = true := by
    obtain ⟨round,after⟩ := Option.isSome_iff_exists.mp after
    obtain ⟨slot,stepped⟩ := Option.isSome_iff_exists.mp acts
    exact Option.isSome_iff_exists.mpr ⟨_,s.work_update dockIdx action round slot after free stepped⟩
  by_cases quiet : ∀ dockIdx, (s.dock dockIdx).update = .away
  · have begins (dockIdx : Fin maxDocks) (action : UpdateAction) (after : (s.updating.after dockIdx action).isSome = true)
        (acts : ((s.dock dockIdx).updateStep action).isSome = true) := works dockIdx action after (fun other _ => quiet other) acts
    cases here : s.updating with
    | docks next => exact ⟨_,begins next .updateDocks (by simp [here,UpdateRound.after]) (by simp [Slot.updateStep,quiet])⟩
    | clients next => exact ⟨_,begins next .updateClients (by simp [here,UpdateRound.after]) (by simp [Slot.updateStep,quiet])⟩
    | ended => exact absurd ⟨here,quiet⟩ (of_decide_eq_false inside)
  · obtain ⟨dockIdx,busy⟩ := not_forall.mp quiet
    obtain ⟨action,acts⟩ := (s.dock dockIdx).updateStep_some busy (processable dockIdx)
    refine ⟨_,works dockIdx action ?_ (fun other apart => ?_) acts⟩
    · rw [UpdateRound.after_inside _ _ action (Slot.updateStep_inside _ action busy acts)]
      rfl
    · by_contra also
      exact apart (single.update other dockIdx also busy)

/-- In a round of its own the scan thread can move, unless the update thread holds the mutex before it. -/
theorem scan_works (s : Process) (single : s.Single) (free : ∀ dockIdx, (s.dock dockIdx).update ≠ .writing)
    (inside : away .dockScan s = false) : ∃ action, (work .dockScan s action).isSome = true := by
  by_cases quiet : ∀ dockIdx, (s.dock dockIdx).scan = .idle
  · have passes (round : ScanRound) (passed : s.scanning.passed = some round) : (work .dockScan s .passed).isSome = true := by
      rw [work,if_pos quiet,passed]
      rfl
    cases here : s.scanning with
    | listing =>
      refine ⟨.listed none,?_⟩
      rw [work,if_pos here]
      rfl
    | checking next ports => exact ⟨.passed,passes _ (by rw [here]; rfl)⟩
    | offering ports =>
      cases ports with
      | zero => exact absurd ⟨here,quiet⟩ (of_decide_eq_false inside)
      | succ left => exact ⟨.passed,passes _ (by rw [here]; rfl)⟩
  · obtain ⟨dockIdx,busy⟩ := not_forall.mp quiet
    obtain ⟨action,acts⟩ := (s.dock dockIdx).scanStep_some busy (free dockIdx)
    obtain ⟨slot,stepped⟩ := Option.isSome_iff_exists.mp acts
    have others : ∀ other ≠ dockIdx, (s.dock other).scan = .idle := by
      intro other apart
      by_contra also
      exact apart (single.scan other dockIdx also busy)
    have inside := Slot.scanStep_inside _ action busy acts
    have moved := s.work_scan dockIdx action _ slot (s.firstFree_inside dockIdx action inside)
      (ScanRound.after_inside _ _ action inside) others stepped
    exact ⟨.dock dockIdx (.scan action),Option.isSome_iff_exists.mpr ⟨_,moved⟩⟩

theorem able (pool : Pool Process Worker MainCall) (settled : Settled pool)
    (processable : ∀ dockIdx, (pool.shared.dock dockIdx).Processable) : Routines.Able routines pool where
  work w busy := by
    have updates (inside : away .updateClients pool.shared = false) :
        ∃ other action, away other pool.shared = false ∧ (work other pool.shared action).isSome = true := by
      obtain ⟨action,acts⟩ := pool.shared.update_works settled.single processable inside
      exact ⟨.updateClients,action,inside,acts⟩
    cases w with
    | ipNotify => contradiction
    | updateClients => exact updates busy
    | dockScan =>
      by_cases free : ∀ dockIdx, (pool.shared.dock dockIdx).update ≠ .writing
      · obtain ⟨action,acts⟩ := pool.shared.scan_works settled.single free busy
        exact ⟨.dockScan,action,busy,acts⟩
      · obtain ⟨dockIdx,writing⟩ := not_forall.mp free
        refine updates (pool.shared.update_busy dockIdx ?_)
        rw [not_not.mp writing]
        exact UpdatePlace.noConfusion
  call c calling inside := by
    cases c with
    | startServer => contradiction
    | disconnect dockIdx =>
      have away : pool.shared.leaving ≠ .idle := of_decide_eq_false inside
      obtain ⟨within,_⟩ := settled.placed.resolve_left away
      by_cases writing : (pool.shared.dock dockIdx).update = .writing
      · refine Or.inr ⟨.updateClients,pool.shared.update_busy dockIdx ?_⟩
        rw [writing]
        exact UpdatePlace.noConfusion
      · refine Or.inl ⟨.proceed,?_⟩
        change (if pool.shared.leaving.disconnects = true then _ else none : Option Process).isSome = true
        rw [if_pos within,Option.isSome_map]
        exact Slot.disconnects_some (pool.shared.seen dockIdx) within writing

end Progress

end Process

namespace FlotillaDock

section Channels
variable (round : FlotillaDock → Fin maxChannels → FlotillaDock)

theorem channels_next (dock : FlotillaDock) (c : Fin maxChannels) : ((List.finRange maxChannels).drop c.val).foldl round dock =
    ((List.finRange maxChannels).drop (c.val + 1)).foldl round (round dock c) := by
  have bound : c.val < (List.finRange maxChannels).length := by
    rw [List.length_finRange]
    exact c.isLt
  rw [List.drop_eq_getElem_cons bound,List.getElem_finRange,List.foldl_cons]
  rfl

theorem channels_done (dock : FlotillaDock) (next : Nat) (done : ¬ next < maxChannels) :
    ((List.finRange maxChannels).drop next).foldl round dock = dock := by
  rw [List.drop_of_length_le (by rw [List.length_finRange]; omega),List.foldl_nil]

end Channels

/-- What `disconnect` still does to a dock from this channel on. -/
def loseFrom (dock : FlotillaDock) (next : Nat) : FlotillaDock :=
  ((List.finRange maxChannels).drop next).foldl loseModule dock

theorem loseFrom_next (dock : FlotillaDock) (c : Fin maxChannels) :
    dock.loseFrom c.val = (dock.loseModule c).loseFrom (c.val + 1) := channels_next loseModule dock c

theorem loseFrom_done (dock : FlotillaDock) (next : Nat) (done : ¬ next < maxChannels) : dock.loseFrom next = dock :=
  channels_done loseModule dock next done

end FlotillaDock

namespace Slot

/-- The sequential `disconnect`, with what it does to the port. -/
def closed (s : Slot) : Slot :=
  if s.dock.state = .disconnected then s else {s with dock := s.dock.disconnect,port := .freed}

theorem closed_scan (s : Slot) (place : ScanPlace) :
    closed {s with scan := place} = {s.closed with scan := place} := by
  unfold closed
  dsimp only
  split <;> rfl

def freed (s : Slot) (dock : FlotillaDock) : Slot := {s with dock := dock,port := .freed,scan := .idle}

/-- The end of the `disconnect` in progress. -/
def completed (s : Slot) : Slot :=
  match s.scan with
  | .leaving => {s.closed with scan := .idle}
  | .sweeping next => s.freed (s.dock.loseFrom next)
  | .dropping c => s.freed (((s.dock.setModule c (s.dock.module c).disconnect).queueModuleEvent c).loseFrom (c.val + 1))
  | .losing c => s.freed ((s.dock.queueModuleEvent c).loseFrom (c.val + 1))
  | _ => s

theorem completed_step (s t : Slot) (inside : s.scan.disconnects = true) (moved : s.scanStep .proceed = some t) :
    t.completed = s.completed := by
  obtain ⟨dock,port,update,scan⟩ := s
  cases scan with
  | leaving =>
    dsimp only [scanStep] at moved
    split at moved
    next down =>
      rw [← Option.some.inj moved]
      simp only [completed,closed,down,if_true]
    next up =>
      rw [← Option.some.inj moved]
      simp only [completed,closed,if_neg up,FlotillaDock.disconnect]
      rfl
  | sweeping next =>
    dsimp only [scanStep] at moved
    by_cases bound : next < maxChannels
    · simp only [eachChannel_inside next bound,Option.some.injEq] at moved
      rw [← moved]
      have step := dock.loseFrom_next ⟨next,bound⟩
      by_cases connected : (dock.module ⟨next,bound⟩).state = .moduleConnected
      · rw [FlotillaDock.loseModule,if_pos connected] at step
        simp only [completed,moduleConnected,connected,decide_true,if_true,step]
        rfl
      · rw [FlotillaDock.loseModule,if_neg connected] at step
        simp only [completed,moduleConnected,connected,decide_false,if_false,Bool.false_eq_true,step]
        rfl
    · simp only [eachChannel_done next bound,Option.some.injEq] at moved
      rw [← moved]
      simp only [completed,dock.loseFrom_done next bound]
      rfl
  | dropping c =>
    rw [← Option.some.inj moved]
    rfl
  | losing c =>
    dsimp only [scanStep] at moved
    split at moved
    next => contradiction
    next =>
      rw [← Option.some.inj moved]
      rfl
  | idle | copying | opening | shaking | failing | accepting | enumerating => contradiction

end Slot

namespace Process

section Cleanup

def disconnecting : MainCall → Prop
  | .startServer => False
  | .disconnect _ => True

def result (c : MainCall) (s : Process) : Process :=
  match c with
  | .startServer => s
  | .disconnect dockIdx => s.left dockIdx (s.seen dockIdx).completed

theorem determined : routines.Determined disconnecting result where
  act c s action t settled moved := by
    rcases act_cases c s t action moved with ⟨rfl,_⟩ | ⟨dockIdx,slot,rfl,inside,stepped,rfl⟩
    · exact settled.elim
    · have own : (s.left dockIdx slot).seen dockIdx = slot := by simp [seen,left]
      change (s.left dockIdx slot).left dockIdx ((s.left dockIdx slot).seen dockIdx).completed =
        s.left dockIdx (s.seen dockIdx).completed
      rw [own,Slot.completed_step _ slot inside stepped]
      simp [left]
  returned c s settled ended := by
    cases c with
    | startServer => exact settled.elim
    | disconnect dockIdx =>
      have idle : s.leaving = .idle := of_decide_eq_true ended
      have same : (s.seen dockIdx).completed = s.seen dockIdx := by
        rw [Slot.completed,seen,idle]
      change s.left dockIdx (s.seen dockIdx).completed = s
      rw [same,left,seen]
      simp

theorem result_enter (s : Process) (dockIdx : Fin maxDocks) :
    result (.disconnect dockIdx) (enter (.disconnect dockIdx) s) =
      {s with dock := Function.update s.dock dockIdx (s.dock dockIdx).closed,leaving := .idle} := by
  have done : ((enter (.disconnect dockIdx) s).seen dockIdx).completed = {(s.dock dockIdx).closed with scan := .idle} := by
    change {Slot.closed {s.dock dockIdx with scan := .leaving} with scan := .idle} = _
    rw [Slot.closed_scan]
  have own := (s.dock dockIdx).closed_scan (s.dock dockIdx).scan
  change (enter (.disconnect dockIdx) s).left dockIdx ((enter (.disconnect dockIdx) s).seen dockIdx).completed = _
  rw [done,own]
  rfl

theorem disconnects_outcome (s : Process) (docks : List (Fin maxDocks)) (distinct : docks.Nodup) (x : Fin maxDocks) :
    (routines.outcome result none (docks.map .disconnect) s).dock x =
      if x ∈ docks then (s.dock x).closed else s.dock x := by
  unfold Routines.outcome
  rw [List.foldl_map]
  change (docks.foldl _ s).dock x = _
  induction docks generalizing s with
  | nil => rfl
  | cons dockIdx rest ih =>
    obtain ⟨absent,distinct⟩ := List.nodup_cons.mp distinct
    rw [List.foldl_cons,ih _ distinct,show routines.enter = enter from rfl,result_enter]
    by_cases own : x = dockIdx
    · subst own
      simp [absent]
    · simp [own]

/-- Until the first `disconnect` of `cleanup` the docks are as the threads alone leave them. -/
inductive Phase (pool : Pool Process Worker MainCall) : Prop
  | serving (earlier : List (Command Worker MainCall)) (program : pool.program = earlier ++ disconnects)
    (others : ∀ dockIdx, .call (.disconnect dockIdx) ∉ earlier)
    (calling : ∀ dockIdx, pool.calling ≠ some (.disconnect dockIdx))
    (docks : daemon.Reached (fun _ _ => True) pool.shared.dock) : Phase pool
  | cleaning (short : pool.program.length < maxDocks) : Phase pool

/-- The next command is one before `disconnects`, or the first of them. -/
theorem next_command (command : Command Worker MainCall) (earlier rest program : List (Command Worker MainCall))
    (serving : program = earlier ++ disconnects) (first : program = command :: rest) :
    rest.length < maxDocks ∨ ∃ left, earlier = command :: left ∧ rest = left ++ disconnects := by
  rcases List.append_eq_cons_iff.mp (serving.symm.trans first) with ⟨_,own⟩ | ⟨left,own,same⟩
  · apply Or.inl
    have size : disconnects.length = maxDocks := by rw [disconnects,List.length_map,List.length_map,List.length_finRange]
    rw [own,List.length_cons] at size
    omega
  · exact Or.inr ⟨left,own,same⟩

theorem phase_pop (pool next : Pool Process Worker MainCall) (command : Command Worker MainCall)
    (rest : List (Command Worker MainCall)) (phase : Phase pool) (first : pool.program = command :: rest)
    (program : next.program = rest) (dock : next.shared.dock = pool.shared.dock)
    (calling : (∀ dockIdx, command ≠ .call (.disconnect dockIdx)) →
      ∀ dockIdx, next.calling ≠ some (.disconnect dockIdx)) : Phase next := by
  cases phase with
  | serving earlier serving others _ docks =>
    rcases next_command command earlier rest pool.program serving first with short | ⟨left,own,same⟩
    · exact .cleaning (program ▸ short)
    · rw [own] at others
      refine .serving left (program.trans same) ?_ (calling ?_) (dock ▸ docks)
      · intro dockIdx inside
        exact others dockIdx (List.mem_cons_of_mem _ inside)
      · intro dockIdx here
        exact others dockIdx (here ▸ List.mem_cons_self)
  | cleaning short =>
    rw [first,List.length_cons] at short
    exact .cleaning (by rw [program]; omega)

theorem phase_step (pool next : Pool Process Worker MainCall) (move : Move Worker WorkAction MainAction)
    (phase : Phase pool) (moved : Routines.Moved routines pool move next) : Phase next := by
  have stays (shared : Process) (calling : Option MainCall) (same : calling = pool.calling ∨ calling = none)
      (docks : (∀ dockIdx, pool.calling ≠ some (.disconnect dockIdx)) → daemon.Reached (fun _ _ => True) pool.shared.dock →
        daemon.Reached (fun _ _ => True) shared.dock) : Phase {pool with shared := shared,calling := calling} := by
    cases phase with
    | serving earlier program others outside reached =>
      refine .serving earlier program others ?_ (docks outside reached)
      rcases same with rfl | rfl
      · exact outside
      · intro dockIdx inside
        contradiction
    | cleaning short => exact .cleaning short
  cases moved with
  | began w testing running =>
    have phase := stays (begins w pool.shared) pool.calling (Or.inl rfl) fun _ reached => by cases w <;> exact reached
    cases phase with
    | serving earlier program others calling docks => exact .serving earlier program others calling docks
    | cleaning short => exact .cleaning short
  | left | rounded =>
    cases phase with
    | serving earlier program others calling docks => exact .serving earlier program others calling docks
    | cleaning short => exact .cleaning short
  | worked w action shared working acted =>
    refine stays shared _ (Or.inl rfl) fun _ reached => ?_
    cases work_cases w _ _ action acted with
    | update dockIdx action round slot after free stepped =>
      exact .move _ _ _ reached trivial (step_daemon _ dockIdx (.update action) slot (decide_eq_true free) stepped)
    | scan dockIdx action round slot after free stepped =>
      exact .move _ _ _ reached trivial (step_daemon _ dockIdx (.scan action) slot (decide_eq_true free) stepped)
    | listed | passed => exact reached
  | started w rest outside first absent =>
    exact phase_pop pool _ _ rest phase first rfl rfl fun _ dockIdx inside => by simp [outside] at inside
  | called c rest outside first =>
    refine phase_pop pool _ _ rest phase first rfl ?_ fun other dockIdx inside => ?_
    · cases c <;> rfl
    · exact other dockIdx (congrArg _ (Option.some.inj inside))
  | lowered rest outside first =>
    exact phase_pop pool _ _ rest phase first rfl rfl fun _ dockIdx inside => by simp [outside] at inside
  | joined w rest outside first finished =>
    exact phase_pop pool _ _ rest phase first rfl rfl fun _ dockIdx inside => by simp [outside] at inside
  | acted c action shared calling acts =>
    rcases act_cases c _ _ action acts with ⟨_,dockIdx,command,dock,stepped,rfl⟩ | ⟨dockIdx,slot,rfl,_,_,rfl⟩
    · exact stays _ _ (Or.inl rfl) fun _ reached => .move _ _ dock reached trivial stepped
    · exact stays _ _ (Or.inl rfl) fun outside _ => absurd calling (outside dockIdx)
  | returned c calling returns => exact stays _ none (Or.inr rfl) fun _ reached => reached

theorem phase_reached (shouldDiscover : Bool) (pool : Pool Process Worker MainCall)
    (reached : (mainThread shouldDiscover).Reached (fun _ _ => True) pool) : Phase pool := by
  refine System.reached_invariant _ _ Phase ?_ (fun pool move next kept _ moved =>
    phase_step pool next move kept (routines.step_moved pool next move moved)) pool reached
  refine .serving ((if shouldDiscover then [.start .ipNotify] else []) ++ .start .dockScan :: .start .updateClients ::
    .call .startServer :: .lower :: .join .dockScan :: .join .updateClients ::
    (if shouldDiscover then [.join .ipNotify] else [])) ?_ ?_ (fun dockIdx => (Option.some_ne_none _).symm) .start
  · cases shouldDiscover <;> rfl
  · cases shouldDiscover <;> simp

end Cleanup

end Process

section Runs

/-- A round in which a dock is attached, and one in which it finds a dial. -/
def attachRound : List WorkAction :=
  List.flatten [[.listed (some 1)],List.replicate maxDocks .passed,attaching.map (.dock 0)]

def dialRound : List WorkAction :=
  List.flatten [(listening ++ reading "c 1/dial\n".toList ++ processing).map (.dock 0),[.dock 0 (.update (.waiting false))],
    (List.finRange maxDocks).tail.map (fun dockIdx => .dock dockIdx (.update .updateDocks)),
    .dock 0 (.update .updateClients) :: List.replicate 10 (.dock 0 (.update .proceed)),
    (List.finRange maxDocks).tail.flatMap (fun dockIdx =>
      [.dock dockIdx (.update .updateClients),.dock dockIdx (.update .proceed)])]

/-- After a round of each worker the server stops and the workers are joined. -/
def serving : List (Move Worker WorkAction MainAction) :=
  List.flatten [[.next,.next,.next,.test .dockScan],attachRound.map (.work .dockScan),[.again .dockScan,.test .updateClients],
    dialRound.map (.work .updateClients),
    [.again .updateClients,.returned,.next,.test .dockScan,.test .updateClients,.next,.next]]

def closing : List (Move Worker WorkAction MainAction) :=
  List.flatten [.next :: List.replicate 12 (.act .proceed),[.returned],
    (List.replicate 7 [.next,.act .proceed,.returned]).flatten]

def joinedPool : Pool Process Worker MainCall :=
  ((mainThread false).run (mainThread false).initial serving).get (by decide +kernel)

def closedPool : Pool Process Worker MainCall := ((mainThread false).run joinedPool closing).get (by decide +kernel)

theorem joinedPool_reached : (mainThread false).Reached (fun _ _ => True) joinedPool :=
  System.run_reached _ _ _ (Option.some_get _).symm

/-- The server stops while the update thread stands before a line. -/
def stopping : List (Move Worker WorkAction MainAction) :=
  List.flatten [[.next,.next,.next,.test .dockScan],attachRound.map (.work .dockScan),[.again .dockScan,.test .updateClients],
    (listening ++ reading "c 1/dial\n".toList).map (fun action => .work .updateClients (.dock 0 action)),
    [.returned,.next,.test .dockScan,.next]]

def joiningPool : Pool Process Worker MainCall :=
  ((mainThread false).run (mainThread false).initial stopping).get (by decide +kernel)

end Runs

/-- No deadlock. Wherever the threads stand, `main` has returned or a thread can take a step,
unless the update thread stands before a line that throws. -/
theorem main_progress (shouldDiscover : Bool) (pool : Pool Process Worker MainCall)
    (reached : (mainThread shouldDiscover).Reached (fun _ _ => True) pool)
    (processable : ∀ dockIdx, (pool.shared.dock dockIdx).Processable) :
    Routines.Done pool ∨ ∃ move, ((mainThread shouldDiscover).step pool move).isSome = true := by
  have settled := System.reached_invariant _ _ Process.Settled
    ⟨⟨fun _ _ busy => absurd rfl busy,fun _ _ busy => absurd rfl busy⟩,Or.inl rfl⟩
    (fun pool move next kept _ moved =>
      Process.settled_step pool next move kept (Process.routines.step_moved pool next move moved)) pool reached
  exact Process.routines.progress pool (Process.routines.rested_reached Process.lawful _ pool reached)
    (Process.routines.ordered_reached _ (mainProgram_ordered shouldDiscover) pool reached)
    (Process.able pool settled processable)

theorem main_progress_joining :
    joiningPool.program = .join .updateClients :: disconnects ∧
      (joiningPool.shared.dock 0).update = .processing "c 1/dial".toList ∧
      (Routines.Done joiningPool ∨ ∃ move, ((mainThread false).step joiningPool move).isSome = true) := by
  have places : ∀ dockIdx, (joiningPool.shared.dock dockIdx).update =
      if dockIdx = 0 then .processing "c 1/dial".toList else .away := by decide +kernel
  have handled : ∀ dockIdx,
      ((joiningPool.shared.dock dockIdx).dock.processCommand "c 1/dial".toList).toOption.isSome = true := by decide +kernel
  refine ⟨by decide +kernel,places 0,main_progress false joiningPool
    (System.run_reached _ _ _ (Option.some_get _).symm) fun dockIdx line here => ?_⟩
  rw [places dockIdx] at here
  split at here
  · obtain rfl := UpdatePlace.processing.inj here
    have handled := handled dockIdx
    cases result : (joiningPool.shared.dock dockIdx).dock.processCommand "c 1/dial".toList with
    | ok dock => exact ⟨dock,rfl⟩
    | error failure =>
      rw [result] at handled
      contradiction
  · contradiction

theorem calls_joined (shouldDiscover : Bool) (pool : Pool Process Worker MainCall) (calls : List MainCall)
    (reached : (mainThread shouldDiscover).Reached (fun _ _ => True) pool) (left : pool.program = calls.map .call)
    (w : Worker) : pool.stage w = .absent := by
  have ordered := Process.routines.ordered_reached _ (mainProgram_ordered shouldDiscover) pool reached
  rw [left] at ordered
  exact not_not.mp (of_decide_eq_false (Routines.ordered_calls pool.started calls ordered w))

theorem absent_away (shouldDiscover : Bool) (pool : Pool Process Worker MainCall)
    (reached : (mainThread shouldDiscover).Reached (fun _ _ => True) pool) (quiet : ∀ w, pool.stage w = .absent)
    (dockIdx : Fin maxDocks) : (pool.shared.dock dockIdx).update = .away ∧ (pool.shared.dock dockIdx).scan = .idle := by
  have rested := Process.routines.rested_reached Process.lawful _ pool reached
  have away (w : Worker) : Process.away w pool.shared = true := rested w (by rw [quiet w]; exact Stage.noConfusion)
  exact ⟨(of_decide_eq_true (away .updateClients)).2 dockIdx,(of_decide_eq_true (away .dockScan)).2 dockIdx⟩

/-- `cleanup` is alone. When only calls of the main thread are left, every worker has returned and
been joined, and none of them is inside a tick, a scan or a locked region of any dock. -/
theorem cleanup_alone (shouldDiscover : Bool) (pool : Pool Process Worker MainCall) (calls : List MainCall)
    (reached : (mainThread shouldDiscover).Reached (fun _ _ => True) pool) (left : pool.program = calls.map .call) :
    (∀ w, pool.stage w = .absent) ∧
      ∀ dockIdx, (pool.shared.dock dockIdx).update = .away ∧ (pool.shared.dock dockIdx).scan = .idle := by
  have quiet := calls_joined shouldDiscover pool calls reached left
  exact ⟨quiet,absent_away shouldDiscover pool reached quiet⟩

theorem cleanup_alone_dial : (∀ w, joinedPool.stage w = .absent) ∧
    ∀ dockIdx, (joinedPool.shared.dock dockIdx).update = .away ∧ (joinedPool.shared.dock dockIdx).scan = .idle :=
  cleanup_alone false joinedPool ((List.finRange maxDocks).map .disconnect) joinedPool_reached (by decide +kernel)

/-- What `cleanup` leaves. From the last join on, however the run goes to its end, each dock becomes
what the sequential `disconnect` makes of it, and the ports that this frees were open. -/
theorem cleanup_disconnects (shouldDiscover : Bool) (pool last : Pool Process Worker MainCall)
    (moves : List (Move Worker WorkAction MainAction))
    (reached : (mainThread shouldDiscover).Reached (fun _ _ => True) pool) (joined : pool.program = disconnects)
    (outside : pool.calling = none) (ran : (mainThread shouldDiscover).run pool moves = some last)
    (done : Routines.Done last) (dockIdx : Fin maxDocks) :
    last.shared.dock dockIdx = (pool.shared.dock dockIdx).closed ∧
      (last.shared.dock dockIdx).dock.state = .disconnected ∧
      ((pool.shared.dock dockIdx).dock.state ≠ .disconnected → (pool.shared.dock dockIdx).port = .opened) := by
  have quiet := calls_joined shouldDiscover pool _ reached joined
  have places := absent_away shouldDiscover pool reached quiet
  have settled : Routines.Settled Process.disconnecting pool.calling ((List.finRange maxDocks).map .disconnect) := by
    rw [outside]
    refine ⟨fun _ inside => (Option.not_mem_none _ inside).elim,fun c inside => ?_⟩
    obtain ⟨_,_,rfl⟩ := List.mem_map.mp inside
    trivial
  have ends := Process.routines.outcome_run _ _ Process.determined _ pool last _ moves quiet joined settled ran done
  rw [outside] at ends
  have closed := Process.disconnects_outcome pool.shared (List.finRange maxDocks) (List.nodup_finRange _) dockIdx
  rw [if_pos (List.mem_finRange dockIdx),← ends] at closed
  refine ⟨closed,?_,fun up => ?_⟩
  · rw [closed,Slot.closed]
    split
    next down => exact down
    next => exact (FlotillaDock.disconnect_effect _).1
  · cases Process.phase_reached shouldDiscover pool reached with
    | cleaning short => simp [joined,disconnects] at short
    | serving earlier program others calling docks =>
      have free := System.reached_weaken daemon _ (fun _ action => action.1 = dockIdx → True)
        (fun _ _ _ _ => trivial) _ docks
      have kept := System.family_reached _ _ dockIdx (fun _ _ => True) _ free
      have agrees := System.reached_invariant (slotSystem dockIdx.val) _ Slot.Agrees (Or.inl rfl)
        (fun s action t agrees _ moved => Slot.agrees_step s t action agrees moved) _ kept
      unfold Slot.Agrees at agrees
      rw [(places dockIdx).2] at agrees
      exact (agrees.resolve_left up).2

theorem cleanup_disconnects_dial : closedPool.shared.dock 0 = (joinedPool.shared.dock 0).closed ∧
    (closedPool.shared.dock 0).dock.state = .disconnected ∧
    ((joinedPool.shared.dock 0).dock.state ≠ .disconnected → (joinedPool.shared.dock 0).port = .opened) :=
  cleanup_disconnects false joinedPool closedPool closing joinedPool_reached (by decide +kernel) (by decide +kernel)
    (Option.some_get _).symm ⟨by decide +kernel,by decide +kernel⟩ 0

end FlotillaDaemon
