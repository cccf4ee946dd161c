import Mathlib
import FlotillaDaemon.DockSession
import FlotillaDaemon.Handshake

/-! A dock slot with its serial port. `set_port` copies a port of the system's list, opens the
copy and asks the dock for its version; `disconnect` closes the copy and frees it. Copies are
numbered, so that one that the slot no longer points to is still seen. -/
namespace FlotillaDaemon
open Cpp Retained

/-- A port that `sp_copy_port` has made. It keeps the name of the port it was copied from. -/
structure PortCopy where
  handle : Nat
  name : Option Text
  deriving DecidableEq

/-- How the calls in `set_port` turn out: `sp_copy_port`, `sp_open`, and the banner and the lines
that `get_version_info` waits for. -/
structure Attempt where
  copied : Bool
  opened : Bool
  banner : Bool
  input : List Arrival

structure PortSlot where
  dock : FlotillaDock
  port : Option PortCopy
  copies : Nat
  allocated : List Nat
  opened : List Nat

namespace PortSlot

def new (index : Nat) : PortSlot := ⟨.new index,none,0,[],[]⟩

def spCopyPort (s : PortSlot) (name : Option Text) (copied : Bool) : PortSlot :=
  if copied then
    {s with port := some ⟨s.copies,name⟩,copies := s.copies + 1,allocated := s.copies :: s.allocated}
  else {s with port := none}

def spOpen (s : PortSlot) (opened : Bool) : PortSlot :=
  match s.port with
  | some copy => if opened then {s with opened := copy.handle :: s.opened} else s
  | none => s

def spClose (s : PortSlot) : PortSlot :=
  match s.port with
  | some copy => {s with opened := s.opened.erase copy.handle}
  | none => s

def spFreePort (s : PortSlot) : PortSlot :=
  match s.port with
  | some copy => {s with allocated := s.allocated.erase copy.handle}
  | none => s

def setPort (s : PortSlot) (name : Option Text) (attempt : Attempt) : PortSlot × Bool :=
  if s.dock.state ≠ .disconnected then (s,false)
  else
    let s := {s with dock := {s.dock with state := .connecting}}
    let s := s.spCopyPort name attempt.copied
    if attempt.copied then
      let s := s.spOpen attempt.opened
      if attempt.opened then
        let (dock,ok) := s.dock.getVersionInfo attempt.banner attempt.input
        if ok then ({s with dock := {dock with state := .connected}},true)
        else ({s with dock := {dock with state := .disconnected}},false)
      else ({s with dock := {s.dock with state := .disconnected}},false)
    else ({s with dock := {s.dock with state := .disconnected}},false)

/-- The pointer is left as it is. -/
def disconnect (s : PortSlot) : PortSlot :=
  if s.dock.state = .disconnected then s
  else (spClose {s with dock := s.dock.disconnect}).spFreePort

/-- What `get_version_info` returns when it is called in `set_port`. -/
def answered (s : PortSlot) (attempt : Attempt) : Bool :=
  (FlotillaDock.getVersionInfo {s.dock with state := .connecting} attempt.banner attempt.input).2

/-- The dock that `get_version_info` leaves there. -/
def introduced (s : PortSlot) (attempt : Attempt) : FlotillaDock :=
  (FlotillaDock.getVersionInfo {s.dock with state := .connecting} attempt.banner attempt.input).1

end PortSlot

inductive PortCall
  | setPort (name : Option Text) (attempt : Attempt)
  | disconnect

def portCalls : Machine PortSlot PortCall Bool where
  step := fun s call =>
    match call with
    | .setPort name attempt => s.setPort name attempt
    | .disconnect => (s.disconnect,true)

namespace PortSlot

theorem connected_up (s : PortSlot) (connected : s.dock.state = .connected) : s.dock.state ≠ .disconnected := by
  rw [connected]
  decide

theorem setPort_up (s : PortSlot) (name : Option Text) (attempt : Attempt) (up : s.dock.state ≠ .disconnected) :
    s.setPort name attempt = (s,false) := if_pos up

theorem setPort_uncopied (s : PortSlot) (name : Option Text) (attempt : Attempt) (off : s.dock.state = .disconnected)
    (uncopied : attempt.copied = false) : s.setPort name attempt = ({s with port := none},false) := by
  rw [setPort,if_neg (not_not.mpr off)]
  simp [uncopied,spCopyPort,← off]

theorem setPort_unopened (s : PortSlot) (name : Option Text) (attempt : Attempt) (off : s.dock.state = .disconnected)
    (copied : attempt.copied = true) (unopened : attempt.opened = false) :
    s.setPort name attempt = (s.spCopyPort name true,false) := by
  rw [setPort,if_neg (not_not.mpr off)]
  simp [copied,unopened,spCopyPort,spOpen,← off]

theorem setPort_opened (s : PortSlot) (name : Option Text) (attempt : Attempt) (off : s.dock.state = .disconnected)
    (copied : attempt.copied = true) (opened : attempt.opened = true) :
    s.setPort name attempt =
      (⟨{s.introduced attempt with state := if s.answered attempt then .connected else .disconnected},
        some ⟨s.copies,name⟩,s.copies + 1,s.copies :: s.allocated,s.copies :: s.opened⟩,s.answered attempt) := by
  rw [setPort,if_neg (not_not.mpr off)]
  simp only [copied,opened,spCopyPort,spOpen,if_true]
  unfold answered introduced
  rcases FlotillaDock.getVersionInfo {s.dock with state := .connecting} attempt.banner attempt.input with ⟨dock,ok⟩
  cases ok <;> rfl

theorem setPort_dock (s : PortSlot) (name : Option Text) (attempt : Attempt) :
    ((s.setPort name attempt).1.dock,(s.setPort name attempt).2) =
      s.dock.setPort attempt.copied attempt.opened attempt.banner attempt.input := by
  unfold FlotillaDock.setPort
  by_cases up : s.dock.state ≠ .disconnected
  · rw [s.setPort_up name attempt up,if_pos up]
  · have off := not_not.mp up
    rw [if_neg up]
    dsimp only
    cases copied : attempt.copied with
    | false =>
      rw [s.setPort_uncopied name attempt off copied,if_neg (by simp),← off]
    | true =>
      cases opened : attempt.opened with
      | false =>
        rw [s.setPort_unopened name attempt off copied opened,if_neg (by simp),← off]
        rfl
      | true =>
        rw [s.setPort_opened name attempt off copied opened,if_pos (Bool.and_self true)]
        rfl

theorem disconnect_dock (s : PortSlot) : s.disconnect.dock = s.dock.disconnect := by
  unfold disconnect
  split
  next off => rw [FlotillaDock.disconnect,if_pos off]
  next =>
    unfold spFreePort spClose
    cases s.port <;> rfl

/-- As many handles are allocated and open as the state of the dock needs. -/
structure Released (s : PortSlot) : Prop where
  connected : s.dock.state = .connected → s.allocated.length = 1 ∧ s.opened.length = 1
  disconnected : s.dock.state = .disconnected → s.allocated.length = 0 ∧ s.opened.length = 0

/-- A copy that the call makes is opened, and the dock answers. -/
def Secured (s : PortSlot) : PortCall → Prop
  | .setPort _ attempt =>
    s.dock.state = .disconnected → attempt.copied = true → attempt.opened = true ∧ s.answered attempt = true
  | .disconnect => True

/-- The handles that were made are those the dock still holds. -/
inductive Holding (s : PortSlot) : Prop
  | one (copy : PortCopy) (connected : s.dock.state = .connected) (port : s.port = some copy)
      (allocated : s.allocated = [copy.handle]) (opened : s.opened = [copy.handle])
  | none (disconnected : s.dock.state = .disconnected) (allocated : s.allocated = []) (opened : s.opened = [])

theorem holding_released (s : PortSlot) (holding : s.Holding) : s.Released := by
  cases holding with
  | one copy connected port allocated opened =>
    refine ⟨fun _ => ?_,fun off => ?_⟩
    · rw [allocated,opened]
      exact ⟨rfl,rfl⟩
    · rw [connected] at off
      contradiction
  | none disconnected allocated opened =>
    refine ⟨fun up => ?_,fun _ => ?_⟩
    · rw [disconnected] at up
      contradiction
    · rw [allocated,opened]
      exact ⟨rfl,rfl⟩

theorem disconnect_holding (s : PortSlot) (holding : s.Holding) : s.disconnect.Holding := by
  cases holding with
  | none disconnected allocated opened =>
    rw [disconnect,if_pos disconnected]
    exact .none disconnected allocated opened
  | one copy connected port allocated opened =>
    have closed : s.disconnect = {s with dock := s.dock.disconnect,allocated := [],opened := []} := by
      rw [disconnect,if_neg (s.connected_up connected)]
      simp [spClose,spFreePort,port,allocated,opened]
    rw [closed]
    exact .none s.dock.disconnect_effect.1 rfl rfl

theorem setPort_holding (s : PortSlot) (name : Option Text) (attempt : Attempt) (holding : s.Holding)
    (secured : s.Secured (.setPort name attempt)) : (s.setPort name attempt).1.Holding := by
  cases holding with
  | one copy connected port allocated opened =>
    rw [s.setPort_up name attempt (s.connected_up connected)]
    exact .one copy connected port allocated opened
  | none off allocated opened =>
    cases copied : attempt.copied with
    | false =>
      rw [s.setPort_uncopied name attempt off copied]
      exact .none off allocated opened
    | true =>
      obtain ⟨opens,answer⟩ := secured off copied
      rw [s.setPort_opened name attempt off copied opens,answer]
      exact .one ⟨s.copies,name⟩ rfl rfl (congrArg _ allocated) (congrArg _ opened)

/-- A copy that is not opened, or whose dock does not answer, stays allocated. -/
theorem setPort_secured (s : PortSlot) (name : Option Text) (attempt : Attempt)
    (released : (s.setPort name attempt).1.Released) : s.Secured (.setPort name attempt) := by
  intro off copied
  cases opens : attempt.opened with
  | false =>
    rw [s.setPort_unopened name attempt off copied opens] at released
    have lost := (released.disconnected off).1
    contradiction
  | true =>
    refine ⟨rfl,?_⟩
    rw [s.setPort_opened name attempt off copied opens] at released
    cases answer : s.answered attempt with
    | true => rfl
    | false =>
      rw [answer] at released
      have lost := (released.disconnected rfl).1
      contradiction

theorem call_holding (s : PortSlot) (call : PortCall) (holding : s.Holding) (secured : s.Secured call) :
    (portCalls.step s call).1.Holding := by
  cases call with
  | setPort name attempt => exact s.setPort_holding name attempt holding secured
  | disconnect => exact s.disconnect_holding holding

theorem call_released_iff (s : PortSlot) (call : PortCall) (holding : s.Holding) :
    (portCalls.step s call).1.Released ↔ s.Secured call := by
  constructor
  · intro released
    cases call with
    | setPort name attempt => exact s.setPort_secured name attempt released
    | disconnect => trivial
  · exact fun secured => holding_released _ (s.call_holding call holding secured)

end PortSlot

/-- After each call the handles are released exactly when every call so far made no copy, or
opened the one it made and got an answer from the dock. -/
theorem ports_released_iff (index : Nat) (calls : List PortCall) :
    portCalls.Along (fun s call => (portCalls.step s call).1.Released) (.new index) calls ↔
      portCalls.Along PortSlot.Secured (.new index) calls := by
  apply portCalls.along_congr PortSlot.Holding
  · exact PortSlot.call_holding
  · exact PortSlot.call_released_iff
  · exact .none rfl rfl rfl

/-- The port is there and can be copied, but not opened. -/
theorem unopened_copy_lost : ¬ ∀ (index : Nat) (calls : List PortCall),
    portCalls.Along (fun s call => (portCalls.step s call).1.Released) (.new index) calls := by
  intro released
  have lost := (released 0 [.setPort (some "COM3".toList) ⟨true,false,false,[]⟩]).1.disconnected rfl
  exact absurd lost.1 (by decide)

end FlotillaDaemon
