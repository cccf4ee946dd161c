import Mathlib
import FlotillaDaemon.UpdateRouting

/-! One dock over time, with all its operations as atomic steps: what they give the clients and
write to the port, and what they do to one module as calls on it. -/
namespace FlotillaDaemon
open Cpp Retained

/-- A line that throws in `process_command` changes nothing. Lines that would be looked up outside
the module table are kept out there; inside a tick such a line, or one that throws, is the end. -/
inductive DockEvent
  | processCommand (line : {line : Text // FlotillaDock.Addressable line})
  | getPendingCommands
  | queueUpdate (c : Fin maxChannels) (data : Text)
  | tick (arrived : List Arrival)
  | disconnect
  | setPort (copied opened banner : Bool) (arrived : List Arrival)

structure DockLife where
  dock : FlotillaDock
  halted : Bool

inductive Emission
  | message (text : Text)
  | update (c : Fin maxChannels) (data : Text)
  deriving DecidableEq

namespace DockLife

def new (index : Nat) : DockLife := ⟨.new index,false⟩

def processCommand (s : DockLife) (line : Text) : DockLife :=
  match s.dock.processCommand line with
  | .ok dock => {s with dock := dock}
  | .error _ => s

def tick (s : DockLife) (arrived : List Arrival) : DockLife :=
  match s.dock.tick ⟨[],arrived⟩ with
  | .ok (dock,_) => {s with dock := dock}
  | .error _ => ⟨(s.dock.writeQueues ⟨[],arrived⟩).1,true⟩

def step (s : DockLife) (event : DockEvent) : DockLife :=
  if s.halted then s
  else
    match event with
    | .processCommand line => s.processCommand line.val
    | .getPendingCommands => {s with dock := s.dock.getPendingCommands.1}
    | .queueUpdate c data => {s with dock := s.dock.setModule c ((s.dock.module c).queueUpdate data)}
    | .tick arrived => s.tick arrived
    | .disconnect => {s with dock := s.dock.disconnect}
    | .setPort copied opened banner arrived => {s with dock := (s.dock.setPort copied opened banner arrived).1}

def output (s : DockLife) (event : DockEvent) : List Emission :=
  if s.halted then []
  else
    match event with
    | .getPendingCommands => s.dock.getPendingCommands.2.map .message
    | .tick _ => s.dock.updates.map fun update => .update update.1 update.2
    | _ => []

end DockLife

def dockLives : Machine DockLife DockEvent (List Emission) := ⟨fun s event => (s.step event,s.output event)⟩

/-- The updates written for one channel. -/
def writes (c : Fin maxChannels) (emissions : List Emission) : List Text :=
  emissions.filterMap fun
    | .message _ => none
    | .update x data => if x = c then some data else none

theorem writes_append (c : Fin maxChannels) (earlier later : List Emission) :
    writes c (earlier ++ later) = writes c earlier ++ writes c later := List.filterMap_append

namespace DockLife

/-- The calls that a step makes on one module. -/
def calls (s : DockLife) (c : Fin maxChannels) (event : DockEvent) : List Call :=
  if s.halted then []
  else
    match event with
    | .processCommand line =>
      match s.dock.processCommand line.val with
      | .ok _ => FlotillaDock.callsOn c (s.dock.lineCall line.val)
      | .error _ => []
    | .getPendingCommands => if (s.dock.module c).state = .moduleConnected then [.getNextCommand] else []
    | .queueUpdate x data => if x = c then [.queueUpdate data] else []
    | .tick arrived => s.dock.tickCalls c ⟨[],arrived⟩
    | .disconnect =>
      if s.dock.state ≠ .disconnected ∧ (s.dock.module c).state = .moduleConnected then [.disconnect] else []
    | .setPort _ _ _ _ => []

def runCalls (s : DockLife) (c : Fin maxChannels) : List DockEvent → List Call
  | [] => []
  | event :: rest => s.calls c event ++ runCalls (s.step event) c rest

theorem tick_dock (s : DockLife) (arrived : List Arrival) : (s.tick arrived).dock = s.dock.afterTick ⟨[],arrived⟩ := by
  unfold tick FlotillaDock.afterTick
  generalize s.dock.writeQueues ⟨[],arrived⟩ = queues
  cases s.dock.tick ⟨[],arrived⟩ <;> rfl

theorem step_calls (s : DockLife) (c : Fin maxChannels) (event : DockEvent) :
    (s.step event).dock.module c = moduleCalls.run (s.dock.module c) (s.calls c event) := by
  unfold step calls
  by_cases halted : s.halted = true
  · rw [if_pos halted,if_pos halted]
    rfl
  rw [if_neg halted,if_neg halted]
  cases event with
  | processCommand line =>
    dsimp only [processCommand]
    cases processed : s.dock.processCommand line.val with
    | ok next => exact s.dock.processCommand_call next line.val c processed
    | error fault => rfl
  | getPendingCommands =>
    dsimp only
    rw [s.dock.getPendingCommands_eq]
    exact FlotillaDock.polledCommand_calls _
  | queueUpdate x data =>
    dsimp only
    by_cases own : x = c
    · subst own
      rw [if_pos rfl]
      exact Function.update_self ..
    · rw [if_neg own]
      exact Function.update_of_ne (Ne.symm own) ..
  | tick arrived =>
    dsimp only
    rw [tick_dock]
    exact s.dock.afterTick_calls _ c
  | disconnect =>
    dsimp only
    exact s.dock.disconnect_calls c
  | setPort copied opened banner arrived =>
    obtain ⟨next,ok,set,_,introduced⟩ := s.dock.setPort_effect copied opened banner arrived
    obtain ⟨_,_,_,_,rfl⟩ := introduced
    dsimp only
    rw [set]
    rfl

theorem output_writes (s : DockLife) (c : Fin maxChannels) (event : DockEvent) :
    writes c (s.output event) = (s.dock.module c).gives (s.calls c event) := by
  unfold output calls
  by_cases halted : s.halted = true
  · rw [if_pos halted,if_pos halted]
    rfl
  rw [if_neg halted,if_neg halted]
  cases event with
  | processCommand line =>
    dsimp only
    cases s.dock.processCommand line.val with
    | ok next => exact ((s.dock.module c).lines_give _ (s.dock.lineCall_fromLine line.val c)).2.symm
    | error fault => rfl
  | getPendingCommands =>
    have texts (texts : List Text) : writes c (texts.map .message) = [] := by
      simp [writes]
    dsimp only
    rw [texts]
    split <;> rfl
  | queueUpdate x data =>
    dsimp only
    split <;> rfl
  | tick arrived =>
    dsimp only
    obtain ⟨lines,made,calls⟩ := s.dock.tickCalls_eq c ⟨[],arrived⟩
    have written : writes c (s.dock.updates.map fun update => .update update.1 update.2) =
        s.dock.updates.filterMap fun update => if update.1 = c then some update.2 else none := by
      simp [writes,List.filterMap_map]
    rw [calls,written,FlotillaDock.updates_own]
    exact (s.dock.tick_gives c lines made).2
  | disconnect =>
    dsimp only
    split <;> rfl
  | setPort copied opened banner arrived => rfl

/-- Each module of the dock runs as the machine of its calls, which give out what is written. -/
theorem run_calls (s : DockLife) (c : Fin maxChannels) (events : List DockEvent) :
    (dockLives.run s events).dock.module c = moduleCalls.run (s.dock.module c) (s.runCalls c events) ∧
      writes c (dockLives.emitted s events) = (s.dock.module c).gives (s.runCalls c events) := by
  induction events generalizing s with
  | nil => exact ⟨rfl,rfl⟩
  | cons event rest ih =>
    obtain ⟨module,written⟩ := ih (s.step event)
    rw [step_calls] at module written
    rw [runCalls,Machine.run_append,FlotillaModule.gives_append,Machine.emitted,writes_append]
    exact ⟨module,congr (congrArg _ (s.output_writes c event)) written⟩

theorem runCalls_append (s : DockLife) (c : Fin maxChannels) (first second : List DockEvent) :
    s.runCalls c (first ++ second) = s.runCalls c first ++ (dockLives.run s first).runCalls c second := by
  induction first generalizing s with
  | nil => rfl
  | cons event rest ih =>
    rw [List.cons_append,runCalls,runCalls,ih,List.append_assoc]
    rfl

end DockLife

end FlotillaDaemon
