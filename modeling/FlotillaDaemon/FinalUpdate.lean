import FlotillaDaemon.DockLife
import FlotillaDaemon.ValueStreams

/-! How the last update for a module reaches the dock. Whatever waits before it, it stays at the
end of the queue; once it is the text sent last, nothing else is written. -/
namespace FlotillaDaemon
open Cpp Retained

/-- The module reports no data with this call. -/
def Call.silent : Call → Bool
  | .queueCommand cmd => cmd.isEmpty
  | _ => true

theorem Call.put_present (call : Call) (text : Text) (put : call.put = some text) : text ≠ [] := by
  cases call with
  | queueUpdate cmd =>
    rw [Call.put] at put
    split at put
    · contradiction
    next present =>
      rw [← Option.some.inj put]
      exact present
  | queueCommand _ | getNextCommand | getNextUpdate | connect _ | disconnect => contradiction

namespace FlotillaModule

/-- Nothing waits for the clients, so what the module remembers is the update given out last. -/
def Remembers (m : FlotillaModule) (given : List Text) : Prop := m.commandQueue = [] ∧ m.lastUpdate = given.getLastD []

theorem call_remembers (m : FlotillaModule) (call : Call) (silent : call.silent = true) (given : List Text)
    (remembers : m.Remembers given) :
    (moduleCalls.step m call).1.Remembers (given ++ (givenOut (call,(moduleCalls.step m call).2)).toList) := by
  obtain ⟨empty,last⟩ := remembers
  have same : m.Remembers (given ++ []) := by
    rw [List.append_nil]
    exact ⟨empty,last⟩
  cases call with
  | queueUpdate cmd => exact same
  | disconnect => exact ⟨rfl,same.2⟩
  | queueCommand cmd =>
    rw [List.isEmpty_iff.mp silent]
    exact same
  | connect name =>
    change Remembers (m.connect name) (given ++ [])
    unfold FlotillaModule.connect
    split
    · exact same
    · exact ⟨rfl,same.2⟩
  | getNextCommand =>
    change Remembers m.getNextCommand.1 (given ++ [])
    rw [getNextCommand,empty,(takeCommand_retains _).empty]
    exact same
  | getNextUpdate =>
    change Remembers (m.getNextUpdate []).1 (given ++ (givenOut (.getNextUpdate,
      .update (m.getNextUpdate []).2.1 (m.getNextUpdate []).2.2)).toList)
    rcases m.getNextUpdate_cases with ⟨_,polled⟩ | ⟨update,left,_,polled⟩
    · rw [polled]
      exact same
    · rw [polled]
      refine ⟨empty,?_⟩
      by_cases known : update.val = m.lastUpdate
      · simp [givenOut,known,last]
      · simp [givenOut,known]

theorem calls_remember (m : FlotillaModule) (calls : List Call) (silent : ∀ call ∈ calls, call.silent = true)
    (given : List Text) (remembers : m.Remembers given) :
    (moduleCalls.run m calls).Remembers (given ++ m.gives calls) := by
  induction calls generalizing m given with
  | nil =>
    rw [gives,Machine.answers,List.filterMap_nil,List.append_nil]
    exact remembers
  | cons call rest ih =>
    rw [gives_cons,← List.append_assoc]
    apply ih
    · exact fun other member => silent other (List.mem_cons_of_mem _ member)
    · exact m.call_remembers call (silent call List.mem_cons_self) given remembers

theorem remembers_last (m : FlotillaModule) (given : List Text) (u : Entry) (remembers : m.Remembers given)
    (sent : m.lastUpdate = u.val) : given.getLast? = some u.val := by
  have known := remembers.2
  rw [sent,List.getLastD_eq_getLast?] at known
  cases last : given.getLast? with
  | none =>
    rw [last] at known
    exact absurd known u.property
  | some text =>
    rw [last] at known
    exact congrArg some known.symm

theorem calls_lastEntry (m : FlotillaModule) (calls : List Call) (none : ∀ call ∈ calls, call.put = none) :
    (moduleCalls.run m calls).updateQueue.getLast?.map Subtype.val = m.updateQueue.getLast?.map Subtype.val := by
  apply moduleCalls.along_invariant
    (fun next => next.updateQueue.getLast?.map Subtype.val = m.updateQueue.getLast?.map Subtype.val) (fun _ call => call.put = .none)
  · intro next call same none
    have noted := call_updateNoted (next,next.updateQueue.getLast?.map Subtype.val) call rfl
    have kept : noteUpdate next call (next.updateQueue.getLast?.map Subtype.val) = next.updateQueue.getLast?.map Subtype.val := by
      rw [noteUpdate,none]
      rfl
    exact (noted.trans kept).trans same
  · rfl
  · exact moduleCalls.along_of_forall _ m calls none

/-- The module remembers this update, and no other waits for the dock or the clients. -/
structure Finished (u : Text) (m : FlotillaModule) : Prop where
  commands : m.commandQueue = []
  updates : OnlyLatest u m.updateStore

theorem getNextUpdate_commands (m : FlotillaModule) : (m.getNextUpdate []).1.commandQueue = m.commandQueue := by
  rcases m.getNextUpdate_cases with ⟨_,polled⟩ | ⟨_,_,_,polled⟩ <;> rw [polled]

theorem call_connected (m : FlotillaModule) (call : Call) (connected : m.state = .moduleConnected)
    (left : call ≠ .disconnect) : (moduleCalls.step m call).1.state = .moduleConnected := by
  cases call with
  | queueCommand cmd => exact connected
  | queueUpdate cmd => exact connected
  | getNextCommand => exact m.getNextCommand_state.trans connected
  | getNextUpdate => exact (m.getNextUpdate_state []).trans connected
  | disconnect => contradiction
  | connect name =>
    change (m.connect name).state = _
    rw [m.connect_connected name connected]
    exact connected

theorem calls_connected (m : FlotillaModule) (calls : List Call) (connected : m.state = .moduleConnected)
    (left : .disconnect ∉ calls) : (moduleCalls.run m calls).state = .moduleConnected := by
  apply moduleCalls.along_invariant (fun m => m.state = .moduleConnected) (fun _ call => call ≠ .disconnect)
  · exact fun m call connected left => m.call_connected call connected left
  · exact connected
  · exact moduleCalls.along_of_forall _ m calls fun call member => ne_of_mem_of_not_mem member left

/-- While the module is connected and nothing is put in or reported, only polls for an update
change its updates. -/
theorem call_stays (m : FlotillaModule) (call : Call) (connected : m.state = .moduleConnected)
    (none : call.put = none) (left : call ≠ .disconnect) (commands : m.commandQueue = []) :
    (moduleCalls.step m call).1.updateStore = (lookFlushing m.isVolatile)^[[call].count .getNextUpdate] m.updateStore ∧
      (moduleCalls.step m call).1.isVolatile = m.isVolatile := by
  cases call with
  | queueCommand cmd => exact ⟨rfl,rfl⟩
  | disconnect => contradiction
  | connect name =>
    change (m.connect name).updateStore = _ ∧ (m.connect name).isVolatile = _
    rw [m.connect_connected name connected]
    exact ⟨rfl,rfl⟩
  | getNextCommand =>
    change m.getNextCommand.1.updateStore = _ ∧ m.getNextCommand.1.isVolatile = _
    rw [getNextCommand,commands,(takeCommand_retains _).empty]
    exact ⟨rfl,rfl⟩
  | queueUpdate cmd =>
    have empty : cmd = [] := by
      by_contra present
      rw [Call.put,if_neg present] at none
      contradiction
    rw [empty]
    exact ⟨rfl,rfl⟩
  | getNextUpdate => exact ⟨m.getNextUpdate_look,congrArg (· == _) m.getNextUpdate_name⟩

theorem calls_stay (m : FlotillaModule) (calls : List Call) (connected : m.state = .moduleConnected)
    (none : ∀ call ∈ calls, call.put = none) (left : .disconnect ∉ calls) (silent : ∀ call ∈ calls, call.silent = true)
    (given : List Text) (remembers : m.Remembers given) :
    (moduleCalls.run m calls).updateStore = (lookFlushing m.isVolatile)^[calls.count .getNextUpdate] m.updateStore := by
  induction calls generalizing m given with
  | nil => rfl
  | cons call rest ih =>
    rw [List.mem_cons,not_or] at left
    obtain ⟨looked,same⟩ := m.call_stays call connected (none call List.mem_cons_self) (Ne.symm left.1) remembers.1
    have later := ih _ (m.call_connected call connected (Ne.symm left.1))
      (fun other member => none other (List.mem_cons_of_mem _ member)) left.2
      (fun other member => silent other (List.mem_cons_of_mem _ member)) _
      (m.call_remembers call (silent call List.mem_cons_self) given remembers)
    have counted : (call :: rest).count .getNextUpdate = rest.count .getNextUpdate + [call].count .getNextUpdate := by
      rw [Nat.add_comm,← List.count_append]
      rfl
    rw [same,looked,← Function.iterate_add_apply,← counted] at later
    exact later

theorem call_finished (m : FlotillaModule) (call : Call) (u : Text) (none : call.put = none)
    (silent : call.silent = true) (finished : m.Finished u) :
    (moduleCalls.step m call).1.Finished u ∧ givenOut (call,(moduleCalls.step m call).2) = .none := by
  obtain ⟨commands,last,only⟩ := finished
  cases call with
  | disconnect => exact ⟨⟨rfl,last,only⟩,rfl⟩
  | queueCommand cmd =>
    rw [List.isEmpty_iff.mp silent]
    exact ⟨⟨commands,last,only⟩,rfl⟩
  | connect name =>
    refine ⟨?_,rfl⟩
    change Finished u (m.connect name)
    unfold FlotillaModule.connect
    split
    · exact ⟨commands,last,only⟩
    · exact ⟨rfl,last,only⟩
  | getNextCommand =>
    refine ⟨?_,rfl⟩
    change Finished u m.getNextCommand.1
    rw [getNextCommand,commands,(takeCommand_retains _).empty]
    exact ⟨commands,last,only⟩
  | queueUpdate cmd =>
    refine ⟨?_,rfl⟩
    by_cases empty : cmd = []
    · rw [empty]
      exact ⟨commands,last,only⟩
    · rw [Call.put,if_neg empty] at none
      contradiction
  | getNextUpdate =>
    have looked := lookFlushing_onlyLatest m.isVolatile u m.updateStore ⟨last,only⟩
    rw [← m.getNextUpdate_look] at looked
    change Finished u (m.getNextUpdate []).1 ∧
      givenOut (.getNextUpdate,.update (m.getNextUpdate []).2.1 (m.getNextUpdate []).2.2) = .none
    rw [m.getNextUpdate_given]
    refine ⟨⟨m.getNextUpdate_commands.trans commands,looked⟩,?_⟩
    rw [last]
    cases queue : m.updateStore.1 with
    | nil => rfl
    | cons front rest =>
      have latest : front = u := only front (by rw [queue]; exact List.mem_cons_self)
      exact if_pos latest

theorem calls_finished (m : FlotillaModule) (calls : List Call) (u : Text) (none : ∀ call ∈ calls, call.put = none)
    (silent : ∀ call ∈ calls, call.silent = true) (finished : m.Finished u) : m.gives calls = [] := by
  induction calls generalizing m with
  | nil => rfl
  | cons call rest ih =>
    obtain ⟨finished,given⟩ := m.call_finished call u (none call List.mem_cons_self) (silent call List.mem_cons_self)
      finished
    rw [gives_cons,given,ih _ (fun other member => none other (List.mem_cons_of_mem _ member))
      (fun other member => silent other (List.mem_cons_of_mem _ member)) finished]
    rfl

theorem stay_finishes (m : FlotillaModule) (calls : List Call) (u : Text) (connected : m.state = .moduleConnected)
    (latest : m.updateQueue.getLast?.map Subtype.val = some u) (none : ∀ call ∈ calls, call.put = none)
    (left : .disconnect ∉ calls) (silent : ∀ call ∈ calls, call.silent = true) (given : List Text)
    (remembers : m.Remembers given)
    (enough : (if m.isVolatile then m.updateQueue.length else 2) ≤ calls.count .getNextUpdate) :
    (moduleCalls.run m calls).Finished u := by
  refine ⟨(m.calls_remember calls silent given remembers).1,?_⟩
  rw [m.calls_stay calls connected none left silent given remembers]
  apply looks_onlyLatest
  · rw [List.getLast?_map]
    exact latest
  · rw [List.length_map]
    exact enough

end FlotillaModule

namespace DockLife
open FlotillaModule

/-- A tick that finds the dock connected. -/
def polls (s : DockLife) : DockEvent → Bool
  | .tick _ => decide (s.halted = false ∧ s.dock.state = .connected)
  | _ => false

def ticks (s : DockLife) : List DockEvent → Nat
  | [] => 0
  | event :: rest => (if s.polls event then 1 else 0) + ticks (s.step event) rest

theorem calls_put (s : DockLife) (c : Fin maxChannels) (event : DockEvent) (call : Call) (made : call ∈ s.calls c event)
    (text : Text) (put : call.put = some text) : event = .queueUpdate c text := by
  have line (call : Call) (fromLine : call.fromLine = true) (put : call.put = some text) : False := by
    cases call <;> contradiction
  unfold calls at made
  split at made
  · contradiction
  cases event with
  | setPort copied opened banner arrived => contradiction
  | processCommand command =>
    dsimp only at made
    split at made
    · exact (line call (s.dock.lineCall_fromLine _ c call made) put).elim
    · contradiction
  | getPendingCommands =>
    dsimp only at made
    split at made
    · rw [List.mem_singleton.mp made] at put
      contradiction
    · contradiction
  | disconnect =>
    dsimp only at made
    split at made
    · rw [List.mem_singleton.mp made] at put
      contradiction
    · contradiction
  | queueUpdate x data =>
    dsimp only at made
    split at made
    next own =>
      rw [List.mem_singleton.mp made,Call.put] at put
      split at put
      · contradiction
      · rw [own,Option.some.inj put]
    next => contradiction
  | tick arrived =>
    obtain ⟨lines,fromLine,calls⟩ := s.dock.tickCalls_eq c ⟨[],arrived⟩
    dsimp only at made
    rw [calls] at made
    rcases List.mem_append.mp made with polled | later
    · split at polled
      · rw [List.mem_singleton.mp polled] at put
        contradiction
      · contradiction
    · exact (line call (fromLine call later) put).elim

theorem runCalls_put (s : DockLife) (c : Fin maxChannels) (events : List DockEvent) (call : Call)
    (made : call ∈ s.runCalls c events) (text : Text) (put : call.put = some text) : .queueUpdate c text ∈ events := by
  induction events generalizing s with
  | nil => contradiction
  | cons event rest ih =>
    rcases List.mem_append.mp made with here | later
    · rw [s.calls_put c event call here text put]
      exact List.mem_cons_self
    · exact List.mem_cons_of_mem _ (ih _ later)

theorem ticks_poll (s : DockLife) (c : Fin maxChannels) (events : List DockEvent)
    (connected : (s.dock.module c).state = .moduleConnected) (left : .disconnect ∉ s.runCalls c events) :
    s.ticks events ≤ (s.runCalls c events).count .getNextUpdate := by
  induction events generalizing s with
  | nil => exact Nat.le_refl _
  | cons event rest ih =>
    rw [runCalls,List.mem_append,not_or] at left
    have stays : ((s.step event).dock.module c).state = .moduleConnected := by
      rw [s.step_calls c event]
      exact calls_connected _ _ connected left.1
    have here : (if s.polls event then 1 else 0) ≤ (s.calls c event).count .getNextUpdate := by
      split
      next polled =>
        cases event with
        | tick arrived =>
          obtain ⟨running,docked⟩ := of_decide_eq_true polled
          obtain ⟨lines,_,calls⟩ := s.dock.tickCalls_eq c ⟨[],arrived⟩
          rw [DockLife.calls,if_neg (Bool.eq_false_iff.mp running),calls,if_pos ⟨docked,connected⟩,List.count_append]
          exact Nat.le_add_right _ _
        | processCommand _ | getPendingCommands | queueUpdate _ _ | disconnect | setPort _ _ _ _ => contradiction
      next => exact Nat.zero_le _
    rw [ticks,runCalls,List.count_append]
    exact Nat.add_le_add here (ih _ stays left.2)

theorem run_remembers (index : Nat) (c : Fin maxChannels) (events : List DockEvent)
    (silent : ∀ call ∈ (DockLife.new index).runCalls c events, call.silent = true) :
    ((dockLives.run (.new index) events).dock.module c).Remembers (writes c (dockLives.emitted (.new index) events)) := by
  obtain ⟨module,written⟩ := (DockLife.new index).run_calls c events
  rw [module,written]
  exact calls_remember _ _ silent [] ⟨rfl,rfl⟩

theorem taken_last (s : DockLife) (running : s.halted = false) (c : Fin maxChannels) (u : Entry) (gap : List DockEvent)
    (nothing : ∀ call ∈ (s.step (.queueUpdate c u.val)).runCalls c gap, call.put = none) :
    ((dockLives.run s (.queueUpdate c u.val :: gap)).dock.module c).updateQueue.getLast?.map Subtype.val = some u.val := by
  have taken : (s.step (.queueUpdate c u.val)).dock.module c = (s.dock.module c).queueUpdate u.val := by
    rw [step,if_neg (Bool.eq_false_iff.mp running)]
    exact Function.update_self ..
  have moved : (dockLives.run s (.queueUpdate c u.val :: gap)).dock.module c =
      moduleCalls.run ((s.step (.queueUpdate c u.val)).dock.module c) ((s.step (.queueUpdate c u.val)).runCalls c gap) :=
    (run_calls _ c gap).1
  rw [moved,calls_lastEntry _ _ nothing,taken,queueUpdate,enqueue_present _ _ u.property,List.getLast?_concat]
  rfl

end DockLife

/-- A motor is shown twice the same value, with another one between. -/
def motorRun : List DockEvent :=
  [.setPort true true true
    ("# Version: 1.0\n# Serial: 0123456789012345678901\n# User: a\n# Dock: b\n".toList.map .byte),
    .tick ("c 1/motor\n".toList.map .byte),.queueUpdate 0 "5".toList,.tick [],.queueUpdate 0 "6".toList]

end FlotillaDaemon
