import FlotillaDaemon.Module

/-! Which value of a module has last been given out. A poll looks at the latest entry and leaves
it waiting, so a module that is not volatile remembers the latest one after a poll. -/
namespace FlotillaDaemon
open Cpp Retained

namespace FlotillaModule

/-- The value of the latest data line since the module connected, and whether a pass has
been made for the client since it. A line without data is not taken. -/
def noteCall (m : FlotillaModule) (seen : Option Text × Bool) : Call → Option Text × Bool
  | .queueCommand data => if data = [] then seen else (some data,false)
  | .connect _ => if m.state = .moduleConnected then seen else (none,seen.2)
  | _ => seen

def noteCalls (m : FlotillaModule) (seen : Option Text × Bool) : List Call → Option Text × Bool
  | [] => seen
  | call :: rest => noteCalls (moduleCalls.step m call).1 (noteCall m seen call) rest

/-- The last entry that waits is the latest value, and once a pass has been made it is the one
remembered. No update waits to take its place. -/
structure Watched (m : FlotillaModule) (seen : Option Text × Bool) : Prop where
  idle : m.updateQueue = []
  latest : m.state = .moduleConnected → m.commandQueue.getLast?.map Subtype.val = seen.1
  current : seen.2 = true → m.state = .moduleConnected → m.isVolatile = false → ∀ value ∈ seen.1, m.lastUpdate = value

theorem takeCommand_last (isVolatile : Bool) (queue left : List Entry) (command : Entry)
    (taken : takeCommand isVolatile queue = some (command,left)) :
    left.getLast? = queue.getLast? ∧ (isVolatile = false → queue.getLast? = some command) := by
  cases queue with
  | nil =>
    rw [(takeCommand_retains _).empty] at taken
    contradiction
  | cons front rest =>
    cases isVolatile with
    | false =>
      rw [takeCommand,if_neg Bool.false_ne_true,keepLast_eq_getLast _ (List.cons_ne_nil _ _)] at taken
      obtain ⟨rfl,rfl⟩ := Prod.mk.inj (Option.some.inj taken)
      rw [popKeeping_lone,List.getLast?_eq_some_getLast (List.cons_ne_nil front rest)]
      exact ⟨rfl,fun _ => rfl⟩
    | true =>
      obtain ⟨rfl,rfl⟩ := Prod.mk.inj (Option.some.inj taken)
      exact ⟨popKeeping_last _,fun impossible => absurd impossible (by simp)⟩

/-- What a poll of a connected module leaves: the latest entry stays, and a module that is not
volatile remembers it. -/
theorem poll_watched (m : FlotillaModule) (seen : Option Text × Bool) (watched : m.Watched seen)
    (connected : m.state = .moduleConnected) : m.getNextCommand.1.Watched (seen.1,true) := by
  have latest := watched.latest connected
  rcases m.getNextCommand_cases with ⟨empty,polled⟩ | ⟨command,left,taken,polled⟩
  · rw [polled]
    refine ⟨watched.idle,watched.latest,fun _ _ _ value known => ?_⟩
    rw [empty] at latest
    rw [← latest] at known
    contradiction
  · obtain ⟨kept,last⟩ := takeCommand_last _ _ _ _ taken
    rw [polled]
    refine ⟨watched.idle,fun _ => ?_,fun _ _ steady value known => ?_⟩
    · rw [kept]
      exact latest
    · rw [last steady] at latest
      rw [← latest] at known
      exact Option.some.inj known

theorem getNextUpdate_idle (m : FlotillaModule) (idle : m.updateQueue = []) : (m.getNextUpdate []).1 = m := by
  rw [getNextUpdate,idle,(takeUpdate_retains _).empty]
  rfl

theorem getNextCommand_last (m : FlotillaModule) :
    m.getNextCommand.1.lastUpdate = if m.getNextCommand.2 = [] then m.lastUpdate else m.getNextCommand.2 := by
  rcases m.getNextCommand_cases with ⟨_,polled⟩ | ⟨command,left,_,polled⟩
  · rw [polled]
    rfl
  · rw [polled]
    by_cases same : command.val = m.lastUpdate
    · simp [same]
    · simp [same,command.property]

theorem call_watched (m : FlotillaModule) (seen : Option Text × Bool) (call : Call) (watched : m.Watched seen)
    (untouched : ∀ cmd, call ≠ .queueUpdate cmd) (connected : call = .getNextCommand → m.state = .moduleConnected) :
    (moduleCalls.step m call).1.Watched (noteCall m seen call) := by
  cases call with
  | queueUpdate cmd => exact absurd rfl (untouched cmd)
  | getNextUpdate =>
    change (m.getNextUpdate []).1.Watched seen
    rw [m.getNextUpdate_idle watched.idle]
    exact watched
  | getNextCommand =>
    have after := m.poll_watched seen watched (connected rfl)
    exact ⟨after.idle,after.latest,fun _ => after.current rfl⟩
  | disconnect => exact ⟨watched.idle,fun up => by contradiction,fun _ up => by contradiction⟩
  | connect moduleName =>
    change (m.connect moduleName).Watched (if m.state = .moduleConnected then seen else (none,seen.2))
    by_cases up : m.state = .moduleConnected
    · rw [m.connect_connected moduleName up,if_pos up]
      exact watched
    · have down : m.state = .moduleDisconnected := by
        cases state : m.state with
        | moduleConnected => exact absurd state up
        | moduleDisconnected => rfl
      rw [m.connect_disconnected moduleName down,if_neg up]
      exact ⟨watched.idle,fun _ => rfl,fun _ _ _ value known => nomatch known⟩
  | queueCommand data =>
    change (m.queueCommand data).Watched (if data = [] then seen else (some data,false))
    unfold FlotillaModule.queueCommand
    by_cases empty : data = []
    · rw [empty,enqueue_empty,if_pos rfl]
      exact watched
    · rw [enqueue_present _ _ empty,if_neg empty]
      refine ⟨watched.idle,fun _ => ?_,fun settled => nomatch settled⟩
      rw [List.getLast?_concat]
      rfl

theorem calls_watched (m : FlotillaModule) (seen : Option Text × Bool) (calls : List Call) (watched : m.Watched seen)
    (untouched : ∀ call ∈ calls, ∀ cmd, call ≠ .queueUpdate cmd)
    (connected : ∀ call ∈ calls, call = .getNextCommand → calls = [call] ∧ m.state = .moduleConnected) :
    (moduleCalls.run m calls).Watched (m.noteCalls seen calls) := by
  induction calls generalizing m seen with
  | nil => exact watched
  | cons call rest ih =>
    have here := m.call_watched seen call watched (untouched call List.mem_cons_self)
      fun polled => (connected call List.mem_cons_self polled).2
    refine ih _ _ here (fun other member => untouched other (List.mem_cons_of_mem _ member)) ?_
    intro other member polled
    have alone := (connected other (List.mem_cons_of_mem _ member) polled).1
    rw [(List.cons.inj alone).2] at member
    contradiction

theorem calls_last (m : FlotillaModule) (calls : List Call) (idle : m.updateQueue = [])
    (untouched : ∀ call ∈ calls, ∀ cmd, call ≠ .queueUpdate cmd) (unpolled : ∀ call ∈ calls, call ≠ .getNextCommand) :
    (moduleCalls.run m calls).lastUpdate = m.lastUpdate := by
  have one (m : FlotillaModule) (call : Call) (idle : m.updateQueue = []) (untouched : ∀ cmd, call ≠ .queueUpdate cmd)
      (unpolled : call ≠ .getNextCommand) :
      (moduleCalls.step m call).1.updateQueue = [] ∧ (moduleCalls.step m call).1.lastUpdate = m.lastUpdate := by
    cases call with
    | queueUpdate cmd => exact absurd rfl (untouched cmd)
    | getNextCommand => exact absurd rfl unpolled
    | queueCommand cmd => exact ⟨idle,rfl⟩
    | disconnect => exact ⟨idle,rfl⟩
    | getNextUpdate =>
      change (m.getNextUpdate []).1.updateQueue = [] ∧ (m.getNextUpdate []).1.lastUpdate = _
      rw [m.getNextUpdate_idle idle]
      exact ⟨idle,rfl⟩
    | connect moduleName =>
      change (m.connect moduleName).updateQueue = [] ∧ (m.connect moduleName).lastUpdate = _
      unfold FlotillaModule.connect
      split <;> exact ⟨idle,rfl⟩
  induction calls generalizing m with
  | nil => rfl
  | cons call rest ih =>
    have here := one m call idle (untouched call List.mem_cons_self) (unpolled call List.mem_cons_self)
    exact (ih _ here.1 (fun other member => untouched other (List.mem_cons_of_mem _ member))
      fun other member => unpolled other (List.mem_cons_of_mem _ member)).trans here.2

end FlotillaModule

end FlotillaDaemon
