import FlotillaDaemon.DockLife

/-! What the clients are told after a reconnection. Data lines are queued on any channel and the
last one stays in the queue, but a connection empties it, so what is told comes from lines that
arrived since, under the name that came with it. -/
namespace FlotillaDaemon
open Cpp Retained

/-- The name that a module got when it last connected, and the texts queued for it since. -/
abbrev Connection := Option (Text × List Text)

namespace FlotillaModule

def noteReading (m : FlotillaModule) (call : Call) (connection : Connection) : Connection :=
  match call with
  | .connect name => if m.state = .moduleConnected then connection else some (name,[])
  | .queueCommand data =>
    if data = [] then connection else connection.map fun since => (since.1,since.2 ++ [data])
  | _ => connection

def Fresh (s : FlotillaModule × Connection) : Prop :=
  s.1.state = .moduleConnected →
    ∃ texts, s.2 = some (s.1.name,texts) ∧ ∀ entry ∈ s.1.commandQueue, entry.val ∈ texts

theorem takeCommand_waiting (isVolatile : Bool) (queue left : List Entry) (command : Entry)
    (taken : takeCommand isVolatile queue = some (command,left)) : command ∈ queue ∧ left ⊆ queue := by
  have kept : (if isVolatile then queue else keepLast queue) ⊆ queue := by
    split
    · exact List.Subset.refl _
    · exact (keepLast_suffix queue).subset
  unfold takeCommand at taken
  split at taken
  · contradiction
  next front rest read =>
    obtain ⟨rfl,rfl⟩ := Prod.mk.inj (Option.some.inj taken)
    rw [read] at kept
    exact ⟨kept List.mem_cons_self,List.Subset.trans (popKeeping_subset _) kept⟩

theorem call_fresh (s : FlotillaModule × Connection) (call : Call) (fresh : Fresh s) :
    Fresh ((moduleCalls.tracked noteReading).step s call).1 := by
  obtain ⟨m,connection⟩ := s
  cases call with
  | queueUpdate cmd => exact fresh
  | disconnect => exact fun connected => by contradiction
  | getNextUpdate =>
    change Fresh ((m.getNextUpdate []).1,connection)
    rcases m.getNextUpdate_cases with ⟨_,polled⟩ | ⟨_,_,_,polled⟩ <;> rw [polled] <;> exact fresh
  | getNextCommand =>
    change Fresh (m.getNextCommand.1,connection)
    rcases m.getNextCommand_cases with ⟨_,polled⟩ | ⟨command,left,taken,polled⟩
    · rw [polled]
      exact fresh
    · rw [polled]
      intro connected
      obtain ⟨texts,known,waiting⟩ := fresh connected
      exact ⟨texts,known,fun entry member => waiting entry ((takeCommand_waiting _ _ _ _ taken).2 member)⟩
  | connect name =>
    change Fresh (m.connect name,if m.state = .moduleConnected then connection else some (name,[]))
    cases state : m.state with
    | moduleConnected =>
      rw [m.connect_connected name state,if_pos rfl]
      exact fresh
    | moduleDisconnected =>
      rw [m.connect_disconnected name state,if_neg (by decide)]
      exact fun _ => ⟨[],rfl,fun entry member => absurd member List.not_mem_nil⟩
  | queueCommand data =>
    change Fresh ({m with commandQueue := enqueue m.commandQueue data},
      if data = [] then connection else connection.map fun since => (since.1,since.2 ++ [data]))
    by_cases empty : data = []
    · rw [empty,enqueue_empty,if_pos rfl]
      exact fresh
    · rw [enqueue_present _ _ empty,if_neg empty]
      intro connected
      obtain ⟨texts,known,waiting⟩ := fresh connected
      have since : connection = some (m.name,texts) := known
      refine ⟨texts ++ [data],by rw [since]; rfl,fun entry member => ?_⟩
      rcases List.mem_append.mp member with earlier | now
      · exact List.mem_append.mpr (.inl (waiting entry earlier))
      · rw [List.mem_singleton.mp now]
        exact List.mem_append.mpr (.inr List.mem_cons_self)

end FlotillaModule

namespace DockLife
open FlotillaModule

def noteReadings (s : DockLife) (event : DockEvent) (connections : Fin maxChannels → Connection) :
    Fin maxChannels → Connection :=
  fun c => ((moduleCalls.tracked noteReading).run (s.dock.module c,connections c) (s.calls c event)).2

theorem step_fresh (s : DockLife × (Fin maxChannels → Connection)) (event : DockEvent)
    (fresh : ∀ c, Fresh (s.1.dock.module c,s.2 c)) (c : Fin maxChannels) :
    Fresh ((s.1.step event).dock.module c,noteReadings s.1 event s.2 c) := by
  have kept := (moduleCalls.tracked noteReading).run_invariant Fresh call_fresh _ (fresh c) (s.1.calls c event)
  have module := moduleCalls.run_tracked noteReading (s.1.dock.module c) (s.2 c) (s.1.calls c event)
  rw [s.1.step_calls c event,← module]
  exact kept

theorem pendingCommand_waiting (dock : FlotillaDock) (c : Fin maxChannels) (message : Message)
    (pending : message ∈ dock.pendingCommand c) :
    (dock.module c).state = .moduleConnected ∧
      ∃ entry ∈ (dock.module c).commandQueue, message = .value c (dock.module c).name entry.val := by
  unfold FlotillaDock.pendingCommand at pending
  split at pending
  next polled =>
    refine ⟨polled.1,?_⟩
    rw [List.mem_singleton.mp pending]
    rcases (dock.module c).getNextCommand_cases with ⟨_,quiet⟩ | ⟨command,left,taken,given⟩
    · rw [quiet] at polled
      exact absurd rfl polled.2
    · have fresh : (dock.module c).getNextCommand.2 = command.val := by
        have told := polled.2
        rw [given] at told ⊢
        dsimp only at told ⊢
        split at told
        · exact absurd rfl told
        next other => exact if_neg other
      rw [fresh]
      exact ⟨command,(takeCommand_waiting _ _ _ _ taken).1,rfl⟩
  next => contradiction

end DockLife

/-- No stale reading crosses a reconnect: what a poll tells of a channel has been queued since its
module last connected, and carries the name it connected with. -/
theorem fresh_readings (index : Nat) (events : List DockEvent) :
    let s := (dockLives.tracked DockLife.noteReadings).run (.new index,fun _ => none) events
    ∀ text, .message text ∈ s.1.output .getPendingCommands → ∃ c name data texts,
      text = (Message.value c name data).text s.1.dock.index ∧ s.2 c = some (name,texts) ∧ data ∈ texts := by
  intro s text told
  have fresh : ∀ c, FlotillaModule.Fresh (s.1.dock.module c,s.2 c) :=
    (dockLives.tracked DockLife.noteReadings).run_invariant (fun s => ∀ c, FlotillaModule.Fresh (s.1.dock.module c,s.2 c))
      (fun s event kept => DockLife.step_fresh s event kept) _ (fun _ connected => by contradiction) events
  unfold DockLife.output at told
  split at told
  · contradiction
  dsimp only at told
  rw [s.1.dock.getPendingCommands_eq] at told
  obtain ⟨_,member,same⟩ := List.mem_map.mp told
  obtain ⟨message,pending,written⟩ := List.mem_map.mp member
  obtain ⟨c,_,polled⟩ := List.mem_flatMap.mp pending
  obtain ⟨connected,entry,waiting,rfl⟩ := DockLife.pendingCommand_waiting _ c _ polled
  obtain ⟨texts,known,since⟩ := fresh c connected
  exact ⟨c,_,entry.val,texts,(Emission.message.inj same).symm.trans written.symm,known,since entry waiting⟩

end FlotillaDaemon
