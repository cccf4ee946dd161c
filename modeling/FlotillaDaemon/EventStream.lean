import FlotillaDaemon.DockRaces
import FlotillaDaemon.LineMoves
import FlotillaDaemon.Replay
import Mathlib.Data.List.Basic

/-! The events of a dock. A change of a module and the push of its event are two steps,
and the text of an event is made when it is pushed. Whoever changes a channel pushes an
event for it afterwards, so the last event of a channel was made after its last change. -/
namespace FlotillaDaemon
open Cpp Retained Replay

structure ModuleEvent where
  channel : Fin maxChannels
  connected : Bool
  name : Text
  deriving DecidableEq

namespace ModuleEvent

def text (index : Nat) (event : ModuleEvent) : Text :=
  "Dock:".toList ++ decimal index ++ " Data:".toList ++ (if event.connected then "c".toList else "d".toList) ++
    " ".toList ++ decimal event.channel.val ++ "/".toList ++ event.name

/-- What the event sets its channel to: the name of a connected module, or none. -/
def shown (event : ModuleEvent) : Option Text := if event.connected then some event.name else none

end ModuleEvent

def channelDigit (c : Char) : Option (Fin maxChannels) :=
  if digit : 48 ≤ c.toNat ∧ c.toNat < 48 + maxChannels then some ⟨c.toNat - 48,by omega⟩ else none

def readEvent (index : Nat) (message : Text) : Option ModuleEvent :=
  match message.dropPrefix? ("Dock:".toList ++ decimal index ++ " Data:".toList) with
  | some (letter :: ' ' :: digit :: '/' :: name) =>
    if letter = 'c' then (channelDigit digit).map (⟨·,true,name⟩)
    else if letter = 'd' then (channelDigit digit).map (⟨·,false,name⟩)
    else none
  | _ => none

/-- The channels and names of a dock for a client that starts empty and replays its messages. -/
def view (index : Nat) (messages : List Text) : Fin maxChannels → Option Text :=
  replay ModuleEvent.channel ModuleEvent.shown (fun _ => none) (messages.filterMap (readEvent index))

def digitOf (c : Fin maxChannels) : Char := Char.ofNat (48 + c.val)

theorem decimal_channel (c : Fin maxChannels) :
    decimal c.val = [digitOf c] ∧ channelDigit (digitOf c) = some c := by
  revert c
  decide

theorem readEvent_text (index : Nat) (event : ModuleEvent) : readEvent index (event.text index) = some event := by
  obtain ⟨channel,connected,name⟩ := event
  obtain ⟨written,read⟩ := decimal_channel channel
  have cut (rest : Text) : (("Dock:".toList ++ decimal index ++ " Data:".toList) ++ rest).dropPrefix?
      ("Dock:".toList ++ decimal index ++ " Data:".toList) = some rest :=
    List.dropPrefix?_eq_some_iff.mpr ⟨_,rfl,beq_self_eq_true _⟩
  unfold readEvent ModuleEvent.text
  simp only [written,List.append_assoc] at cut ⊢
  rw [cut]
  cases connected <;> simp [read]

theorem view_concat (index : Nat) (messages : List Text) (event : ModuleEvent) :
    view index (messages ++ [event.text index]) =
      Function.update (view index messages) event.channel event.shown := by
  unfold view
  rw [List.filterMap_append,List.filterMap_cons_some (readEvent_text index event),List.filterMap_nil,
    replay_append]
  rfl

namespace FlotillaDock

def event (dock : FlotillaDock) (c : Fin maxChannels) : ModuleEvent :=
  ⟨c,decide ((dock.module c).state = .moduleConnected),(dock.module c).name⟩

def table (dock : FlotillaDock) (c : Fin maxChannels) : Option Text := (dock.event c).shown

theorem moduleEvent_eq (dock : FlotillaDock) (c : Fin maxChannels) :
    dock.moduleEvent c = (dock.event c).text dock.index := by
  unfold moduleEvent ModuleEvent.text event
  cases (dock.module c).state <;> rfl

theorem table_connected (dock : FlotillaDock) (c : Fin maxChannels)
    (connected : (dock.module c).state = .moduleConnected) : dock.table c = some (dock.module c).name := by
  simp [table,event,ModuleEvent.shown,connected]

theorem table_disconnected (dock : FlotillaDock) (c : Fin maxChannels)
    (disconnected : (dock.module c).state = .moduleDisconnected) : dock.table c = none := by
  simp [table,event,ModuleEvent.shown,disconnected]

theorem table_own (dock : FlotillaDock) (c x : Fin maxChannels) (m : FlotillaModule) (other : x ≠ c) :
    (dock.setModule c m).table x = dock.table x := by
  simp [table,event,setModule,other]

theorem table_same (dock : FlotillaDock) (c : Fin maxChannels) (m : FlotillaModule)
    (state : m.state = (dock.module c).state) (name : m.name = (dock.module c).name) :
    (dock.setModule c m).table = dock.table := by
  funext x
  by_cases own : x = c
  · subst own
    simp [table,event,setModule,state,name]
  · exact dock.table_own c x m own

end FlotillaDock

theorem getNextCommand_name (m : FlotillaModule) : m.getNextCommand.1.name = m.name := by
  rcases m.getNextCommand_cases with ⟨_,polled⟩ | ⟨_,_,_,polled⟩ <;> rw [polled]

theorem getNextUpdate_name (m : FlotillaModule) : (m.getNextUpdate []).1.name = m.name := by
  rcases m.getNextUpdate_cases with ⟨_,polled⟩ | ⟨_,_,_,polled⟩ <;> rw [polled]

/-- The events pushed so far, and those that flushes have returned. -/
structure Stream where
  pushed : List Text
  flushed : List Text
  deriving DecidableEq

namespace Stream

def note (s : Slot) (action : Action) (stream : Stream) : Stream :=
  match action with
  | .update .updateClients => {stream with flushed := stream.flushed ++ s.dock.eventQueue}
  | .update .proceed =>
    match s.update with
    | .announcing c => {stream with pushed := stream.pushed ++ [s.dock.moduleEvent c]}
    | _ => stream
  | .scan .proceed =>
    match s.scan with
    | .losing c => {stream with pushed := stream.pushed ++ [s.dock.moduleEvent c]}
    | _ => stream
  | _ => stream

end Stream

def recorded (index : Nat) : System (Slot × Stream) Action := (slotSystem index).tracked Stream.note ⟨[],[]⟩

namespace Slot

structure Unannounced (s t : Slot) : Prop where
  index : t.dock.index = s.dock.index
  queue : t.dock.eventQueue = s.dock.eventQueue

/-- The steps of the daemon at a slot, as far as events are concerned. -/
inductive StreamMove (s : Slot) (stream : Stream) : Slot → Stream → Prop
  | quiet (t : Slot) (kept : Unannounced s t) (table : t.dock.table = s.dock.table)
      (announcing : ∀ c, t.update = .announcing c ↔ s.update = .announcing c)
      (losing : ∀ c, t.scan = .losing c ↔ s.scan = .losing c) : StreamMove s stream t stream
  | changed (c : Fin maxChannels) (t : Slot) (kept : Unannounced s t)
      (table : ∀ x ≠ c, t.dock.table x = s.dock.table x) (announces : t.update = .announcing c)
      (silent : ∀ x, s.update ≠ .announcing x) (scan : t.scan = s.scan) : StreamMove s stream t stream
  | dropped (c : Fin maxChannels) (t : Slot) (kept : Unannounced s t)
      (table : ∀ x ≠ c, t.dock.table x = s.dock.table x) (off : t.dock.table c = none)
      (update : t.update = s.update) (loses : t.scan = .losing c) (silent : ∀ x, s.scan ≠ .losing x) :
      StreamMove s stream t stream
  | announced (c : Fin maxChannels) (announces : s.update = .announcing c) :
      StreamMove s stream {s with dock := s.dock.queueModuleEvent c,update := .input}
        {stream with pushed := stream.pushed ++ [s.dock.moduleEvent c]}
  | lost (c : Fin maxChannels) (loses : s.scan = .losing c) :
      StreamMove s stream {s with dock := s.dock.queueModuleEvent c,scan := .sweeping (c.val + 1)}
        {stream with pushed := stream.pushed ++ [s.dock.moduleEvent c]}
  | flushed (away : s.update = .away) :
      StreamMove s stream {s with dock := {s.dock with eventQueue := []},update := .flushed}
        {stream with flushed := stream.flushed ++ s.dock.eventQueue}

/-- A step of the update thread that neither changes a module nor pushes or flushes events. -/
theorem quiet_update (s : Slot) (stream : Stream) (dock : FlotillaDock) (place : UpdatePlace)
    (index : dock.index = s.dock.index) (queue : dock.eventQueue = s.dock.eventQueue)
    (table : dock.table = s.dock.table) (silent : ∀ c, place ≠ .announcing c)
    (before : ∀ c, s.update ≠ .announcing c) :
    StreamMove s stream {s with dock := dock,update := place} stream :=
  .quiet _ ⟨index,queue⟩ table (fun c => iff_of_false (silent c) (before c)) fun _ => Iff.rfl

theorem quiet_place (s : Slot) (stream : Stream) (place : UpdatePlace) (silent : ∀ c, place ≠ .announcing c)
    (before : ∀ c, s.update ≠ .announcing c) : StreamMove s stream {s with update := place} stream :=
  quiet_update s stream s.dock place rfl rfl rfl silent before

theorem updateStep_stream (s t : Slot) (stream : Stream) (action : UpdateAction)
    (moved : s.updateStep action = some t) :
    StreamMove s stream t (Stream.note s (.update action) stream) := by
  unfold updateStep at moved
  unfold Stream.note
  split at moved
  case h_1 place | h_2 place =>
    rw [← Option.some.inj moved]
    simp only [place]
    exact quiet_place s stream _ (fun c => by split <;> simp) (by simp [place])
  case h_3 place =>
    simp only [place]
    split at moved
    next empty =>
      rw [← Option.some.inj moved]
      exact quiet_place s stream _ (by simp) (by simp [place])
    next front rest waiting =>
      rw [← Option.some.inj moved]
      exact quiet_update s stream _ s.update rfl rfl rfl (by simp [place]) (by simp [place])
  case h_4 next place =>
    rw [← Option.some.inj moved]
    simp only [place]
    refine quiet_place s stream _ (fun c => ?_) (by simp [place])
    by_cases bound : next < maxChannels
    · simp only [eachChannel_inside next bound]
      split <;> simp
    · simp only [eachChannel_done next bound]
      simp
  case h_5 c place =>
    have state := (s.dock.module c).getNextUpdate_state []
    have name := getNextUpdate_name (s.dock.module c)
    rcases polled : (s.dock.module c).getNextUpdate [] with ⟨m,fresh,update⟩
    rw [polled] at moved state name
    rw [← Option.some.inj moved]
    simp only [place]
    refine quiet_update s stream _ _ rfl rfl (s.dock.table_same c m state name) (fun x => ?_) (by simp [place])
    split <;> simp
  case h_6 c more place | h_9 more place =>
    rw [← Option.some.inj moved]
    exact quiet_place s stream _ (fun c => by split <;> simp) (by simp [place])
  case h_7 c place | h_8 c place =>
    rw [← Option.some.inj moved]
    simp only [place]
    exact quiet_place s stream _ (by simp) (by simp [place])
  case h_10 arrived place =>
    rw [← Option.some.inj moved]
    exact quiet_place s stream _ (by simp) (by simp [place])
  case h_11 line place =>
    simp only [place]
    cases applied : s.dock.applyLine line with
    | error fault => simp [applied] at moved
    | ok changed =>
      rw [applied] at moved
      cases s.dock.applyLine_move line changed applied with
      | informed user name =>
        rw [← Option.some.inj moved]
        exact quiet_update s stream _ _ rfl rfl rfl (by simp) (by simp [place])
      | queued c data =>
        rw [← Option.some.inj moved]
        exact quiet_update s stream _ _ rfl rfl (s.dock.table_same c _ rfl rfl) (by simp) (by simp [place])
      | disconnected c =>
        rw [← Option.some.inj moved]
        exact .changed c _ ⟨rfl,rfl⟩ (fun x => s.dock.table_own c x _) rfl (by simp [place]) rfl
      | connected c name =>
        rw [← Option.some.inj moved]
        exact .changed c _ ⟨rfl,rfl⟩ (fun x => s.dock.table_own c x _) rfl (by simp [place]) rfl
  case h_12 c place =>
    rw [← Option.some.inj moved]
    simp only [place]
    exact .announced c place
  case h_13 place =>
    rw [← Option.some.inj moved]
    exact .flushed place
  case h_14 place =>
    rw [← Option.some.inj moved]
    simp only [place]
    exact quiet_place s stream _ (fun c => by split <;> simp) (by simp [place])
  case h_15 next place =>
    rw [← Option.some.inj moved]
    simp only [place]
    by_cases bound : next < maxChannels
    · simp only [eachChannel_inside next bound]
      split
      next connected =>
        refine quiet_update s stream _ _ rfl rfl ?_ (by simp) (by simp [place])
        exact s.dock.table_same _ _ (FlotillaModule.getNextCommand_state _) (getNextCommand_name _)
      next => exact quiet_place s stream _ (by simp) (by simp [place])
    · simp only [eachChannel_done next bound]
      exact quiet_place s stream _ (by simp) (by simp [place])
  case h_16 => contradiction

theorem getVersionInfo_unannounced (dock : FlotillaDock) (banner : Bool) (input : List Arrival) :
    (dock.getVersionInfo banner input).1.index = dock.index ∧
      (dock.getVersionInfo banner input).1.eventQueue = dock.eventQueue := by
  obtain ⟨_,_,_,_,introduced⟩ := dock.getVersionInfo_introduces banner input
  rw [introduced]
  exact ⟨rfl,rfl⟩

theorem scanStep_stream (s t : Slot) (stream : Stream) (action : ScanAction)
    (moved : s.scanStep action = some t) : StreamMove s stream t (Stream.note s (.scan action) stream) := by
  have quiet (dock : FlotillaDock) (port : PortStatus) (place : ScanPlace)
      (kept : Unannounced s ⟨dock,port,s.update,place⟩) (table : dock.table = s.dock.table)
      (silent : ∀ c, place ≠ .losing c) (before : ∀ c, s.scan ≠ .losing c) :
      StreamMove s stream ⟨dock,port,s.update,place⟩ stream :=
    .quiet _ kept table (fun _ => Iff.rfl) fun c => iff_of_false (silent c) (before c)
  unfold scanStep at moved
  unfold Stream.note
  split at moved
  case h_1 place =>
    rw [← Option.some.inj moved]
    exact quiet _ _ _ ⟨rfl,rfl⟩ rfl (fun c => by split <;> simp) (by simp [place])
  case h_2 place =>
    simp only [place]
    split at moved <;> rw [← Option.some.inj moved]
    · exact quiet _ _ _ ⟨rfl,rfl⟩ rfl (by simp) (by simp [place])
    · exact quiet _ _ _ ⟨rfl,rfl⟩ rfl (by simp) (by simp [place])
  case h_3 next place =>
    rw [← Option.some.inj moved]
    simp only [place]
    by_cases bound : next < maxChannels
    · simp only [eachChannel_inside next bound]
      exact quiet _ _ _ ⟨rfl,rfl⟩ rfl (fun c => by split <;> simp) (by simp [place])
    · simp only [eachChannel_done next bound]
      exact quiet _ _ _ ⟨rfl,rfl⟩ rfl (by simp) (by simp [place])
  case h_4 c place =>
    rw [← Option.some.inj moved]
    simp only [place]
    refine .dropped c _ ⟨rfl,rfl⟩ (fun x => s.dock.table_own c x _) ?_ rfl rfl (by simp [place])
    exact FlotillaDock.table_disconnected _ c (by simp [FlotillaDock.setModule,FlotillaModule.disconnect,
      FlotillaModule.emptyQueue])
  case h_5 c place =>
    simp only [place]
    split at moved
    · contradiction
    · rw [← Option.some.inj moved]
      exact .lost c place
  case h_6 place =>
    split at moved <;> rw [← Option.some.inj moved]
    · exact quiet _ _ _ ⟨rfl,rfl⟩ rfl (by simp) (by simp [place])
    · exact quiet _ _ _ ⟨rfl,rfl⟩ rfl (by simp [place]) (by simp [place])
  case h_7 ok place | h_8 ok place =>
    rw [← Option.some.inj moved]
    exact quiet _ _ _ ⟨rfl,rfl⟩ rfl (fun c => by split <;> simp) (by simp [place])
  case h_9 banner arrived place =>
    have frame := s.dock.getVersionInfo_frame banner arrived
    have kept := getVersionInfo_unannounced s.dock banner arrived
    rcases read : s.dock.getVersionInfo banner arrived with ⟨dock,ok⟩
    rw [read] at moved frame kept
    have module : dock.module = s.dock.module := frame.2
    rw [← Option.some.inj moved]
    refine quiet dock _ _ ⟨kept.1,kept.2⟩ ?_ (fun c => by split <;> simp) (by simp [place])
    funext c
    simp only [FlotillaDock.table,FlotillaDock.event,module]
  case h_10 place | h_11 place | h_12 place =>
    rw [← Option.some.inj moved]
    simp only [place]
    exact quiet _ _ _ ⟨rfl,rfl⟩ rfl (by simp) (by simp [place])
  case h_13 => contradiction

theorem clientStep_stream (s t : Slot) (stream : Stream) (action : ClientAction)
    (moved : s.clientStep action = some t) : StreamMove s stream t stream := by
  cases action with
  | queueCommand command =>
    change (if _ then _ else _) = _ at moved
    split at moved
    · contradiction
    · rw [← Option.some.inj moved]
      exact .quiet _ ⟨rfl,rfl⟩ rfl (fun _ => Iff.rfl) fun _ => Iff.rfl
  | queueUpdate c cmd =>
    rw [← Option.some.inj moved]
    exact .quiet _ ⟨rfl,rfl⟩ (s.dock.table_same c _ rfl rfl) (fun _ => Iff.rfl) fun _ => Iff.rfl

theorem step_stream (s t : Slot) (stream : Stream) (action : Action) (moved : s.step action = some t) :
    StreamMove s stream t (Stream.note s action stream) := by
  cases action with
  | update action => exact updateStep_stream s t stream action moved
  | scan action => exact scanStep_stream s t stream action moved
  | client action => exact clientStep_stream s t stream action moved

/-- A channel is in step with its events, or its last change has still to be announced. -/
def InStep (s : Slot) (messages : List Text) (c : Fin maxChannels) : Prop :=
  s.update = .announcing c ∨ (s.scan = .losing c ∧ s.dock.table c = none) ∨
    view s.dock.index messages c = s.dock.table c

structure Mirrored (s : Slot) (stream : Stream) : Prop where
  flushes : stream.flushed ++ s.dock.eventQueue = stream.pushed
  mirrors : ∀ c, s.InStep stream.pushed c

theorem mirrored_move (s t : Slot) (before after : Stream) (mirrored : s.Mirrored before)
    (move : StreamMove s before t after) : t.Mirrored after := by
  obtain ⟨flushes,mirrors⟩ := mirrored
  have pushed (c x : Fin maxChannels) (kept : view s.dock.index before.pushed x = s.dock.table x ∨ x = c) :
      view s.dock.index (before.pushed ++ [s.dock.moduleEvent c]) x = s.dock.table x := by
    rw [s.dock.moduleEvent_eq c,view_concat]
    by_cases own : x = c
    · subst own
      exact Function.update_self ..
    · exact (Function.update_of_ne own ..).trans (kept.resolve_right own)
  cases move with
  | quiet _ kept table announcing losing =>
    refine ⟨by rw [kept.queue]; exact flushes,fun c => ?_⟩
    unfold InStep at mirrors ⊢
    rw [announcing c,losing c,table,kept.index]
    exact mirrors c
  | changed c _ kept table announces silent scan =>
    refine ⟨by rw [kept.queue]; exact flushes,fun x => ?_⟩
    by_cases own : x = c
    · exact Or.inl (own ▸ announces)
    · unfold InStep
      rw [scan,table x own,kept.index]
      exact (mirrors x).imp_left fun announcing => absurd announcing (silent x)
  | dropped c _ kept table off update loses silent =>
    refine ⟨by rw [kept.queue]; exact flushes,fun x => ?_⟩
    by_cases own : x = c
    · exact Or.inr (Or.inl ⟨own ▸ loses,own ▸ off⟩)
    · unfold InStep
      rw [update,table x own,kept.index]
      exact (mirrors x).imp_right (Or.imp_left fun losing => absurd losing.1 (silent x))
  | announced c announces =>
    refine ⟨by simp only [FlotillaDock.queueModuleEvent,← flushes,List.append_assoc],fun x => ?_⟩
    by_cases own : x = c
    · exact Or.inr (Or.inr (pushed c x (Or.inr own)))
    · rcases mirrors x with announcing | losing | same
      · rw [announces] at announcing
        exact absurd (UpdatePlace.announcing.inj announcing).symm own
      · exact Or.inr (Or.inl losing)
      · exact Or.inr (Or.inr (pushed c x (Or.inl same)))
  | lost c loses =>
    refine ⟨by simp only [FlotillaDock.queueModuleEvent,← flushes,List.append_assoc],fun x => ?_⟩
    by_cases own : x = c
    · exact Or.inr (Or.inr (pushed c x (Or.inr own)))
    · rcases mirrors x with announcing | losing | same
      · exact Or.inl announcing
      · rw [loses] at losing
        exact absurd (ScanPlace.losing.inj losing.1).symm own
      · exact Or.inr (Or.inr (pushed c x (Or.inl same)))
  | flushed away =>
    refine ⟨by simp only [List.append_nil]; exact flushes,fun x => ?_⟩
    rcases mirrors x with announcing | losing | same
    · rw [away] at announcing
      contradiction
    · exact Or.inr (Or.inl losing)
    · exact Or.inr (Or.inr same)

theorem index_move (s t : Slot) (before after : Stream) (move : StreamMove s before t after) :
    t.dock.index = s.dock.index := by
  cases move with
  | quiet _ kept | changed _ _ kept | dropped _ _ kept => exact kept.index
  | announced | lost | flushed => rfl

theorem mirrored_reached (index : Nat) (state : Slot × Stream)
    (reached : (recorded index).Reached (fun _ _ => True) state) :
    state.1.dock.index = index ∧ state.1.Mirrored state.2 := by
  refine System.reached_invariant (recorded index) _
    (fun state => state.1.dock.index = index ∧ state.1.Mirrored state.2) ?_ ?_ state reached
  · exact ⟨rfl,rfl,fun _ => Or.inr (Or.inr rfl)⟩
  · intro (s,before) action (t,after) kept _ moved
    obtain ⟨stepped,noted⟩ := (System.tracked_step_iff ..).mp moved
    have move := step_stream s t before action stepped
    rw [← show after = Stream.note s action before from noted] at move
    exact ⟨(index_move s t before after move).trans kept.1,mirrored_move s t before after kept.2 move⟩

/-- Neither thread is between a change of a module and the push of its event. -/
def Settled (s : Slot) : Prop := (∀ c, s.update ≠ .announcing c) ∧ ∀ c, s.scan ≠ .losing c

instance (s : Slot) : Decidable s.Settled := inferInstanceAs (Decidable (_ ∧ _))

end Slot

/-- In every state that the threads can reach, the flushes have returned the first events
pushed, in order, and the queue holds the rest; once every change is announced, replaying
them all gives the module table. -/
theorem stream_mirrors_table (index : Nat) (state : Slot × Stream)
    (reached : (recorded index).Reached (fun _ _ => True) state) :
    state.2.flushed ++ state.1.dock.eventQueue = state.2.pushed ∧
      (state.1.Settled → view index (state.2.flushed ++ state.1.dock.eventQueue) = state.1.dock.table) := by
  obtain ⟨own,flushes,mirrors⟩ := Slot.mirrored_reached index state reached
  refine ⟨flushes,fun settled => ?_⟩
  funext c
  rw [flushes,← own]
  rcases mirrors c with announcing | losing | same
  · exact absurd announcing (settled.1 c)
  · exact absurd losing.1 (settled.2 c)
  · exact same

section Runs

/-- A dial is found, the events are flushed, and the dock is lost. -/
def dialLost : List Action :=
  attaching ++ listening ++ reading "c 1/dial\n".toList ++ processing ++
    [.update (.waiting false),.update .updateClients] ++ detaching 1

def lostDial : Slot × Stream := ((recorded 0).run (recorded 0).initial dialLost).get (by decide +kernel)

theorem lostDial_reached : (recorded 0).Reached (fun _ _ => True) lostDial := by
  apply System.run_reached _ lostDial dialLost
  rw [lostDial,Option.some_get]

end Runs

theorem stream_mirrors_dial : view 0 (lostDial.2.flushed ++ lostDial.1.dock.eventQueue) = lostDial.1.dock.table := by
  have settled : lostDial.1.Settled := by decide +kernel
  exact (stream_mirrors_table 0 lostDial lostDial_reached).2 settled

end FlotillaDaemon
