import Mathlib
import FlotillaDaemon.Framing
import FlotillaDaemon.LineMoves
import FlotillaDaemon.Machine

/-! One dock slot over time, with its operations as atomic steps: what its ticks write to the
port, and for which port the commands were queued. -/
namespace FlotillaDaemon
open Cpp Retained Framing

namespace FlotillaDock

def updateText (c : Fin maxChannels) (data : Text) : Text :=
  "s ".toList ++ decimal (c.val + 1) ++ " ".toList ++ data

/-- The text of the update that `tick` takes from a channel, if it takes one. -/
def updateItem (dock : FlotillaDock) (c : Fin maxChannels) : Option Text :=
  if (dock.module c).state = .moduleConnected ∧ ((dock.module c).getNextUpdate []).2.1 = true then
    some (updateText c ((dock.module c).getNextUpdate []).2.2)
  else none

def updateItems (dock : FlotillaDock) : List Text := (List.finRange maxChannels).filterMap dock.updateItem

theorem updateItem_same (dock other : FlotillaDock) (c : Fin maxChannels) (same : other.module c = dock.module c) :
    other.updateItem c = dock.updateItem c := by
  unfold updateItem
  rw [same]

theorem writeUpdate_module (dock : FlotillaDock) (port : SerialPort) (c x : Fin maxChannels) (other : x ≠ c) :
    (dock.writeUpdate port c).1.module x = dock.module x := by
  unfold writeUpdate
  split
  · rfl
  · exact Function.update_of_ne other ..

theorem writeUpdate_written (dock : FlotillaDock) (port : SerialPort) (c : Fin maxChannels) :
    (dock.writeUpdate port c).2.written = port.written ++ frames '\r' (dock.updateItem c).toList := by
  unfold writeUpdate updateItem
  by_cases connected : (dock.module c).state = .moduleConnected
  · rw [if_neg (not_not.mpr connected)]
    rcases (dock.module c).getNextUpdate [] with ⟨m,fresh,update⟩
    cases fresh <;> simp [connected,frames,updateText,SerialPort.spBlockingWrite]
  · rw [if_pos connected,if_neg fun polled => connected polled.1]
    simp [frames]

theorem writeCommands_written (dock : FlotillaDock) (port : SerialPort) :
    (dock.writeCommands port).2.written = port.written ++ dock.commandQueue.flatten := by
  have written (commands : List Text) (p : SerialPort) :
      (commands.foldl SerialPort.spBlockingWrite p).written = p.written ++ commands.flatten := by
    induction commands generalizing p with
    | nil => simp
    | cons command rest ih =>
      rw [List.foldl_cons,ih,List.flatten_cons,← List.append_assoc]
      rfl
  exact written dock.commandQueue port

theorem channels_written (dock : FlotillaDock) (channels : List (Fin maxChannels)) (distinct : channels.Nodup)
    (d : FlotillaDock) (port : SerialPort) (same : ∀ c ∈ channels, d.module c = dock.module c) :
    (channels.foldl (fun state channel => writeUpdate state.1 state.2 channel) (d,port)).2.written =
      port.written ++ frames '\r' (channels.filterMap dock.updateItem) := by
  induction channels generalizing d port with
  | nil => exact (List.append_nil _).symm
  | cons c rest ih =>
    obtain ⟨fresh,distinct⟩ := List.nodup_cons.mp distinct
    have kept (x : Fin maxChannels) (member : x ∈ rest) : (d.writeUpdate port c).1.module x = dock.module x :=
      (d.writeUpdate_module port c x fun own => fresh (own ▸ member)).trans (same x (List.mem_cons_of_mem _ member))
    have here := d.writeUpdate_written port c
    rw [updateItem_same dock d c (same c List.mem_cons_self)] at here
    rw [List.foldl_cons,ih distinct _ _ kept,here,List.append_assoc,← frames_append]
    cases taken : dock.updateItem c with
    | none => rw [List.filterMap_cons_none taken,Option.toList_none,List.nil_append]
    | some item => rw [List.filterMap_cons_some taken,Option.toList_some,List.singleton_append]

/-- Each update is taken from the module that its channel had when the tick began. -/
theorem writeUpdates_written (dock : FlotillaDock) (port : SerialPort) :
    (dock.writeUpdates port).2.written = port.written ++ frames '\r' dock.updateItems := by
  rw [writeUpdates,updateItems]
  exact channels_written dock _ (List.nodup_finRange _) dock port fun _ _ => rfl

theorem writeQueues_written (dock : FlotillaDock) (port : SerialPort) :
    (dock.writeQueues port).2.written =
      port.written ++ dock.commandQueue.flatten ++ frames '\r' dock.updateItems := by
  rw [writeQueues,writeUpdates_written,writeCommands_written]
  rfl

/-- A module after `tick` has looked for an update. -/
def polledUpdate (m : FlotillaModule) : FlotillaModule :=
  if m.state = .moduleConnected then (m.getNextUpdate []).1 else m

theorem writeUpdate_dock (dock : FlotillaDock) (port : SerialPort) (c : Fin maxChannels) :
    (dock.writeUpdate port c).1 = dock.setModule c (polledUpdate (dock.module c)) := by
  unfold writeUpdate polledUpdate
  by_cases connected : (dock.module c).state = .moduleConnected
  · rw [if_neg (not_not.mpr connected),if_pos connected]
  · rw [if_pos connected,if_neg connected,setModule,Function.update_eq_self]

theorem channels_polled (channels : List (Fin maxChannels)) (distinct : channels.Nodup) (dock : FlotillaDock)
    (port : SerialPort) :
    (channels.foldl (fun state channel => writeUpdate state.1 state.2 channel) (dock,port)).1 =
      {dock with module := fun c => if c ∈ channels then polledUpdate (dock.module c) else dock.module c} := by
  induction channels generalizing dock port with
  | nil => rfl
  | cons x rest ih =>
    obtain ⟨fresh,distinct⟩ := List.nodup_cons.mp distinct
    rw [List.foldl_cons,ih distinct,writeUpdate_dock]
    simp only [setModule]
    congr 1
    funext c
    by_cases own : c = x
    · subst own
      simp [fresh]
    · simp [own]

/-- A tick writes out the commands and polls each connected module for an update. -/
theorem writeQueues_dock (dock : FlotillaDock) (port : SerialPort) :
    (dock.writeQueues port).1 =
      {dock with commandQueue := [],module := fun c => polledUpdate (dock.module c)} := by
  rw [writeQueues,writeUpdates,channels_polled _ (List.nodup_finRange _)]
  simp [writeCommands]

theorem tick_connected (dock next : FlotillaDock) (port after : SerialPort) (connected : dock.state = .connected)
    (returned : dock.tick port = .ok (next,after)) :
    after.written = (dock.writeQueues port).2.written ∧
      (dock.writeQueues port).1.readInput port.input = .ok (next,after.input) := by
  unfold tick at returned
  rw [if_neg (not_not.mpr connected)] at returned
  have input := dock.writeQueues_input port
  generalize dock.writeQueues port = queues at returned input ⊢
  obtain ⟨mid,filled⟩ := queues
  dsimp only at returned input ⊢
  cases read : mid.readInput filled.input with
  | error fault =>
    rw [read] at returned
    contradiction
  | ok result =>
    rw [read] at returned
    obtain ⟨rfl,rfl⟩ := Prod.mk.inj (Except.ok.inj returned)
    exact ⟨rfl,input ▸ read⟩

theorem tick_state (dock next : FlotillaDock) (port after : SerialPort) (connected : dock.state = .connected)
    (returned : dock.tick port = .ok (next,after)) : next.state = .connected := by
  obtain ⟨_,read⟩ := dock.tick_connected next port after connected returned
  refine readInput_keeps (fun d => d.state = .connected) (fun d changed move up => ?_) _ _ _ _ read ?_
  · exact (d.lineMove_state changed move).trans up
  · rw [writeQueues_dock]
    exact connected

theorem tick_commands (dock next : FlotillaDock) (port after : SerialPort) (connected : dock.state = .connected)
    (returned : dock.tick port = .ok (next,after)) : next.commandQueue = [] := by
  obtain ⟨_,read⟩ := dock.tick_connected next port after connected returned
  refine readInput_keeps (fun d => d.commandQueue = []) (fun d changed move empty => ?_) _ _ _ _ read ?_
  · exact (d.lineMove_commands changed move).trans empty
  · rw [writeQueues_dock]

theorem disconnect_effect (dock : FlotillaDock) :
    dock.disconnect.state = .disconnected ∧ dock.disconnect.commandQueue = dock.commandQueue := by
  have kept (channels : List (Fin maxChannels)) (d : FlotillaDock) :
      (channels.foldl loseModule d).state = d.state ∧ (channels.foldl loseModule d).commandQueue = d.commandQueue := by
    induction channels generalizing d with
    | nil => exact ⟨rfl,rfl⟩
    | cons c rest ih =>
      have here : (d.loseModule c).state = d.state ∧ (d.loseModule c).commandQueue = d.commandQueue := by
        unfold loseModule
        split <;> exact ⟨rfl,rfl⟩
      exact ⟨(ih _).1.trans here.1,(ih _).2.trans here.2⟩
  unfold disconnect
  split
  next off => exact ⟨off,rfl⟩
  next => exact kept _ _

/-- `tick` takes the update at the front of a queue, unless it is the one remembered. -/
theorem updateItem_some_iff (dock : FlotillaDock) (c : Fin maxChannels) (item : Text) :
    dock.updateItem c = some item ↔ (dock.module c).state = .moduleConnected ∧
      ∃ front ∈ (dock.module c).updateQueue.head?,front.val ≠ (dock.module c).lastUpdate ∧
        item = updateText c front.val := by
  unfold updateItem
  rcases (dock.module c).getNextUpdate_cases with ⟨empty,polled⟩ | ⟨front,left,taken,polled⟩
  · simp [polled,empty]
  · have head : (dock.module c).updateQueue.head? = some front := by
      obtain ⟨rest,queue,_⟩ := takeUpdate_some _ _ _ _ taken
      rw [queue]
      rfl
    simp only [polled,head,decide_eq_true_eq,Option.mem_some_iff]
    constructor
    · intro found
      split at found
      next due => exact ⟨due.1,front,rfl,due.2,(Option.some.inj found).symm⟩
      next => contradiction
    · rintro ⟨connected,_,rfl,fresh,rfl⟩
      exact if_pos ⟨connected,fresh⟩

end FlotillaDock

inductive DockCall
  | queueCommand (command : Text)
  | queueUpdate (c : Fin maxChannels) (cmd : Text)
  | tick (arrived : List Arrival)
  deriving DecidableEq

/-- A dock with the bytes that its ticks have written, and the commands and updates that they
have taken from the queues for it. A line that `process_command` fails on ends the daemon. -/
structure Session where
  dock : FlotillaDock
  written : Text
  taken : List Text
  halted : Bool

namespace Session

def start (dock : FlotillaDock) : Session := ⟨dock,[],[],false⟩

def tick (s : Session) (arrived : List Arrival) : Session :=
  let taken := if s.dock.state = .connected then s.taken ++ s.dock.commandQueue ++ s.dock.updateItems else s.taken
  match s.dock.tick ⟨s.written,arrived⟩ with
  | .ok (dock,port) => ⟨dock,port.written,taken,false⟩
  | .error _ => ⟨s.dock,(s.dock.writeQueues ⟨s.written,arrived⟩).2.written,taken,true⟩

def call (s : Session) (call : DockCall) : Session :=
  if s.halted then s
  else
    match call with
    | .queueCommand command => {s with dock := s.dock.queueCommand command}
    | .queueUpdate c cmd => {s with dock := s.dock.setModule c ((s.dock.module c).queueUpdate cmd)}
    | .tick arrived => s.tick arrived

end Session

def dockCalls : Machine Session DockCall Unit := ⟨fun s call => (s.call call,())⟩

namespace Session

/-- Splitting the bytes at the carriage return gives what was taken, and nothing is left over. -/
def Framed (s : Session) : Prop := s.written.splitOn '\r' = s.taken ++ [[]]

/-- A tick finds no command, and no carriage return in an update that it takes. -/
def Terminated (s : Session) : DockCall → Prop
  | .tick _ => s.halted = false → s.dock.commandQueue = [] ∧
      ∀ c, (s.dock.module c).state = .moduleConnected → ∀ front ∈ (s.dock.module c).updateQueue.head?,
        front.val ≠ (s.dock.module c).lastUpdate → '\r' ∉ front.val
  | _ => True

instance (s : Session) : Decidable s.Framed := inferInstanceAs (Decidable (_ = _))

instance (s : Session) (call : DockCall) : Decidable (s.Terminated call) := by
  unfold Terminated
  split <;> infer_instance

/-- The dock stays connected, and no byte is written twice. -/
structure Served (s : Session) : Prop where
  connected : s.dock.state = .connected
  short : s.written.length ≤ (frames '\r' s.taken).length

/-- What a tick does to the stream, whether or not its input fails. -/
structure Ticked (s t : Session) : Prop where
  connected : t.dock.state = .connected
  taken : t.taken = s.taken ++ s.dock.commandQueue ++ s.dock.updateItems
  written : t.written = s.written ++ s.dock.commandQueue.flatten ++ frames '\r' s.dock.updateItems

theorem tick_effect (s : Session) (arrived : List Arrival) (connected : s.dock.state = .connected) :
    Ticked s (s.tick arrived) := by
  have bytes := s.dock.writeQueues_written ⟨s.written,arrived⟩
  dsimp only at bytes
  unfold tick
  simp only [if_pos connected]
  cases returned : s.dock.tick ⟨s.written,arrived⟩ with
  | error fault =>
    refine ⟨connected,rfl,?_⟩
    dsimp only
    exact bytes
  | ok result =>
    obtain ⟨next,port⟩ := result
    obtain ⟨written,_⟩ := s.dock.tick_connected next _ port connected returned
    refine ⟨s.dock.tick_state next _ port connected returned,rfl,?_⟩
    dsimp only
    exact written.trans bytes

theorem tick_drained (s : Session) (arrived : List Arrival) (connected : s.dock.state = .connected)
    (running : (s.tick arrived).halted = false) : (s.tick arrived).dock.commandQueue = [] := by
  unfold tick at running ⊢
  cases returned : s.dock.tick ⟨s.written,arrived⟩ with
  | error fault =>
    rw [returned] at running
    contradiction
  | ok result => exact s.dock.tick_commands result.1 _ result.2 connected returned

theorem tick_off (s : Session) (arrived : List Arrival) (off : s.dock.state ≠ .connected) :
    (s.tick arrived).dock = s.dock := by
  unfold tick
  rw [FlotillaDock.tick,if_pos off]

theorem updateText_free (c : Fin maxChannels) (data : Text) :
    '\r' ∉ FlotillaDock.updateText c data ↔ '\r' ∉ data := by
  have marked : '\r' ∉ "s ".toList ++ decimal (c.val + 1) ++ " ".toList := by
    revert c
    decide
  rw [FlotillaDock.updateText,List.mem_append]
  exact not_congr (or_iff_right marked)

theorem updateItems_free (dock : FlotillaDock) : (∀ item ∈ dock.updateItems,'\r' ∉ item) ↔
    ∀ c, (dock.module c).state = .moduleConnected → ∀ front ∈ (dock.module c).updateQueue.head?,
      front.val ≠ (dock.module c).lastUpdate → '\r' ∉ front.val := by
  constructor
  · intro free c connected front head fresh
    apply (updateText_free c front.val).mp
    apply free
    apply List.mem_filterMap.mpr
    exact ⟨c,List.mem_finRange c,(dock.updateItem_some_iff c _).mpr ⟨connected,front,head,fresh,rfl⟩⟩
  · intro free item member
    obtain ⟨c,_,found⟩ := List.mem_filterMap.mp member
    obtain ⟨connected,front,head,fresh,rfl⟩ := (dock.updateItem_some_iff c item).mp found
    exact (updateText_free c front.val).mpr (free c connected front head fresh)

/-- A tick that finds commands leaves the stream shorter than the frames of what was taken. -/
theorem tick_framed_iff (s : Session) (arrived : List Arrival) (served : s.Served) (running : s.halted = false) :
    (s.tick arrived).Framed ↔ s.Framed ∧ s.Terminated (.tick arrived) := by
  have ticked := s.tick_effect arrived served.connected
  unfold Framed
  rw [splitOn_eq_iff,splitOn_eq_iff,ticked.taken,ticked.written,frames_append,frames_append]
  simp only [Terminated,running,true_implies,← updateItems_free,List.append_cancel_right_eq]
  constructor
  · rintro ⟨bytes,free⟩
    have size := congrArg List.length bytes
    rw [List.length_append,List.length_append,frames_length '\r' s.dock.commandQueue] at size
    have short := served.short
    have empty : s.dock.commandQueue = [] := List.eq_nil_of_length_eq_zero (by omega)
    rw [empty] at bytes free
    rw [List.append_nil] at free
    obtain ⟨before,now⟩ := List.forall_mem_append.mp free
    exact ⟨⟨by simpa [frames] using bytes,before⟩,empty,now⟩
  · rintro ⟨⟨bytes,before⟩,empty,now⟩
    rw [empty,bytes,List.append_nil]
    exact ⟨by simp [frames],List.forall_mem_append.mpr ⟨before,now⟩⟩

theorem call_served (s : Session) (call : DockCall) (served : s.Served) : (s.call call).Served := by
  unfold Session.call
  split
  · exact served
  · cases call with
    | queueCommand command => exact ⟨served.connected,served.short⟩
    | queueUpdate c cmd => exact ⟨served.connected,served.short⟩
    | tick arrived =>
      have ticked := s.tick_effect arrived served.connected
      refine ⟨ticked.connected,?_⟩
      have short := served.short
      rw [ticked.taken,ticked.written,frames_append,frames_append]
      simp only [List.length_append,frames_length] at short ⊢
      omega

theorem call_framed_iff (s : Session) (call : DockCall) (served : s.Served) :
    (s.call call).Framed ↔ s.Framed ∧ s.Terminated call := by
  unfold Session.call
  split
  next halted =>
    refine (and_iff_left ?_).symm
    cases call with
    | tick arrived => exact fun running => absurd running (by simp [halted])
    | queueCommand command => trivial
    | queueUpdate c cmd => trivial
  next running =>
    cases call with
    | tick arrived => exact s.tick_framed_iff arrived served (Bool.eq_false_iff.mpr running)
    | queueCommand command => exact (and_iff_left trivial).symm
    | queueUpdate c cmd => exact (and_iff_left trivial).symm

end Session

/-- The stream of a connected dock is framed exactly when no tick finds a command, and none
takes an update with a carriage return. -/
theorem framed_iff (dock : FlotillaDock) (connected : dock.state = .connected) (calls : List DockCall) :
    (dockCalls.run (.start dock) calls).Framed ↔ dockCalls.Along Session.Terminated (.start dock) calls := by
  have served : (Session.start dock).Served := ⟨connected,Nat.le_refl _⟩
  have along := dockCalls.good_iff_along Session.Served Session.Framed Session.Terminated
    (fun s call => s.call_served call) (fun s call => s.call_framed_iff call) (.start dock) served calls
  exact along.trans (and_iff_right rfl)

section Runs

def connectedDock : FlotillaDock := {FlotillaDock.new 0 with state := .connected}

def dialUpdated : List DockCall :=
  [.tick ("c 1/dial\n".toList.map .byte),.queueUpdate 0 "50".toList,.tick []]

end Runs

theorem framed_iff_dial : (dockCalls.run (.start connectedDock) dialUpdated).Framed ↔
    dockCalls.Along Session.Terminated (.start connectedDock) dialUpdated :=
  framed_iff connectedDock rfl dialUpdated

theorem framed_fails_commands :
    ¬ ∀ (dock : FlotillaDock), dock.state = .connected → ∀ calls : List DockCall,
      (dockCalls.run (.start dock) calls).Framed := by
  intro framed
  exact absurd (framed connectedDock rfl [.queueCommand "n u a".toList,.queueCommand "n".toList,.tick []])
    (by decide +kernel)

inductive SlotCall
  | call (call : DockCall)
  | disconnect
  | setPort (copied opened banner : Bool) (arrived : List Arrival)
  deriving DecidableEq

/-- A slot with the commands that were queued while its present port was attached, or its last
one if there is none, and those that ticks have written to that port. -/
structure Attachment where
  session : Session
  queued : List Text
  sent : List Text

namespace Attachment

def attached (a : Attachment) : Bool := a.session.dock.state = .connected

def withDock (a : Attachment) (dock : FlotillaDock) : Attachment := {a with session := {a.session with dock := dock}}

def queuedAfter (a : Attachment) : DockCall → List Text
  | .queueCommand command => if a.attached then a.queued ++ [command] else a.queued
  | _ => a.queued

def sentAfter (a : Attachment) : DockCall → List Text
  | .tick _ => if a.attached then a.sent ++ a.session.dock.commandQueue else a.sent
  | _ => a.sent

def call (a : Attachment) (call : SlotCall) : Attachment :=
  if a.session.halted then a
  else
    match call with
    | .call call => ⟨a.session.call call,a.queuedAfter call,a.sentAfter call⟩
    | .disconnect => a.withDock a.session.dock.disconnect
    | .setPort copied opened banner arrived =>
      let (dock,ok) := a.session.dock.setPort copied opened banner arrived
      if ok then ⟨.start dock,[],[]⟩ else a.withDock dock

end Attachment

def slotCalls : Machine Attachment SlotCall Unit := ⟨fun a call => (a.call call,())⟩

namespace Attachment

def new (index : Nat) : Attachment := ⟨.start (.new index),[],[]⟩

/-- The commands written to the port are the first of those queued while it was attached. -/
def Confined (a : Attachment) : Prop := a.sent <+: a.queued

/-- A port is attached while no command waits. -/
def EmptyHanded (a : Attachment) : SlotCall → Prop
  | .setPort copied opened banner arrived =>
    (a.session.dock.setPort copied opened banner arrived).2 = true → a.session.dock.commandQueue = []
  | _ => True

instance (a : Attachment) : Decidable a.Confined := inferInstanceAs (Decidable (_ <+: _))

instance (a : Attachment) (call : SlotCall) : Decidable (a.EmptyHanded call) := by
  unfold EmptyHanded
  split <;> infer_instance

structure Kept (a : Attachment) : Prop where
  confined : a.Confined
  waiting : a.session.halted = false → a.session.dock.state = .connected →
    a.sent ++ a.session.dock.commandQueue = a.queued

theorem tick_kept (a : Attachment) (arrived : List Arrival) (kept : a.Kept) (running : a.session.halted = false) :
    Kept ⟨a.session.tick arrived,a.queued,a.sentAfter (.tick arrived)⟩ := by
  unfold sentAfter attached
  by_cases up : a.session.dock.state = .connected
  · simp only [up,decide_true,if_true]
    have same := kept.waiting running up
    refine ⟨⟨[],(List.append_nil _).trans same⟩,fun still on => ?_⟩
    have drained := a.session.tick_drained arrived up still
    rw [drained,List.append_nil]
    exact same
  · simp only [up,decide_false,Bool.false_eq_true,if_false]
    refine ⟨kept.confined,fun _ on => absurd on ?_⟩
    rw [a.session.tick_off arrived up]
    exact up

theorem call_kept (a : Attachment) (call : SlotCall) (kept : a.Kept) (empty : a.EmptyHanded call) :
    (a.call call).Kept := by
  unfold Attachment.call
  split
  · exact kept
  next halted =>
    have running := Bool.eq_false_iff.mpr halted
    cases call with
    | call call =>
      dsimp only
      unfold Session.call
      rw [if_neg halted]
      cases call with
      | tick arrived => exact a.tick_kept arrived kept running
      | queueUpdate c cmd => exact ⟨kept.confined,kept.waiting⟩
      | queueCommand command =>
        unfold queuedAfter attached
        by_cases up : a.session.dock.state = .connected
        · simp only [up,decide_true,if_true]
          refine ⟨kept.confined.trans (List.prefix_append _ _),fun _ _ => ?_⟩
          rw [← kept.waiting running up,List.append_assoc]
          rfl
        · simp only [up,decide_false,Bool.false_eq_true,if_false]
          exact ⟨kept.confined,fun _ on => absurd on up⟩
    | disconnect =>
      refine ⟨kept.confined,fun _ on => ?_⟩
      have off := a.session.dock.disconnect_effect.1
      exact absurd (off.symm.trans on) (by decide)
    | setPort copied opened banner arrived =>
      obtain ⟨dock,ok,set,_,introduced⟩ := a.session.dock.setPort_effect copied opened banner arrived
      obtain ⟨_,_,_,_,rfl⟩ := introduced
      simp only [EmptyHanded,set] at empty ⊢
      cases ok with
      | true => exact ⟨List.nil_prefix,fun _ _ => empty rfl⟩
      | false => exact ⟨kept.confined,kept.waiting⟩

end Attachment

/-- The commands that ticks write to a port are the first of those queued while it was
attached, in every run in which each port is attached while no command waits. -/
theorem commands_confined (index : Nat) (calls : List SlotCall)
    (along : slotCalls.Along Attachment.EmptyHanded (.new index) calls) :
    (slotCalls.run (.new index) calls).Confined := by
  have start : (Attachment.new index).Kept := ⟨List.nil_prefix,fun _ up => by contradiction⟩
  have kept := slotCalls.along_invariant Attachment.Kept Attachment.EmptyHanded
    (fun a call kept empty => a.call_kept call kept empty) (.new index) start calls along
  exact kept.confined

section Runs

def attach : SlotCall :=
  .setPort true true true
    ("# Version: 1.0\n# Serial: 0123456789012345678901\n# User: a\n# Dock: b\n".toList.map .byte)

/-- A command that is queued for one dock is still waiting when the next one is attached. -/
def queuedBefore : List SlotCall := [attach,.call (.queueCommand "n".toList),.disconnect,attach,.call (.tick [])]

end Runs

theorem commands_confined_attached : (slotCalls.run (.new 0)
    [attach,.call (.queueCommand "n".toList),.call (.tick []),.disconnect,attach]).Confined :=
  commands_confined 0 _ (by decide +kernel)

theorem commands_leak_queued : ¬ ∀ (index : Nat) (calls : List SlotCall),
    (slotCalls.run (.new index) calls).Confined := by
  intro confined
  exact absurd (confined 0 queuedBefore) (by decide +kernel)

end FlotillaDaemon
