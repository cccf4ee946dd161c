import FlotillaDaemon.Attachment
import FlotillaDaemon.ThreadRuns

/-! The threads where they do not meet. If no thread takes a step at a dock while another one is
there, the docks that the threads leave at rest are those that whole ticks, passes, `disconnect`,
`set_port` and messages make, one after the other, and no others. -/
namespace FlotillaDaemon
open Cpp

theorem spReadline_plain (input : List Arrival) : ∀ c ∈ (spReadline input).1, c ≠ '\n' ∧ c ≠ '\r' := by
  induction input with
  | nil => simp [spReadline]
  | cons arrival rest ih =>
    cases arrival with
    | timeout => simp [spReadline]
    | byte c =>
      unfold spReadline
      by_cases ends : c = '\n'
      · simp [ends]
      · rw [if_neg ends]
        by_cases returned : c = '\r'
        · simpa [returned] using ih
        · simpa [returned,ends] using ih

namespace FlotillaDock

/-- An operation on a dock, from its beginning to its end. -/
inductive Operation (dock : FlotillaDock) : FlotillaDock → Prop
  | tick (next : FlotillaDock) (port after : SerialPort) (returned : dock.tick port = .ok (next,after)) : Operation dock next
  | pass : Operation dock dock.afterPass
  | disconnect : Operation dock dock.disconnect
  | setPort (copied opened banner : Bool) (arrived : List Arrival) :
      Operation dock (dock.setPort copied opened banner arrived).1
  | queueCommand (command : Text) : Operation dock (dock.queueCommand command)
  | queueUpdate (c : Fin maxChannels) (cmd : Text) :
      Operation dock (dock.setModule c ((dock.module c).queueUpdate cmd))

/-- What the loop of `tick` over its input can make of the dock. -/
def ReadsTo (dock final : FlotillaDock) : Prop := ∃ arrived left, dock.readInput arrived = .ok (final,left)

theorem readsTo_line (dock next final : FlotillaDock) (arrived : List Arrival)
    (processed : dock.processCommand (spReadline arrived).1 = .ok next) (reads : next.ReadsTo final) :
    dock.ReadsTo final := by
  obtain ⟨later,left,read⟩ := reads
  have plain := spReadline_plain arrived
  obtain ⟨line,_⟩ := spReadline_raw (spReadline arrived).1 later fun inside => (plain _ inside).1 rfl
  have same : printed (spReadline arrived).1 = (spReadline arrived).1 :=
    List.filter_eq_self.mpr fun c inside => decide_eq_true (plain c inside).2
  have waiting : spInputWaiting (((spReadline arrived).1 ++ ['\n']).map .byte ++ later) = true := by
    cases (spReadline arrived).1 <;> rfl
  refine ⟨((spReadline arrived).1 ++ ['\n']).map .byte ++ later,left,?_⟩
  rw [readInput,dif_pos waiting,line,same]
  dsimp only
  rw [processed]
  exact read

theorem readsTo_end (dock : FlotillaDock) : dock.ReadsTo dock := ⟨[],[],by rw [readInput]; rfl⟩

/-- What `tick` still does for the updates from a channel on. -/
def writesFrom (dock : FlotillaDock) (next : Nat) : FlotillaDock :=
  ((List.finRange maxChannels).drop next).foldl (fun dock c => dock.setModule c (polledUpdate (dock.module c))) dock

theorem writesFrom_next (dock : FlotillaDock) (c : Fin maxChannels) :
    dock.writesFrom c.val = (dock.setModule c (polledUpdate (dock.module c))).writesFrom (c.val + 1) :=
  channels_next _ dock c

theorem setModule_kept (dock : FlotillaDock) (c : Fin maxChannels) : dock.setModule c (dock.module c) = dock := by
  rw [setModule,Function.update_eq_self]

theorem writesFrom_start (dock : FlotillaDock) (port : SerialPort) : (dock.writeQueues port).1 =
    writesFrom {dock with commandQueue := []} 0 := by
  have rounds (channels : List (Fin maxChannels)) (dock : FlotillaDock) (port : SerialPort) :
      (channels.foldl (fun state channel => writeUpdate state.1 state.2 channel) (dock,port)).1 =
        channels.foldl (fun dock c => dock.setModule c (polledUpdate (dock.module c))) dock := by
    induction channels generalizing dock port with
    | nil => rfl
    | cons c rest ih =>
      rw [List.foldl_cons,List.foldl_cons,← writeUpdate_dock dock port c]
      exact ih _ _
  exact rounds _ _ _

theorem writesFrom_connected (dock : FlotillaDock) (c : Fin maxChannels) (connected : (dock.module c).state = .moduleConnected) :
    dock.writesFrom c.val = (dock.setModule c ((dock.module c).getNextUpdate []).1).writesFrom (c.val + 1) := by
  rw [writesFrom_next,polledUpdate,if_pos connected]

theorem writesFrom_lost (dock : FlotillaDock) (c : Fin maxChannels) (lost : (dock.module c).state ≠ .moduleConnected) :
    dock.writesFrom c.val = dock.writesFrom (c.val + 1) := by
  rw [writesFrom_next,polledUpdate,if_neg lost,setModule_kept]

theorem pollsFrom_connected (dock : FlotillaDock) (c : Fin maxChannels) (connected : (dock.module c).state = .moduleConnected) :
    dock.pollsFrom c.val = (dock.setModule c (dock.module c).getNextCommand.1).pollsFrom (c.val + 1) := by
  rw [pollsFrom_next,polledCommand,if_pos connected]

theorem pollsFrom_lost (dock : FlotillaDock) (c : Fin maxChannels) (lost : (dock.module c).state ≠ .moduleConnected) :
    dock.pollsFrom c.val = dock.pollsFrom (c.val + 1) := by
  rw [pollsFrom_next,polledCommand,if_neg lost,setModule_kept]

/-- Whatever the loop over the input can make of the dock once the queues are written, some `tick` does. -/
theorem tick_of_reads (dock final : FlotillaDock) (connected : dock.state = .connected)
    (reads : (writesFrom {dock with commandQueue := []} 0).ReadsTo final) :
    ∃ port after, dock.tick port = .ok (final,after) := by
  obtain ⟨arrived,left,read⟩ := reads
  refine ⟨⟨[],arrived⟩,⟨(dock.writeQueues ⟨[],arrived⟩).2.written,left⟩,?_⟩
  rw [tick,if_neg (not_not.mpr connected)]
  dsimp only
  rw [writeQueues_input,dock.writesFrom_start ⟨[],arrived⟩,read]

/-- What `set_port` makes of a dock that is being connected. -/
def dialled (dock : FlotillaDock) (copied opened banner : Bool) (arrived : List Arrival) : FlotillaDock :=
  if copied && opened then
    {(dock.getVersionInfo banner arrived).1 with
      state := if (dock.getVersionInfo banner arrived).2 then .connected else .disconnected}
  else {dock with state := .disconnected}

theorem dialled_setPort (dock : FlotillaDock) (off : dock.state = .disconnected) (copied opened banner : Bool)
    (arrived : List Arrival) : dialled {dock with state := .connecting} copied opened banner arrived =
      (dock.setPort copied opened banner arrived).1 := by
  unfold dialled setPort
  rw [if_neg (not_not.mpr off)]
  split <;> rfl

end FlotillaDock

namespace Slot

/-- What the operation in progress can still make of the dock if it goes on alone. -/
def Completes (s : Slot) (final : FlotillaDock) : Prop :=
  match s.scan with
  | .idle =>
    match s.update with
    | .away => final = s.dock
    | .called => ∃ port after, s.dock.tick port = .ok (final,after)
    | .writing => (FlotillaDock.writesFrom {s.dock with commandQueue := []} 0).ReadsTo final
    | .channel next => (s.dock.writesFrom next).ReadsTo final
    | .polling c =>
      ((s.dock.setModule c ((s.dock.module c).getNextUpdate []).1).writesFrom (c.val + 1)).ReadsTo final
    | .draining c | .sending c | .ending c => (s.dock.writesFrom (c.val + 1)).ReadsTo final
    | .input => s.dock.ReadsTo final
    | .reading => ∃ arrived next, s.dock.processCommand (spReadline arrived).1 = .ok next ∧ next.ReadsTo final
    | .processing line => ∃ next, s.dock.processCommand line = .ok next ∧ next.ReadsTo final
    | .announcing c => (s.dock.queueModuleEvent c).ReadsTo final
    | .flushed => final = if s.dock.state = .connected then s.dock.getPendingCommands.1 else s.dock
    | .serving next => final = s.dock.pollsFrom next
  | .leaving | .sweeping _ | .dropping _ | .losing _ => final = s.completed.dock
  | .copying => ∃ copied opened banner arrived, final = s.dock.dialled copied opened banner arrived
  | .opening => ∃ opened banner arrived, final = s.dock.dialled true opened banner arrived
  | .shaking => ∃ banner arrived, final = s.dock.dialled true true banner arrived
  | .failing => final = {s.dock with state := .disconnected}
  | .accepting => final = {s.dock with state := .connected}
  | .enumerating => final = s.dock

theorem update_completes (s t : Slot) (idle : s.scan = .idle) (inside : s.update ≠ .away) (action : UpdateAction)
    (moved : s.updateStep action = some t) (final : FlotillaDock) (completes : t.Completes final) : s.Completes final := by
  unfold updateStep at moved
  unfold Completes
  rw [idle]
  split at moved
  case h_1 place | h_13 place => exact absurd place inside
  case h_2 place =>
    obtain rfl := Option.some.inj moved
    simp only [Completes,idle] at completes
    rw [place]
    by_cases connected : s.dock.state = .connected
    · simp only [if_pos connected] at completes
      exact s.dock.tick_of_reads final connected completes
    · simp only [if_neg connected] at completes
      rw [completes]
      exact ⟨⟨[],[]⟩,⟨[],[]⟩,by rw [FlotillaDock.tick,if_pos connected]⟩
  case h_3 place =>
    split at moved
    next empty =>
      obtain rfl := Option.some.inj moved
      simp only [Completes,idle] at completes
      rw [place]
      have drained : {s.dock with commandQueue := []} = s.dock := by rw [← empty]
      dsimp only
      rw [drained]
      exact completes
    next =>
      obtain rfl := Option.some.inj moved
      simp only [Completes,idle,place] at completes
      rw [place]
      exact completes
  case h_4 next place =>
    obtain rfl := Option.some.inj moved
    rw [place]
    dsimp only
    by_cases bound : next < maxChannels
    · simp only [Completes,idle,eachChannel_inside next bound] at completes
      by_cases connected : s.moduleConnected ⟨next,bound⟩ = true
      · rw [s.dock.writesFrom_connected ⟨next,bound⟩ (of_decide_eq_true connected)]
        simp only [if_pos connected] at completes
        exact completes
      · rw [s.dock.writesFrom_lost ⟨next,bound⟩ fun up => connected (decide_eq_true up)]
        simp only [if_neg connected] at completes
        exact completes
    · simp only [Completes,idle,eachChannel_done next bound] at completes
      rw [FlotillaDock.writesFrom,FlotillaDock.channels_done _ _ _ bound]
      exact completes
  case h_5 c place =>
    rcases polled : (s.dock.module c).getNextUpdate [] with ⟨m,fresh,text⟩
    rw [polled] at moved
    obtain rfl := Option.some.inj moved
    rw [place]
    dsimp only
    rw [polled]
    cases fresh with
    | true =>
      simp only [Completes,idle,if_true] at completes
      exact completes
    | false =>
      simp only [Completes,idle,Bool.false_eq_true,if_false] at completes
      exact completes
  case h_6 c more place =>
    obtain rfl := Option.some.inj moved
    rw [place]
    cases more with
    | true =>
      simp only [Completes,idle,if_true] at completes
      exact completes
    | false =>
      simp only [Completes,idle,Bool.false_eq_true,if_false] at completes
      exact completes
  case h_7 c place | h_8 c place | h_12 c place =>
    obtain rfl := Option.some.inj moved
    simp only [Completes,idle] at completes
    rw [place]
    exact completes
  case h_9 more place =>
    obtain rfl := Option.some.inj moved
    rw [place]
    cases more with
    | true =>
      simp only [Completes,idle,if_true] at completes
      obtain ⟨arrived,next,processed,reads⟩ := completes
      exact s.dock.readsTo_line next final arrived processed reads
    | false =>
      simp only [Completes,idle,Bool.false_eq_true,if_false] at completes
      rw [completes]
      exact s.dock.readsTo_end
  case h_10 arrived place =>
    obtain rfl := Option.some.inj moved
    simp only [Completes,idle] at completes
    rw [place]
    exact ⟨arrived,completes⟩
  case h_11 line place =>
    rw [place]
    have processed := s.dock.applyLine_announce line
    split at moved
    next dock c applied =>
      obtain rfl := Option.some.inj moved
      simp only [Completes,idle] at completes
      rw [applied] at processed
      exact ⟨_,processed.symm,completes⟩
    next dock applied =>
      obtain rfl := Option.some.inj moved
      simp only [Completes,idle] at completes
      rw [applied] at processed
      exact ⟨_,processed.symm,completes⟩
    next => contradiction
  case h_14 place =>
    obtain rfl := Option.some.inj moved
    rw [place]
    by_cases connected : s.dock.state = .connected
    · simp only [Completes,idle,if_pos connected] at completes
      rw [if_pos connected,FlotillaDock.pollsFrom_start]
      exact completes
    · simp only [Completes,idle,if_neg connected] at completes
      rw [if_neg connected]
      exact completes
  case h_15 next place =>
    obtain rfl := Option.some.inj moved
    rw [place]
    by_cases bound : next < maxChannels
    · simp only [Completes,idle,eachChannel_inside next bound] at completes
      by_cases connected : s.moduleConnected ⟨next,bound⟩ = true
      · rw [if_pos connected] at completes
        exact completes.trans (s.dock.pollsFrom_connected ⟨next,bound⟩ (of_decide_eq_true connected)).symm
      · rw [if_neg connected] at completes
        exact completes.trans (s.dock.pollsFrom_lost ⟨next,bound⟩ fun up => connected (decide_eq_true up)).symm
    · simp only [Completes,idle,eachChannel_done next bound] at completes
      exact completes.trans (FlotillaDock.channels_done _ _ _ bound).symm
  case h_16 => contradiction

theorem tearing_completes (s t : Slot) (tears : s.scan.disconnects = true) (away : s.update = .away)
    (moved : s.scanStep .proceed = some t) (final : FlotillaDock) (completes : t.Completes final) :
    final = s.completed.dock := by
  have move := scanStep_move s t _ moved
  rw [← completed_step s t tears moved]
  unfold Completes at completes
  rcases s.scanMove_disconnects t tears move with inside | idle
  · cases place : t.scan with
    | leaving | sweeping _ | dropping _ | losing _ =>
      rw [place] at completes
      exact completes
    | idle | copying | opening | shaking | failing | accepting | enumerating =>
      rw [place] at inside
      contradiction
  · rw [idle,(scanMove_update s t move).trans away] at completes
    rw [completed,idle]
    exact completes

theorem scan_completes (s t : Slot) (inside : s.scan ≠ .idle) (away : s.update = .away) (action : ScanAction)
    (moved : s.scanStep action = some t) (final : FlotillaDock) (completes : t.Completes final) : s.Completes final := by
  have stepped := moved
  unfold scanStep at moved
  unfold Completes
  split at moved
  case h_1 place | h_6 place => exact absurd place inside
  case h_2 place | h_3 next place | h_4 c place | h_5 c place =>
    rw [place]
    exact tearing_completes s t (by rw [place]; rfl) away stepped final completes
  case h_7 ok place =>
    obtain rfl := Option.some.inj moved
    rw [place]
    cases ok with
    | true =>
      obtain ⟨opened,banner,arrived,rfl⟩ := completes
      exact ⟨true,opened,banner,arrived,rfl⟩
    | false => exact ⟨false,false,false,[],completes⟩
  case h_8 ok place =>
    obtain rfl := Option.some.inj moved
    rw [place]
    cases ok with
    | true =>
      obtain ⟨banner,arrived,rfl⟩ := completes
      exact ⟨true,banner,arrived,rfl⟩
    | false => exact ⟨false,false,[],completes⟩
  case h_9 banner arrived place =>
    rcases read : s.dock.getVersionInfo banner arrived with ⟨dock,ok⟩
    rw [read] at moved
    obtain rfl := Option.some.inj moved
    rw [place]
    refine ⟨banner,arrived,?_⟩
    unfold FlotillaDock.dialled
    rw [read]
    cases ok with
    | true => exact completes
    | false => exact completes
  case h_10 place =>
    obtain rfl := Option.some.inj moved
    simp only [Completes,away,setState] at completes
    rw [place]
    exact completes
  case h_11 place =>
    obtain rfl := Option.some.inj moved
    rw [place]
    exact completes
  case h_12 place =>
    obtain rfl := Option.some.inj moved
    simp only [Completes,away] at completes
    rw [place]
    exact completes
  case h_13 => contradiction

/-- Where a step begins an operation, or a message queues, there is an operation for each way in which
it can end. -/
theorem begins (s t : Slot) (rests : s.Rests s.dock) (action : Action) (moved : s.step action = some t)
    (final : FlotillaDock) (completes : t.Completes final) : final = s.dock ∨ s.dock.Operation final := by
  have idle := rests.scan
  have away := rests.update
  cases action with
  | update action =>
    change s.updateStep action = some t at moved
    unfold updateStep at moved
    rw [away] at moved
    split at moved
    case h_1 =>
      obtain rfl := Option.some.inj moved
      by_cases connected : s.dock.state = .connected
      · simp only [Completes,idle,if_pos connected] at completes
        obtain ⟨port,after,returned⟩ := completes
        exact .inr (.tick _ port after returned)
      · simp only [Completes,idle,if_neg connected] at completes
        exact .inl completes
    case h_13 =>
      obtain rfl := Option.some.inj moved
      simp only [Completes,idle] at completes
      have passed : final = s.dock.afterPass := completes.trans s.dock.afterPass_eq.symm
      rw [passed]
      exact .inr .pass
    all_goals contradiction
  | scan action =>
    change s.scanStep action = some t at moved
    unfold scanStep at moved
    rw [idle] at moved
    split at moved
    case h_1 =>
      obtain rfl := Option.some.inj moved
      by_cases gone : s.port = .absent ∨ s.dock.state = .disconnected
      · simp only [Completes,if_pos gone,away] at completes
        exact .inl completes
      · simp only [Completes,if_neg gone] at completes
        have closed : final = s.dock.disconnect := completes.trans (closed_dock {s with scan := .leaving})
        rw [closed]
        exact .inr .disconnect
    case h_6 =>
      split at moved
      next off =>
        obtain rfl := Option.some.inj moved
        obtain ⟨copied,opened,banner,arrived,rfl⟩ := completes
        have set : (s.setState .connecting).dock.dialled copied opened banner arrived = _ :=
          s.dock.dialled_setPort off copied opened banner arrived
        rw [set]
        exact .inr (.setPort copied opened banner arrived)
      next =>
        obtain rfl := Option.some.inj moved
        simp only [Completes,idle,away] at completes
        exact .inl completes
    all_goals contradiction
  | client action =>
    change s.clientStep action = some t at moved
    cases action with
    | queueCommand command =>
      change (if _ then _ else _) = _ at moved
      rw [away,if_neg (by simp)] at moved
      obtain rfl := Option.some.inj moved
      simp only [Completes,idle] at completes
      rw [completes]
      exact .inr (.queueCommand command)
    | queueUpdate c cmd =>
      obtain rfl := Option.some.inj moved
      simp only [Completes,idle,away] at completes
      rw [completes]
      exact .inr (.queueUpdate c cmd)

theorem rests_completes (s : Slot) (rests : s.Rests s.dock) : s.Completes s.dock := by
  unfold Completes
  rw [rests.scan,rests.update]

/-- Only one thread is at the slot, and each way in which its operation can end is a run of operations. -/
structure Serial (index : Nat) (s : Slot) : Prop where
  single : s.scan = .idle ∨ s.update = .away
  ends : ∀ final, s.Completes final → Relation.ReflTransGen FlotillaDock.Operation (.new index) final

theorem serial_step (index : Nat) (s t : Slot) (action : Action) (serial : s.Serial index) (alone : s.Alone action)
    (moved : s.step action = some t) : t.Serial index := by
  have single : t.scan = .idle ∨ t.update = .away := by
    cases action with
    | update action => exact .inl ((updateStep_effect s t action moved).scan.trans alone)
    | scan action => exact .inr ((scanMove_update s t (scanStep_move s t action moved)).trans alone)
    | client action => exact .inl ((clientStep_effect s t action moved).scan.trans alone.2)
  refine ⟨single,fun final completes => ?_⟩
  by_cases quiet : s.scan = .idle ∧ s.update = .away
  · have rests : s.Rests s.dock := ⟨rfl,quiet.2,quiet.1⟩
    have earlier := serial.ends s.dock (s.rests_completes rests)
    rcases s.begins t rests action moved final completes with rfl | operation
    · exact earlier
    · exact earlier.tail operation
  · cases action with
    | update action =>
      exact serial.ends final (s.update_completes t alone (fun away => quiet ⟨alone,away⟩) action moved final completes)
    | scan action =>
      exact serial.ends final (s.scan_completes t (fun idle => quiet ⟨idle,alone⟩) alone action moved final completes)
    | client action => exact absurd ⟨alone.2,alone.1⟩ quiet

theorem serial_reached (index : Nat) (s : Slot) (reached : (slotSystem index).Reached Alone s) : s.Serial index :=
  System.reached_invariant (slotSystem index) Alone (Serial index)
    ⟨.inl rfl,fun _ completes => completes ▸ .refl⟩
    (fun s action t serial alone moved => s.serial_step index t action serial alone moved) s reached

theorem operation_leads (index : Nat) (s : Slot) (agrees : s.Agrees) (rests : s.Rests s.dock) (next : FlotillaDock)
    (operation : s.dock.Operation next) : ∃ t, (slotSystem index).Leads Alone s t ∧ t.Rests next := by
  cases operation with
  | tick _ port after returned => exact ⟨_,s.tick_leads rests next port after returned,rfl,rfl,rests.scan⟩
  | pass => exact ⟨_,s.pass_leads rests,rfl,rfl,rests.scan⟩
  | disconnect => exact ⟨_,s.closed_leads rests agrees,s.closed_rests rests⟩
  | setPort copied opened banner arrived => exact s.setPort_leads rests copied opened banner arrived
  | queueCommand command => exact ⟨_,s.command_leads rests command,rfl,rests.update,rests.scan⟩
  | queueUpdate c cmd =>
    exact ⟨_,s.leads_step _ (.client (.queueUpdate c cmd)) ⟨rests.update,rests.scan⟩ rfl,rfl,rests.update,rests.scan⟩

theorem operations_lead (index : Nat) (dock : FlotillaDock)
    (operations : Relation.ReflTransGen FlotillaDock.Operation (.new index) dock) :
    ∃ s, (slotSystem index).Leads Alone (.new index) s ∧ s.Rests dock := by
  induction operations with
  | refl => exact ⟨.new index,.refl,rfl,rfl,rfl⟩
  | tail _ operation ih =>
    obtain ⟨s,led,rests⟩ := ih
    obtain rfl := rests.dock
    have agrees := System.reached_invariant (slotSystem index) Alone Agrees (Or.inl rfl)
      (fun s action t agrees _ moved => agrees_step s t action agrees moved) s
      (System.leads_reached _ _ _ _ .start led)
    obtain ⟨t,further,last⟩ := s.operation_leads index agrees rests _ operation
    exact ⟨t,led.trans further,last⟩

end Slot

/-- Without races the threads are serial. As long as at each dock one thread is at work at a time, the
docks at which they leave it at rest are those that whole operations make of it, one after the other. -/
theorem serial_docks_iff (d : Fin maxDocks) (dock : FlotillaDock) :
    (∃ docks, daemon.Reached Separate docks ∧ (docks d).Rests dock) ↔
      Relation.ReflTransGen FlotillaDock.Operation (.new d.val) dock := by
  constructor
  · rintro ⟨docks,reached,rests⟩
    have own : daemon.Reached (fun docks action => action.1 = d → (docks d).Alone action.2) docks :=
      System.reached_weaken _ Separate _ (fun _ _ separate same => same ▸ separate) docks reached
    have single := System.family_reached (fun dockIdx : Fin maxDocks => slotSystem dockIdx.val) threadFree d
      Slot.Alone docks own
    obtain rfl := rests.dock
    exact (Slot.serial_reached d.val (docks d) single).ends _ ((docks d).rests_completes rests)
  · intro operations
    obtain ⟨s,led,rests⟩ := Slot.operations_lead d.val dock operations
    have reached := System.family_leads_one (fun dockIdx : Fin maxDocks => slotSystem dockIdx.val) threadFree Slot.Alone d
      daemon.initial (fun state action => threadFree_alone d _ action fun other apart => Function.update_of_ne apart _ _)
      s led .start
    refine ⟨_,reached,?_⟩
    rw [Function.update_self]
    exact rests

end FlotillaDaemon
