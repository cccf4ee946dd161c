import FlotillaDaemon.HostSteps

/-! Where the updates that clients send end up: each is taken in for the module it names, and
what the ticks write to a port comes from there, in that order. -/
namespace FlotillaDaemon
open Cpp Retained Framing

namespace Call

/-- The text that a call puts into the update queue. -/
def put : Call → Option Text
  | .queueUpdate cmd => if cmd = [] then none else some cmd
  | _ => none

/-- A line of the dock makes no other calls than these. -/
def fromLine : Call → Bool
  | .queueCommand _ | .connect _ | .disconnect => true
  | _ => false

/-- The module has no data to report when it is polled for some. -/
def Quiet (m : FlotillaModule) (call : Call) : Prop := call = .getNextCommand → m.commandQueue = []

end Call

/-- The text that a call gives out of the update queue. -/
def givenOut : Call × Reply → Option Text
  | (_,.update true text) => some text
  | _ => none

namespace FlotillaModule

def puts (calls : List Call) : List Text := calls.filterMap Call.put

def gives (m : FlotillaModule) (calls : List Call) : List Text := (moduleCalls.answers m calls).filterMap givenOut

def UpdatesInOrder (put given : List Text) (m : FlotillaModule) : Prop :=
  InOrder put given (m.updateQueue.map Subtype.val) (fun text => text = m.lastUpdate)

theorem gives_cons (m : FlotillaModule) (call : Call) (rest : List Call) :
    m.gives (call :: rest) =
      (givenOut (call,(moduleCalls.step m call).2)).toList ++ (moduleCalls.step m call).1.gives rest := by
  unfold gives
  rw [Machine.answers]
  cases given : givenOut (call,(moduleCalls.step m call).2) <;> simp [given]

theorem gives_append (m : FlotillaModule) (first second : List Call) :
    m.gives (first ++ second) = m.gives first ++ (moduleCalls.run m first).gives second := by
  rw [gives,Machine.answers_append,List.filterMap_append]
  rfl

theorem puts_cons (call : Call) (rest : List Call) : puts (call :: rest) = call.put.toList ++ puts rest := by
  unfold puts
  cases put : call.put <;> simp [put]

theorem takeUpdate_passed (isVolatile : Bool) (queue left : List Entry) (update : Entry)
    (taken : takeUpdate isVolatile queue = some (update,left)) : ∃ rest, queue = update :: rest ∧ Passed update rest left := by
  obtain ⟨rest,rfl,rfl⟩ := takeUpdate_some _ _ _ _ taken
  refine ⟨rest,rfl,?_⟩
  cases rest with
  | nil =>
    right
    cases isVolatile <;> exact ⟨rfl,rfl⟩
  | cons second rest =>
    left
    rw [popKeeping_cons]
    cases isVolatile with
    | true => exact List.suffix_refl _
    | false => exact keepLast_suffix _

theorem passed_map (front : Entry) (rest left : List Entry) (passed : Passed front rest left) :
    Passed front.val (rest.map Subtype.val) (left.map Subtype.val) := by
  rcases passed with later | ⟨rfl,rfl⟩
  · exact .inl (later.map Subtype.val)
  · exact .inr ⟨rfl,rfl⟩

theorem call_inOrder (put given : List Text) (m : FlotillaModule) (call : Call) (quiet : call.Quiet m)
    (ordered : m.UpdatesInOrder put given) :
    (moduleCalls.step m call).1.UpdatesInOrder (put ++ call.put.toList)
      (given ++ (givenOut (call,(moduleCalls.step m call).2)).toList) := by
  have same : m.UpdatesInOrder (put ++ []) (given ++ []) := by
    rw [List.append_nil,List.append_nil]
    exact ordered
  cases call with
  | queueCommand cmd => exact same
  | connect moduleName =>
    change UpdatesInOrder (put ++ []) (given ++ []) (m.connect moduleName)
    unfold FlotillaModule.connect
    split <;> exact same
  | disconnect => exact same
  | getNextCommand =>
    have idle : m.getNextCommand = (m,[]) := by
      rw [getNextCommand,quiet rfl,(takeCommand_retains _).empty]
    change UpdatesInOrder (put ++ []) (given ++ []) m.getNextCommand.1
    rw [idle]
    exact same
  | queueUpdate cmd =>
    change UpdatesInOrder (put ++ (if cmd = [] then none else some cmd).toList) (given ++ [])
      {m with updateQueue := enqueue m.updateQueue cmd}
    by_cases empty : cmd = []
    · rw [if_pos empty,empty,enqueue_empty]
      exact same
    · rw [if_neg empty,enqueue_present _ _ empty,List.append_nil,UpdatesInOrder,List.map_append]
      exact inOrder_put _ _ _ _ cmd ordered
  | getNextUpdate =>
    change UpdatesInOrder (put ++ []) (given ++ (givenOut (.getNextUpdate,
      .update (m.getNextUpdate []).2.1 (m.getNextUpdate []).2.2)).toList) (m.getNextUpdate []).1
    rcases m.getNextUpdate_cases with ⟨_,polled⟩ | ⟨update,left,taken,polled⟩
    · rw [polled]
      exact same
    · rw [polled,List.append_nil]
      obtain ⟨rest,queue,passed⟩ := takeUpdate_passed _ _ _ _ taken
      rw [UpdatesInOrder,queue] at ordered
      have looked := inOrder_look put given update.val _ (left.map Subtype.val) _ (fun text => text = update.val)
        ordered (passed_map _ _ _ passed) rfl
      by_cases known : update.val = m.lastUpdate
      · simpa [UpdatesInOrder,givenOut,known] using looked
      · simpa [UpdatesInOrder,givenOut,known] using looked

theorem calls_inOrder (put given : List Text) (m : FlotillaModule) (calls : List Call)
    (quiet : moduleCalls.Along (fun m call => call.Quiet m) m calls) (ordered : m.UpdatesInOrder put given) :
    (moduleCalls.run m calls).UpdatesInOrder (put ++ puts calls) (given ++ m.gives calls) := by
  induction calls generalizing m put given with
  | nil =>
    rw [puts,gives,Machine.answers,List.filterMap_nil,List.filterMap_nil,List.append_nil,List.append_nil]
    exact ordered
  | cons call rest ih =>
    have first := call_inOrder put given m call quiet.1 ordered
    rw [puts_cons,gives_cons,← List.append_assoc,← List.append_assoc]
    exact ih _ _ _ quiet.2 first

theorem calls_queued (m : FlotillaModule) (calls : List Call) (queued : List Text)
    (known : ∀ entry ∈ m.updateQueue, entry.val ∈ queued) :
    ∀ entry ∈ (moduleCalls.run m calls).updateQueue, entry.val ∈ queued ++ puts calls := by
  have one (m : FlotillaModule) (call : Call) (entry : Entry) (waiting : entry ∈ (moduleCalls.step m call).1.updateQueue) :
      entry ∈ m.updateQueue ∨ call.put = some entry.val := by
    rw [m.call_updateQueue call] at waiting
    cases call with
    | getNextUpdate =>
      change entry ∈ (m.getNextUpdate []).1.updateQueue at waiting
      rcases m.getNextUpdate_cases with ⟨_,polled⟩ | ⟨update,left,taken,polled⟩
      · rw [polled] at waiting
        exact .inl waiting
      · rw [polled] at waiting
        obtain ⟨rest,queue,later | ⟨_,rfl⟩⟩ := takeUpdate_passed _ _ _ _ taken
        · rw [queue]
          exact .inl (List.mem_cons_of_mem _ (later.subset waiting))
        · rw [queue,List.mem_singleton.mp waiting]
          exact .inl List.mem_cons_self
    | queueUpdate cmd =>
      change entry ∈ enqueue m.updateQueue cmd at waiting
      by_cases empty : cmd = []
      · rw [empty,enqueue_empty] at waiting
        exact .inl waiting
      · rw [enqueue_present _ _ empty] at waiting
        rcases List.mem_append.mp waiting with earlier | now
        · exact .inl earlier
        · right
          rw [List.mem_singleton.mp now]
          exact if_neg empty
    | queueCommand _ | getNextCommand | connect _ | disconnect => exact .inl waiting
  induction calls generalizing m queued with
  | nil => exact fun entry waiting => List.mem_append.mpr (.inl (known entry waiting))
  | cons call rest ih =>
    have next (entry : Entry) (waiting : entry ∈ (moduleCalls.step m call).1.updateQueue) :
        entry.val ∈ queued ++ puts [call] := by
      rcases one m call entry waiting with earlier | now
      · exact List.mem_append.mpr (.inl (known entry earlier))
      · exact List.mem_append.mpr (.inr (List.mem_filterMap.mpr ⟨call,List.mem_cons_self,now⟩))
    have split : puts (call :: rest) = puts [call] ++ puts rest := List.filterMap_append (l := [call])
    rw [split,← List.append_assoc]
    exact ih _ _ next

theorem lines_give (m : FlotillaModule) (calls : List Call) (lines : ∀ call ∈ calls, call.fromLine = true) :
    puts calls = [] ∧ m.gives calls = [] := by
  induction calls generalizing m with
  | nil => exact ⟨rfl,rfl⟩
  | cons call rest ih =>
    have here := lines call List.mem_cons_self
    have later := ih (moduleCalls.step m call).1 fun other member => lines other (List.mem_cons_of_mem _ member)
    cases call with
    | queueCommand cmd => exact later
    | connect moduleName => exact later
    | disconnect => exact later
    | queueUpdate cmd => contradiction
    | getNextCommand => contradiction
    | getNextUpdate => contradiction

theorem poll_gives (m : FlotillaModule) (connected : m.state = .moduleConnected) :
    m.gives [.getNextUpdate] = m.takenUpdate.toList := by
  have polled : m.gives [.getNextUpdate] = (givenOut (.getNextUpdate,
      .update (m.getNextUpdate []).2.1 (m.getNextUpdate []).2.2)).toList := by
    unfold gives
    cases taken : givenOut (.getNextUpdate,.update (m.getNextUpdate []).2.1 (m.getNextUpdate []).2.2) <;>
      simp [Machine.answers,moduleCalls,taken]
  rw [polled,takenUpdate]
  simp only [connected,true_and]
  cases (m.getNextUpdate []).2.1 <;> rfl

end FlotillaModule

namespace FlotillaDock

theorem lineCall_fromLine (dock : FlotillaDock) (command : Text) (c : Fin maxChannels) :
    ∀ call ∈ callsOn c (dock.lineCall command), call.fromLine = true := by
  have made : ∀ found ∈ dock.lineCall command, found.2.fromLine = true := by
    intro found member
    unfold lineCall at member
    split at member
    · contradiction
    split at member
    · contradiction
    split at member
    · rw [← Option.some.inj member]
      rfl
    · rw [← Option.some.inj member]
      rfl
    · rw [← Option.some.inj member]
      rfl
    · contradiction
  intro call member
  cases found : dock.lineCall command with
  | none =>
    rw [found] at member
    contradiction
  | some called =>
    rw [found,callsOn] at member
    split at member
    · rw [List.mem_singleton.mp member]
      exact made called found
    · contradiction

theorem inputCalls_fromLine (dock : FlotillaDock) (c : Fin maxChannels) (input : List Arrival) :
    ∀ call ∈ dock.inputCalls c input, call.fromLine = true := by
  induction dock, input using readInput.induct with
  | case1 dock input waiting mid processed ih =>
    rw [inputCalls,dif_pos waiting,processed]
    intro call member
    rcases List.mem_append.mp member with here | later
    · exact dock.lineCall_fromLine _ c call here
    · exact ih call later
  | case2 dock input waiting fault failed =>
    rw [inputCalls,dif_pos waiting,failed]
    simp
  | case3 dock input idle =>
    rw [inputCalls,dif_neg idle]
    simp

/-- A tick polls a connected module for an update, and then its lines act on the module. -/
theorem tickCalls_eq (dock : FlotillaDock) (c : Fin maxChannels) (port : SerialPort) :
    ∃ lines : List Call, (∀ call ∈ lines, call.fromLine = true) ∧ dock.tickCalls c port =
      (if dock.state = .connected ∧ (dock.module c).state = .moduleConnected then [.getNextUpdate] else []) ++ lines := by
  unfold tickCalls
  by_cases connected : dock.state = .connected
  · rw [if_neg (not_not.mpr connected)]
    simp only [connected,true_and]
    cases dock.tick port with
    | ok result => exact ⟨_,inputCalls_fromLine _ c _,rfl⟩
    | error fault => exact ⟨[],by simp,rfl⟩
  · rw [if_pos connected,if_neg fun polled => connected polled.1]
    exact ⟨[],by simp,rfl⟩

theorem updates_own (dock : FlotillaDock) (c : Fin maxChannels) :
    dock.updates.filterMap (fun update => if update.1 = c then some update.2 else none) =
      if dock.state = .connected then (dock.module c).takenUpdate.toList else [] := by
  unfold updates
  by_cases connected : dock.state = .connected
  · rw [if_pos connected,if_pos connected,List.filterMap_filterMap]
    have own := filterMap_own (List.finRange maxChannels) (List.nodup_finRange _) c (dock.module c).takenUpdate
    rw [if_pos (List.mem_finRange c)] at own
    rw [← own]
    congr 1
    funext x
    by_cases same : x = c
    · subst same
      cases taken : (dock.module x).takenUpdate <;> simp
    · cases taken : (dock.module x).takenUpdate <;> simp [same]
  · rw [if_neg connected,if_neg connected]
    rfl

theorem tick_gives (dock : FlotillaDock) (c : Fin maxChannels) (lines : List Call)
    (made : ∀ call ∈ lines, call.fromLine = true) :
    [] = FlotillaModule.puts ((if dock.state = .connected ∧ (dock.module c).state = .moduleConnected
        then [.getNextUpdate] else []) ++ lines) ∧
      (if dock.state = .connected then (dock.module c).takenUpdate.toList else []) =
        (dock.module c).gives ((if dock.state = .connected ∧ (dock.module c).state = .moduleConnected
          then [.getNextUpdate] else []) ++ lines) := by
  have nothing (m : FlotillaModule) := m.lines_give lines made
  rw [FlotillaModule.puts,List.filterMap_append,FlotillaModule.gives_append]
  change _ = _ ++ FlotillaModule.puts lines ∧ _
  rw [(nothing (dock.module c)).1,(nothing _).2,List.append_nil,List.append_nil]
  by_cases polled : dock.state = .connected ∧ (dock.module c).state = .moduleConnected
  · rw [if_pos polled,if_pos polled.1]
    exact ⟨rfl,(FlotillaModule.poll_gives _ polled.2).symm⟩
  · rw [if_neg polled]
    refine ⟨rfl,?_⟩
    by_cases connected : dock.state = .connected
    · have idle : (dock.module c).takenUpdate = none := if_neg fun taken => polled ⟨connected,taken.1⟩
      rw [if_pos connected,idle]
      rfl
    · rw [if_neg connected]
      rfl

end FlotillaDock

def queuedFor (d : Fin maxDocks) (c : Fin maxChannels) (traffic : List Traffic) : List Text :=
  traffic.filterMap fun
    | .queued e x data => if e = d ∧ x = c then some data else none
    | .written _ _ _ => none

def writtenFor (d : Fin maxDocks) (c : Fin maxChannels) (traffic : List Traffic) : List Text :=
  traffic.filterMap fun
    | .queued _ _ _ => none
    | .written e x data => if e = d ∧ x = c then some data else none

theorem queuedFor_append (d : Fin maxDocks) (c : Fin maxChannels) (earlier later : List Traffic) :
    queuedFor d c (earlier ++ later) = queuedFor d c earlier ++ queuedFor d c later := List.filterMap_append

theorem writtenFor_append (d : Fin maxDocks) (c : Fin maxChannels) (earlier later : List Traffic) :
    writtenFor d c (earlier ++ later) = writtenFor d c earlier ++ writtenFor d c later := List.filterMap_append

theorem queuedFor_mem (d : Fin maxDocks) (c : Fin maxChannels) (traffic : List Traffic) (data : Text)
    (queued : data ∈ queuedFor d c traffic) : .queued d c data ∈ traffic := by
  obtain ⟨item,member,read⟩ := List.mem_filterMap.mp queued
  cases item with
  | queued e x text =>
    dsimp only at read
    split at read
    next own =>
      obtain ⟨rfl,rfl⟩ := own
      rw [← Option.some.inj read]
      exact member
    next => contradiction
  | written e x text => contradiction

namespace Host
variable {H : Type} [DecidableEq H]

/-- The traffic of a step for one module is what the calls on it put in and give out. -/
theorem output_calls (h : Host H) (d : Fin maxDocks) (c : Fin maxChannels) (input : HostInput H) :
    queuedFor d c (h.output input) = FlotillaModule.puts (h.calls d c input) ∧
      writtenFor d c (h.output input) = ((h.flotilla.dock d).module c).gives (h.calls d c input) := by
  unfold output calls
  by_cases halted : h.halted = true
  · rw [if_pos halted,if_pos halted]
    exact ⟨rfl,rfl⟩
  · rw [if_neg halted,if_neg halted]
    cases input with
    | opened hdl => exact ⟨rfl,rfl⟩
    | closed hdl => exact ⟨rfl,rfl⟩
    | failed hdl => exact ⟨rfl,rfl⟩
    | setPort e copied opened banner arrived => exact ⟨rfl,rfl⟩
    | updateClients =>
      dsimp only
      split <;> exact ⟨rfl,rfl⟩
    | disconnect e =>
      dsimp only
      split <;> exact ⟨rfl,rfl⟩
    | message hdl request =>
      cases request with
      | session m => exact ⟨rfl,rfl⟩
      | other payload => exact ⟨rfl,rfl⟩
      | update e x data =>
        have present := data.property
        dsimp only
        by_cases known : hdl ∈ h.flotilla.clients
        · by_cases own : e = d ∧ x = c
          · rw [if_pos known,if_pos ⟨known,own⟩]
            obtain ⟨rfl,rfl⟩ := own
            simp [queuedFor,writtenFor,FlotillaModule.puts,FlotillaModule.gives,Call.put,present,Machine.answers,
              moduleCalls,givenOut]
          · rw [if_pos known,if_neg fun same => own same.2]
            simp [queuedFor,writtenFor,own,FlotillaModule.puts,FlotillaModule.gives,Machine.answers]
        · rw [if_neg known,if_neg fun same => known same.1]
          exact ⟨rfl,rfl⟩
    | tick e arrived =>
      dsimp only
      have puts : queuedFor d c ((h.flotilla.dock e).updates.map fun update => .written e update.1 update.2) = [] := by
        simp [queuedFor]
      rw [puts]
      by_cases docked : e = d
      · subst docked
        obtain ⟨lines,made,calls⟩ := (h.flotilla.dock e).tickCalls_eq c ⟨h.written e,arrived⟩
        have written : writtenFor e c ((h.flotilla.dock e).updates.map fun update => .written e update.1 update.2) =
            (h.flotilla.dock e).updates.filterMap fun update => if update.1 = c then some update.2 else none := by
          simp [writtenFor,List.filterMap_map]
        rw [if_pos rfl,calls,written,FlotillaDock.updates_own]
        exact (h.flotilla.dock e).tick_gives c lines made
      · have other : writtenFor d c ((h.flotilla.dock e).updates.map fun update => .written e update.1 update.2) = [] := by
          simp [writtenFor,docked]
        rw [if_neg docked,other]
        exact ⟨rfl,rfl⟩

/-- The module has reported no data since its queue was last empty. -/
def NoData (d : Fin maxDocks) (c : Fin maxChannels) (h : Host H) (_ : HostInput H) : Prop :=
  ((h.flotilla.dock d).module c).commandQueue = []

/-- The calls of a step: the update of a message, the poll of a pass, or those of a tick or of a
disconnection. -/
theorem calls_cases (h : Host H) (d : Fin maxDocks) (c : Fin maxChannels) (input : HostInput H) (call : Call)
    (made : call ∈ h.calls d c input) :
    (∃ hdl data, input = .message hdl (.update d c data) ∧ h.halted = false ∧ hdl ∈ h.flotilla.clients ∧
      call = .queueUpdate data.val) ∨
    (input = .updateClients ∧ h.calls d c input = [.getNextCommand] ∧
      ((h.flotilla.dock d).module c).state = .moduleConnected ∧ call = .getNextCommand) ∨
    call = .getNextUpdate ∨ call.fromLine = true := by
  unfold calls at made ⊢
  by_cases halted : h.halted = true
  · rw [if_pos halted] at made
    contradiction
  rw [if_neg halted] at made ⊢
  cases input with
  | opened hdl => contradiction
  | closed hdl => contradiction
  | failed hdl => contradiction
  | setPort e copied opened banner arrived => contradiction
  | updateClients =>
    dsimp only at made ⊢
    split at made
    next polled =>
      rw [if_pos polled]
      exact .inr (.inl ⟨rfl,rfl,polled.2,List.mem_singleton.mp made⟩)
    next => contradiction
  | message hdl request =>
    cases request with
    | session m => contradiction
    | other payload => contradiction
    | update e x data =>
      dsimp only at made
      split at made
      next own =>
        obtain ⟨known,rfl,rfl⟩ := own
        exact .inl ⟨hdl,data,rfl,Bool.eq_false_iff.mpr halted,known,List.mem_singleton.mp made⟩
      next => contradiction
  | disconnect e =>
    dsimp only at made
    split at made
    · rw [List.mem_singleton.mp made]
      exact .inr (.inr (.inr rfl))
    · contradiction
  | tick e arrived =>
    dsimp only at made
    split at made
    next =>
      obtain ⟨lines,fromLine,calls⟩ := (h.flotilla.dock d).tickCalls_eq c ⟨h.written d,arrived⟩
      rw [calls] at made
      rcases List.mem_append.mp made with polled | line
      · split at polled
        · exact .inr (.inr (.inl (List.mem_singleton.mp polled)))
        · contradiction
      · exact .inr (.inr (.inr (fromLine call line)))
    next => contradiction

theorem calls_quiet (h : Host H) (d : Fin maxDocks) (c : Fin maxChannels) (input : HostInput H)
    (idle : ((h.flotilla.dock d).module c).commandQueue = []) :
    moduleCalls.Along (fun m call => call.Quiet m) ((h.flotilla.dock d).module c) (h.calls d c input) := by
  have unasked (m : FlotillaModule) (calls : List Call) (none : ∀ call ∈ calls, call ≠ .getNextCommand) :
      moduleCalls.Along (fun m call => call.Quiet m) m calls := by
    induction calls generalizing m with
    | nil => trivial
    | cons call rest ih =>
      exact ⟨fun asked => absurd asked (none call List.mem_cons_self),
        ih _ fun other member => none other (List.mem_cons_of_mem _ member)⟩
  by_cases polled : h.calls d c input = [.getNextCommand]
  · rw [polled]
    exact ⟨fun _ => idle,trivial⟩
  · apply unasked
    intro call made asked
    rw [asked] at made
    rcases h.calls_cases d c input _ made with ⟨_,_,_,_,_,other⟩ | ⟨_,lone,_⟩ | other | line
    · contradiction
    · exact polled lone
    · contradiction
    · contradiction

/-- Every update that waits for a module was sent for it. -/
structure Addressed (h : Host H) (traffic : List Traffic) : Prop where
  serving : h.Serving
  waiting : ∀ d c, ∀ entry ∈ ((h.flotilla.dock d).module c).updateQueue, entry.val ∈ queuedFor d c traffic

theorem addressed_step (network : Network H) (h : Host H) (traffic : List Traffic) (input : HostInput H)
    (addressed : h.Addressed traffic) (wellWritten : h.Exact input) :
    (h.step network input).Addressed (traffic ++ h.output input) := by
  refine ⟨h.step_serving network addressed.serving input,fun d c => ?_⟩
  rw [h.step_calls network addressed.serving d c input (h.exact_direct network d c input wellWritten),queuedFor_append,
    (h.output_calls d c input).1]
  exact FlotillaModule.calls_queued _ _ _ (addressed.waiting d c)

theorem order_step (network : Network H) (h : Host H) (traffic : List Traffic) (input : HostInput H)
    (serving : h.Serving) (wellWritten : h.Exact input) (d : Fin maxDocks) (c : Fin maxChannels) (idle : NoData d c h input)
    (ordered : ((h.flotilla.dock d).module c).UpdatesInOrder (queuedFor d c traffic) (writtenFor d c traffic)) :
    (((h.step network input).flotilla.dock d).module c).UpdatesInOrder (queuedFor d c (traffic ++ h.output input))
      (writtenFor d c (traffic ++ h.output input)) := by
  rw [h.step_calls network serving d c input (h.exact_direct network d c input wellWritten),queuedFor_append,
    writtenFor_append,(h.output_calls d c input).1,(h.output_calls d c input).2]
  exact FlotillaModule.calls_inOrder _ _ _ _ (h.calls_quiet d c input idle) ordered

def new (canonicalAddress : Text) : Host H := start (fun d => .new d.val) canonicalAddress

omit [DecidableEq H] in
theorem addressed_new (canonicalAddress : Text) : (new canonicalAddress : Host H).Addressed [] :=
  ⟨⟨rfl,rfl⟩,fun _ _ _ waiting => absurd waiting List.not_mem_nil⟩

/-- What the next steps would do with the updates, after the traffic so far. -/
structure Routes (network : Network H) (h : Host H) (traffic : List Traffic) : Prop where
  taken : ∀ hdl d c data, hdl ∈ h.flotilla.clients → h.step network (.message hdl (.update d c data)) =
    h.changeDock d ((h.flotilla.dock d).setModule c
      {(h.flotilla.dock d).module c with updateQueue := ((h.flotilla.dock d).module c).updateQueue ++ [data]})
  written : ∀ d arrived, (h.step network (.tick d arrived)).written =
    Function.update h.written d (h.written d ++
      (if (h.flotilla.dock d).state = .connected then (h.flotilla.dock d).commandQueue.flatten else []) ++
      frames '\r' ((h.flotilla.dock d).updates.map fun update => FlotillaDock.updateText update.1 update.2))
  addressed : ∀ d, ∀ update ∈ (h.flotilla.dock d).updates,
    ((h.flotilla.dock d).module update.1).state = .moduleConnected ∧ .queued d update.1 update.2 ∈ traffic

theorem step_tick (network : Network H) (h : Host H) (running : h.halted = false) (d : Fin maxDocks)
    (arrived : List Arrival) :
    (h.step network (.tick d arrived)).written = Function.update h.written d (h.written d ++
      (if (h.flotilla.dock d).state = .connected then (h.flotilla.dock d).commandQueue.flatten else []) ++
      frames '\r' ((h.flotilla.dock d).updates.map fun update => FlotillaDock.updateText update.1 update.2)) := by
  rw [step,if_neg (Bool.eq_false_iff.mp running)]
  by_cases connected : (h.flotilla.dock d).state = .connected
  · have bytes := (h.flotilla.dock d).writeQueues_written ⟨h.written d,arrived⟩
    rw [(h.flotilla.dock d).updateItems_eq connected] at bytes
    rw [if_pos connected,← bytes]
    unfold tick
    cases returned : (h.flotilla.dock d).tick ⟨h.written d,arrived⟩ with
    | error fault => rfl
    | ok result =>
      obtain ⟨written,_⟩ := (h.flotilla.dock d).tick_connected result.1 _ result.2 connected returned
      rw [← written]
  · have off : (h.flotilla.dock d).tick ⟨h.written d,arrived⟩ = .ok (h.flotilla.dock d,⟨h.written d,arrived⟩) := by
      rw [FlotillaDock.tick,if_pos connected]
    have nothing : frames '\r' ([].map fun update : Fin maxChannels × Text =>
        FlotillaDock.updateText update.1 update.2) = [] := rfl
    rw [if_neg connected,FlotillaDock.updates,if_neg connected,nothing,tick,off,List.append_nil,List.append_nil]

theorem updates_waiting (dock : FlotillaDock) (update : Fin maxChannels × Text) (written : update ∈ dock.updates) :
    (dock.module update.1).state = .moduleConnected ∧
      ∃ entry ∈ (dock.module update.1).updateQueue, entry.val = update.2 := by
  unfold FlotillaDock.updates at written
  split at written
  · obtain ⟨c,_,taken⟩ := List.mem_filterMap.mp written
    obtain ⟨text,given,rfl⟩ := Option.map_eq_some_iff.mp taken
    have item : dock.updateItem c = some (FlotillaDock.updateText c text) := by
      unfold FlotillaModule.takenUpdate at given
      unfold FlotillaDock.updateItem
      split at given
      next due => rw [if_pos due,← Option.some.inj given]
      next => contradiction
    obtain ⟨connected,front,head,_,same⟩ := (dock.updateItem_some_iff c _).mp item
    refine ⟨connected,front,List.mem_of_mem_head? head,?_⟩
    exact (List.append_cancel_left same).symm
  · contradiction

end Host

/-- Updates sent by clients are routed exactly: each is queued for the module it names and
changes nothing else, a tick writes only such updates, and a module that reports no data is
written its own ones in their order. -/
theorem updates_routed {H : Type} [DecidableEq H] (network : Network H) (canonicalAddress : Text)
    (inputs : List (HostInput H)) (wellWritten : (hosts network).Along Host.Exact (.new canonicalAddress) inputs) :
    (((hosts network).run (.new canonicalAddress) inputs).halted = false →
      ((hosts network).run (.new canonicalAddress) inputs).Routes network
        ((hosts network).emitted (.new canonicalAddress) inputs)) ∧
    ∀ d c, (hosts network).Along (Host.NoData d c) (.new canonicalAddress) inputs →
      (writtenFor d c ((hosts network).emitted (.new canonicalAddress) inputs)).Sublist
        (queuedFor d c ((hosts network).emitted (.new canonicalAddress) inputs)) := by
  have addressed := (hosts network).emitted_invariant Host.Addressed Host.Exact
    (fun h traffic input => h.addressed_step network traffic input) _ [] (Host.addressed_new canonicalAddress)
    inputs wellWritten
  refine ⟨fun running => ⟨?_,?_,?_⟩,fun d c quiet => ?_⟩
  · intro hdl d c data known
    rw [Host.step_update network _ hdl d c data running known,Flotilla.queued,FlotillaModule.queueUpdate,
      enqueue_present _ _ data.property]
    rfl
  · exact fun d arrived => Host.step_tick network _ running d arrived
  · intro d update written
    obtain ⟨connected,entry,waiting,same⟩ := Host.updates_waiting _ update written
    refine ⟨connected,queuedFor_mem d update.1 _ _ ?_⟩
    rw [← same]
    exact addressed.waiting d update.1 entry waiting
  · have start : ((Host.new canonicalAddress : Host H).flotilla.dock d).module c |>.UpdatesInOrder [] [] :=
      ⟨[],rfl,.inl (List.Sublist.refl _)⟩
    have ordered := (hosts network).emitted_invariant
      (fun h traffic => h.Serving ∧
        ((h.flotilla.dock d).module c).UpdatesInOrder (queuedFor d c traffic) (writtenFor d c traffic))
      (fun h input => h.Exact input ∧ Host.NoData d c h input)
      (fun h traffic input kept meets => ⟨h.step_serving network kept.1 input,
        h.order_step network traffic input kept.1 meets.1 d c meets.2 kept.2⟩)
      _ [] ⟨⟨rfl,rfl⟩,start⟩ inputs ((Machine.along_and _ _ _ _ _).mpr ⟨wellWritten,quiet⟩)
    exact inOrder_sublist _ _ _ _ ordered.2

section Runs

def dialDriven : List (HostInput Nat) :=
  [.setPort 0 true true true
      ("# Version: 1.0\n# Serial: 0123456789012345678901\n# User: a\n# Dock: b\n".toList.map .byte),
    .tick 0 ("c 1/dial\n".toList.map .byte),.opened 1,.message 1 (.update 0 0 ⟨"5".toList,by decide⟩),
    .message 1 (.update 0 0 ⟨"7\r".toList,by decide⟩),.tick 0 [],.tick 0 []]

end Runs

theorem updates_routed_dial :
    (((hosts allSucceed).run (.new []) dialDriven).halted = false →
      ((hosts allSucceed).run (.new []) dialDriven).Routes allSucceed ((hosts allSucceed).emitted (.new []) dialDriven)) ∧
    ∀ d c, (hosts allSucceed).Along (Host.NoData d c) (.new []) dialDriven →
      (writtenFor d c ((hosts allSucceed).emitted (.new []) dialDriven)).Sublist
        (queuedFor d c ((hosts allSucceed).emitted (.new []) dialDriven)) :=
  updates_routed allSucceed [] dialDriven (by decide +kernel)

end FlotillaDaemon
