import FlotillaDaemon.Host

/-! What each step of the daemon changes: the docks, one module of a dock as calls on it, and
what is sent. -/
namespace FlotillaDaemon
open Cpp Retained

theorem filterMap_own {A B : Type} [DecidableEq A] (items : List A) (distinct : items.Nodup) (a : A) (value : Option B) :
    items.filterMap (fun item => if item = a then value else none) = if a ∈ items then value.toList else [] := by
  induction items with
  | nil => rfl
  | cons item rest ih =>
    obtain ⟨fresh,distinct⟩ := List.nodup_cons.mp distinct
    by_cases own : item = a
    · subst own
      rw [if_pos List.mem_cons_self]
      cases value <;> simp [ih distinct,fresh]
    · simp [own,ih distinct,Ne.symm own]

namespace Flotilla
variable {H : Type}

theorem attempts_mem (network : Network H) (transmissions : List (Transmission H)) (earlier : Nat)
    (transmission : Transmission H) (attempted : transmission ∈ (attempts network earlier transmissions).1) :
    transmission ∈ transmissions := by
  induction transmissions generalizing earlier with
  | nil => exact attempted
  | cons first rest ih =>
    rw [attempts] at attempted
    split at attempted
    · rcases List.mem_cons.mp attempted with here | later
      · exact List.mem_cons.mpr (.inl here)
      · exact List.mem_cons_of_mem _ (ih _ later)
    · exact List.mem_cons.mpr (.inl (List.mem_singleton.mp attempted))

/-- A `dock:` message that returns queues an update, queues a command, or does nothing. -/
theorem dockMessage_effect (f next : Flotilla H) (payload : Text) (handled : f.dockMessage payload = .ok next) :
    next = f ∨ (∃ d c data, next = f.queued d c data) ∨
      ∃ d command, next = f.changeDock d ((f.dock d).queueCommand command) := by
  obtain ⟨text,_,rest⟩ := (bind_ok_iff _ _ _).mp handled
  obtain ⟨⟨dockIndex,size⟩,_,rest⟩ := (bind_ok_iff _ _ _).mp rest
  obtain ⟨data,_,rest⟩ := (bind_ok_iff _ _ _).mp rest
  obtain ⟨first,_,rest⟩ := (bind_ok_iff _ _ _).mp rest
  split at rest
  · rw [updateMessage_eq] at rest
    obtain ⟨digits,_,rest⟩ := (bind_ok_iff _ _ _).mp rest
    obtain ⟨found,_,rest⟩ := (bind_ok_iff _ _ _).mp rest
    split at rest
    · exact .inl (Except.ok.inj rest).symm
    · obtain ⟨update,_,rest⟩ := (bind_ok_iff _ _ _).mp rest
      obtain ⟨d,_,rest⟩ := (bind_ok_iff _ _ _).mp rest
      obtain ⟨c,_,rest⟩ := (bind_ok_iff _ _ _).mp rest
      exact .inr (.inl ⟨d,c,update,(Except.ok.inj rest).symm⟩)
  · unfold commandMessage at rest
    split at rest
    · obtain ⟨d,_,rest⟩ := (bind_ok_iff _ _ _).mp rest
      exact .inr (.inr ⟨d,data,(Except.ok.inj rest).symm⟩)
    · exact .inl (Except.ok.inj rest).symm

variable [DecidableEq H]

/-- What a message that is not a dock's leaves as it was, and what it sends. -/
theorem message_effect (network : Network H) (hdl : H) (payload : Text) (f : Flotilla H)
    (other : ¬ "dock:".toList <+: payload) :
    ∃ clients listening texts, f.after (websocketOnMessage network hdl payload) =
        {f with clients := clients,listening := listening,transmissions := f.transmissions ++ texts} ∧
      ∀ text ∈ texts, text ∈ f.greeting hdl ∨ text ∈ f.farewell := by
  have nothing : f = {f with clients := f.clients,listening := f.listening,transmissions := f.transmissions ++ []} := by
    rw [List.append_nil]
  cases found : f.clients.lookup hdl with
  | none =>
    rw [after,websocketOnMessage_unknown network hdl payload f (AList.lookup_eq_none.mp found)]
    exact ⟨_,_,[],nothing,by simp⟩
  | some client =>
    have known : hdl ∈ f.clients := AList.lookup_isSome.mp (by rw [found]; rfl)
    rcases payload_cases (H := H) payload with dock | rfl | ⟨m,rfl⟩ | unhandled
    · exact absurd dock other
    · rw [after,websocketOnMessage_known network hdl _ f known,handleMessage_quit,stopServer_run]
      by_cases listening : f.listening = true
      · rw [if_pos listening]
        change ∃ clients listening texts,
          after {f with listening := false} (transmitAll network f.farewell) = _ ∧ _
        rw [after_transmitAll]
        exact ⟨f.clients,false,_,rfl,fun text sent => .inr (attempts_mem network _ _ text sent)⟩
      · rw [if_neg listening]
        exact ⟨_,_,[],nothing,by simp⟩
    · rw [after,message_run network hdl m f client found]
      change ∃ clients listening texts,
        (f.changed hdl (m.change client)).after (transmitAll network (f.answer hdl m)) = _ ∧ _
      rw [after_transmitAll]
      refine ⟨_,f.listening,_,rfl,fun text sent => .inl ?_⟩
      have answered := attempts_mem network _ _ text sent
      cases m with
      | ready => exact answered
      | hello => exact answered
      | pause => simp [answer] at answered
      | subscribe x => simp [answer] at answered
      | unsubscribe x => simp [answer] at answered
    · rw [after,websocketOnMessage_known network hdl payload f known,unhandled network hdl]
      exact ⟨_,_,[],nothing,by simp⟩

theorem dock_message_after (network : Network H) (hdl : H) (payload : Text) (f : Flotilla H)
    (start : "dock:".toList <+: payload) :
    f.after (websocketOnMessage network hdl payload) = f ∨
      f.dockMessage payload = .ok (f.after (websocketOnMessage network hdl payload)) := by
  by_cases known : hdl ∈ f.clients
  · rw [after,websocketOnMessage_known network hdl payload f known,handleMessage_dock network hdl payload f start]
    cases f.dockMessage payload with
    | ok next => exact .inr rfl
    | error fault => exact .inl rfl
  · rw [after,websocketOnMessage_unknown network hdl payload f known]
    exact .inl rfl

theorem message_serving (network : Network H) (hdl : H) (payload : Text) (f : Flotilla H) :
    (f.after (websocketOnMessage network hdl payload)).mutexClients = f.mutexClients ∧
      (f.after (websocketOnMessage network hdl payload)).stopped = f.stopped := by
  by_cases start : "dock:".toList <+: payload
  · rcases dock_message_after network hdl payload f start with same | handled
    · rw [same]
      exact ⟨rfl,rfl⟩
    · rcases dockMessage_effect f _ payload handled with same | ⟨d,c,data,same⟩ | ⟨d,command,same⟩ <;> rw [same] <;>
        exact ⟨rfl,rfl⟩
  · obtain ⟨_,_,_,same,_⟩ := message_effect network hdl payload f start
    rw [same]
    exact ⟨rfl,rfl⟩

end Flotilla

namespace FlotillaDock

/-- The call that a line makes on a module. -/
def lineCall (dock : FlotillaDock) (command : Text) : Option (Fin maxChannels × Call) :=
  match lineChannel command with
  | .error _ => none
  | .ok (channel,size) =>
    match arrayIndex maxChannels channel with
    | .error _ => none
    | .ok c =>
      match command.head? with
      | some 'u' => some (c,.queueCommand (command.drop (size + 4 + (dock.module c).name.length)))
      | some 'd' => some (c,.disconnect)
      | some 'c' => some (c,.connect (command.drop (size + 3)))
      | _ => none

def callsOn (c : Fin maxChannels) (call : Option (Fin maxChannels × Call)) : List Call :=
  match call with
  | some (x,call) => if x = c then [call] else []
  | none => []

/-- The calls that the lines of an input make on one module. -/
def inputCalls (dock : FlotillaDock) (c : Fin maxChannels) (input : List Arrival) : List Call :=
  if _waiting : spInputWaiting input = true then
    match dock.processCommand (spReadline input).1 with
    | .ok next => callsOn c (dock.lineCall (spReadline input).1) ++ inputCalls next c (spReadline input).2
    | .error _ => []
  else []
termination_by input.length
decreasing_by exact spReadline_shortens input _waiting

/-- The calls that a tick makes on one module. -/
def tickCalls (dock : FlotillaDock) (c : Fin maxChannels) (port : SerialPort) : List Call :=
  if dock.state ≠ .connected then []
  else
    (if (dock.module c).state = .moduleConnected then [.getNextUpdate] else []) ++
      match dock.tick port with
      | .ok _ => (dock.writeQueues port).1.inputCalls c port.input
      | .error _ => []

theorem setModule_call (dock : FlotillaDock) (x c : Fin maxChannels) (call : Call) :
    (dock.setModule x (moduleCalls.step (dock.module x) call).1).module c =
      moduleCalls.run (dock.module c) (callsOn c (some (x,call))) := by
  by_cases own : x = c
  · subst own
    rw [callsOn,if_pos rfl]
    exact Function.update_self ..
  · rw [callsOn,if_neg own]
    exact Function.update_of_ne (Ne.symm own) ..

theorem processUpdate_call (dock next : FlotillaDock) (rest : Text) (c : Fin maxChannels)
    (processed : dock.processUpdate ('u' :: rest) = .ok next) :
    next.module c = moduleCalls.run (dock.module c) (callsOn c (dock.lineCall ('u' :: rest))) := by
  obtain ⟨⟨channel,size⟩,read,processed⟩ := (bind_ok_iff _ _ _).mp processed
  unfold lineCall
  rw [read]
  dsimp only at processed ⊢
  split at processed
  · obtain ⟨x,indexed,processed⟩ := (bind_ok_iff _ _ _).mp processed
    obtain ⟨data,cut,processed⟩ := (bind_ok_iff _ _ _).mp processed
    rw [indexed,← Except.ok.inj processed,← ((substr_ok_iff _ _ _).mp cut).2]
    exact dock.setModule_call x c (.queueCommand _)
  next beyond =>
    rw [← Except.ok.inj processed]
    cases indexed : arrayIndex maxChannels channel with
    | error fault => rfl
    | ok x =>
      have inside := (arrayIndex_ok_iff _ _ _).mp indexed
      have bound := x.isLt
      omega

theorem processChange_call (dock next : FlotillaDock) (letter : Char) (rest : Text) (c : Fin maxChannels)
    (change : Text → FlotillaModule → FlotillaModule) (call : Text → Call)
    (acts : ∀ name m, (moduleCalls.step m (call name)).1 = change name m)
    (reads : ∀ channel size x, lineChannel (letter :: rest) = .ok (channel,size) →
      arrayIndex maxChannels channel = .ok x →
      dock.lineCall (letter :: rest) = some (x,call ((letter :: rest).drop (size + 3))))
    (beyond : ∀ channel size, lineChannel (letter :: rest) = .ok (channel,size) →
      ¬ channel < maxChannels → dock.lineCall (letter :: rest) = none)
    (processed : dock.processChange change (letter :: rest) = .ok next) :
    next.module c = moduleCalls.run (dock.module c) (callsOn c (dock.lineCall (letter :: rest))) := by
  obtain ⟨⟨channel,size⟩,read,processed⟩ := (bind_ok_iff _ _ _).mp processed
  dsimp only at processed
  split at processed
  · obtain ⟨name,cut,processed⟩ := (bind_ok_iff _ _ _).mp processed
    obtain ⟨x,indexed,processed⟩ := (bind_ok_iff _ _ _).mp processed
    rw [reads channel size x read indexed,((substr_ok_iff _ _ _).mp cut).2,← Except.ok.inj processed,← setModule_call,
      acts]
    rfl
  next outside =>
    rw [beyond channel size read outside,← Except.ok.inj processed]
    rfl

theorem lineCall_beyond (dock : FlotillaDock) (command : Text) (channel : Int) (size : Nat)
    (read : lineChannel command = .ok (channel,size)) (beyond : ¬ channel < maxChannels) : dock.lineCall command = none := by
  unfold lineCall
  rw [read]
  dsimp only
  cases indexed : arrayIndex maxChannels channel with
  | error fault => rfl
  | ok x =>
    have inside := (arrayIndex_ok_iff _ _ _).mp indexed
    have bound := x.isLt
    omega

theorem lineCall_other (dock : FlotillaDock) (first : Char) (rest : Text) (update : first ≠ 'u') (disconnect : first ≠ 'd')
    (connect : first ≠ 'c') : dock.lineCall (first :: rest) = none := by
  unfold lineCall
  split
  · rfl
  · split
    · rfl
    · split
      next head => exact absurd (Option.some.inj head) update
      next head => exact absurd (Option.some.inj head) disconnect
      next head => exact absurd (Option.some.inj head) connect
      next => rfl

theorem processCommand_call (dock next : FlotillaDock) (command : Text) (c : Fin maxChannels)
    (processed : dock.processCommand command = .ok next) :
    next.module c = moduleCalls.run (dock.module c) (callsOn c (dock.lineCall command)) := by
  cases command with
  | nil => contradiction
  | cons first rest =>
    rw [processCommand_cons] at processed
    split at processed
    next information =>
      rw [(dock.processInformation_frame next _ processed).2,dock.lineCall_other first rest]
      · rfl
      all_goals
        rw [information]
        decide
    split at processed
    next update =>
      subst update
      exact dock.processUpdate_call next rest c processed
    split at processed
    next disconnect =>
      subst disconnect
      refine dock.processChange_call next 'd' rest c _ (fun _ => .disconnect) (fun _ _ => rfl) ?_ ?_ processed
      · intro channel size x read indexed
        unfold lineCall
        rw [read]
        dsimp only
        rw [indexed]
        rfl
      · exact fun channel size read => dock.lineCall_beyond _ channel size read
    split at processed
    next connect =>
      subst connect
      refine dock.processChange_call next 'c' rest c _ .connect (fun _ _ => rfl) ?_ ?_ processed
      · intro channel size x read indexed
        unfold lineCall
        rw [read]
        dsimp only
        rw [indexed]
        rfl
      · exact fun channel size read => dock.lineCall_beyond _ channel size read
    next update disconnect connect =>
      rw [← Except.ok.inj processed,dock.lineCall_other first rest update disconnect connect]
      rfl

theorem readInput_calls (dock next : FlotillaDock) (input left : List Arrival) (c : Fin maxChannels)
    (read : dock.readInput input = .ok (next,left)) :
    next.module c = moduleCalls.run (dock.module c) (dock.inputCalls c input) := by
  induction dock, input using readInput.induct with
  | case1 dock input waiting mid processed ih =>
    rw [readInput,dif_pos waiting,processed] at read
    rw [inputCalls,dif_pos waiting,processed,Machine.run_append,← dock.processCommand_call mid _ c processed]
    exact ih read
  | case2 dock input waiting fault failed =>
    rw [readInput,dif_pos waiting,failed] at read
    contradiction
  | case3 dock input idle =>
    rw [readInput,dif_neg idle] at read
    rw [inputCalls,dif_neg idle,← (Prod.mk.inj (Except.ok.inj read)).1]
    rfl

theorem polledUpdate_calls (m : FlotillaModule) :
    polledUpdate m = moduleCalls.run m (if m.state = .moduleConnected then [.getNextUpdate] else []) := by
  unfold polledUpdate
  split <;> rfl

theorem polledCommand_calls (m : FlotillaModule) :
    polledCommand m = moduleCalls.run m (if m.state = .moduleConnected then [.getNextCommand] else []) := by
  unfold polledCommand
  split <;> rfl

/-- The dock that a tick leaves, or the one it has when it fails on a line. -/
def afterTick (dock : FlotillaDock) (port : SerialPort) : FlotillaDock :=
  match dock.tick port with
  | .ok (next,_) => next
  | .error _ => (dock.writeQueues port).1

theorem afterTick_off (dock : FlotillaDock) (port : SerialPort) (off : dock.state ≠ .connected) :
    dock.afterTick port = dock := by
  rw [afterTick,tick,if_pos off]

theorem afterTick_calls (dock : FlotillaDock) (port : SerialPort) (c : Fin maxChannels) :
    (dock.afterTick port).module c = moduleCalls.run (dock.module c) (dock.tickCalls c port) := by
  by_cases connected : dock.state = .connected
  swap
  · rw [dock.afterTick_off port connected,tickCalls,if_pos connected]
    rfl
  have written : (dock.writeQueues port).1.module c = polledUpdate (dock.module c) := by
    rw [writeQueues_dock]
  unfold afterTick tickCalls
  rw [if_neg (not_not.mpr connected),Machine.run_append,← polledUpdate_calls,← written]
  cases returned : dock.tick port with
  | error fault =>
    dsimp only
    rw [Machine.run]
  | ok result =>
    obtain ⟨next,after⟩ := result
    obtain ⟨_,read⟩ := dock.tick_connected next port after connected returned
    dsimp only
    exact readInput_calls _ next _ _ c read

theorem loseModule_calls (dock : FlotillaDock) (channels : List (Fin maxChannels)) (c : Fin maxChannels) :
    (channels.foldl loseModule dock).module c =
      if c ∈ channels ∧ (dock.module c).state = .moduleConnected then (dock.module c).disconnect else dock.module c := by
  induction channels generalizing dock with
  | nil => simp
  | cons x rest ih =>
    rw [List.foldl_cons,ih]
    unfold loseModule
    by_cases connected : (dock.module x).state = .moduleConnected
    · rw [if_pos connected]
      by_cases own : c = x
      · subst own
        have lost : (((dock.setModule c (dock.module c).disconnect).queueModuleEvent c).module c) =
            (dock.module c).disconnect := Function.update_self ..
        rw [lost]
        simp [connected,FlotillaModule.disconnect,FlotillaModule.emptyQueue]
      · have kept : (((dock.setModule x (dock.module x).disconnect).queueModuleEvent x).module c) = dock.module c :=
          Function.update_of_ne own ..
        rw [kept]
        simp [own]
    · rw [if_neg connected]
      by_cases own : c = x
      · subst own
        simp [connected]
      · simp [own]

theorem disconnect_calls (dock : FlotillaDock) (c : Fin maxChannels) :
    dock.disconnect.module c = moduleCalls.run (dock.module c)
      (if dock.state ≠ .disconnected ∧ (dock.module c).state = .moduleConnected then [.disconnect] else []) := by
  unfold disconnect
  by_cases off : dock.state = .disconnected
  · rw [if_pos off,if_neg fun lost => lost.1 off]
    rfl
  · rw [if_neg off,loseModule_calls]
    by_cases connected : (dock.module c).state = .moduleConnected
    · rw [if_pos ⟨List.mem_finRange c,connected⟩,if_pos ⟨off,connected⟩]
      rfl
    · rw [if_neg fun lost => connected lost.2,if_neg fun lost => connected lost.2]
      rfl

end FlotillaDock

namespace Host
variable {H : Type}

/-- No handler holds the mutex, and the server has not been stopped. -/
structure Serving (h : Host H) : Prop where
  free : h.flotilla.mutexClients = false
  running : h.flotilla.stopped = false

theorem handle_flotilla (h : Host H) (handler : Handler H Unit) : (h.handle handler).flotilla = h.flotilla.after handler := by
  unfold handle Flotilla.after
  cases handler.run h.flotilla <;> rfl

theorem handle_ok (h : Host H) (handler : Handler H Unit) (f : Flotilla H) (ran : handler.run h.flotilla = .ok () f) :
    h.handle handler = {h with flotilla := f} := by
  unfold handle
  rw [ran]

theorem tick_flotilla (h : Host H) (d : Fin maxDocks) (arrived : List Arrival) :
    (h.tick d arrived).flotilla =
      h.flotilla.changeDock d ((h.flotilla.dock d).afterTick ⟨h.written d,arrived⟩) := by
  unfold tick FlotillaDock.afterTick
  cases (h.flotilla.dock d).tick ⟨h.written d,arrived⟩ <;> rfl

variable [DecidableEq H]

/-- The calls that a step makes on one module. -/
def calls (h : Host H) (d : Fin maxDocks) (c : Fin maxChannels) (input : HostInput H) : List Call :=
  if h.halted then []
  else
    match input with
    | .message hdl (.update e x data) =>
      if hdl ∈ h.flotilla.clients ∧ e = d ∧ x = c then [.queueUpdate data.val] else []
    | .updateClients =>
      if (h.flotilla.dock d).state = .connected ∧ ((h.flotilla.dock d).module c).state = .moduleConnected
      then [.getNextCommand] else []
    | .tick e arrived => if e = d then (h.flotilla.dock d).tickCalls c ⟨h.written d,arrived⟩ else []
    | .disconnect e =>
      if e = d ∧ (h.flotilla.dock d).state ≠ .disconnected ∧
        ((h.flotilla.dock d).module c).state = .moduleConnected then [.disconnect] else []
    | _ => []

/-- No message that is not written like an update changes the module. -/
def Direct (network : Network H) (d : Fin maxDocks) (c : Fin maxChannels) (h : Host H) : HostInput H → Prop
  | .message hdl (.other payload) =>
    ((h.step network (.message hdl (.other payload))).flotilla.dock d).module c = (h.flotilla.dock d).module c
  | _ => True

/-- A message for a dock is an update written as the clients write it. -/
def Exact (_ : Host H) : HostInput H → Prop
  | .message _ (.other payload) => ¬ "dock:".toList <+: payload
  | _ => True

instance (h : Host H) (input : HostInput H) : Decidable (h.Exact input) :=
  match input with
  | .message _ (.other payload) => inferInstanceAs (Decidable (¬ "dock:".toList <+: payload))
  | .message _ (.session _) | .message _ (.update _ _ _) => .isTrue trivial
  | .opened _ | .closed _ | .failed _ | .updateClients | .tick _ _ | .disconnect _ | .setPort _ _ _ _ _ => .isTrue trivial

theorem exact_direct (network : Network H) (h : Host H) (d : Fin maxDocks) (c : Fin maxChannels) (input : HostInput H)
    (wellWritten : h.Exact input) : h.Direct network d c input := by
  unfold Direct
  split
  next hdl payload =>
    unfold step
    split
    · rfl
    · dsimp only
      rw [handle_flotilla]
      obtain ⟨_,_,_,same,_⟩ := Flotilla.message_effect network hdl payload h.flotilla wellWritten
      exact congrFun (congrArg FlotillaDock.module (congrFun (congrArg Flotilla.dock same) d)) c
  next => trivial

omit [DecidableEq H] in
theorem changeDock_module (f : Flotilla H) (e d : Fin maxDocks) (c : Fin maxChannels) (dock : FlotillaDock) :
    ((f.changeDock e dock).dock d).module c = if e = d then dock.module c else (f.dock d).module c := by
  rw [Flotilla.changeDock_dock]
  by_cases own : e = d
  · subst own
    rw [if_pos rfl,Function.update_self]
  · rw [if_neg own,Function.update_of_ne (Ne.symm own)]

theorem session_docks (network : Network H) (hdl : H) (m : ClientMessage) (f : Flotilla H) :
    (f.after (Flotilla.websocketOnMessage network hdl m.payload)).dock = f.dock := by
  have other : ¬ "dock:".toList <+: m.payload := by
    rw [← beginsWith_iff]
    cases m <;> exact Bool.false_ne_true
  obtain ⟨_,_,_,same,_⟩ := Flotilla.message_effect network hdl m.payload f other
  rw [same]

theorem update_run (network : Network H) (hdl : H) (d : Fin maxDocks) (c : Fin maxChannels) (data : Entry)
    (f : Flotilla H) (known : hdl ∈ f.clients) :
    (Flotilla.websocketOnMessage network hdl (Request.update d c data).payload).run f =
      .ok () (f.queued d c data.val) := by
  have ran := (Flotilla.websocketOnMessage_known network hdl _ f known).trans
    (Flotilla.handleMessage_dock network hdl _ f (Flotilla.update_start d c data))
  rw [Flotilla.dockMessage_update] at ran
  exact ran

/-- A message of the exact form takes one update in for one module and changes nothing else. -/
theorem step_update (network : Network H) (h : Host H) (hdl : H) (d : Fin maxDocks) (c : Fin maxChannels) (data : Entry)
    (running : h.halted = false) (known : hdl ∈ h.flotilla.clients) :
    h.step network (.message hdl (.update d c data)) = {h with flotilla := h.flotilla.queued d c data.val} := by
  rw [step,if_neg (Bool.eq_false_iff.mp running)]
  exact h.handle_ok _ _ (update_run network hdl d c data h.flotilla known)

omit [DecidableEq H] in
theorem queued_module (f : Flotilla H) (e d : Fin maxDocks) (x c : Fin maxChannels) (data : Text) :
    ((f.queued e x data).dock d).module c =
      if e = d ∧ x = c then ((f.dock d).module c).queueUpdate data else (f.dock d).module c := by
  rw [Flotilla.queued,changeDock_module]
  by_cases docked : e = d
  · subst docked
    by_cases own : x = c
    · subst own
      rw [if_pos rfl,if_pos ⟨rfl,rfl⟩]
      exact Function.update_self ..
    · rw [if_pos rfl,if_neg fun same => own same.2]
      exact Function.update_of_ne (Ne.symm own) ..
  · rw [if_neg docked,if_neg fun same => docked same.1]

theorem after_update (network : Network H) (hdl : H) (d : Fin maxDocks) (c : Fin maxChannels) (data : Entry)
    (f : Flotilla H) : f.after (Flotilla.websocketOnMessage network hdl (Request.update d c data).payload) =
      if hdl ∈ f.clients then f.queued d c data.val else f := by
  by_cases known : hdl ∈ f.clients
  · rw [if_pos known,Flotilla.after,update_run network hdl d c data f known]
  · rw [if_neg known,Flotilla.after,Flotilla.websocketOnMessage_unknown network hdl _ f known]

omit [DecidableEq H] in
theorem handle_goes_on (h : Host H) (handler : Handler H Unit) (running : (h.handle handler).halted = false) :
    ∃ f, handler.run h.flotilla = .ok () f ∧ h.handle handler = {h with flotilla := f} := by
  unfold handle at running ⊢
  cases ran : handler.run h.flotilla with
  | ok _ f => exact ⟨f,rfl,rfl⟩
  | error fault f =>
    rw [ran] at running
    contradiction

omit [DecidableEq H] in
theorem tick_goes_on (h : Host H) (d : Fin maxDocks) (arrived : List Arrival) (running : (h.tick d arrived).halted = false) :
    ∃ dock port, (h.flotilla.dock d).tick ⟨h.written d,arrived⟩ = .ok (dock,port) ∧
      h.tick d arrived = {h.changeDock d dock with written := Function.update h.written d port.written} := by
  unfold tick at running ⊢
  cases ran : (h.flotilla.dock d).tick ⟨h.written d,arrived⟩ with
  | ok result =>
    obtain ⟨dock,port⟩ := result
    exact ⟨dock,port,rfl,rfl⟩
  | error fault =>
    rw [ran] at running
    generalize (h.flotilla.dock d).writeQueues ⟨h.written d,arrived⟩ = queues at running
    simp at running

theorem step_halted (network : Network H) (h : Host H) (halted : h.halted = true) (input : HostInput H) :
    h.step network input = h := by
  unfold step
  exact if_pos halted

theorem step_running (network : Network H) (h : Host H) (running : h.halted = false) (input : HostInput H) :
    h.step network input = match input with
      | .opened hdl => h.handle (Flotilla.websocketOnOpen hdl)
      | .closed hdl => h.handle (Flotilla.websocketOnClose hdl)
      | .failed hdl => h.handle (Flotilla.websocketOnFail hdl)
      | .message hdl request => h.handle (Flotilla.websocketOnMessage network hdl request.payload)
      | .updateClients => h.handle (Flotilla.updateClients network)
      | .tick d arrived => h.tick d arrived
      | .disconnect d => h.changeDock d (h.flotilla.dock d).disconnect
      | .setPort d copied opened banner arrived =>
        h.changeDock d ((h.flotilla.dock d).setPort copied opened banner arrived).1 := by
  unfold step
  exact if_neg (Bool.eq_false_iff.mp running)

/-- What each input makes of the daemon, unless it has been halted. -/
def next (network : Network H) (h : Host H) : HostInput H → Flotilla H
  | .opened hdl =>
    {h.flotilla with
      clients := h.flotilla.clients.insert hdl (((h.flotilla.clients.lookup hdl).getD .new).assign .new)}
  | .closed hdl | .failed hdl => {h.flotilla with clients := h.flotilla.clients.erase hdl}
  | .message hdl request => h.flotilla.after (Flotilla.websocketOnMessage network hdl request.payload)
  | .updateClients =>
    {h.flotilla with
      dock := fun d => (h.flotilla.dock d).afterPass
      transmissions := h.flotilla.transmissions ++ (List.finRange maxDocks).flatMap h.flotilla.passSends}
  | .tick d arrived => h.flotilla.changeDock d ((h.flotilla.dock d).afterTick ⟨h.written d,arrived⟩)
  | .disconnect d => h.flotilla.changeDock d (h.flotilla.dock d).disconnect
  | .setPort d copied opened banner arrived =>
    h.flotilla.changeDock d ((h.flotilla.dock d).setPort copied opened banner arrived).1

theorem step_flotilla (network : Network H) (h : Host H) (serving : h.Serving) (input : HostInput H) :
    (h.step network input).flotilla = if h.halted = true then h.flotilla else h.next network input := by
  have free := serving.free
  unfold step
  split
  · rfl
  cases input with
  | opened hdl =>
    dsimp only
    rw [handle_ok _ _ _ (Flotilla.websocketOnOpen_run hdl _ free)]
    rfl
  | closed hdl =>
    dsimp only
    rw [handle_ok _ _ _ (Flotilla.websocketOnClose_run hdl _ free)]
    rfl
  | failed hdl =>
    dsimp only
    rw [Flotilla.websocketOnFail_eq,handle_ok _ _ _ (Flotilla.websocketOnClose_run hdl _ free)]
    rfl
  | message hdl request => exact h.handle_flotilla _
  | updateClients =>
    dsimp only
    rw [handle_ok _ _ _ (Flotilla.updateClients_run network h.flotilla free)]
    exact Flotilla.servedAll_eq _ serving.running
  | tick d arrived => exact h.tick_flotilla d arrived
  | disconnect d => rfl
  | setPort d copied opened banner arrived => rfl

theorem running_flotilla (network : Network H) (h : Host H) (serving : h.Serving) (running : h.halted = false)
    (input : HostInput H) : (h.step network input).flotilla = h.next network input := by
  rw [h.step_flotilla network serving input]
  exact if_neg (Bool.eq_false_iff.mp running)

/-- Each module of each dock runs as the machine of its calls. -/
theorem step_calls (network : Network H) (h : Host H) (serving : h.Serving) (d : Fin maxDocks) (c : Fin maxChannels)
    (input : HostInput H) (direct : h.Direct network d c input) :
    ((h.step network input).flotilla.dock d).module c =
      moduleCalls.run ((h.flotilla.dock d).module c) (h.calls d c input) := by
  have stepped := h.step_flotilla network serving input
  unfold calls
  by_cases halted : h.halted = true
  · rw [stepped,if_pos halted,if_pos halted]
    rfl
  rw [if_neg halted] at stepped ⊢
  cases input with
  | opened hdl | closed hdl | failed hdl =>
    rw [stepped]
    rfl
  | message hdl request =>
    cases request with
    | session m =>
      rw [stepped]
      exact congrFun (congrArg FlotillaDock.module (congrFun (session_docks network hdl m h.flotilla) d)) c
    | update e x data =>
      rw [stepped,next,after_update]
      dsimp only
      by_cases known : hdl ∈ h.flotilla.clients
      · rw [if_pos known,queued_module]
        by_cases own : e = d ∧ x = c
        · rw [if_pos own,if_pos ⟨known,own⟩]
          rfl
        · rw [if_neg own,if_neg fun same => own same.2]
          rfl
      · rw [if_neg known,if_neg fun same => known same.1]
        rfl
    | other payload => exact direct
  | updateClients =>
    rw [stepped]
    change (if (h.flotilla.dock d).state = .connected then FlotillaDock.polledCommand _ else _) = _
    by_cases connected : (h.flotilla.dock d).state = .connected
    · simp only [connected,if_true,true_and,FlotillaDock.polledCommand_calls]
    · rw [if_neg connected,if_neg fun polled => connected polled.1]
      rfl
  | tick e arrived =>
    rw [stepped,next,changeDock_module]
    dsimp only
    by_cases docked : e = d
    · subst docked
      rw [if_pos rfl,if_pos rfl]
      exact (h.flotilla.dock e).afterTick_calls _ c
    · rw [if_neg docked,if_neg docked]
      rfl
  | disconnect e =>
    rw [stepped,next,changeDock_module]
    dsimp only
    by_cases docked : e = d
    · subst docked
      rw [if_pos rfl,(h.flotilla.dock e).disconnect_calls c]
      simp only [true_and]
    · rw [if_neg docked,if_neg fun same => docked same.1]
      rfl
  | setPort e copied opened banner arrived =>
    rw [stepped,next,changeDock_module]
    by_cases docked : e = d
    · subst docked
      obtain ⟨next,ok,set,_,introduced⟩ := (h.flotilla.dock e).setPort_effect copied opened banner arrived
      obtain ⟨_,_,_,_,rfl⟩ := introduced
      rw [if_pos rfl,set]
      rfl
    · rw [if_neg docked]
      rfl

theorem step_serving (network : Network H) (h : Host H) (serving : h.Serving) (input : HostInput H) :
    (h.step network input).Serving := by
  have kept : (h.step network input).flotilla.mutexClients = h.flotilla.mutexClients ∧
      (h.step network input).flotilla.stopped = h.flotilla.stopped := by
    rw [h.step_flotilla network serving input]
    split
    · exact ⟨rfl,rfl⟩
    cases input with
    | message hdl request => exact Flotilla.message_serving network hdl request.payload h.flotilla
    | opened _ | closed _ | failed _ | updateClients | tick _ _ | disconnect _ | setPort _ _ _ _ _ => exact ⟨rfl,rfl⟩
  exact ⟨kept.1.trans serving.free,kept.2.trans serving.running⟩

end Host

end FlotillaDaemon
