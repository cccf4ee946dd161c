import FlotillaDaemon.ClientMessages

/-! Who is sent what `send_to_clients` sends. A client is due a message for a dock by its own
messages since it was opened, whatever becomes of the sends of the run. -/
namespace FlotillaDaemon
open Cpp AssociationList Replay

inductive SessionEvent (H : Type)
  | opened (hdl : H)
  | closed (hdl : H)
  | failed (hdl : H)
  | message (hdl : H) (m : ClientMessage)
  | sendToClients (command : Text) (d : Fin maxDocks)
  deriving DecidableEq

section Sessions
variable {H : Type} [DecidableEq H]

def SessionEvent.handler (network : Network H) : SessionEvent H → Handler H Unit
  | .opened hdl => Flotilla.websocketOnOpen hdl
  | .closed hdl => Flotilla.websocketOnClose hdl
  | .failed hdl => Flotilla.websocketOnFail hdl
  | .message hdl m => Flotilla.websocketOnMessage network hdl m.payload
  | .sendToClients command d => Flotilla.sendToClients network command d.val

def sessions (network : Network H) : Machine (Flotilla H) (SessionEvent H) Unit :=
  ⟨fun f event => (f.after (event.handler network),())⟩

/-- A handle is opened only while no client has it. -/
def OpensFresh (f : Flotilla H) : SessionEvent H → Prop
  | .opened hdl => hdl ∉ f.clients
  | _ => True

instance (f : Flotilla H) (event : SessionEvent H) : Decidable (OpensFresh f event) := by
  unfold OpensFresh
  split <;> infer_instance

/-- The messages of a client since it was opened, if it is open. -/
def heard (hdl : H) (session : Option (List ClientMessage)) : SessionEvent H → Option (List ClientMessage)
  | .opened other => if other = hdl then some [] else session
  | .closed other | .failed other => if other = hdl then none else session
  | .message other m => if other = hdl then session.map (· ++ [m]) else session
  | .sendToClients _ _ => session

def openSession (hdl : H) (events : List (SessionEvent H)) : Option (List ClientMessage) := events.foldl (heard hdl) none

end Sessions

inductive Setting
  | ready
  | dock (d : Int)
  deriving DecidableEq

/-- What a message sets, and to what. -/
def ClientMessage.setting : ClientMessage → Option (Setting × Bool)
  | .ready => some (.ready,true)
  | .pause => some (.ready,false)
  | .hello => none
  | .subscribe x => (subscriptionDock x).map fun d => (.dock d,true)
  | .unsubscribe x => (subscriptionDock x).map fun d => (.dock d,false)

/-- The latest `ready` or `pause` is `ready`, and the latest accepted subscription or
unsubscription of the dock is a subscription. -/
def Due (messages : List ClientMessage) (d : Int) : Prop :=
  latest Prod.fst .ready (messages.filterMap ClientMessage.setting) = some (.ready,true) ∧
    latest Prod.fst (.dock d) (messages.filterMap ClientMessage.setting) = some (.dock d,true)

instance (messages : List ClientMessage) (d : Int) : Decidable (Due messages d) := inferInstanceAs (Decidable (_ ∧ _))

namespace FlotillaClient

def setting (client : FlotillaClient) : Setting → Bool
  | .ready => client.ready
  | .dock d => client.subscribedTo d

/-- The record of a client is what its messages have made of it. -/
structure Follows (client : FlotillaClient) (messages : List ClientMessage) : Prop where
  settings : client.setting = replay Prod.fst Prod.snd (fun _ => false) (messages.filterMap ClientMessage.setting)
  keys : ∀ key, client.dockSubscription key ≠ none → 0 ≤ key ∧ key < maxDocks

def record (client : FlotillaClient) (d : Int) (subscribed : Bool) : FlotillaClient :=
  {client with dockSubscription := Function.update client.dockSubscription d (some subscribed)}

theorem record_setting (client : FlotillaClient) (d : Int) (subscribed : Bool) :
    (client.record d subscribed).setting = Function.update client.setting (.dock d) subscribed := by
  funext setting
  cases setting with
  | ready => rfl
  | dock other =>
    by_cases own : other = d
    · subst own
      simp [FlotillaClient.setting,record,subscribedTo]
    · simp [FlotillaClient.setting,record,subscribedTo,own]

theorem follows_new : (FlotillaClient.new.assign .new).Follows [] := by
  refine ⟨?_,fun key known => absurd rfl known⟩
  funext setting
  cases setting <;> rfl

theorem follows_record (messages : List ClientMessage) (client : FlotillaClient) (follows : client.Follows messages)
    (x : Text) (subscribed : Bool) (m : ClientMessage)
    (sets : m.setting = (subscriptionDock x).map fun d => (.dock d,subscribed)) :
    ((subscriptionDock x).elim client (client.record · subscribed)).Follows (messages ++ [m]) := by
  cases accepted : subscriptionDock x with
  | none =>
    rw [accepted] at sets
    refine ⟨?_,follows.keys⟩
    rw [List.filterMap_append,List.filterMap_cons_none sets,List.filterMap_nil,List.append_nil]
    exact follows.settings
  | some d =>
    rw [accepted] at sets
    refine ⟨?_,fun key known => ?_⟩
    · rw [Option.elim,record_setting,follows.settings,List.filterMap_append,replay_append,
        List.filterMap_cons_some sets]
      rfl
    · by_cases own : key = d
      · rw [own]
        exact subscriptionDock_range x d accepted
      · apply follows.keys key
        intro none
        exact known ((Function.update_of_ne own ..).trans none)

/-- A message changes the record as it changes the settings. -/
theorem follows_change (messages : List ClientMessage) (client : FlotillaClient) (follows : client.Follows messages)
    (m : ClientMessage) : (m.change client).Follows (messages ++ [m]) := by
  have ready (value connected : Bool) : setting {client with ready := value,connected := connected} =
      Function.update client.setting .ready value := by
    funext setting
    cases setting <;> simp [FlotillaClient.setting,subscribedTo]
  cases m with
  | ready =>
    refine ⟨?_,follows.keys⟩
    rw [List.filterMap_append,replay_append,← follows.settings]
    exact ready true true
  | pause =>
    refine ⟨?_,follows.keys⟩
    rw [List.filterMap_append,replay_append,← follows.settings]
    exact ready false client.connected
  | hello =>
    refine ⟨?_,follows.keys⟩
    rw [List.filterMap_append,replay_append,← follows.settings]
    rfl
  | subscribe x => exact follows_record messages client follows x true _ rfl
  | unsubscribe x => exact follows_record messages client follows x false _ rfl

/-- What a client is due is what its record lets through. -/
theorem due_iff (messages : List ClientMessage) (client : FlotillaClient) (follows : client.Follows messages)
    (d : Int) : (client.ready && client.subscribedTo d) = true ↔ Due messages d := by
  have set (s : Setting) : client.setting s = true ↔
      latest Prod.fst s (messages.filterMap ClientMessage.setting) = some (s,true) := by
    rw [follows.settings,replay_apply]
    cases last : latest Prod.fst s (messages.filterMap ClientMessage.setting) with
    | none => simp
    | some entry =>
      have own := latest_key Prod.fst s _ entry last
      obtain ⟨key,value⟩ := entry
      dsimp only at own
      subst own
      simp
  rw [Bool.and_eq_true]
  exact and_congr (set .ready) (set (.dock d))

end FlotillaClient

namespace Flotilla
variable {H : Type} [DecidableEq H]

/-- Each open client has its record, and no other is kept. -/
structure Recorded (histories : H → Option (List ClientMessage)) (f : Flotilla H) : Prop where
  free : f.mutexClients = false
  running : f.stopped = false
  records : ∀ hdl, Option.Rel FlotillaClient.Follows (f.clients.lookup hdl) (histories hdl)

theorem Recorded.found {histories : H → Option (List ClientMessage)} {f : Flotilla H} (kept : Recorded histories f)
    (hdl : H) (client : FlotillaClient) (found : f.clients.lookup hdl = some client) :
    ∃ messages, histories hdl = some messages ∧ client.Follows messages := by
  have record := kept.records hdl
  rw [found] at record
  generalize histories hdl = session at record
  cases record with
  | some follows => exact ⟨_,rfl,follows⟩

theorem Recorded.known {histories : H → Option (List ClientMessage)} {f : Flotilla H} (kept : Recorded histories f)
    (hdl : H) (messages : List ClientMessage) (known : histories hdl = some messages) :
    ∃ client, f.clients.lookup hdl = some client ∧ client.Follows messages := by
  have record := kept.records hdl
  rw [known] at record
  generalize f.clients.lookup hdl = entry at record
  cases record with
  | some follows => exact ⟨_,rfl,follows⟩

theorem Recorded.missing {histories : H → Option (List ClientMessage)} {f : Flotilla H} (kept : Recorded histories f)
    (hdl : H) (missing : f.clients.lookup hdl = none) : histories hdl = none := by
  have record := kept.records hdl
  rw [missing] at record
  generalize histories hdl = session at record
  cases record with
  | none => rfl

/-- A server that serves but has no client yet. -/
def serving (f : Flotilla H) : Flotilla H := {f with clients := ∅,mutexClients := false,stopped := false}

theorem recorded_serving (f : Flotilla H) : Recorded (fun _ => none) f.serving :=
  ⟨rfl,rfl,fun _ => .none⟩

theorem recorded_closed (histories : H → Option (List ClientMessage)) (f : Flotilla H) (kept : Recorded histories f)
    (hdl : H) : Recorded (fun other => if hdl = other then none else histories other)
      {f with clients := f.clients.erase hdl} := by
  refine ⟨kept.free,kept.running,fun other => ?_⟩
  by_cases own : hdl = other
  · subst own
    rw [if_pos rfl,AList.lookup_erase]
    exact .none
  · rw [if_neg own,AList.lookup_erase_ne (Ne.symm own)]
    exact kept.records other

theorem recorded_message (network : Network H) (histories : H → Option (List ClientMessage)) (f : Flotilla H)
    (kept : Recorded histories f) (hdl : H) (m : ClientMessage) :
    Recorded (fun other => if hdl = other then (histories other).map (· ++ [m]) else histories other)
      (f.after (websocketOnMessage network hdl m.payload)) := by
  cases found : f.clients.lookup hdl with
  | none =>
    have unknown := websocketOnMessage_unknown network hdl m.payload f (AList.lookup_eq_none.mp found)
    rw [after,unknown]
    refine ⟨kept.free,kept.running,fun other => ?_⟩
    by_cases own : hdl = other
    · subst own
      rw [if_pos rfl,found,kept.missing hdl found]
      exact .none
    · rw [if_neg own]
      exact kept.records other
  | some client =>
    have known : hdl ∈ f.clients := AList.lookup_isSome.mp (by rw [found]; rfl)
    have same : f.after (websocketOnMessage network hdl m.payload) =
        (f.changed hdl (m.change client)).after (transmitAll network (f.answer hdl m)) := by
      rw [after,after,message_run network hdl m f client found]
    rw [same,after_transmitAll]
    refine ⟨kept.free,kept.running,fun other => ?_⟩
    change Option.Rel _ ((f.clients.replace hdl (m.change client)).lookup other) _
    by_cases own : hdl = other
    · subst own
      obtain ⟨messages,heard,follows⟩ := kept.found hdl client found
      rw [if_pos rfl,lookup_replace hdl _ f.clients known,heard]
      exact .some (client.follows_change messages follows m)
    · rw [if_neg own,lookup_replace_other hdl other _ f.clients (Ne.symm own)]
      exact kept.records other

theorem recorded_step (network : Network H) (histories : H → Option (List ClientMessage)) (f : Flotilla H)
    (kept : Recorded histories f) (event : SessionEvent H) (fresh : OpensFresh f event) :
    Recorded (fun hdl => heard hdl (histories hdl) event) (f.after (event.handler network)) := by
  cases event with
  | opened hdl =>
    have missing := AList.lookup_eq_none.mpr fresh
    rw [SessionEvent.handler,after,websocketOnOpen_run hdl f kept.free,missing]
    refine ⟨kept.free,kept.running,fun other => ?_⟩
    dsimp only [heard]
    by_cases own : hdl = other
    · subst own
      rw [if_pos rfl,AList.lookup_insert]
      exact .some FlotillaClient.follows_new
    · rw [if_neg own,AList.lookup_insert_ne (Ne.symm own)]
      exact kept.records other
  | closed hdl =>
    rw [SessionEvent.handler,after,websocketOnClose_run hdl f kept.free]
    exact recorded_closed histories f kept hdl
  | failed hdl =>
    rw [SessionEvent.handler,websocketOnFail_eq,after,websocketOnClose_run hdl f kept.free]
    exact recorded_closed histories f kept hdl
  | message hdl m => exact recorded_message network histories f kept hdl m
  | sendToClients command d =>
    rw [SessionEvent.handler,after,sendToClients_run network command d.val f kept.free]
    dsimp only
    refine ⟨?_,?_,fun hdl => ?_⟩
    · rw [broadcast_mutex]
      exact kept.free
    · rw [broadcast,kept.running]
      exact kept.running
    · rw [broadcast_clients]
      exact kept.records hdl

theorem recorded_run (network : Network H) (events : List (SessionEvent H)) (f : Flotilla H)
    (histories : H → Option (List ClientMessage)) (kept : Recorded histories f)
    (fresh : (sessions network).Along OpensFresh f events) :
    Recorded (fun hdl => events.foldl (heard hdl) (histories hdl)) ((sessions network).run f events) := by
  induction events generalizing f histories with
  | nil => exact kept
  | cons event rest ih => exact ih _ _ (recorded_step network histories f kept event fresh.1) fresh.2

/-- What a `send_to_clients` has done: one attempt for each client that is due, and no other. -/
structure Delivered (f : Flotilla H) (command : Text) (due : H → Prop) (next : Flotilla H) : Prop where
  sent : ∃ audience : List H, audience.Nodup ∧ (∀ hdl, hdl ∈ audience ↔ due hdl) ∧
    next.transmissions = f.transmissions ++ audience.map (.text · command)
  free : next.mutexClients = false
  keys : ∀ hdl client, next.clients.lookup hdl = some client →
    ∀ key, client.dockSubscription key ≠ none → 0 ≤ key ∧ key < maxDocks

omit [DecidableEq H] in
theorem audience_nodup (f : Flotilla H) (dockIdx : Int) : (f.audience dockIdx).Nodup := by
  have keys : (f.clients.entries.map Sigma.fst).Nodup := f.clients.keys_nodup
  exact keys.sublist (List.filter_sublist.map Sigma.fst)

theorem mem_audience (histories : H → Option (List ClientMessage)) (f : Flotilla H) (kept : Recorded histories f)
    (d : Int) (hdl : H) : hdl ∈ f.audience d ↔ ∃ messages, histories hdl = some messages ∧ Due messages d := by
  have listed : hdl ∈ f.audience d ↔ ∃ client, f.clients.lookup hdl = some client ∧
      (client.ready && client.subscribedTo d) = true := by
    unfold audience
    rw [List.mem_map]
    constructor
    · rintro ⟨⟨key,client⟩,member,rfl⟩
      obtain ⟨inside,hears⟩ := List.mem_filter.mp member
      exact ⟨client,AList.mem_lookup_iff.mpr inside,hears⟩
    · rintro ⟨client,found,hears⟩
      exact ⟨⟨hdl,client⟩,List.mem_filter.mpr ⟨AList.mem_lookup_iff.mp found,hears⟩,rfl⟩
  rw [listed]
  constructor
  · rintro ⟨client,found,hears⟩
    obtain ⟨messages,known,follows⟩ := kept.found hdl client found
    exact ⟨messages,known,(client.due_iff messages follows d).mp hears⟩
  · rintro ⟨messages,known,due⟩
    obtain ⟨client,found,follows⟩ := kept.known hdl messages known
    exact ⟨client,found,(client.due_iff messages follows d).mpr due⟩

end Flotilla

/-- After any session events and any failing sends, a message for a dock is attempted once to
each open client that is due it by its own messages, and to no other. -/
theorem delivered_by_history {H : Type} [DecidableEq H] (network : Network H) (f : Flotilla H)
    (events : List (SessionEvent H)) (fresh : (sessions network).Along OpensFresh f.serving events)
    (command : Text) (d : Fin maxDocks) :
    ∃ next, (Flotilla.sendToClients network command d.val).run ((sessions network).run f.serving events) = .ok () next ∧
      ((sessions network).run f.serving events).Delivered command
        (fun hdl => ∃ messages, openSession hdl events = some messages ∧ Due messages d.val) next := by
  have kept := Flotilla.recorded_run network events f.serving (fun _ => none) f.recorded_serving fresh
  generalize (sessions network).run f.serving events = g at kept ⊢
  refine ⟨_,Flotilla.sendToClients_run network command d.val g kept.free,?_,?_,?_⟩
  · refine ⟨g.audience d.val,g.audience_nodup d.val,Flotilla.mem_audience _ g kept d.val,?_⟩
    rw [Flotilla.broadcast,kept.running,List.flatMap_singleton]
    rfl
  · rw [Flotilla.broadcast_mutex]
    exact kept.free
  · intro hdl client found
    rw [Flotilla.broadcast_clients] at found
    obtain ⟨messages,_,follows⟩ := kept.found hdl client found
    exact follows.keys

section Runs

/-- The second send of a run fails: the greeting of the client ends after its first line. -/
def flaky : Network Nat := ⟨fun earlier => earlier != 1,fun _ => true⟩

/-- The first client stays subscribed to a dock, the second one unsubscribes, the third one leaves. -/
def threeVisits : List (SessionEvent Nat) :=
  [.opened 1,.message 1 .ready,.message 1 (.subscribe "2x".toList),.sendToClients "a".toList 2,.opened 2,
    .message 2 .ready,.message 2 (.subscribe "2".toList),.opened 3,.message 3 .ready,.message 3 (.subscribe "2".toList),
    .sendToClients "c".toList 2,.message 2 (.unsubscribe "2".toList),.closed 3]

end Runs

theorem delivered_by_history_visits :
    (openSession 1 threeVisits).any (fun messages => decide (Due messages 2)) = true ∧
      (openSession 2 threeVisits).any (fun messages => decide (Due messages 2)) = false ∧ ∃ next,
        (Flotilla.sendToClients flaky "b".toList (2 : Fin maxDocks).val).run
            ((sessions flaky).run Flotilla.new.serving threeVisits) = .ok () next ∧
          ((sessions flaky).run Flotilla.new.serving threeVisits).Delivered "b".toList
            (fun hdl => ∃ messages, openSession hdl threeVisits = some messages ∧ Due messages (2 : Fin maxDocks).val) next :=
  ⟨by decide +kernel,by decide +kernel,delivered_by_history flaky .new threeVisits (by decide +kernel) "b".toList 2⟩

end FlotillaDaemon
