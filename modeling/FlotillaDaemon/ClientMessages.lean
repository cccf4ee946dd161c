import FlotillaDaemon.AssociationList
import FlotillaDaemon.HandlerRuns

/-! The messages with which a client manages its own session, and the run of each handler
that touches the table of clients. Each changes one entry of it and may greet that client. -/
namespace FlotillaDaemon
open Cpp AssociationList

inductive ClientMessage
  | ready
  | pause
  | hello
  | subscribe (x : Text)
  | unsubscribe (x : Text)
  deriving DecidableEq

def ClientMessage.payload : ClientMessage → Text
  | .ready => "ready".toList
  | .pause => "pause".toList
  | .hello => "hello".toList
  | .subscribe x => "subscribe:".toList ++ x
  | .unsubscribe x => "unsubscribe:".toList ++ x

/-- The dock that a subscription names, if it is accepted; only two characters are read. -/
def subscriptionDock (x : Text) : Option Int :=
  match stoi (x.take 2) with
  | .ok (dockIndex,_) => if dockIndex > -1 ∧ dockIndex < maxDocks then some dockIndex else none
  | .error _ => none

/-- What a message does to the record of the client that sends it. -/
def ClientMessage.change : ClientMessage → FlotillaClient → FlotillaClient
  | .ready,client => {client with ready := true,connected := true}
  | .pause,client => {client with ready := false}
  | .hello,client => client
  | .subscribe x,client => (subscriptionDock x).elim client client.subscribe
  | .unsubscribe x,client => (subscriptionDock x).elim client client.unsubscribe

theorem subscriptionDock_range (x : Text) (d : Int) (accepted : subscriptionDock x = some d) :
    0 ≤ d ∧ d < maxDocks := by
  unfold subscriptionDock at accepted
  split at accepted
  · split at accepted
    next inside =>
      rw [← Option.some.inj accepted]
      exact ⟨by omega,inside.2⟩
    next => simp at accepted
  · simp at accepted

namespace Flotilla
variable {H : Type} [DecidableEq H]

/-- What the server sends back to a client at a message of it. -/
def answer (f : Flotilla H) (hdl : H) : ClientMessage → List (Transmission H)
  | .ready | .hello => f.greeting hdl
  | _ => []

def changed (f : Flotilla H) (hdl : H) (client : FlotillaClient) : Flotilla H :=
  {f with clients := f.clients.replace hdl client}

theorem changed_found (f : Flotilla H) (hdl : H) (client : FlotillaClient) (found : f.clients.lookup hdl = some client) :
    f.changed hdl client = f := by
  rw [changed,replace_found hdl client f.clients found]

theorem changeClient_run (hdl : H) (change : FlotillaClient → FlotillaClient) (f : Flotilla H)
    (client : FlotillaClient) (found : f.clients.lookup hdl = some client) :
    (changeClient hdl change).run f = .ok () (f.changed hdl (change client)) := by
  have located : (getClientFromHdl hdl).run f = .ok client f := by
    simp [getClientFromHdl,found]
  unfold changeClient
  simp only [EStateM.run_bind,located]
  rfl

theorem subscriptionMessage_run (key : Text) (change : FlotillaClient → Int → FlotillaClient) (hdl : H) (x : Text)
    (f : Flotilla H) (client : FlotillaClient) (found : f.clients.lookup hdl = some client) :
    (subscriptionMessage key change hdl (key ++ x)).run f =
      .ok () (f.changed hdl ((subscriptionDock x).elim client (change client))) := by
  have cut : substrN (key ++ x) key.length 2 = .ok (x.take 2) := by
    refine (substrN_ok_iff _ _ _ _).mpr ⟨by simp,?_⟩
    rw [List.drop_left]
  have parsed : (substrN (key ++ x) key.length 2 >>= fun text => stoi text : Outcome (Int × Nat)) = stoi (x.take 2) := by
    rw [cut]
    rfl
  unfold subscriptionMessage subscriptionDock
  rw [parsed]
  cases read : stoi (x.take 2) with
  | error fault =>
    have caught : fault.isException = true := stoi_defined _ fault read
    simp only [if_pos caught]
    rw [Option.elim,changed_found f hdl client found]
    rfl
  | ok value =>
    obtain ⟨dockIndex,size⟩ := value
    by_cases inside : dockIndex > -1 ∧ dockIndex < maxDocks
    · simp only [if_pos inside]
      exact changeClient_run hdl (fun client => change client dockIndex) f client found
    · simp only [if_neg inside]
      rw [Option.elim,changed_found f hdl client found]
      rfl

theorem handleMessage_session (network : Network H) (hdl : H) (m : ClientMessage) :
    handleMessage network hdl m.payload =
      match m with
      | .ready => do
        changeClient hdl (ClientMessage.ready.change)
        initClient network hdl
      | .pause => changeClient hdl (ClientMessage.pause.change)
      | .hello => initClient network hdl
      | .subscribe x => subscriptionMessage "subscribe:".toList FlotillaClient.subscribe hdl ("subscribe:".toList ++ x)
      | .unsubscribe x =>
        subscriptionMessage "unsubscribe:".toList FlotillaClient.unsubscribe hdl ("unsubscribe:".toList ++ x) := by
  cases m <;> rfl

/-- A message changes the client's record first and greets it then, if at all. -/
theorem message_run (network : Network H) (hdl : H) (m : ClientMessage) (f : Flotilla H) (client : FlotillaClient)
    (found : f.clients.lookup hdl = some client) :
    (websocketOnMessage network hdl m.payload).run f =
      (transmitAll network (f.answer hdl m)).run (f.changed hdl (m.change client)) := by
  have known : hdl ∈ f.clients := AList.lookup_isSome.mp (by rw [found]; rfl)
  rw [websocketOnMessage_known network hdl m.payload f known,handleMessage_session]
  cases m with
  | ready =>
    simp only [EStateM.run_bind,changeClient_run hdl _ f client found]
    exact initClient_sends network hdl _
  | pause => exact changeClient_run hdl _ f client found
  | hello =>
    rw [ClientMessage.change,changed_found f hdl client found]
    exact initClient_sends network hdl f
  | subscribe x => exact subscriptionMessage_run "subscribe:".toList FlotillaClient.subscribe hdl x f client found
  | unsubscribe x => exact subscriptionMessage_run "unsubscribe:".toList FlotillaClient.unsubscribe hdl x f client found

theorem websocketOnOpen_run (hdl : H) (f : Flotilla H) (free : f.mutexClients = false) :
    (websocketOnOpen hdl).run f =
      .ok () {f with clients := f.clients.insert hdl (((f.clients.lookup hdl).getD .new).assign .new)} := by
  unfold websocketOnOpen
  simp only [EStateM.run_bind,lockClients_run f free]
  change EStateM.Result.ok () {f with clients := _,mutexClients := false} = _
  rw [← free]

theorem websocketOnClose_run (hdl : H) (f : Flotilla H) (free : f.mutexClients = false) :
    (websocketOnClose hdl).run f = .ok () {f with clients := f.clients.erase hdl} := by
  unfold websocketOnClose
  simp only [EStateM.run_bind,lockClients_run f free]
  change EStateM.Result.ok () {f with clients := _,mutexClients := false} = _
  rw [← free]

/-- Every other message is a dock's, or `quit`, or does nothing. -/
theorem payload_cases (payload : Text) :
    "dock:".toList <+: payload ∨ payload = "quit".toList ∨ (∃ m : ClientMessage, payload = m.payload) ∨
      ∀ (network : Network H) (hdl : H), handleMessage network hdl payload = pure () := by
  by_cases dock : beginsWith "dock:".toList payload = true
  · exact .inl ((beginsWith_iff _ _).mp dock)
  by_cases subs : beginsWith "subscribe:".toList payload = true
  · obtain ⟨x,rfl⟩ := (beginsWith_iff _ _).mp subs
    exact .inr (.inr (.inl ⟨.subscribe x,rfl⟩))
  by_cases usub : beginsWith "unsubscribe:".toList payload = true
  · obtain ⟨x,rfl⟩ := (beginsWith_iff _ _).mp usub
    exact .inr (.inr (.inl ⟨.unsubscribe x,rfl⟩))
  by_cases quit : payload = "quit".toList
  · exact .inr (.inl quit)
  by_cases hello : payload = "hello".toList
  · exact .inr (.inr (.inl ⟨.hello,hello⟩))
  by_cases ready : payload = "ready".toList
  · exact .inr (.inr (.inl ⟨.ready,ready⟩))
  by_cases pause : payload = "pause".toList
  · exact .inr (.inr (.inl ⟨.pause,pause⟩))
  refine .inr (.inr (.inr fun network hdl => ?_))
  rw [handleMessage,if_neg dock,if_neg subs,if_neg usub,if_neg quit,if_neg hello,if_neg ready,if_neg pause]

/-- What `stop_server` sends. -/
def farewell (f : Flotilla H) : List (Transmission H) :=
  f.clients.entries.flatMap fun client => [.text client.1 "bye".toList,.close client.1]

omit [DecidableEq H] in
theorem stopServer_run (network : Network H) (f : Flotilla H) :
    (stopServer network).run f =
      if f.listening = true then (transmitAll network f.farewell).run {f with listening := false}
      else .error .otherException f := by
  by_cases listening : f.listening = true
  · have stopped : (stopListening : Handler H Unit).run f = .ok () {f with listening := false} := by
      simp [stopListening,listening]
    have loop := loop_sends network f.clients.entries (fun client _ => do
        transmit network (.text client.1 "bye".toList)
        transmit network (.close client.1)
        pure (ForInStep.yield PUnit.unit)) (fun client _ => [.text client.1 "bye".toList,.close client.1])
      (fun client g => by simp only [transmitAll,bind_assoc,pure_bind]) (fun _ _ _ => rfl) {f with listening := false}
    rw [if_pos listening,farewell,← loop]
    unfold stopServer
    simp only [EStateM.run_bind,EStateM.run_get,stopped]
    generalize EStateM.run (forIn f.clients.entries PUnit.unit _) _ = ended
    cases ended <;> rfl
  · have deaf : (stopListening : Handler H Unit).run f = .error .otherException f := by
      simp [stopListening,listening]
    rw [if_neg listening,stopServer,EStateM.run_bind,deaf]

theorem websocketOnFail_eq (hdl : H) : websocketOnFail hdl = websocketOnClose hdl := rfl

end Flotilla

end FlotillaDaemon
