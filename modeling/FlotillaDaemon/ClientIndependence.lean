import FlotillaDaemon.HostSteps

/-! What a client cannot notice of another one. Leaving out everything that a client does for its
own session leaves every dock as it is, and everything that the others are sent. -/
namespace FlotillaDaemon
open Cpp Retained AssociationList

def Transmission.hdl {H : Type} : Transmission H → H
  | .text hdl _ => hdl
  | .binary hdl _ => hdl
  | .close hdl => hdl

/-- Every send of the network succeeds, and so does closing the connection of the client. -/
structure Network.Reaches {H : Type} (network : Network H) (hdl : H) : Prop where
  sends : ∀ earlier, network.sends earlier = true
  closes : network.closes hdl = true

section Results
variable {S : Type}

def onState (change : S → S) : EStateM.Result Fault S Unit → EStateM.Result Fault S Unit
  | .ok value state => .ok value (change state)
  | .error fault state => .error fault (change state)

end Results

namespace Flotilla
variable {H : Type} [DecidableEq H]

def sentTo (f : Flotilla H) (hdl : H) : List (Transmission H) := f.transmissions.filter (fun sent => sent.hdl = hdl)

/-- The daemon as if the client had never been there. -/
def without (hdl : H) (f : Flotilla H) : Flotilla H :=
  {f with
    clients := f.clients.erase hdl
    transmissions := f.transmissions.filter (fun sent => sent.hdl ≠ hdl)}

theorem sentTo_without (f : Flotilla H) (hdl other : H) (apart : other ≠ hdl) :
    (f.without hdl).sentTo other = f.sentTo other := by
  unfold sentTo without
  rw [List.filter_filter]
  apply List.filter_congr
  intro sent _
  by_cases own : sent.hdl = other <;> simp [own,apart]

theorem sent_without (f : Flotilla H) (hdl : H) (transmissions : List (Transmission H)) :
    (f.sent transmissions).without hdl =
      (f.without hdl).sent (transmissions.filter (fun sent => sent.hdl ≠ hdl)) := by
  simp only [without,sent,List.filter_append]

omit [DecidableEq H] in
theorem accepts_anywhere (network : Network H) (hdl : H) (reaches : network.Reaches hdl) (first second : Nat)
    (transmission : Transmission H) : network.accepts first transmission = network.accepts second transmission := by
  cases transmission with
  | close hdl => rfl
  | text hdl message => exact (reaches.sends first).trans (reaches.sends second).symm
  | binary hdl message => exact (reaches.sends first).trans (reaches.sends second).symm

omit [DecidableEq H] in
theorem accepts_own (network : Network H) (hdl : H) (reaches : network.Reaches hdl) (earlier : Nat)
    (transmission : Transmission H) (own : transmission.hdl = hdl) : network.accepts earlier transmission = true := by
  cases transmission with
  | close other =>
    have same : other = hdl := own
    rw [same]
    exact reaches.closes
  | text other message => exact reaches.sends earlier
  | binary other message => exact reaches.sends earlier

/-- What is sent to the client can be left out of what is sent. -/
theorem transmitAll_without (network : Network H) (hdl : H) (reaches : network.Reaches hdl)
    (transmissions : List (Transmission H)) (f : Flotilla H) :
    onState (without hdl) ((transmitAll network transmissions).run f) =
      (transmitAll network (transmissions.filter (fun sent => sent.hdl ≠ hdl))).run (f.without hdl) := by
  induction transmissions generalizing f with
  | nil => rfl
  | cons transmission rest ih =>
    rw [transmitAll,EStateM.run_bind,transmit_run]
    by_cases own : transmission.hdl = hdl
    · have gone : (f.sent [transmission]).without hdl = f.without hdl := by
        rw [sent_without,List.filter_cons_of_neg (by simpa using own),List.filter_nil,sent_nil]
      rw [if_pos (accepts_own network hdl reaches _ transmission own),List.filter_cons_of_neg (by simpa using own),← gone]
      exact ih _
    · have kept : (f.sent [transmission]).without hdl = (f.without hdl).sent [transmission] := by
        rw [sent_without,List.filter_cons_of_pos (by simpa using own),List.filter_nil]
      rw [List.filter_cons_of_pos (by simpa using own),transmitAll,EStateM.run_bind,transmit_run,
        accepts_anywhere network hdl reaches (f.without hdl).transmissions.length f.transmissions.length]
      by_cases accepted : network.accepts f.transmissions.length transmission = true
      · rw [if_pos accepted,if_pos accepted,← kept]
        exact ih _
      · rw [if_neg accepted,if_neg accepted,← kept]
        rfl

omit [DecidableEq H] in
theorem transmitAll_own (network : Network H) (hdl : H) (reaches : network.Reaches hdl)
    (transmissions : List (Transmission H)) (own : ∀ sent ∈ transmissions, sent.hdl = hdl) (f : Flotilla H) :
    (transmitAll network transmissions).run f = .ok () (f.sent transmissions) := by
  induction transmissions generalizing f with
  | nil =>
    rw [sent_nil]
    rfl
  | cons transmission rest ih =>
    have accepted := accepts_own network hdl reaches f.transmissions.length transmission (own _ List.mem_cons_self)
    rw [transmitAll,EStateM.run_bind,transmit_run,if_pos accepted,sent_cons f transmission rest]
    exact ih (fun other member => own other (List.mem_cons_of_mem _ member)) _

omit [DecidableEq H] in
theorem greeting_hdl (f : Flotilla H) (hdl : H) : ∀ sent ∈ f.greeting hdl, sent.hdl = hdl := by
  have modules (d : Fin maxDocks) (c : Fin maxChannels) : ∀ sent ∈ f.moduleGreeting hdl d c, sent.hdl = hdl := by
    intro sent member
    unfold moduleGreeting at member
    split at member
    · rw [List.mem_singleton.mp member]
      rfl
    · contradiction
  have docks (d : Fin maxDocks) : ∀ sent ∈ f.dockGreeting hdl d, sent.hdl = hdl := by
    intro sent member
    unfold dockGreeting at member
    split at member
    · rcases List.mem_cons.mp member with rfl | later
      · rfl
      · obtain ⟨c,_,greeted⟩ := List.mem_flatMap.mp later
        exact modules d c sent greeted
    · contradiction
  intro sent member
  rcases List.mem_cons.mp member with rfl | later
  · rfl
  · rcases List.mem_append.mp later with inside | last
    · obtain ⟨d,_,greeted⟩ := List.mem_flatMap.mp inside
      exact docks d sent greeted
    · rw [List.mem_singleton.mp last]
      rfl

omit [DecidableEq H] in
theorem answer_hdl (f : Flotilla H) (hdl : H) (m : ClientMessage) : ∀ sent ∈ f.answer hdl m, sent.hdl = hdl := by
  cases m with
  | ready => exact f.greeting_hdl hdl
  | hello => exact f.greeting_hdl hdl
  | pause => simp [answer]
  | subscribe x => simp [answer]
  | unsubscribe x => simp [answer]

theorem farewell_without (f : Flotilla H) (hdl : H) :
    (f.without hdl).farewell = f.farewell.filter (fun sent => sent.hdl ≠ hdl) := by
  unfold farewell without
  rw [erase_entries,List.filter_flatMap]
  generalize f.clients.entries = entries
  induction entries with
  | nil => rfl
  | cons client rest ih =>
    by_cases own : client.1 = hdl
    · rw [List.filter_cons_of_neg (by simpa using own),List.flatMap_cons,ih]
      simp [Transmission.hdl,own]
    · rw [List.filter_cons_of_pos (by simpa using own),List.flatMap_cons,List.flatMap_cons,ih]
      simp [Transmission.hdl,own]

theorem audience_without (f : Flotilla H) (hdl : H) (dockIdx : Int) :
    (f.without hdl).audience dockIdx = (f.audience dockIdx).filter (fun other => other ≠ hdl) := by
  unfold audience without
  rw [erase_entries,List.filter_map,List.filter_filter,List.filter_filter]
  congr 1
  apply List.filter_congr
  intro client _
  exact Bool.and_comm ..

theorem updateMessage_without (f : Flotilla H) (hdl : H) (dockIndex : Int) (data : Text) :
    (f.without hdl).updateMessage dockIndex data = (f.updateMessage dockIndex data).map (without hdl) := by
  rw [updateMessage_eq,updateMessage_eq]
  apply Eq.symm
  refine outcome_bind_map _ _ _ _ fun digits => ?_
  refine outcome_bind_map _ _ _ _ fun found => ?_
  split
  · rfl
  · refine outcome_bind_map _ _ _ _ fun text => ?_
    refine outcome_bind_map _ _ _ _ fun d => ?_
    exact outcome_bind_map _ _ _ _ fun c => rfl

theorem dockMessage_without (f : Flotilla H) (hdl : H) (payload : Text) :
    (f.without hdl).dockMessage payload = (f.dockMessage payload).map (without hdl) := by
  have command (dockIndex : Int) (data : Text) :
      (f.commandMessage dockIndex data).map (without hdl) = (f.without hdl).commandMessage dockIndex data := by
    unfold commandMessage
    split
    · exact outcome_bind_map _ _ _ _ fun d => rfl
    · rfl
  apply Eq.symm
  unfold dockMessage
  refine outcome_bind_map _ _ _ _ fun digits => ?_
  refine outcome_bind_map _ _ _ _ fun ⟨dockIndex,_⟩ => ?_
  refine outcome_bind_map _ _ _ _ fun data => ?_
  refine outcome_bind_map _ _ _ _ fun first => ?_
  split
  · exact (f.updateMessage_without hdl dockIndex data).symm
  · exact command dockIndex data

theorem changed_without (f : Flotilla H) (hdl other : H) (client : FlotillaClient) (apart : other ≠ hdl) :
    (f.changed other client).without hdl = (f.without hdl).changed other client := by
  unfold without changed
  rw [erase_replace_other other hdl client f.clients (Ne.symm apart)]

theorem message_without (network : Network H) (hdl : H) (reaches : network.Reaches hdl) (other : H)
    (apart : other ≠ hdl) (payload : Text) (f : Flotilla H) :
    onState (without hdl) ((websocketOnMessage network other payload).run f) =
      (websocketOnMessage network other payload).run (f.without hdl) := by
  have lookup : (f.without hdl).clients.lookup other = f.clients.lookup other := AList.lookup_erase_ne apart
  cases found : f.clients.lookup other with
  | none =>
    rw [websocketOnMessage_unknown network other payload f (AList.lookup_eq_none.mp found),
      websocketOnMessage_unknown network other payload _ (AList.lookup_eq_none.mp (lookup.trans found))]
    rfl
  | some client =>
    have known : other ∈ f.clients := AList.lookup_isSome.mp (by rw [found]; rfl)
    have kept : other ∈ (f.without hdl).clients := AList.lookup_isSome.mp (by rw [lookup,found]; rfl)
    rcases payload_cases (H := H) payload with dock | rfl | ⟨m,rfl⟩ | unhandled
    · rw [websocketOnMessage_known network other payload f known,websocketOnMessage_known network other payload _ kept,
        handleMessage_dock network other payload f dock,handleMessage_dock network other payload _ dock,
        dockMessage_without]
      cases f.dockMessage payload <;> rfl
    · rw [websocketOnMessage_known network other _ f known,websocketOnMessage_known network other _ _ kept,
        handleMessage_quit,stopServer_run,stopServer_run]
      by_cases listening : f.listening = true
      · rw [if_pos listening,if_pos (show (f.without hdl).listening = true from listening),
          transmitAll_without network hdl reaches,farewell_without]
        rfl
      · rw [if_neg listening,if_neg (show ¬ (f.without hdl).listening = true from listening)]
        rfl
    · have own : (f.answer other m).filter (fun sent => sent.hdl ≠ hdl) = f.answer other m := by
        apply List.filter_eq_self.mpr
        intro sent member
        rw [f.answer_hdl other m sent member]
        exact decide_eq_true apart
      rw [message_run network other m f client found,message_run network other m _ client (lookup.trans found),
        transmitAll_without network hdl reaches,own,changed_without f hdl other _ apart]
      cases m <;> rfl
    · rw [websocketOnMessage_known network other payload f known,websocketOnMessage_known network other payload _ kept,
        unhandled network other]
      rfl

theorem servedAll_without (f : Flotilla H) (hdl : H) (running : f.stopped = false) :
    f.servedAll.without hdl = (f.without hdl).servedAll := by
  have sends (d : Fin maxDocks) :
      (f.without hdl).passSends d = (f.passSends d).filter (fun sent => sent.hdl ≠ hdl) := by
    unfold passSends
    rw [audience_without,List.filter_flatMap]
    apply List.flatMap_congr
    intro command _
    rw [List.filter_map]
    rfl
  rw [servedAll_eq f running,servedAll_eq (f.without hdl) running]
  unfold without
  simp only [List.filter_append,List.filter_flatMap]
  congr 2
  apply List.flatMap_congr
  intro d _
  exact (sends d).symm

end Flotilla

def HostInput.client {H : Type} : HostInput H → Option H
  | .opened hdl | .closed hdl | .failed hdl | .message hdl _ => some hdl
  | _ => none

namespace Host
variable {H : Type} [DecidableEq H]

def without (hdl : H) (h : Host H) : Host H := {h with flotilla := h.flotilla.without hdl}

/-- The client sends only messages for its own session, and only while it is open. -/
def SessionOnly (hdl : H) (h : Host H) : HostInput H → Prop
  | .message other (.session _) => other = hdl → other ∈ h.flotilla.clients
  | .message other _ => other ≠ hdl
  | _ => True

instance (hdl : H) (h : Host H) (input : HostInput H) : Decidable (h.SessionOnly hdl input) :=
  match input with
  | .message other (.session _) => inferInstanceAs (Decidable (other = hdl → other ∈ h.flotilla.clients))
  | .message other (.update _ _ _) | .message other (.other _) => inferInstanceAs (Decidable (other ≠ hdl))
  | .opened _ | .closed _ | .failed _ | .updateClients | .tick _ _ | .disconnect _ | .setPort _ _ _ _ _ => .isTrue trivial

theorem handle_without (h : Host H) (hdl : H) (handler : Handler H Unit)
    (same : onState (Flotilla.without hdl) (handler.run h.flotilla) = handler.run (h.flotilla.without hdl)) :
    (h.handle handler).without hdl = (h.without hdl).handle handler := by
  unfold handle without
  rw [← same]
  cases handler.run h.flotilla <;> rfl

theorem step_without (network : Network H) (hdl : H) (reaches : network.Reaches hdl) (h : Host H) (serving : h.Serving)
    (input : HostInput H) (other : input.client ≠ some hdl) :
    (h.step network input).without hdl = (h.without hdl).step network input := by
  have free := serving.free
  have freed : (h.flotilla.without hdl).mutexClients = false := free
  have apart (client : H) (sender : input.client = some client) : client ≠ hdl := by
    rintro rfl
    exact other sender
  unfold step
  change _ = if h.halted = true then _ else _
  split
  · rfl
  cases input with
  | opened client =>
    apply h.handle_without hdl
    rw [Flotilla.websocketOnOpen_run client _ free,Flotilla.websocketOnOpen_run client _ freed]
    have lookup : (h.flotilla.without hdl).clients.lookup client = h.flotilla.clients.lookup client :=
      AList.lookup_erase_ne (apart client rfl)
    rw [lookup]
    exact congrArg _ (congrArg (fun clients => {h.flotilla.without hdl with clients := clients})
      (erase_insert_other client hdl _ h.flotilla.clients (Ne.symm (apart client rfl))))
  | closed client =>
    apply h.handle_without hdl
    rw [Flotilla.websocketOnClose_run client _ free,Flotilla.websocketOnClose_run client _ freed]
    exact congrArg _ (congrArg (fun clients => {h.flotilla.without hdl with clients := clients})
      (h.flotilla.clients.erase_erase client hdl))
  | failed client =>
    apply h.handle_without hdl
    rw [Flotilla.websocketOnFail_eq,Flotilla.websocketOnClose_run client _ free,
      Flotilla.websocketOnClose_run client _ freed]
    exact congrArg _ (congrArg (fun clients => {h.flotilla.without hdl with clients := clients})
      (h.flotilla.clients.erase_erase client hdl))
  | message client request =>
    exact h.handle_without hdl _ (Flotilla.message_without network hdl reaches client (apart client rfl) _ _)
  | updateClients =>
    apply h.handle_without hdl
    rw [Flotilla.updateClients_run network _ free,Flotilla.updateClients_run network _ freed,
      ← Flotilla.servedAll_without _ hdl serving.running]
    rfl
  | tick d arrived =>
    have same : ((h.without hdl).flotilla.dock d).tick ⟨(h.without hdl).written d,arrived⟩ =
        (h.flotilla.dock d).tick ⟨h.written d,arrived⟩ := rfl
    have queues : ((h.without hdl).flotilla.dock d).writeQueues ⟨(h.without hdl).written d,arrived⟩ =
        (h.flotilla.dock d).writeQueues ⟨h.written d,arrived⟩ := rfl
    dsimp only
    unfold tick
    rw [same,queues]
    generalize (h.flotilla.dock d).tick ⟨h.written d,arrived⟩ = returned
    generalize (h.flotilla.dock d).writeQueues ⟨h.written d,arrived⟩ = written
    cases returned <;> rfl
  | disconnect d => rfl
  | setPort d copied opened banner arrived => rfl

theorem step_own (network : Network H) (hdl : H) (reaches : network.Reaches hdl) (h : Host H) (serving : h.Serving)
    (input : HostInput H) (own : input.client = some hdl) (session : h.SessionOnly hdl input) :
    (h.step network input).without hdl = h.without hdl := by
  have free := serving.free
  unfold step
  split
  · rfl
  cases input with
  | opened client =>
    obtain rfl := Option.some.inj own
    dsimp only
    rw [handle_ok _ _ _ (Flotilla.websocketOnOpen_run client _ free)]
    unfold without Flotilla.without
    rw [erase_insert]
  | closed client =>
    obtain rfl := Option.some.inj own
    dsimp only
    rw [handle_ok _ _ _ (Flotilla.websocketOnClose_run client _ free)]
    unfold without Flotilla.without
    rw [erase_again]
  | failed client =>
    obtain rfl := Option.some.inj own
    dsimp only
    rw [Flotilla.websocketOnFail_eq,handle_ok _ _ _ (Flotilla.websocketOnClose_run client _ free)]
    unfold without Flotilla.without
    rw [erase_again]
  | message client request =>
    obtain rfl := Option.some.inj own
    cases request with
    | update d c data => exact absurd rfl session
    | other payload => exact absurd rfl session
    | session m =>
      obtain ⟨record,found⟩ := Option.isSome_iff_exists.mp (AList.lookup_isSome.mpr (session rfl))
      have ran := (Flotilla.message_run network client m h.flotilla record found).trans
        (Flotilla.transmitAll_own network client reaches _ (h.flotilla.answer_hdl client m) _)
      have gone : (h.flotilla.answer client m).filter (fun sent => sent.hdl ≠ client) = [] := by
        apply List.filter_eq_nil_iff.mpr
        intro sent member
        simp [h.flotilla.answer_hdl client m sent member]
      change (h.handle (Flotilla.websocketOnMessage network client m.payload)).without client = _
      rw [handle_ok _ _ _ ran,without,Flotilla.sent_without,gone,Flotilla.sent_nil]
      unfold without Flotilla.changed Flotilla.without
      rw [erase_replace]
  | updateClients => contradiction
  | tick d arrived => contradiction
  | disconnect d => contradiction
  | setPort d copied opened banner arrived => contradiction

end Host

/-- Leaving out of a run what a client does for its own session changes neither what another
client is sent nor the docks nor what is written to them. -/
theorem session_unobserved {H : Type} [DecidableEq H] (network : Network H) (a b : H) (apart : b ≠ a)
    (reaches : network.Reaches a) (dock : Fin maxDocks → FlotillaDock) (canonicalAddress : Text)
    (inputs : List (HostInput H)) (session : (hosts network).Along (Host.SessionOnly a) (.start dock canonicalAddress) inputs) :
    let whole := (hosts network).run (.start dock canonicalAddress) inputs
    let rest := (hosts network).run (.start dock canonicalAddress) (inputs.filter fun input => input.client ≠ some a)
    rest.flotilla.sentTo b = whole.flotilla.sentTo b ∧ rest.flotilla.dock = whole.flotilla.dock ∧
      rest.written = whole.written ∧ rest.halted = whole.halted := by
  have related := (hosts network).run_filter (fun input => input.client ≠ some a)
    (fun h k => h.Serving ∧ k = h.without a) (Host.SessionOnly a)
    (fun h k input related _ keeps => ⟨h.step_serving network related.1 input,by
      rw [related.2]
      exact (h.step_without network a reaches related.1 input (by simpa using keeps)).symm⟩)
    (fun h k input related session drops => ⟨h.step_serving network related.1 input,by
      rw [related.2]
      exact (h.step_own network a reaches related.1 input (by simpa using drops) session).symm⟩)
    (.start dock canonicalAddress) (.start dock canonicalAddress) ⟨⟨rfl,rfl⟩,rfl⟩ inputs session
  dsimp only
  rw [related.2]
  exact ⟨Flotilla.sentTo_without _ a b apart,rfl,rfl,rfl⟩

section Runs

/-- Two clients of one dock; the first comes, listens, pauses and goes. -/
def twoListeners : List (HostInput Nat) :=
  [.setPort 0 true true true
      ("# Version: 1.0\n# Serial: 0123456789012345678901\n# User: a\n# Dock: b\n".toList.map .byte),
    .opened 1,.opened 2,.message 1 (.session .ready),.message 2 (.session .ready),
    .message 1 (.session (.subscribe "0".toList)),.message 2 (.session (.subscribe "0".toList)),
    .tick 0 ("c 1/dial\nu 1/dial 5\n".toList.map .byte),.updateClients,.message 1 (.session .pause),
    .tick 0 ("u 1/dial 6\n".toList.map .byte),.updateClients,.closed 1]

end Runs

theorem session_unobserved_listeners :
    let whole := (hosts allSucceed).run (.start (fun d => .new d.val) []) twoListeners
    let rest := (hosts allSucceed).run (.start (fun d => .new d.val) [])
      (twoListeners.filter fun input => input.client ≠ some 1)
    rest.flotilla.sentTo 2 = whole.flotilla.sentTo 2 ∧ rest.flotilla.dock = whole.flotilla.dock ∧
      rest.written = whole.written ∧ rest.halted = whole.halted :=
  session_unobserved allSucceed 1 2 (by decide) ⟨fun _ => rfl,rfl⟩ (fun d => .new d.val) [] twoListeners
    (by decide +kernel)

end FlotillaDaemon
