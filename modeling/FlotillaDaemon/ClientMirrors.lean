import FlotillaDaemon.ListeningClients

/-! Clients as mirrors of the docks. From a greeting on, a client that misses no event of a dock
holds, with the events that still wait, the table of the dock's modules. -/
namespace FlotillaDaemon
open Cpp Retained Replay

def Request.greets : Request → Bool
  | .session .ready | .session .hello => true
  | _ => false

theorem view_append (index : Nat) (first second : List Text) :
    view index (first ++ second) =
      replay ModuleEvent.channel ModuleEvent.shown (view index first) (second.filterMap (readEvent index)) := by
  rw [view,List.filterMap_append,replay_append,view]

namespace Flotilla
variable {H : Type}

theorem waiting_announced (f next : Flotilla H) (d : Fin maxDocks) (wired : (f.dock d).Wired d) (events : List ModuleEvent)
    (announced : (f.dock d).Announced (next.dock d) events) : next.waiting d = f.waiting d ++ events := by
  have read : (events.map (ModuleEvent.text d.val)).filterMap (readEvent d.val) = events := by
    rw [List.filterMap_map]
    refine (List.filterMap_congr fun event _ => readEvent_text d.val event).trans ?_
    exact List.filterMap_some
  rw [waiting,announced.queue,List.filterMap_append,wired.labelled.own,read,waiting]

variable [DecidableEq H]

theorem message_sends (network : Network H) (hdl : H) (payload : Text) (f : Flotilla H) :
    ∃ texts, (f.after (websocketOnMessage network hdl payload)).transmissions = f.transmissions ++ texts ∧
      ∀ text ∈ texts, text ∈ f.greeting hdl ∨ text ∈ f.farewell := by
  by_cases start : "dock:".toList <+: payload
  · refine ⟨[],?_,fun text none => absurd none List.not_mem_nil⟩
    rw [List.append_nil]
    rcases dock_message_after network hdl payload f start with same | handled
    · rw [same]
    · rcases dockMessage_effect f _ payload handled with same | ⟨_,_,_,same⟩ | ⟨_,_,same⟩ <;> rw [same] <;> rfl
  · obtain ⟨_,_,texts,same,sent⟩ := message_effect network hdl payload f start
    refine ⟨texts,?_,sent⟩
    rw [same]

theorem greeted_after (network : Network H) (a : H) (request : Request) (greets : request.greets = true) (f : Flotilla H)
    (known : a ∈ f.clients) :
    (f.after (websocketOnMessage network a request.payload)).transmissions =
      f.transmissions ++ (attempts network f.transmissions.length (f.greeting a)).1 := by
  obtain ⟨client,found⟩ := Option.isSome_iff_exists.mp (AList.lookup_isSome.mpr known)
  have greeted (m : ClientMessage) (answer : f.answer a m = f.greeting a) :
      (f.after (websocketOnMessage network a m.payload)).transmissions =
        f.transmissions ++ (attempts network f.transmissions.length (f.greeting a)).1 := by
    have same : f.after (websocketOnMessage network a m.payload) =
        (f.changed a (m.change client)).after (transmitAll network (f.answer a m)) := by
      rw [after,after,message_run network a m f client found]
    rw [same,after_transmitAll,answer]
    rfl
  cases request with
  | session m =>
    cases m with
    | ready => exact greeted .ready rfl
    | hello => exact greeted .hello rfl
    | pause => contradiction
    | subscribe x => contradiction
    | unsubscribe x => contradiction
  | update e c data => contradiction
  | other payload => contradiction

theorem greeting_view (network : Network H) (f : Flotilla H) (wired : ∀ e, (f.dock e).Wired e) (a : H) (d : Fin maxDocks)
    (earlier : Nat) (kept : reached network a earlier (f.greeting a) = true) :
    view d.val (received network a earlier (f.greeting a)) = (f.dock d).table := by
  rw [received_reached network a earlier _ kept,view]
  apply replay_covering
  · intro event said
    obtain ⟨text,told,read⟩ := List.mem_filterMap.mp said
    rw [← received_reached network a earlier _ kept] at told
    exact f.greeting_event wired a a d text event (.inl (received_mem network a earlier _ text told)) read
  · intro c other
    have connected : ((f.dock d).module c).state = .moduleConnected := by
      cases state : ((f.dock d).module c).state with
      | moduleConnected => rfl
      | moduleDisconnected => exact absurd ((f.dock d).table_disconnected c state).symm other
    refine ⟨(f.dock d).event c,List.mem_filterMap.mpr ⟨_,?_,readEvent_text d.val _⟩,rfl⟩
    exact List.mem_filterMap.mpr ⟨_,f.greeting_covers wired a d c connected,by simp [Transmission.textTo]⟩

end Flotilla

namespace Host
variable {H : Type} [DecidableEq H] (network : Network H) (a : H) (d : Fin maxDocks)

/-- A pass that is made now keeps no event of the dock from the client. -/
def Hears (h : Host H) : Prop :=
  (h.flotilla.dock d).eventQueue = [] ∨ (a ∈ h.flotilla.audience d.val ∧
    reached network a h.flotilla.transmissions.length ((List.finRange maxDocks).flatMap h.flotilla.passSends) = true)

instance (h : Host H) : Decidable (h.Hears network a d) := inferInstanceAs (Decidable (_ ∨ _))

/-- Where in the transmissions the latest whole greeting of a client began, as long as it has
missed no event of the dock since. -/
def follow (h : Host H) (input : HostInput H) (since : Option Nat) : Option Nat :=
  if h.halted then since
  else
    match input with
    | .opened hdl | .closed hdl | .failed hdl => if hdl = a then none else since
    | .message hdl request =>
      if hdl = a ∧ request.greets = true ∧ a ∈ h.flotilla.clients ∧
        (Flotilla.attempts network h.flotilla.transmissions.length (h.flotilla.greeting a)).2 = true
      then some h.flotilla.transmissions.length else since
    | .updateClients => if h.Hears network a d then since else none
    | _ => since

/-- What the client has been told, with the events that wait, is the table; and so is the table
itself with those events. -/
structure Mirrored (h : Host H) (since : Option Nat) : Prop where
  serving : h.Serving
  wired : ∀ e, (h.flotilla.dock e).Wired e
  absorbed : replay ModuleEvent.channel ModuleEvent.shown (h.flotilla.dock d).table (h.flotilla.waiting d) =
    (h.flotilla.dock d).table
  leads : ∀ n ∈ since, n ≤ h.flotilla.transmissions.length ∧
    replay ModuleEvent.channel ModuleEvent.shown (view d.val (listened network a n h.flotilla.transmissions))
      (h.flotilla.waiting d) = (h.flotilla.dock d).table

theorem mirrored_lost (h : Host H) (since kept : Option Nat) (mirrored : h.Mirrored network a d since)
    (less : kept = since ∨ kept = none) : h.Mirrored network a d kept := by
  rcases less with rfl | rfl
  · exact mirrored
  · exact ⟨mirrored.serving,mirrored.wired,mirrored.absorbed,fun n none => by contradiction⟩

theorem mirrored_change (h : Host H) (since : Option Nat) (input : HostInput H) (mirrored : h.Mirrored network a d since)
    (events : List ModuleEvent) (announced : (h.flotilla.dock d).Announced ((h.step network input).flotilla.dock d) events)
    (texts : List (Transmission H)) (sent : (h.step network input).flotilla.transmissions = h.flotilla.transmissions ++ texts)
    (agree : ∀ text, .text a text ∈ texts → ∀ event, readEvent d.val text = some event →
      event.shown = (h.flotilla.dock d).table event.channel) : (h.step network input).Mirrored network a d since := by
  have waits := h.flotilla.waiting_announced _ d (mirrored.wired d) events announced
  refine ⟨h.step_serving network mirrored.serving input,h.step_wired network mirrored.serving mirrored.wired input,?_,?_⟩
  · rw [waits,announced.table]
    exact replay_again _ _ _ _ _ mirrored.absorbed
  · intro n followed
    obtain ⟨within,leads⟩ := mirrored.leads n followed
    rw [sent,List.length_append]
    refine ⟨by omega,?_⟩
    rw [listened_append network a n _ texts within,view_append,waits,replay_append,announced.table]
    congr 1
    refine replay_nearer _ _ _ _ _ _ leads fun c => replay_agreeing _ _ c _ _ _ ?_
    intro event said
    obtain ⟨text,told,read⟩ := List.mem_filterMap.mp said
    exact agree text (received_mem network a _ _ text told) event read

theorem mirrored_greeted (h : Host H) (since : Option Nat) (request : Request) (mirrored : h.Mirrored network a d since)
    (running : h.halted = false) (greets : request.greets = true) (known : a ∈ h.flotilla.clients)
    (all : (Flotilla.attempts network h.flotilla.transmissions.length (h.flotilla.greeting a)).2 = true)
    (kept : (h.step network (.message a request)).Mirrored network a d none)
    (same : (h.step network (.message a request)).flotilla.dock d = h.flotilla.dock d) :
    (h.step network (.message a request)).Mirrored network a d (some h.flotilla.transmissions.length) := by
  obtain ⟨whole,reaches⟩ := attempts_reached network a _ _ all
  have sent := Flotilla.greeted_after network a request greets h.flotilla known
  have stepped := h.running_flotilla network mirrored.serving running (.message a request)
  refine ⟨kept.serving,kept.wired,kept.absorbed,fun n followed => ?_⟩
  obtain rfl := Option.mem_some.mp followed
  have view := h.flotilla.greeting_view network mirrored.wired a d _ reaches
  have absorbed := kept.absorbed
  rw [same] at absorbed ⊢
  rw [stepped] at absorbed ⊢
  rw [next,sent,whole,List.length_append]
  refine ⟨by omega,?_⟩
  rw [listened,List.drop_left,view]
  exact absorbed

theorem message_dock (h : Host H) (hdl : H) (request : Request) (serving : h.Serving) (greets : request.greets = true) :
    (h.step network (.message hdl request)).flotilla.dock = h.flotilla.dock := by
  rw [h.step_flotilla network serving]
  split
  · rfl
  cases request with
  | session m => exact session_docks network hdl m h.flotilla
  | update e c data => contradiction
  | other payload => contradiction

theorem mirrored_message (h : Host H) (since : Option Nat) (hdl : H) (request : Request)
    (mirrored : h.Mirrored network a d since) : (h.step network (.message hdl request)).Mirrored network a d since := by
  obtain ⟨events,announced⟩ := h.step_announced network mirrored.serving d (.message hdl request) (by simp)
  have stepped := h.step_flotilla network mirrored.serving (.message hdl request)
  by_cases halted : h.halted = true
  · rw [step,if_pos halted]
    exact mirrored
  rw [if_neg halted,next] at stepped
  obtain ⟨texts,sent,told⟩ := h.flotilla.message_sends network hdl request.payload
  refine h.mirrored_change network a d since _ mirrored events announced texts (by rw [stepped,sent]) ?_
  intro text member event read
  exact h.flotilla.greeting_event mirrored.wired hdl a d text event (told _ member) read

theorem hears_told (h : Host H) (wired : ∀ e, (h.flotilla.dock e).Wired e) (hears : h.Hears network a d) :
    (received network a h.flotilla.transmissions.length
      ((List.finRange maxDocks).flatMap h.flotilla.passSends)).filterMap (readEvent d.val) = h.flotilla.waiting d := by
  rcases hears with idle | ⟨due,reaches⟩
  · have none : h.flotilla.waiting d = [] := by rw [Flotilla.waiting,idle,List.filterMap_nil]
    rw [none]
    apply List.filterMap_eq_nil_iff.mpr
    intro text got
    apply Option.eq_none_iff_forall_ne_some.mpr
    intro event read
    have waits := h.flotilla.pass_event_waits wired a d text event (received_mem network a _ _ text got) read
    rw [none] at waits
    contradiction
  · rw [received_reached network a _ _ reaches]
    exact h.flotilla.pass_events wired a d due

theorem mirrored_pass (h : Host H) (since : Option Nat) (mirrored : h.Mirrored network a d since) (running : ¬ h.halted = true) :
    (h.step network .updateClients).Mirrored network a d (if h.Hears network a d then since else none) := by
  have serving := h.step_serving network mirrored.serving .updateClients
  have wired := h.step_wired network mirrored.serving mirrored.wired .updateClients
  have stepped := h.step_flotilla network mirrored.serving .updateClients
  rw [if_neg running,next] at stepped
  refine ⟨serving,wired,?_,?_⟩
  · rw [stepped]
    rfl
  · intro n followed
    split at followed
    swap
    · contradiction
    next hears =>
    obtain ⟨within,leads⟩ := mirrored.leads n followed
    have told := h.hears_told network a d mirrored.wired hears
    rw [stepped]
    dsimp only
    rw [List.length_append,FlotillaDock.afterPass_table,listened_append network a n _ _ within,view_append,told]
    exact ⟨by omega,leads⟩

theorem mirrored_step (h : Host H) (since : Option Nat) (input : HostInput H) (mirrored : h.Mirrored network a d since) :
    (h.step network input).Mirrored network a d (h.follow network a d input since) := by
  by_cases halted : h.halted = true
  · unfold follow step
    rw [if_pos halted,if_pos halted]
    exact mirrored
  unfold follow
  rw [if_neg halted]
  have quiet (other : input ≠ .updateClients)
      (sent : (h.step network input).flotilla.transmissions = h.flotilla.transmissions) :
      (h.step network input).Mirrored network a d since := by
    obtain ⟨events,announced⟩ := h.step_announced network mirrored.serving d input other
    refine h.mirrored_change network a d since input mirrored events announced [] (by rw [sent,List.append_nil]) ?_
    exact fun text none => absurd none List.not_mem_nil
  have stepped := h.step_flotilla network mirrored.serving input
  rw [if_neg halted] at stepped
  cases input with
  | opened hdl | closed hdl | failed hdl =>
    dsimp only
    refine mirrored_lost network a d _ since _ (quiet (by simp) (by rw [stepped]; rfl)) ?_
    split
    · exact .inr rfl
    · exact .inl rfl
  | tick e arrived | disconnect e | setPort e copied opened banner arrived =>
    exact quiet (by simp) (by rw [stepped]; rfl)
  | updateClients => exact h.mirrored_pass network a d since mirrored halted
  | message hdl request =>
    have kept := h.mirrored_message network a d since hdl request mirrored
    dsimp only
    split
    next greeted =>
      obtain ⟨rfl,greets,known,all⟩ := greeted
      refine h.mirrored_greeted network hdl d since request mirrored (Bool.eq_false_iff.mpr halted) greets known all ?_ ?_
      · exact mirrored_lost network hdl d _ since none kept (.inr rfl)
      · rw [h.message_dock network hdl request mirrored.serving greets]
    next => exact kept

theorem mirrored_new (canonicalAddress : Text) : (new canonicalAddress : Host H).Mirrored network a d none :=
  ⟨⟨rfl,rfl⟩,fun e => FlotillaDock.new_wired e,rfl,fun n none => by contradiction⟩

end Host

def following {H : Type} [DecidableEq H] (network : Network H) (a : H) (d : Fin maxDocks) (canonicalAddress : Text)
    (inputs : List (HostInput H)) : Host H × Option Nat :=
  ((hosts network).tracked (Host.follow network a d)).run (.new canonicalAddress,none) inputs

/-- After each pass, a client that has been greeted and has missed no event of the dock since
knows its modules: replaying what it was sent gives the dock's table. -/
theorem listener_mirrors_dock {H : Type} [DecidableEq H] (network : Network H) (a : H) (d : Fin maxDocks)
    (canonicalAddress : Text) (inputs : List (HostInput H)) :
    let run := following network a d canonicalAddress (inputs ++ [.updateClients])
    run.1.halted = false → ∀ n, run.2 = some n →
      view d.val (listened network a n run.1.flotilla.transmissions) = (run.1.flotilla.dock d).table := by
  have mirrored (all : List (HostInput H)) :
      (following network a d canonicalAddress all).1.Mirrored network a d (following network a d canonicalAddress all).2 :=
    ((hosts network).tracked (Host.follow network a d)).run_invariant (fun s => s.1.Mirrored network a d s.2)
      (fun s input kept => s.1.mirrored_step network a d s.2 input kept) _ (Host.mirrored_new network a d canonicalAddress) all
  intro run running n followed
  have last := mirrored (inputs ++ [.updateClients])
  have flushed : run.1.flotilla.waiting d = [] := by
    have split : run.1 = (following network a d canonicalAddress inputs).1.step network .updateClients := by
      unfold run following
      rw [Machine.run_append]
      rfl
    rw [split] at running ⊢
    have before := mirrored inputs
    generalize (following network a d canonicalAddress inputs).1 = h at running before ⊢
    have going : ¬ h.halted = true := by
      intro halted
      unfold Host.step at running
      rw [if_pos halted] at running
      exact absurd halted (Bool.eq_false_iff.mp running)
    rw [h.step_flotilla network before.serving,if_neg going]
    rfl
  have leads := (last.leads n followed).2
  rw [flushed] at leads
  exact leads

section Runs

/-- A client is greeted with the modules of a dock and then hears of changes. -/
def dialVisit : List (HostInput Nat) :=
  [attachDial,.tick 0 ("c 1/dial\nu 1/dial 5\n".toList.map .byte),.opened 1,
    .message 1 (.session (.subscribe "0".toList)),.message 1 (.session .ready),.updateClients,
    .tick 0 ("c 2/touch\nd 1/dial\n".toList.map .byte)]

end Runs

theorem listener_mirrors_dock_visit :
    let run := following allSucceed 1 0 [] (dialVisit ++ [.updateClients])
    view 0 (listened allSucceed 1 0 run.1.flotilla.transmissions) = (run.1.flotilla.dock 0).table :=
  listener_mirrors_dock allSucceed 1 0 [] dialVisit (by decide +kernel) 0 (by decide +kernel)

end FlotillaDaemon
