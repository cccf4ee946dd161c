import FlotillaDaemon.UpdateRouting

/-! What ends the daemon. Only a message and a tick can end it, and a run goes on to its end exactly
when each message is one that its handler can answer, and each line that is read can be processed. -/
namespace FlotillaDaemon
open Cpp

namespace Flotilla
variable {H : Type}

theorem attempts_ok_iff (network : Network H) (earlier : Nat) (transmissions : List (Transmission H)) :
    (attempts network earlier transmissions).2 = true ↔
      ∀ k (sent : k < transmissions.length), network.accepts (earlier + k) transmissions[k] = true := by
  induction transmissions generalizing earlier with
  | nil => simp [attempts]
  | cons transmission rest ih =>
    have later := ih (earlier + 1)
    rw [attempts]
    by_cases accepted : network.accepts earlier transmission = true
    · rw [if_pos accepted]
      constructor
      · intro all k sent
        cases k with
        | zero => exact accepted
        | succ k =>
          rw [show earlier + (k + 1) = earlier + 1 + k by omega]
          exact later.mp all k (Nat.lt_of_succ_lt_succ sent)
      · intro all
        refine later.mpr fun k sent => ?_
        have next := all (k + 1) (Nat.succ_lt_succ sent)
        rwa [show earlier + (k + 1) = earlier + 1 + k by omega] at next
    · rw [if_neg accepted]
      exact iff_of_false Bool.false_ne_true fun all => accepted (all 0 (Nat.succ_pos _))

def Accepted (network : Network H) (f : Flotilla H) (transmissions : List (Transmission H)) : Prop :=
  ∀ k (sent : k < transmissions.length), network.accepts (f.transmissions.length + k) transmissions[k] = true

theorem transmitAll_ok_iff (network : Network H) (f : Flotilla H) (transmissions : List (Transmission H)) :
    (∃ after, (transmitAll network transmissions).run f = .ok () after) ↔ f.Accepted network transmissions := by
  unfold Accepted
  rw [transmitAll_run,← attempts_ok_iff]
  split
  next all => exact iff_of_true ⟨_,rfl⟩ all
  next some_failed => simp [some_failed]

variable [DecidableEq H] (network : Network H)

/-- A message that is answered: from a client that is in the table, with data that can be handled if
it is for a dock, and with all sends accepted if it asks for any. -/
structure Answered (hdl : H) (payload : Text) (f : Flotilla H) : Prop where
  known : hdl ∈ f.clients
  dock : "dock:".toList <+: payload →
    ∃ dockIndex size, Numeral (address payload) dockIndex size ∧ DataHandled dockIndex (body payload)
  stop : payload = "quit".toList → f.listening = true ∧ f.Accepted network f.farewell
  greeting : payload = "hello".toList ∨ payload = "ready".toList → f.Accepted network (f.greeting hdl)

theorem message_ok_iff (hdl : H) (payload : Text) (f : Flotilla H) :
    (∃ after, (websocketOnMessage network hdl payload).run f = .ok () after) ↔ f.Answered network hdl payload := by
  cases found : f.clients.lookup hdl with
  | none =>
    have unknown := AList.lookup_eq_none.mp found
    rw [websocketOnMessage_unknown network hdl payload f unknown]
    exact iff_of_false (by simp) fun answered => unknown answered.known
  | some client =>
    have known : hdl ∈ f.clients := AList.lookup_isSome.mp (by rw [found]; rfl)
    by_cases start : "dock:".toList <+: payload
    · rw [websocketOnMessage_known network hdl payload f known,handleMessage_dock network hdl payload f start]
      have handled := f.dockMessage_ok_iff payload start
      have apart (other : Text) (short : ¬ "dock:".toList <+: other) : payload ≠ other := fun same => short (same ▸ start)
      constructor
      · intro ⟨after,returned⟩
        refine ⟨known,fun _ => handled.mp ?_,fun quit => absurd quit (apart _ (by decide)),?_⟩
        · cases ended : f.dockMessage payload with
          | ok next => exact ⟨next,rfl⟩
          | error fault => simp [ended] at returned
        · rintro (hello | ready)
          · exact absurd hello (apart _ (by decide))
          · exact absurd ready (apart _ (by decide))
      · intro answered
        obtain ⟨next,ended⟩ := handled.mpr (answered.dock start)
        exact ⟨next,by rw [ended]⟩
    by_cases quit : payload = "quit".toList
    · rw [websocketOnMessage_known network hdl payload f known,quit,handleMessage_quit,stopServer_run]
      have unasked : ¬ ("quit".toList = "hello".toList ∨ "quit".toList = "ready".toList) := by decide
      by_cases listening : f.listening = true
      · rw [if_pos listening,transmitAll_ok_iff]
        exact ⟨fun sent => ⟨known,fun dock => absurd (quit ▸ dock) start,fun _ => ⟨listening,sent⟩,
          fun asked => absurd asked unasked⟩,fun answered => (answered.stop rfl).2⟩
      · rw [if_neg listening]
        exact iff_of_false (by simp) fun answered => listening (answered.stop rfl).1
    have session (m : ClientMessage) (same : payload = m.payload) :
        (∃ after, (websocketOnMessage network hdl payload).run f = .ok () after) ↔ f.Accepted network (f.answer hdl m) := by
      rw [same,message_run network hdl m f client found,transmitAll_ok_iff]
      rfl
    by_cases hello : payload = "hello".toList
    · rw [session .hello hello]
      exact ⟨fun sent => ⟨known,fun dock => absurd dock start,fun same => absurd same quit,fun _ => sent⟩,
        fun answered => answered.greeting (.inl hello)⟩
    by_cases ready : payload = "ready".toList
    · rw [session .ready ready]
      exact ⟨fun sent => ⟨known,fun dock => absurd dock start,fun same => absurd same quit,fun _ => sent⟩,
        fun answered => answered.greeting (.inr ready)⟩
    have answered : f.Answered network hdl payload :=
      ⟨known,fun dock => absurd dock start,fun same => absurd same quit,fun asked => absurd asked (not_or.mpr ⟨hello,ready⟩)⟩
    refine iff_of_true ?_ answered
    rcases payload_cases (H := H) payload with dock | same | ⟨m,same⟩ | unhandled
    · exact absurd dock start
    · exact absurd same quit
    · rw [session m same]
      cases m with
      | ready => exact absurd same ready
      | hello => exact absurd same hello
      | pause | subscribe _ | unsubscribe _ => exact fun k sent => absurd sent (Nat.not_lt_zero k)
    · rw [websocketOnMessage_known network hdl payload f known,unhandled network hdl]
      exact ⟨f,rfl⟩

end Flotilla

namespace Host
variable {H : Type} [DecidableEq H] (network : Network H)

/-- The inputs that the daemon withstands: of the messages those that are answered, and of the ticks
those with lines that can be processed. -/
def Withstands (h : Host H) : HostInput H → Prop
  | .message hdl request => h.flotilla.Answered network hdl request.payload
  | .tick d arrived => (h.flotilla.dock d).state = .connected →
    ((h.flotilla.dock d).writeQueues ⟨h.written d,arrived⟩).1.AllProcessable (FlotillaDock.arrivedLines arrived)
  | _ => True

omit [DecidableEq H] in
theorem handle_up_iff (h : Host H) (running : h.halted = false) (handler : Handler H Unit) :
    (h.handle handler).halted = false ↔ ∃ after, handler.run h.flotilla = .ok () after := by
  unfold handle
  cases handler.run h.flotilla with
  | ok _ after => exact iff_of_true running ⟨after,rfl⟩
  | error fault after => simp

omit [DecidableEq H] in
theorem tick_up_iff (h : Host H) (running : h.halted = false) (d : Fin maxDocks) (arrived : List Arrival) :
    (h.tick d arrived).halted = false ↔ ((h.flotilla.dock d).state = .connected →
      ((h.flotilla.dock d).writeQueues ⟨h.written d,arrived⟩).1.AllProcessable (FlotillaDock.arrivedLines arrived)) := by
  by_cases connected : (h.flotilla.dock d).state = .connected
  · have lines := ((h.flotilla.dock d).writeQueues ⟨h.written d,arrived⟩).1.readInput_ok_iff arrived
    rw [← lines]
    unfold tick FlotillaDock.tick
    rw [if_neg (not_not.mpr connected)]
    dsimp only
    rw [FlotillaDock.writeQueues_input]
    cases read : ((h.flotilla.dock d).writeQueues ⟨h.written d,arrived⟩).1.readInput arrived with
    | ok result => exact iff_of_true running fun _ => ⟨result,rfl⟩
    | error fault =>
      refine iff_of_false (Ne.symm Bool.false_ne_true) fun returned => ?_
      obtain ⟨_,failed⟩ := returned connected
      contradiction
  · unfold tick FlotillaDock.tick
    rw [if_pos connected]
    exact iff_of_true running fun up => absurd up connected

theorem step_up_iff (h : Host H) (serving : h.Serving) (running : h.halted = false) (input : HostInput H) :
    (h.step network input).halted = false ↔ h.Withstands network input := by
  rw [h.step_running network running]
  cases input with
  | opened hdl => exact iff_of_true ((h.handle_up_iff running _).mpr ⟨_,Flotilla.websocketOnOpen_run hdl _ serving.free⟩) trivial
  | closed hdl => exact iff_of_true ((h.handle_up_iff running _).mpr ⟨_,Flotilla.websocketOnClose_run hdl _ serving.free⟩) trivial
  | failed hdl => exact iff_of_true ((h.handle_up_iff running _).mpr ⟨_,Flotilla.websocketOnClose_run hdl _ serving.free⟩) trivial
  | message hdl request =>
    exact (h.handle_up_iff running _).trans (Flotilla.message_ok_iff network hdl request.payload h.flotilla)
  | updateClients =>
    exact iff_of_true ((h.handle_up_iff running _).mpr ⟨_,Flotilla.updateClients_run network h.flotilla serving.free⟩) trivial
  | tick d arrived => exact h.tick_up_iff running d arrived
  | disconnect d | setPort d copied opened banner arrived => exact iff_of_true running trivial

end Host

/-- The daemon is up after a run exactly when it has withstood every input. In particular no client
that comes or goes, no pass, no scan and no send of a pass that fails ever ends it. -/
theorem daemon_up_iff {H : Type} [DecidableEq H] (network : Network H) (canonicalAddress : Text) (inputs : List (HostInput H)) :
    ((hosts network).run (.new canonicalAddress) inputs).halted = false ↔
      (hosts network).Along (Host.Withstands network) (.new canonicalAddress) inputs := by
  refine (hosts network).run_up_iff Host.Serving (fun h => h.halted = false) _
    (fun h input serving => h.step_serving network serving input)
    (fun h input serving running => h.step_up_iff network serving running input) ?_ _ ⟨rfl,rfl⟩ rfl inputs
  intro h input fallen up
  change (h.step network input).halted = false at up
  rw [h.step_halted network (eq_true_of_ne_false fallen) input] at up
  exact fallen up

end FlotillaDaemon
