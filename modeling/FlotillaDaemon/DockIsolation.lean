import FlotillaDaemon.MalformedMessages
import FlotillaDaemon.PassDelivery

/-! What one dock cannot notice of the others. Leaving out everything that concerns other docks
only, messages for them included, leaves a dock, its port and what the clients are told of it. -/
namespace FlotillaDaemon
open Cpp Retained

structure Network.Lossless {H : Type} (network : Network H) : Prop where
  sends : ∀ earlier, network.sends earlier = true
  closes : ∀ hdl, network.closes hdl = true

def addressed (payload : Text) : Option Int :=
  match stoi (address payload) with
  | .ok (dockIndex,_) => some dockIndex
  | .error _ => none

/-- An input that may concern a dock: all but those for another one. -/
def HostInput.concerns {H : Type} (d : Fin maxDocks) : HostInput H → Bool
  | .message _ (.update e _ _) => e = d
  | .message _ (.other payload) => !beginsWith "dock:".toList payload || addressed payload = some (d.val : Int)
  | .tick e _ | .disconnect e | .setPort e _ _ _ _ => e = d
  | _ => true

namespace Flotilla
variable {H : Type}

theorem dockMessage_uniform (payload : Text) (start : "dock:".toList <+: payload) :
    (∃ fault, ∀ f : Flotilla H, f.dockMessage payload = .error fault) ∨
      (∀ f : Flotilla H, f.dockMessage payload = .ok f) ∨
      (∃ d c data, ∀ f : Flotilla H, f.dockMessage payload = .ok (f.queued d c data)) ∨
      ∃ d command, ∀ f : Flotilla H, f.dockMessage payload = .ok (f.changeDock d ((f.dock d).queueCommand command)) := by
  cases parsed : substrN payload "dock:".toList.length 2 >>= stoi with
  | error fault => exact .inl ⟨fault,fun f => by rw [dockMessage_eq f payload start,parsed]; rfl⟩
  | ok found =>
  have read (f : Flotilla H) : f.dockMessage payload = charAt (body payload) 0 >>= fun first =>
      if first = 's' then f.updateMessage found.1 (body payload) else f.commandMessage found.1 (body payload) := by
    rw [dockMessage_eq f payload start,parsed]
    rfl
  cases letter : charAt (body payload) 0 with
  | error fault => exact .inl ⟨fault,fun f => by rw [read,letter]; rfl⟩
  | ok first =>
  by_cases update : first = 's'
  · have updates (f : Flotilla H) : f.dockMessage payload = f.updateMessage found.1 (body payload) := by
      rw [read,letter]
      exact if_pos update
    cases cut : substr (body payload) 2 with
    | error fault => exact .inl ⟨fault,fun f => by rw [updates,updateMessage_eq,cut]; rfl⟩
    | ok digits =>
    cases number : channelNumber digits with
    | error fault =>
      refine .inl ⟨fault,fun f => ?_⟩
      rw [updates,updateMessage_eq,cut]
      change (channelNumber digits >>= _) = _
      rw [number]
      rfl
    | ok channel =>
    have chosen (f : Flotilla H) : f.dockMessage payload = if channel.1 < 0 ∨ channel.1 ≥ maxChannels then .ok f
        else substr digits (channel.2 + 1) >>= fun text => arrayIndex maxDocks found.1 >>= fun d =>
          arrayIndex maxChannels channel.1 >>= fun c => .ok (f.queued d c text) := by
      rw [updates,updateMessage_eq,cut]
      change (channelNumber digits >>= _) = _
      rw [number]
      rfl
    by_cases outside : channel.1 < 0 ∨ channel.1 ≥ maxChannels
    · exact .inr (.inl fun f => (chosen f).trans (if_pos outside))
    · cases tail : substr digits (channel.2 + 1) with
      | error fault => exact .inl ⟨fault,fun f => by rw [chosen,if_neg outside,tail]; rfl⟩
      | ok text =>
      cases docked : arrayIndex maxDocks found.1 with
      | error fault => exact .inl ⟨fault,fun f => by rw [chosen,if_neg outside,tail,docked]; rfl⟩
      | ok d =>
      cases indexed : arrayIndex maxChannels channel.1 with
      | error fault => exact .inl ⟨fault,fun f => by rw [chosen,if_neg outside,tail,docked,indexed]; rfl⟩
      | ok c => exact .inr (.inr (.inl ⟨d,c,text,fun f => by rw [chosen,if_neg outside,tail,docked,indexed]; rfl⟩))
  · have commands (f : Flotilla H) : f.dockMessage payload = f.commandMessage found.1 (body payload) := by
      rw [read,letter]
      exact if_neg update
    by_cases inside : found.1 < maxDocks
    · cases docked : arrayIndex maxDocks found.1 with
      | error fault => exact .inl ⟨fault,fun f => by rw [commands,commandMessage,if_pos inside,docked]; rfl⟩
      | ok d => exact .inr (.inr (.inr ⟨d,_,fun f => by rw [commands,commandMessage,if_pos inside,docked]; rfl⟩))
    · exact .inr (.inl fun f => by rw [commands,commandMessage,if_neg inside]; rfl)

theorem appends_addressed (f : Flotilla H) (payload text : Text) (next : Flotilla H) (appends : f.Appends payload text next)
    (d : Fin maxDocks) (other : addressed payload ≠ some (d.val : Int)) : next.dock d = f.dock d ∧ next.clients = f.clients ∧
      next.listening = f.listening := by
  have apart (e : Fin maxDocks) (size : Nat) (read : Numeral (address payload) e.val size) : d ≠ e := by
    rintro rfl
    apply other
    have short := numeral_short _ _ _ read (by simp [address])
    rw [addressed,(stoi_ok_iff _ _ _).mpr ⟨read,short⟩]
  cases appends with
  | nothing => exact ⟨rfl,rfl,rfl⟩
  | command e size read => exact ⟨Function.update_of_ne (apart e size read) ..,rfl,rfl⟩
  | update e c size digits data read channel present part => exact ⟨Function.update_of_ne (apart e size read) ..,rfl,rfl⟩

/-- Two daemons that are alike as far as a dock and the clients go. -/
structure Alongside (d : Fin maxDocks) (f g : Flotilla H) : Prop where
  dock : f.dock d = g.dock d
  clients : f.clients = g.clients
  listening : f.listening = g.listening

theorem alongside_queued (d e : Fin maxDocks) (c : Fin maxChannels) (data : Text) (f g : Flotilla H)
    (alongside : Alongside d f g) : Alongside d (f.queued e c data) (g.queued e c data) := by
  refine ⟨?_,alongside.clients,alongside.listening⟩
  rw [queued,queued,changeDock_dock,changeDock_dock]
  by_cases own : d = e
  · subst own
    rw [Function.update_self,Function.update_self,alongside.dock]
  · rw [Function.update_of_ne own,Function.update_of_ne own,alongside.dock]

theorem alongside_command (d e : Fin maxDocks) (command : Text) (f g : Flotilla H) (alongside : Alongside d f g) :
    Alongside d (f.changeDock e ((f.dock e).queueCommand command)) (g.changeDock e ((g.dock e).queueCommand command)) := by
  refine ⟨?_,alongside.clients,alongside.listening⟩
  rw [changeDock_dock,changeDock_dock]
  by_cases own : d = e
  · subst own
    rw [Function.update_self,Function.update_self,alongside.dock]
  · rw [Function.update_of_ne own,Function.update_of_ne own,alongside.dock]

theorem alongside_passSends (d : Fin maxDocks) (f g : Flotilla H) (alongside : Alongside d f g) :
    f.passSends d = g.passSends d := by
  rw [passSends,passSends,alongside.dock,audience,audience,alongside.clients]

theorem lossless_attempts (network : Network H) (lossless : network.Lossless) (earlier : Nat)
    (transmissions : List (Transmission H)) : (attempts network earlier transmissions).2 = true := by
  induction transmissions generalizing earlier with
  | nil => rfl
  | cons transmission rest ih =>
    have accepted : network.accepts earlier transmission = true := by
      cases transmission with
      | text hdl message => exact lossless.sends earlier
      | binary hdl message => exact lossless.sends earlier
      | close hdl => exact lossless.closes hdl
    rw [attempts,if_pos accepted]
    exact ih (earlier + 1)

theorem lossless_run (network : Network H) (lossless : network.Lossless) (transmissions : List (Transmission H))
    (f : Flotilla H) : ∃ sends, (transmitAll network transmissions).run f = .ok () (f.sent sends) := by
  rw [transmitAll_run,if_pos (lossless_attempts network lossless _ _)]
  exact ⟨_,rfl⟩

variable [DecidableEq H]

theorem message_alongside (network : Network H) (lossless : network.Lossless) (hdl : H) (payload : Text) (d : Fin maxDocks)
    (f g next : Flotilla H) (alongside : Alongside d f g)
    (ran : (websocketOnMessage network hdl payload).run f = .ok () next) :
    ∃ other, (websocketOnMessage network hdl payload).run g = .ok () other ∧ Alongside d next other := by
  cases found : f.clients.lookup hdl with
  | none =>
    rw [websocketOnMessage_unknown network hdl payload f (AList.lookup_eq_none.mp found)] at ran
    contradiction
  | some client =>
    have too : g.clients.lookup hdl = some client := by
      rw [← alongside.clients]
      exact found
    have known : hdl ∈ f.clients := AList.lookup_isSome.mp (by rw [found]; rfl)
    have knows : hdl ∈ g.clients := AList.lookup_isSome.mp (by rw [too]; rfl)
    rcases payload_cases (H := H) payload with start | rfl | ⟨m,rfl⟩ | unhandled
    · rw [websocketOnMessage_known network hdl payload f known,handleMessage_dock network hdl payload f start] at ran
      rw [websocketOnMessage_known network hdl payload g knows,handleMessage_dock network hdl payload g start]
      rcases dockMessage_uniform payload start with ⟨fault,failed⟩ | same | ⟨e,c,data,queued⟩ | ⟨e,command,queued⟩
      · rw [failed] at ran
        contradiction
      · rw [same] at ran ⊢
        obtain ⟨_,rfl⟩ := EStateM.Result.ok.inj ran
        exact ⟨g,rfl,alongside⟩
      · rw [queued] at ran ⊢
        obtain ⟨_,rfl⟩ := EStateM.Result.ok.inj ran
        exact ⟨_,rfl,alongside_queued d e c data f g alongside⟩
      · rw [queued] at ran ⊢
        obtain ⟨_,rfl⟩ := EStateM.Result.ok.inj ran
        exact ⟨_,rfl,alongside_command d e command f g alongside⟩
    · rw [websocketOnMessage_known network hdl _ f known,handleMessage_quit,stopServer_run] at ran
      rw [websocketOnMessage_known network hdl _ g knows,handleMessage_quit,stopServer_run,← alongside.listening]
      split at ran
      next listening =>
        obtain ⟨first,said⟩ := lossless_run network lossless f.farewell {f with listening := false}
        obtain ⟨second,saying⟩ := lossless_run network lossless g.farewell {g with listening := false}
        rw [said] at ran
        obtain ⟨_,rfl⟩ := EStateM.Result.ok.inj ran
        exact ⟨_,(if_pos listening).trans saying,alongside.dock,alongside.clients,rfl⟩
      next => contradiction
    · obtain ⟨first,said⟩ := lossless_run network lossless (f.answer hdl m) (f.changed hdl (m.change client))
      obtain ⟨second,saying⟩ := lossless_run network lossless (g.answer hdl m) (g.changed hdl (m.change client))
      rw [message_run network hdl m f client found,said] at ran
      obtain ⟨_,rfl⟩ := EStateM.Result.ok.inj ran
      refine ⟨_,(message_run network hdl m g client too).trans saying,alongside.dock,?_,alongside.listening⟩
      exact congrArg (fun clients : AList (fun _ : H => FlotillaClient) => clients.replace hdl (m.change client)) alongside.clients
    · rw [websocketOnMessage_known network hdl payload f known,unhandled network hdl] at ran
      obtain ⟨_,rfl⟩ := EStateM.Result.ok.inj ran
      refine ⟨g,?_,alongside⟩
      rw [websocketOnMessage_known network hdl payload g knows,unhandled network hdl]
      rfl

end Flotilla

namespace Host
variable {H : Type} [DecidableEq H] (network : Network H) (d : Fin maxDocks)

/-- What each pass so far has sent about a dock. -/
def logPass (h : Host H) (input : HostInput H) (log : List (List (Transmission H))) : List (List (Transmission H)) :=
  match input with
  | .updateClients => log ++ [h.flotilla.passSends d]
  | _ => log

def GoesOn (h : Host H) (input : HostInput H) : Prop := (h.step network input).halted = false

instance (h : Host H) (input : HostInput H) : Decidable (h.GoesOn network input) := inferInstanceAs (Decidable (_ = _))

/-- Two runs that are alike as far as a dock goes. -/
structure Together (s t : Host H × List (List (Transmission H))) : Prop where
  sound : s.1.Sound
  other : t.1.Sound
  running : s.1.halted = false
  runs : t.1.halted = false
  alongside : Flotilla.Alongside d s.1.flotilla t.1.flotilla
  written : s.1.written d = t.1.written d
  log : s.2 = t.2

theorem together_next (s t : Host H × List (List (Transmission H))) (input : HostInput H) (log : List (List (Transmission H)))
    (together : Together d s t) (f g : Flotilla H) (written also : Fin maxDocks → Text)
    (mine : s.1.step network input = ⟨f,written,s.1.halted⟩) (theirs : t.1.step network input = ⟨g,also,t.1.halted⟩)
    (alongside : Flotilla.Alongside d f g) (same : written d = also d) :
    Together d (s.1.step network input,log) (t.1.step network input,log) := by
  refine ⟨s.1.sound_step network together.sound input,t.1.sound_step network together.other input,?_,?_,?_,?_,rfl⟩
  · rw [mine]
    exact together.running
  · rw [theirs]
    exact together.runs
  · rw [mine,theirs]
    exact alongside
  · rw [mine,theirs]
    exact same

omit [DecidableEq H] in
theorem alongside_change (f g : Flotilla H) (alongside : Flotilla.Alongside d f g) (dock : FlotillaDock) :
    Flotilla.Alongside d (f.changeDock d dock) (g.changeDock d dock) :=
  ⟨by rw [Flotilla.changeDock_dock,Flotilla.changeDock_dock,Function.update_self,Function.update_self],alongside.clients,
    alongside.listening⟩

theorem together_kept (lossless : network.Lossless) (s t : Host H × List (List (Transmission H))) (input : HostInput H)
    (together : Together d s t) (goes : s.1.GoesOn network input) (concerns : input.concerns d = true) :
    Together d (s.1.step network input,s.1.logPass d input s.2) (t.1.step network input,t.1.logPass d input t.2) := by
  have alongside := together.alongside
  have logs : t.1.logPass d input t.2 = s.1.logPass d input s.2 := by
    unfold logPass
    cases input with
    | updateClients =>
      dsimp only
      rw [together.log,Flotilla.alongside_passSends d _ _ alongside]
    | opened _ | closed _ | failed _ | message _ _ | tick _ _ | disconnect _ | setPort _ _ _ _ _ => exact together.log.symm
  rw [logs]
  have mine := s.1.step_running network together.running input
  have theirs := t.1.step_running network together.runs input
  unfold GoesOn at goes
  cases input with
  | opened hdl =>
    refine together_next network d s t _ _ together _ _ s.1.written t.1.written
      (mine.trans (handle_ok _ _ _ (Flotilla.websocketOnOpen_run hdl _ together.sound.serving.free)))
      (theirs.trans (handle_ok _ _ _ (Flotilla.websocketOnOpen_run hdl _ together.other.serving.free))) ?_ together.written
    refine ⟨alongside.dock,?_,alongside.listening⟩
    dsimp only
    rw [alongside.clients]
  | closed hdl =>
    refine together_next network d s t _ _ together _ _ s.1.written t.1.written
      (mine.trans (handle_ok _ _ _ (Flotilla.websocketOnClose_run hdl _ together.sound.serving.free)))
      (theirs.trans (handle_ok _ _ _ (Flotilla.websocketOnClose_run hdl _ together.other.serving.free))) ?_ together.written
    refine ⟨alongside.dock,?_,alongside.listening⟩
    dsimp only
    rw [alongside.clients]
  | failed hdl =>
    refine together_next network d s t _ _ together _ _ s.1.written t.1.written
      (mine.trans (handle_ok _ _ _ (Flotilla.websocketOnClose_run hdl _ together.sound.serving.free)))
      (theirs.trans (handle_ok _ _ _ (Flotilla.websocketOnClose_run hdl _ together.other.serving.free))) ?_ together.written
    refine ⟨alongside.dock,?_,alongside.listening⟩
    dsimp only
    rw [alongside.clients]
  | message hdl request =>
    rw [mine] at goes
    obtain ⟨f,ran,same⟩ := s.1.handle_goes_on _ goes
    obtain ⟨g,also,alike⟩ := Flotilla.message_alongside network lossless hdl _ d _ _ f alongside ran
    exact together_next network d s t _ _ together f g s.1.written t.1.written (mine.trans same)
      (theirs.trans (handle_ok _ _ _ also)) alike together.written
  | updateClients =>
    have served (h : Host H) (sound : h.Sound) : h.handle (Flotilla.updateClients network) = _ :=
      handle_ok _ _ _ (Flotilla.updateClients_run network h.flotilla sound.serving.free)
    refine together_next network d s t _ _ together _ _ s.1.written t.1.written (mine.trans (served s.1 together.sound))
      (theirs.trans (served t.1 together.other)) ?_ together.written
    rw [Flotilla.servedAll_eq _ together.sound.serving.running,Flotilla.servedAll_eq _ together.other.serving.running]
    exact ⟨congrArg FlotillaDock.afterPass alongside.dock,alongside.clients,alongside.listening⟩
  | tick e arrived =>
    obtain rfl : e = d := of_decide_eq_true concerns
    rw [mine] at goes
    obtain ⟨dock,port,ran,same⟩ := s.1.tick_goes_on e arrived goes
    have also : t.1.tick e arrived = {t.1.changeDock e dock with written := Function.update t.1.written e port.written} := by
      unfold tick
      rw [← alongside.dock,← together.written,ran]
    refine together_next network e s t _ _ together _ _ _ _ (mine.trans same) (theirs.trans also)
      (alongside_change e _ _ alongside dock) ?_
    rw [Function.update_self,Function.update_self]
  | disconnect e =>
    obtain rfl : e = d := of_decide_eq_true concerns
    refine together_next network e s t _ _ together _ _ s.1.written t.1.written mine (theirs.trans ?_)
      (alongside_change e _ _ alongside _) together.written
    rw [alongside.dock]
    rfl
  | setPort e copied opened banner arrived =>
    obtain rfl : e = d := of_decide_eq_true concerns
    refine together_next network e s t _ _ together _ _ s.1.written t.1.written mine (theirs.trans ?_)
      (alongside_change e _ _ alongside _) together.written
    rw [alongside.dock]
    rfl

theorem together_deleted (s t : Host H × List (List (Transmission H))) (input : HostInput H) (together : Together d s t)
    (goes : s.1.GoesOn network input) (foreign : input.concerns d = false) :
    Together d (s.1.step network input,s.1.logPass d input s.2) t := by
  have stepped := s.1.running_flotilla network together.sound.serving together.running input
  have alongside := together.alongside
  have mine := s.1.step_running network together.running input
  have apart (e : Fin maxDocks) (other : decide (e = d) = false) (dock : FlotillaDock) :
      Flotilla.Alongside d (s.1.flotilla.changeDock e dock) t.1.flotilla := by
    refine ⟨?_,alongside.clients,alongside.listening⟩
    rw [Flotilla.changeDock_dock,Function.update_of_ne (Ne.symm (of_decide_eq_false other))]
    exact alongside.dock
  have after (log : s.1.logPass d input s.2 = s.2) (written : (s.1.step network input).written d = s.1.written d)
      (alike : Flotilla.Alongside d (s.1.step network input).flotilla t.1.flotilla) :
      Together d (s.1.step network input,s.1.logPass d input s.2) t :=
    ⟨s.1.sound_step network together.sound input,together.other,goes,together.runs,alike,written.trans together.written,
      log.trans together.log⟩
  cases input with
  | opened hdl | closed hdl | failed hdl | updateClients => contradiction
  | message hdl request =>
    unfold GoesOn at goes
    rw [mine] at goes
    obtain ⟨f,_,same⟩ := s.1.handle_goes_on _ goes
    refine after rfl (by rw [mine]; dsimp only; rw [same]) ?_
    rw [stepped,next]
    cases request with
    | session m => contradiction
    | update e c data =>
      rw [after_update]
      split
      · exact apart e foreign _
      · exact alongside
    | other payload =>
      obtain ⟨marked,elsewhere⟩ := Bool.or_eq_false_iff.mp foreign
      have start := (beginsWith_iff _ _).mp (by simpa using marked)
      rcases Flotilla.dock_message_after network hdl _ s.1.flotilla start with kept | handled
      · rw [Request.payload,kept]
        exact alongside
      · have appends := Flotilla.dockMessage_appends s.1.flotilla _ _ start handled
        obtain ⟨dock,clients,listening⟩ := Flotilla.appends_addressed _ _ _ _ appends d (of_decide_eq_false elsewhere)
        exact ⟨dock.trans alongside.dock,clients.trans alongside.clients,listening.trans alongside.listening⟩
  | tick e arrived =>
    unfold GoesOn at goes
    rw [mine] at goes
    obtain ⟨dock,port,_,same⟩ := s.1.tick_goes_on e arrived goes
    refine after rfl ?_ (by rw [stepped]; exact apart e foreign _)
    rw [mine]
    dsimp only
    rw [same]
    exact Function.update_of_ne (Ne.symm (of_decide_eq_false foreign)) ..
  | disconnect e => exact after rfl (by rw [mine]; rfl) (by rw [stepped]; exact apart e foreign _)
  | setPort e copied opened banner arrived =>
    exact after rfl (by rw [mine]; rfl) (by rw [stepped]; exact apart e foreign _)

end Host

def logged {H : Type} [DecidableEq H] (network : Network H) (d : Fin maxDocks) (canonicalAddress : Text)
    (inputs : List (HostInput H)) : Host H × List (List (Transmission H)) :=
  ((hosts network).tracked (Host.logPass d)).run (.new canonicalAddress,[]) inputs

/-- As long as nothing ends the daemon, a dock, the bytes written to its port and all that passes
send about it are the same as if there were no inputs for other docks. -/
theorem docks_isolated {H : Type} [DecidableEq H] (network : Network H) (lossless : network.Lossless) (d : Fin maxDocks)
    (canonicalAddress : Text) (inputs : List (HostInput H))
    (running : (hosts network).Along (Host.GoesOn network) (.new canonicalAddress) inputs) :
    let whole := logged network d canonicalAddress inputs
    let own := logged network d canonicalAddress (inputs.filter (HostInput.concerns d))
    whole.1.flotilla.dock d = own.1.flotilla.dock d ∧ whole.1.written d = own.1.written d ∧ whole.2 = own.2 := by
  have sound : (Host.new canonicalAddress : Host H).Sound := ⟨⟨rfl,rfl⟩,fun e => FlotillaDock.new_wired e⟩
  have start : Host.Together d ((Host.new canonicalAddress : Host H),[]) (.new canonicalAddress,[]) :=
    ⟨sound,sound,rfl,rfl,⟨rfl,rfl,rfl⟩,rfl,rfl⟩
  have together := ((hosts network).tracked (Host.logPass d)).run_filter (HostInput.concerns d) (Host.Together d)
    (fun s input => s.1.GoesOn network input)
    (fun s t input kept goes concerns => Host.together_kept network d lossless s t input kept goes concerns)
    (fun s t input kept goes foreign => Host.together_deleted network d s t input kept goes foreign) _ _ start inputs
    (((hosts network).along_tracked (Host.logPass d) _ _ [] inputs).mpr running)
  exact ⟨together.alongside.dock,together.written,together.log⟩

section Runs

def besideDial : List (HostInput Nat) :=
  [.setPort 1 true true true
    ("# Version: 1.0\n# Serial: 9876543210987654321098\n# User: c\n# Dock: d\n".toList.map .byte),
    .tick 1 ("c 1/motor\n".toList.map .byte),.message 1 (.update 1 0 ⟨"9".toList,by decide⟩),.tick 1 [],.updateClients,
    .disconnect 1,.updateClients]

end Runs

theorem docks_isolated_dial :
    let whole := logged allSucceed 0 [] (dialVisit ++ besideDial)
    let own := logged allSucceed 0 [] ((dialVisit ++ besideDial).filter (HostInput.concerns 0))
    whole.1.flotilla.dock 0 = own.1.flotilla.dock 0 ∧ whole.1.written 0 = own.1.written 0 ∧ whole.2 = own.2 :=
  docks_isolated allSucceed ⟨fun _ => rfl,fun _ => rfl⟩ 0 [] (dialVisit ++ besideDial) (by decide +kernel)

end FlotillaDaemon
