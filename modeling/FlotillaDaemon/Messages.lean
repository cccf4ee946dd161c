import FlotillaDaemon.DockLines
import FlotillaDaemon.Server
import Mathlib

/-! Which messages of a client are handled without a fault. A `dock:` message is cut six
times, at offsets that come from each other, and only its dock number is known to fit an
`int`. No exception of the branch is caught, unlike in the subscription branches. -/
set_option mvcgen.warning false
namespace FlotillaDaemon
open Cpp Std.Do

def address (payload : Text) : Text := (payload.drop 5).take 2

/-- What follows `data:`. Without a `data:` the wrapped position cuts off four characters. -/
def body (payload : Text) : Text := payload.drop (offsetAfter (find "data:".toList payload) 5)

structure UpdateHandled (dockIndex : Int) (data : Text) (number : Int) (size : Nat) : Prop where
  read : LineNumber data number size
  low : intMin < number
  channel : 1 ≤ number → number ≤ maxChannels →
    size + 3 ≤ data.length ∧ 0 ≤ dockIndex ∧ dockIndex < maxDocks

structure DataHandled (dockIndex : Int) (data : Text) : Prop where
  present : data ≠ []
  update : data.head? = some 's' → ∃ number size, UpdateHandled dockIndex data number size
  command : data.head? ≠ some 's' → 0 ≤ dockIndex

structure DataAddressed (dockIndex : Int) (data : Text) : Prop where
  update : data.head? = some 's' → ∀ number size, LineNumber data number size → intMin < number ∧
    (1 ≤ number → number ≤ maxChannels → size + 3 ≤ data.length → 0 ≤ dockIndex ∧ dockIndex < maxDocks)
  command : data ≠ [] → data.head? ≠ some 's' → 0 ≤ dockIndex

namespace Flotilla
variable {H : Type}

theorem updateMessage_eq (f : Flotilla H) (dockIndex : Int) (data : Text) :
    f.updateMessage dockIndex data =
      substr data 2 >>= fun digits => channelNumber digits >>= fun found =>
        if found.1 < 0 ∨ found.1 ≥ maxChannels then .ok f
        else
          substr digits (found.2 + 1) >>= fun text =>
            arrayIndex maxDocks dockIndex >>= fun d =>
              arrayIndex maxChannels found.1 >>= fun c =>
                .ok (f.changeDock d ((f.dock d).setModule c (((f.dock d).module c).queueUpdate text))) :=
  rfl

theorem updateMessage_ok_iff (f : Flotilla H) (dockIndex : Int) (data : Text) :
    Returns (f.updateMessage dockIndex data) ↔ ∃ number size, UpdateHandled dockIndex data number size := by
  rw [updateMessage_eq,numbered_returns_iff]
  constructor
  · intro ⟨number,size,read,low,rest⟩
    refine ⟨number,size,read,low,?_⟩
    intro first last
    rw [if_neg (by omega)] at rest
    obtain ⟨text,cut,rest⟩ := (returns_bind_iff _ _).mp rest
    obtain ⟨d,indexed,_⟩ := (returns_bind_iff _ _).mp rest
    have long := ((substr_ok_iff _ _ _).mp cut).1
    have docked := (arrayIndex_returns_iff _ _).mp ⟨d,indexed⟩
    have prefixed := read.1
    simp only [List.length_drop] at long
    exact ⟨by omega,docked⟩
  · intro ⟨number,size,read,low,channel⟩
    refine ⟨number,size,read,low,?_⟩
    split
    next outside => exact returns_ok f
    next inside =>
      dsimp only at inside
      obtain ⟨long,docked⟩ := channel (by omega) (by omega)
      have cut := (substr_ok_iff (data.drop 2) _ (size + 1)).mpr ⟨by simp only [List.length_drop]; omega,rfl⟩
      obtain ⟨d,indexed⟩ := (arrayIndex_returns_iff maxDocks dockIndex).mpr docked
      obtain ⟨c,chosen⟩ := (arrayIndex_returns_iff maxChannels (number - 1)).mpr (by omega)
      refine (returns_bind_iff _ _).mpr ⟨_,cut,(returns_bind_iff _ _).mpr ⟨d,indexed,?_⟩⟩
      exact (returns_bind_iff _ _).mpr ⟨c,chosen,returns_ok _⟩

theorem updateMessage_inBounds_iff (f : Flotilla H) (dockIndex : Int) (data : Text) :
    Defined (f.updateMessage dockIndex data) ↔
      ∀ number size, LineNumber data number size → intMin < number ∧
        (1 ≤ number → number ≤ maxChannels → size + 3 ≤ data.length → 0 ≤ dockIndex ∧ dockIndex < maxDocks) := by
  rw [updateMessage_eq,numbered_defined_iff]
  refine forall_congr' fun number => forall_congr' fun size => imp_congr_right fun read => ?_
  apply and_congr_right
  intro _
  have prefixed := read.1
  dsimp only
  by_cases outside : number - 1 < 0 ∨ number - 1 ≥ maxChannels
  · rw [if_pos outside]
    simp only [defined_ok,true_iff]
    omega
  · rw [if_neg outside,defined_bind_iff]
    constructor
    · intro defined _ _ long
      obtain ⟨_,rest⟩ := defined
      have cut := (substr_ok_iff (data.drop 2) _ (size + 1)).mpr ⟨by simp only [List.length_drop]; omega,rfl⟩
      exact (arrayIndex_defined_iff _ _).mp ((defined_bind_iff _ _).mp (rest _ cut)).1
    · intro bounded
      refine ⟨substr_defined _ _,?_⟩
      intro text cut
      have long := ((substr_ok_iff _ _ _).mp cut).1
      simp only [List.length_drop] at long
      have docked := bounded (by omega) (by omega) (by omega)
      have chosen := (arrayIndex_defined_iff maxChannels (number - 1)).mpr (by omega)
      refine (defined_bind_iff _ _).mpr ⟨(arrayIndex_defined_iff _ _).mpr docked,fun d _ => ?_⟩
      exact (defined_bind_iff _ _).mpr ⟨chosen,fun _ _ => defined_ok _⟩

theorem commandMessage_ok_iff (f : Flotilla H) (dockIndex : Int) (data : Text) :
    Returns (f.commandMessage dockIndex data) ↔ 0 ≤ dockIndex := by
  unfold commandMessage
  split
  next inside =>
    rw [returns_bind_iff]
    constructor
    · intro ⟨d,indexed,_⟩
      exact ((arrayIndex_returns_iff _ _).mp ⟨d,indexed⟩).1
    · intro docked
      obtain ⟨d,indexed⟩ := (arrayIndex_returns_iff maxDocks dockIndex).mpr ⟨docked,inside⟩
      exact ⟨d,indexed,returns_ok _⟩
  next outside => exact iff_of_true (returns_ok f) (by omega)

theorem commandMessage_inBounds_iff (f : Flotilla H) (dockIndex : Int) (data : Text) :
    Defined (f.commandMessage dockIndex data) ↔ 0 ≤ dockIndex := by
  unfold commandMessage
  split
  next inside =>
    rw [defined_bind_iff,arrayIndex_defined_iff]
    exact ⟨fun docked => docked.1.1,fun docked => ⟨⟨docked,inside⟩,fun _ _ => defined_ok _⟩⟩
  next outside => exact iff_of_true (defined_ok f) (by omega)

/-- What a `dock:` message does with its data once its dock number is read. -/
theorem data_ok_iff (f : Flotilla H) (dockIndex : Int) (data : Text) :
    Returns (charAt data 0 >>= fun first =>
        if first = 's' then f.updateMessage dockIndex data else f.commandMessage dockIndex data) ↔
      DataHandled dockIndex data := by
  cases data with
  | nil => exact iff_of_false (not_returns_error _) (fun handled => handled.present rfl)
  | cons first rest =>
    change Returns (if first = 's' then f.updateMessage dockIndex (first :: rest)
      else f.commandMessage dockIndex (first :: rest)) ↔ _
    by_cases letter : first = 's'
    · subst letter
      rw [if_pos rfl,updateMessage_ok_iff]
      exact ⟨fun update => ⟨by simp,fun _ => update,by simp⟩,fun handled => handled.update rfl⟩
    · have other : (first :: rest).head? ≠ some 's' := by simpa using letter
      rw [if_neg letter,commandMessage_ok_iff]
      exact ⟨fun docked => ⟨by simp,fun update => absurd update other,fun _ => docked⟩,
        fun handled => handled.command other⟩

theorem data_inBounds_iff (f : Flotilla H) (dockIndex : Int) (data : Text) :
    Defined (charAt data 0 >>= fun first =>
        if first = 's' then f.updateMessage dockIndex data else f.commandMessage dockIndex data) ↔
      DataAddressed dockIndex data := by
  cases data with
  | nil => exact iff_of_true ((defined_error_iff _).mpr rfl) ⟨by simp,by simp⟩
  | cons first rest =>
    change Defined (if first = 's' then f.updateMessage dockIndex (first :: rest)
      else f.commandMessage dockIndex (first :: rest)) ↔ _
    by_cases letter : first = 's'
    · subst letter
      rw [if_pos rfl,updateMessage_inBounds_iff]
      exact ⟨fun update => ⟨fun _ => update,by simp⟩,fun addressed => addressed.update rfl⟩
    · have other : (first :: rest).head? ≠ some 's' := by simpa using letter
      rw [if_neg letter,commandMessage_inBounds_iff]
      exact ⟨fun docked => ⟨fun update => absurd update other,fun _ _ => docked⟩,
        fun addressed => addressed.command (by simp) other⟩

theorem address_ok_iff (payload : Text) (start : "dock:".toList <+: payload) (dockIndex : Int) (size : Nat) :
    (substrN payload "dock:".toList.length 2 >>= stoi) = .ok (dockIndex,size) ↔
      Numeral (address payload) dockIndex size := by
  have cut : substrN payload "dock:".toList.length 2 = .ok (address payload) :=
    (substrN_ok_iff _ _ _ _).mpr ⟨start.length_le,rfl⟩
  rw [cut]
  change stoi (address payload) = _ ↔ _
  rw [stoi_ok_iff]
  -- two characters hold no number outside the range of an int
  exact ⟨And.left,fun read => ⟨read,numeral_short _ _ _ read (by simp [address])⟩⟩

theorem dockMessage_eq (f : Flotilla H) (payload : Text) (start : "dock:".toList <+: payload) :
    f.dockMessage payload =
      (substrN payload "dock:".toList.length 2 >>= stoi) >>= fun found =>
        charAt (body payload) 0 >>= fun first =>
          if first = 's' then f.updateMessage found.1 (body payload)
          else f.commandMessage found.1 (body payload) := by
  have long : 5 ≤ payload.length := start.length_le
  have inside : offsetAfter (find "data:".toList payload) "data:".toList.length ≤ payload.length := by
    cases found : find "data:".toList payload with
    | none =>
      simp only [offsetAfter,String.length_toList]
      change 4 ≤ payload.length
      omega
    | some position => simpa only [found] using offsetAfter_some_le _ _ _ found
  have rest : substr payload (offsetAfter (find "data:".toList payload) "data:".toList.length) =
      .ok (body payload) := (substr_ok_iff _ _ _).mpr ⟨inside,rfl⟩
  simp only [dockMessage,rest,bind_assoc]
  rfl

theorem dockMessage_ok_iff (f : Flotilla H) (payload : Text) (start : "dock:".toList <+: payload) :
    Returns (f.dockMessage payload) ↔
      ∃ dockIndex size, Numeral (address payload) dockIndex size ∧ DataHandled dockIndex (body payload) := by
  rw [dockMessage_eq f payload start,returns_bind_iff]
  constructor
  · intro ⟨⟨dockIndex,size⟩,parsed,rest⟩
    exact ⟨dockIndex,size,(address_ok_iff payload start _ _).mp parsed,(f.data_ok_iff _ _).mp rest⟩
  · intro ⟨dockIndex,size,read,handled⟩
    exact ⟨(dockIndex,size),(address_ok_iff payload start _ _).mpr read,(f.data_ok_iff _ _).mpr handled⟩

theorem dockMessage_inBounds_iff (f : Flotilla H) (payload : Text) (start : "dock:".toList <+: payload) :
    Defined (f.dockMessage payload) ↔
      ∀ dockIndex size, Numeral (address payload) dockIndex size → DataAddressed dockIndex (body payload) := by
  rw [dockMessage_eq f payload start,defined_bind_iff]
  constructor
  · intro ⟨_,rest⟩ dockIndex size read
    exact (f.data_inBounds_iff _ _).mp (rest (dockIndex,size) ((address_ok_iff payload start _ _).mpr read))
  · intro addressed
    refine ⟨stoi_substrN_defined _ _ _,?_⟩
    intro ⟨dockIndex,size⟩ parsed
    exact (f.data_inBounds_iff _ _).mpr (addressed dockIndex size ((address_ok_iff payload start _ _).mp parsed))

variable [DecidableEq H]

omit [DecidableEq H] in
@[spec]
theorem transmit_spec (network : Network H) (transmission : Transmission H) (before : Flotilla H) :
    ⦃fun f => ⌜f = before⌝⦄ transmit network transmission
    ⦃post⟨fun _ after => ⌜network.accepts before.transmissions.length transmission = true ∧
          after = {before with transmissions := before.transmissions ++ [transmission]}⌝,
        fun fault _ => ⌜fault = .otherException ∧
          network.accepts before.transmissions.length transmission = false⌝⟩⦄ := by
  mvcgen [transmit] with simp_all

omit [DecidableEq H] in
private theorem not_all_sent (network : Network H) (earlier : Nat) (failed : network.sends earlier = false) :
    ¬ ∀ n, network.sends n = true := by
  intro sends
  exact Bool.false_ne_true (failed.symm.trans (sends earlier))

structure Stoppable (network : Network H) (f : Flotilla H) : Prop where
  listening : f.listening = true
  closes : ∀ client ∈ f.clients.entries, network.closes client.1 = true

omit [DecidableEq H] in
@[spec]
theorem stopServer_spec (network : Network H) (before : Flotilla H) :
    ⦃fun f => ⌜f = before⌝⦄ stopServer network
    ⦃post⟨fun _ _ => ⌜Stoppable network before⌝,
        fun fault _ => ⌜fault = .otherException ∧
          ((∀ n, network.sends n = true) → ¬ Stoppable network before)⌝⟩⦄ := by
  mvcgen [stopServer,stopListening] invariants
  · post⟨fun (cursor,_) _ => ⌜∀ client ∈ cursor.prefix, network.closes client.1 = true⌝,
      fun fault _ => ⌜fault = .otherException ∧
        ((∀ n, network.sends n = true) → ¬ Stoppable network before)⌝⟩
  case vc1.step.post.success.post.success closed _ _ _ _ _ done =>
    intro client member
    rcases List.mem_append.mp member with earlier | now
    · exact closed client earlier
    · rw [List.mem_singleton.mp now]
      exact done.1
  case vc2.step.post.success.post.except.handle same _ _ _ _ client _ split _ _ _ _ _ _ _ =>
    intro _ other failed
    refine ⟨other,fun _ stoppable => ?_⟩
    have member : client ∈ before.clients.entries := by
      subst same
      exact (congrArg (client ∈ ·) split).mpr (by simp)
    exact Bool.false_ne_true (failed.symm.trans (stoppable.closes client member))
  case vc3.step.post.except.handle =>
    intro _ other failed
    exact ⟨other,fun sends => absurd sends (not_all_sent network _ failed)⟩
  case vc4.isTrue.pre => simp
  case vc5.isTrue.post.success same _ listening _ _ _ closed =>
    subst same
    exact ⟨listening,closed⟩
  case vc7.isFalse same _ deaf =>
    subst same
    exact ⟨trivial,fun _ stoppable => deaf stoppable.listening⟩

omit [DecidableEq H] in
@[spec]
theorem initDock_spec (network : Network H) (hdl : H) (dockIdx : Fin maxDocks) :
    ⦃⌜True⌝⦄ initDock network hdl dockIdx
    ⦃post⟨fun _ _ => ⌜True⌝,
        fun fault _ => ⌜fault = .otherException ∧ ¬ ∀ n, network.sends n = true⌝⟩⦄ := by
  mvcgen [initDock] invariants
  · post⟨fun _ _ => ⌜True⌝,fun fault _ => ⌜fault = .otherException ∧ ¬ ∀ n, network.sends n = true⌝⟩
  case vc2.step.isTrue.post.except.handle =>
    intro _ other failed
    exact ⟨other,not_all_sent network _ failed⟩
  case vc6.isTrue.post.except.handle =>
    intro other failed
    exact ⟨other,not_all_sent network _ failed⟩

omit [DecidableEq H] in
@[spec]
theorem initClient_spec (network : Network H) (hdl : H) :
    ⦃⌜True⌝⦄ initClient network hdl
    ⦃post⟨fun _ _ => ⌜True⌝,
        fun fault _ => ⌜fault = .otherException ∧ ¬ ∀ n, network.sends n = true⌝⟩⦄ := by
  mvcgen [initClient] invariants
  · post⟨fun _ _ => ⌜True⌝,fun fault _ => ⌜fault = .otherException ∧ ¬ ∀ n, network.sends n = true⌝⟩
  case vc2.step.post.except.handle => exact fun _ other unsent => ⟨other,unsent⟩
  all_goals
    intro other failed
    exact ⟨other,not_all_sent network _ failed⟩

@[spec]
theorem getClientFromHdl_spec (hdl : H) (before : Flotilla H) :
    ⦃fun f => ⌜f = before⌝⦄ getClientFromHdl hdl
    ⦃post⟨fun client f => ⌜f = before ∧ before.clients.lookup hdl = some client⌝,
        fun fault _ => ⌜fault = .invalidArgument ∧ hdl ∉ before.clients⌝⟩⦄ := by
  mvcgen [getClientFromHdl]
  case vc1.h_1 same client found => exact ⟨same,same ▸ found⟩
  case vc2.h_2 same missing =>
    rw [same] at missing
    exact ⟨trivial,AList.lookup_eq_none.mp missing⟩

@[spec]
theorem changeClient_spec (hdl : H) (change : FlotillaClient → FlotillaClient) (before : Flotilla H) :
    ⦃fun f => ⌜f = before⌝⦄ changeClient hdl change
    ⦃post⟨fun _ _ => ⌜True⌝,fun fault _ => ⌜fault = .invalidArgument ∧ hdl ∉ before.clients⌝⟩⦄ := by
  mvcgen [changeClient]
  case vc1.post.except.handle same _ _ => exact fun invalid missing => ⟨invalid,same ▸ missing⟩

@[spec]
theorem subscriptionMessage_spec (key : Text) (change : FlotillaClient → Int → FlotillaClient) (hdl : H)
    (payload : Text) (before : Flotilla H) :
    ⦃fun f => ⌜f = before⌝⦄ subscriptionMessage key change hdl payload
    ⦃post⟨fun _ _ => ⌜True⌝,fun fault _ => ⌜fault = .invalidArgument ∧ hdl ∉ before.clients⌝⟩⦄ := by
  mvcgen [subscriptionMessage]
  case vc1.h_1.isFalse fault failed uncaught _ _ =>
    exact absurd (stoi_substrN_defined payload key.length 2 fault failed) uncaught

omit [DecidableEq H] in
/-- A triple from one state, read off the run from that state. -/
theorem run_of_triple {A : Type} (handler : Handler H A) (f : Flotilla H) (returned : A → Flotilla H → Prop)
    (thrown : Fault → Flotilla H → Prop)
    (spec : ⦃fun before => ⌜before = f⌝⦄ handler
      ⦃post⟨fun value after => ⌜returned value after⌝,fun fault after => ⌜thrown fault after⌝⟩⦄) :
    match handler.run f with
    | .ok value after => returned value after
    | .error fault after => thrown fault after := by
  have started := spec f rfl
  simp only [wp,PredTrans.apply] at started
  cases ended : handler.run f with
  | ok value after =>
    rw [ended] at started
    exact started
  | error fault after =>
    rw [ended] at started
    exact started

theorem websocketOnMessage_known (network : Network H) (hdl : H) (payload : Text) (f : Flotilla H)
    (known : hdl ∈ f.clients) :
    (websocketOnMessage network hdl payload).run f = (handleMessage network hdl payload).run f := by
  obtain ⟨client,found⟩ := Option.isSome_iff_exists.mp (AList.lookup_isSome.mpr known)
  have located : (getClientFromHdl hdl).run f = .ok client f := by
    simp [getClientFromHdl,found]
  rw [websocketOnMessage,EStateM.run_bind,located]

theorem websocketOnMessage_unknown (network : Network H) (hdl : H) (payload : Text) (f : Flotilla H)
    (unknown : hdl ∉ f.clients) :
    (websocketOnMessage network hdl payload).run f = .error .invalidArgument f := by
  have missing := AList.lookup_eq_none.mpr unknown
  have thrown : (getClientFromHdl hdl).run f = .error .invalidArgument f := by
    simp only [getClientFromHdl,EStateM.run_bind,EStateM.run_get,missing]
    rfl
  rw [websocketOnMessage,EStateM.run_bind,thrown]

theorem handleMessage_dock (network : Network H) (hdl : H) (payload : Text) (f : Flotilla H)
    (start : "dock:".toList <+: payload) :
    (handleMessage network hdl payload).run f =
      match f.dockMessage payload with
      | .ok after => .ok () after
      | .error fault => .error fault f := by
  rw [handleMessage,if_pos ((beginsWith_iff _ _).mpr start)]
  cases handled : f.dockMessage payload with
  | ok after => simp [handled,liftOutcome]
  | error fault =>
    simp only [EStateM.run_bind,EStateM.run_get,handled]
    rfl

theorem handleMessage_quit (network : Network H) (hdl : H) :
    handleMessage network hdl "quit".toList = stopServer network := rfl

theorem handleMessage_other (network : Network H) (hdl : H) (payload : Text) (before : Flotilla H)
    (other : ¬ "dock:".toList <+: payload) (running : payload ≠ "quit".toList) :
    ⦃fun f => ⌜f = before⌝⦄ handleMessage network hdl payload
    ⦃post⟨fun _ _ => ⌜True⌝,
        fun fault _ => ⌜(fault = .invalidArgument ∧ hdl ∉ before.clients) ∨
          (fault = .otherException ∧ ¬ ∀ n, network.sends n = true)⌝⟩⦄ := by
  have dock : ¬ beginsWith "dock:".toList payload = true := fun start => other ((beginsWith_iff _ _).mp start)
  rw [handleMessage,if_neg dock]
  have unknown (f : Flotilla H) (same : f = before) (fault : Fault) (invalid : fault = .invalidArgument)
      (missing : hdl ∉ f.clients) : (fault = .invalidArgument ∧ hdl ∉ before.clients) ∨
        (fault = .otherException ∧ ¬ ∀ n, network.sends n = true) := Or.inl ⟨invalid,same ▸ missing⟩
  by_cases subs : beginsWith "subscribe:".toList payload = true
  · rw [if_pos subs]
    mvcgen
    case vc2.pos.post.except.handle same fault _ => exact unknown _ same fault
  · rw [if_neg subs]
    by_cases usub : beginsWith "unsubscribe:".toList payload = true
    · rw [if_pos usub]
      mvcgen
      case vc2.pos.post.except.handle same fault _ => exact unknown _ same fault
    · rw [if_neg usub,if_neg running]
      mvcgen
      case vc2.neg.isTrue.post.except.handle => exact fun thrown unsent => Or.inr ⟨thrown,unsent⟩
      case vc4.neg.isFalse.isTrue.post.success.post.except.handle =>
        exact fun thrown unsent => Or.inr ⟨thrown,unsent⟩
      case vc5.neg.isFalse.isTrue.post.except.handle same fault _ => exact unknown _ same fault
      case vc7.neg.isFalse.isFalse.isTrue.post.except.handle same fault _ => exact unknown _ same fault

end Flotilla

open Flotilla

/-- The condition under which a message of a known client is handled: a `dock:` message
names a dock and holds data that is handled, and `quit` finds a server that can stop. -/
structure MessageHandled {H : Type} (network : Network H) (f : Flotilla H) (payload : Text) : Prop where
  dock : "dock:".toList <+: payload →
    ∃ dockIndex size, Numeral (address payload) dockIndex size ∧ DataHandled dockIndex (body payload)
  quit : payload = "quit".toList → Stoppable network f

/-- Client input ends the daemon exactly when this condition fails: the handler returns
if and only if it holds. -/
theorem message_handled_iff {H : Type} [DecidableEq H] (network : Network H)
    (sends : ∀ n, network.sends n = true) (hdl : H) (payload : Text) (f : Flotilla H)
    (known : hdl ∈ f.clients) :
    (∃ after, (websocketOnMessage network hdl payload).run f = .ok () after) ↔
      MessageHandled network f payload := by
  rw [websocketOnMessage_known network hdl payload f known]
  by_cases start : "dock:".toList <+: payload
  · have running : payload ≠ "quit".toList := by
      intro quit
      rw [quit] at start
      exact absurd start (by decide)
    rw [handleMessage_dock network hdl payload f start]
    have handled := f.dockMessage_ok_iff payload start
    constructor
    · intro ⟨after,returned⟩
      refine ⟨fun _ => handled.mp ?_,fun quit => absurd quit running⟩
      cases ended : f.dockMessage payload with
      | ok next => exact ⟨next,rfl⟩
      | error fault => simp [ended] at returned
    · intro condition
      obtain ⟨next,ended⟩ := handled.mpr (condition.dock start)
      exact ⟨next,by rw [ended]⟩
  · by_cases quit : payload = "quit".toList
    · subst quit
      rw [handleMessage_quit]
      have stopped := run_of_triple _ f _ _ (stopServer_spec network f)
      constructor
      · intro ⟨after,returned⟩
        rw [returned] at stopped
        exact ⟨fun dock => absurd dock start,fun _ => stopped⟩
      · intro condition
        cases ended : (stopServer network).run f with
        | ok value after => exact ⟨after,rfl⟩
        | error fault after =>
          rw [ended] at stopped
          exact absurd (condition.quit rfl) (stopped.2 sends)
    · have other := run_of_triple _ f _ _ (handleMessage_other network hdl payload f start quit)
      refine ⟨fun _ => ⟨fun dock => absurd dock start,fun same => absurd same quit⟩,fun _ => ?_⟩
      cases ended : (handleMessage network hdl payload).run f with
      | ok value after => exact ⟨after,rfl⟩
      | error fault after =>
        rw [ended] at other
        rcases other with ⟨_,unknown⟩ | ⟨_,unsent⟩
        · exact absurd known unknown
        · exact absurd sends unsent

def oneClient : Flotilla Nat := {Flotilla.new with clients := AList.insert 0 .new ∅,listening := true}

def allSucceed : Network Nat := ⟨fun _ => true,fun _ => true⟩

theorem message_handled_update : MessageHandled allSucceed oneClient "dock:0 data:s 1 5".toList :=
  (message_handled_iff allSucceed (fun _ => rfl) 0 _ oneClient (by decide)).mp ⟨_,rfl⟩

theorem message_fails_short :
    ¬ ∀ (network : Network Nat), (∀ n, network.sends n = true) → ∀ (hdl : Nat) (payload : Text)
      (f : Flotilla Nat), hdl ∈ f.clients →
        ∃ after, (websocketOnMessage network hdl payload).run f = .ok () after := by
  intro returns
  obtain ⟨after,returned⟩ := returns allSucceed (fun _ => rfl) 0 "dock:".toList oneClient (by decide)
  have failed : oneClient.dockMessage "dock:".toList = .error .invalidArgument := rfl
  rw [websocketOnMessage_known _ _ _ _ (by decide),handleMessage_dock _ _ _ _ (by decide),failed] at returned
  contradiction

/-- Every fault of the message is an exception: no access leaves the arrays of docks and
modules and the subtraction does not overflow. -/
def MessageInBounds {H : Type} [DecidableEq H] (network : Network H) (hdl : H) (payload : Text)
    (f : Flotilla H) : Prop :=
  ∀ fault after, (websocketOnMessage network hdl payload).run f = .error fault after →
    fault.isException = true

theorem message_inBounds_iff {H : Type} [DecidableEq H] (network : Network H) (hdl : H) (payload : Text)
    (f : Flotilla H) :
    MessageInBounds network hdl payload f ↔
      (hdl ∈ f.clients → "dock:".toList <+: payload → ∀ dockIndex size,
        Numeral (address payload) dockIndex size → DataAddressed dockIndex (body payload)) := by
  unfold MessageInBounds
  by_cases known : hdl ∈ f.clients
  · rw [websocketOnMessage_known network hdl payload f known]
    by_cases start : "dock:".toList <+: payload
    · simp only [known,start,forall_const]
      rw [handleMessage_dock network hdl payload f start,← f.dockMessage_inBounds_iff payload start]
      constructor
      · intro exceptions fault failed
        exact exceptions fault f (by rw [failed])
      · intro exceptions fault after thrown
        cases ended : f.dockMessage payload with
        | ok next => simp [ended] at thrown
        | error reason =>
          simp only [ended,EStateM.Result.error.injEq] at thrown
          exact exceptions fault (thrown.1 ▸ ended)
    · refine ⟨fun _ _ dock => absurd dock start,?_⟩
      intro _ fault after thrown
      by_cases quit : payload = "quit".toList
      · subst quit
        rw [handleMessage_quit] at thrown
        have stopped := run_of_triple _ f _ _ (stopServer_spec network f)
        rw [thrown] at stopped
        rw [stopped.1]
        rfl
      · have other := run_of_triple _ f _ _ (handleMessage_other network hdl payload f start quit)
        rw [thrown] at other
        rcases other with ⟨invalid,_⟩ | ⟨failed,_⟩
        · rw [invalid]
          rfl
        · rw [failed]
          rfl
  · refine ⟨fun _ located => absurd located known,?_⟩
    intro _ fault after thrown
    rw [websocketOnMessage_unknown network hdl payload f known] at thrown
    injection thrown with reason
    rw [← reason]
    rfl

theorem message_outside_docks :
    ¬ ∀ (network : Network Nat) (hdl : Nat) (payload : Text) (f : Flotilla Nat),
      MessageInBounds network hdl payload f := by
  intro bounded
  have failed : oneClient.dockMessage "dock:9 data:s 1 5".toList = .error (.badIndex maxDocks 9) := rfl
  have fault := bounded allSucceed 0 "dock:9 data:s 1 5".toList oneClient (.badIndex maxDocks 9) oneClient (by
    rw [websocketOnMessage_known _ _ _ _ (by decide),handleMessage_dock _ _ _ _ (by decide),failed])
  exact absurd fault (by decide)

end FlotillaDaemon
