import Mathlib
import FlotillaDaemon.HostSteps

/-! What a `dock:` message may change. The position of its data is the result of a search plus a
length, so a message without `data:` is cut at the wrapped position and queued as a command. -/
namespace FlotillaDaemon
open Cpp

namespace Flotilla
variable {H : Type}

def QueuesKept (f next : Flotilla H) : Prop :=
  ∀ d, (next.dock d).commandQueue = (f.dock d).commandQueue ∧
    ∀ c, ((next.dock d).module c).updateQueue = ((f.dock d).module c).updateQueue

/-- At most one text is appended: the whole text to the commands of the dock that the message
addresses, or a part of it that is not empty to the updates of the module that it addresses. -/
inductive Appends (f : Flotilla H) (payload text : Text) : Flotilla H → Prop
  | nothing : Appends f payload text f
  | command (d : Fin maxDocks) (size : Nat) (addressed : Numeral (address payload) d.val size) :
      Appends f payload text (f.changeDock d ((f.dock d).queueCommand text))
  | update (d : Fin maxDocks) (c : Fin maxChannels) (size digits : Nat) (data : Text)
      (addressed : Numeral (address payload) d.val size) (channel : LineNumber text (c.val + 1) digits)
      (present : data ≠ []) (part : data <:+ text) : Appends f payload text (f.queued d c data)

theorem body_marked (payload : Text) (position : Nat) (found : find "data:".toList payload = some position) :
    body payload = payload.drop (position + 5) := by
  rw [body,found]
  rfl

theorem body_unmarked (payload : Text) (start : "dock:".toList <+: payload)
    (missing : find "data:".toList payload = none) : ∃ rest, body payload = ':' :: rest := by
  obtain ⟨rest,rfl⟩ := start
  rw [body,missing]
  exact ⟨rest,rfl⟩

theorem queueCommand_kept (f : Flotilla H) (d : Fin maxDocks) (text : Text) :
    ¬ f.QueuesKept (f.changeDock d ((f.dock d).queueCommand text)) := by
  intro kept
  have queue := (kept d).1
  rw [changeDock_dock,Function.update_self,FlotillaDock.queueCommand] at queue
  simp at queue

theorem queuesKept_refl (f : Flotilla H) : f.QueuesKept f := fun _ => ⟨rfl,fun _ => rfl⟩

theorem commandMessage_effect (f next : Flotilla H) (dockIndex : Int) (data : Text)
    (handled : f.commandMessage dockIndex data = .ok next) :
    (next = f ∧ maxDocks ≤ dockIndex) ∨
      ∃ d : Fin maxDocks, (d.val : Int) = dockIndex ∧ next = f.changeDock d ((f.dock d).queueCommand data) := by
  unfold commandMessage at handled
  split at handled
  · obtain ⟨d,indexed,same⟩ := (bind_ok_iff _ _ _).mp handled
    exact .inr ⟨d,(arrayIndex_ok_iff _ _ _).mp indexed,(Except.ok.inj same).symm⟩
  next outside => exact .inl ⟨(Except.ok.inj handled).symm,by omega⟩

theorem updateMessage_effect (f next : Flotilla H) (payload text : Text) (dockIndex : Int) (size : Nat)
    (read : Numeral (address payload) dockIndex size) (handled : f.updateMessage dockIndex text = .ok next) :
    f.Appends payload text next := by
  rw [updateMessage_eq] at handled
  obtain ⟨digits,tail,handled⟩ := (bind_ok_iff _ _ _).mp handled
  obtain ⟨⟨channel,used⟩,number,handled⟩ := (bind_ok_iff _ _ _).mp handled
  obtain ⟨long,rfl⟩ := (substr_ok_iff _ _ _).mp tail
  dsimp only at handled
  split at handled
  · rw [← Except.ok.inj handled]
    exact .nothing
  · obtain ⟨data,cut,handled⟩ := (bind_ok_iff _ _ _).mp handled
    obtain ⟨d,docked,handled⟩ := (bind_ok_iff _ _ _).mp handled
    obtain ⟨c,chosen,handled⟩ := (bind_ok_iff _ _ _).mp handled
    have dockIs := (arrayIndex_ok_iff _ _ _).mp docked
    have channelIs := (arrayIndex_ok_iff _ _ _).mp chosen
    have numeral := ((channelNumber_ok_iff _ _ _).mp number).1
    rw [← Except.ok.inj handled]
    change f.Appends payload text (f.queued d c data)
    by_cases empty : data = []
    · have same : f.queued d c data = f := by
        rw [queued,empty,FlotillaModule.queueUpdate,enqueue_empty,FlotillaDock.setModule,changeDock,
          Function.update_eq_self,Function.update_eq_self]
      rw [same]
      exact .nothing
    · rw [← dockIs] at read
      rw [← channelIs] at numeral
      refine .update d c size used data read ⟨long,numeral⟩ empty ?_
      rw [← ((substr_ok_iff _ _ _).mp cut).2,List.drop_drop]
      exact List.drop_suffix _ _

theorem dockMessage_appends (f next : Flotilla H) (payload : Text) (start : "dock:".toList <+: payload)
    (handled : f.dockMessage payload = .ok next) : f.Appends payload (body payload) next := by
  rw [dockMessage_eq f payload start] at handled
  obtain ⟨⟨dockIndex,size⟩,parsed,handled⟩ := (bind_ok_iff _ _ _).mp handled
  have read := (address_ok_iff payload start _ _).mp parsed
  obtain ⟨first,_,handled⟩ := (bind_ok_iff _ _ _).mp handled
  split at handled
  · exact updateMessage_effect f next payload _ dockIndex size read handled
  · rcases commandMessage_effect f next dockIndex _ handled with ⟨rfl,_⟩ | ⟨d,same,rfl⟩
    · exact .nothing
    · rw [← same] at read
      exact .command d size read

theorem dockMessage_unmarked (f : Flotilla H) (payload : Text) (start : "dock:".toList <+: payload)
    (missing : find "data:".toList payload = none) :
    f.dockMessage payload = (substrN payload "dock:".toList.length 2 >>= stoi) >>= fun found =>
      f.commandMessage found.1 (body payload) := by
  obtain ⟨rest,cut⟩ := body_unmarked payload start missing
  rw [dockMessage_eq f payload start,cut]
  apply congrArg
  funext found
  change (if ':' = 's' then f.updateMessage found.1 (':' :: rest) else f.commandMessage found.1 (':' :: rest)) = _
  exact if_neg (by decide)

variable [DecidableEq H]

/-- What a `dock:` message should leave: a defined result, in which nothing is queued when there is
no `data:`, and otherwise at most one text from what follows the first one. -/
structure Harmless (network : Network H) (hdl : H) (payload : Text) (f : Flotilla H) : Prop where
  defined : MessageInBounds network hdl payload f
  unmarked : find "data:".toList payload = none → f.QueuesKept (f.after (websocketOnMessage network hdl payload))
  marked : ∀ position, find "data:".toList payload = some position →
    f.Appends payload (payload.drop (position + 5)) (f.after (websocketOnMessage network hdl payload))

theorem after_dockMessage (network : Network H) (hdl : H) (payload : Text) (f : Flotilla H) (known : hdl ∈ f.clients)
    (start : "dock:".toList <+: payload) :
    f.after (websocketOnMessage network hdl payload) =
      match f.dockMessage payload with
      | .ok next => next
      | .error _ => f := by
  rw [after,websocketOnMessage_known network hdl payload f known,handleMessage_dock network hdl payload f start]
  cases f.dockMessage payload <;> rfl

theorem inBounds_known (network : Network H) (hdl : H) (payload : Text) (f : Flotilla H) (known : hdl ∈ f.clients)
    (start : "dock:".toList <+: payload) : MessageInBounds network hdl payload f ↔ Defined (f.dockMessage payload) := by
  unfold MessageInBounds
  rw [websocketOnMessage_known network hdl payload f known,handleMessage_dock network hdl payload f start]
  cases f.dockMessage payload with
  | ok next => simp
  | error fault => simp

/-- The dock number of the message, if it has one. -/
def Beyond (payload : Text) : Prop := ∀ dockIndex size, Numeral (address payload) dockIndex size → maxDocks ≤ dockIndex

theorem unmarked_iff (network : Network H) (hdl : H) (payload : Text) (f : Flotilla H) (known : hdl ∈ f.clients)
    (start : "dock:".toList <+: payload) (missing : find "data:".toList payload = none) :
    Harmless network hdl payload f ↔ Beyond payload := by
  have handled := dockMessage_unmarked f payload start missing
  have left := after_dockMessage network hdl payload f known start
  constructor
  · intro harmless dockIndex size read
    have command : f.dockMessage payload = f.commandMessage dockIndex (body payload) := by
      rw [handled,(address_ok_iff payload start _ _).mpr read]
      rfl
    have defined := (inBounds_known network hdl payload f known start).mp harmless.defined
    have low := (commandMessage_inBounds_iff f dockIndex (body payload)).mp (command ▸ defined)
    by_contra inside
    obtain ⟨next,queued⟩ := (commandMessage_ok_iff f dockIndex (body payload)).mpr low
    have kept := harmless.unmarked missing
    rw [left,command,queued] at kept
    rcases commandMessage_effect f next dockIndex _ queued with ⟨_,beyond⟩ | ⟨d,_,rfl⟩
    · exact inside beyond
    · exact queueCommand_kept f d _ kept
  · intro beyond
    refine ⟨?_,fun _ => ?_,fun position found => by rw [missing] at found; contradiction⟩
    · rw [inBounds_known network hdl payload f known start,f.dockMessage_inBounds_iff payload start]
      intro dockIndex size read
      obtain ⟨rest,cut⟩ := body_unmarked payload start missing
      have low := beyond dockIndex size read
      rw [cut]
      refine ⟨fun update => ?_,fun _ _ => by omega⟩
      exact absurd (Option.some.inj update) (by decide)
    · rw [left]
      cases result : f.dockMessage payload with
      | error fault => exact f.queuesKept_refl
      | ok next =>
        rw [handled] at result
        obtain ⟨⟨dockIndex,size⟩,parsed,command⟩ := (bind_ok_iff _ _ _).mp result
        have high := beyond dockIndex size ((address_ok_iff payload start _ _).mp parsed)
        rcases commandMessage_effect f next dockIndex _ command with ⟨rfl,_⟩ | ⟨d,same,_⟩
        · exact next.queuesKept_refl
        · have bound := d.isLt
          omega

end Flotilla

open Flotilla

/-- A `dock:` message changes no more than it should exactly when its sender is unknown, or it has
a `data:` and is handled inside the arrays, or has neither that nor the number of a dock. -/
theorem dock_message_harmless_iff {H : Type} [DecidableEq H] (network : Network H) (hdl : H) (payload : Text)
    (f : Flotilla H) (start : "dock:".toList <+: payload) :
    Harmless network hdl payload f ↔ hdl ∈ f.clients →
      match find "data:".toList payload with
      | none => Beyond payload
      | some position => ∀ dockIndex size, Numeral (address payload) dockIndex size →
          DataAddressed dockIndex (payload.drop (position + 5)) := by
  by_cases known : hdl ∈ f.clients
  · rw [imp_iff_right known]
    cases found : find "data:".toList payload with
    | none => exact unmarked_iff network hdl payload f known start found
    | some position =>
      have bounds := (inBounds_known network hdl payload f known start).trans (f.dockMessage_inBounds_iff payload start)
      rw [body_marked payload position found] at bounds
      refine ⟨fun harmless => bounds.mp harmless.defined,fun addressed => ⟨bounds.mpr addressed,fun missing => ?_,?_⟩⟩
      · rw [found] at missing
        contradiction
      · intro other same
        rw [found] at same
        rw [← Option.some.inj same,after_dockMessage network hdl payload f known start]
        cases result : f.dockMessage payload with
        | error fault => exact .nothing
        | ok next =>
          have appended := dockMessage_appends f next payload start result
          rw [body_marked payload position found] at appended
          exact appended
  · have ran := websocketOnMessage_unknown network hdl payload f known
    refine iff_of_true ⟨?_,fun _ => ?_,fun position _ => ?_⟩ fun member => absurd member known
    · intro fault next thrown
      rw [ran] at thrown
      cases thrown
      rfl
    · rw [after,ran]
      exact f.queuesKept_refl
    · rw [after,ran]
      exact .nothing

theorem dock_message_harmless_update : Harmless allSucceed 0 "dock:0 data:s 1 5".toList oneClient ↔
    0 ∈ oneClient.clients →
      match find "data:".toList "dock:0 data:s 1 5".toList with
      | none => Beyond "dock:0 data:s 1 5".toList
      | some position => ∀ dockIndex size, Numeral (address "dock:0 data:s 1 5".toList) dockIndex size →
          DataAddressed dockIndex ("dock:0 data:s 1 5".toList.drop (position + 5)) :=
  dock_message_harmless_iff allSucceed 0 _ oneClient (by decide)

theorem dock_message_colon_queued :
    ¬ ∀ (payload : Text) (f : Flotilla Nat), "dock:".toList <+: payload → find "data:".toList payload = none →
      f.QueuesKept (f.after (websocketOnMessage allSucceed 0 payload)) := by
  intro kept
  have queue := (kept "dock:0".toList oneClient (by decide) (by decide) 0).1
  rw [after_dockMessage allSucceed 0 _ oneClient (by decide) (by decide)] at queue
  exact absurd queue (by decide)

end FlotillaDaemon
