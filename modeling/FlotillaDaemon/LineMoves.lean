import FlotillaDaemon.ThreadSteps

/-! What a line from the dock can do: store a user or a name, hand data to one module, or
disconnect or connect one module. Everything else of the dock stays as it is. -/
namespace FlotillaDaemon
open Cpp Retained

namespace FlotillaDock

/-- The dock after a line, before its event is pushed, and the channel of that event. -/
inductive LineMove (dock : FlotillaDock) : FlotillaDock × Option (Fin maxChannels) → Prop
  | informed (user name : Text) : LineMove dock ({dock with user := user,name := name},none)
  | queued (c : Fin maxChannels) (data : Text) :
      LineMove dock (dock.setModule c ((dock.module c).queueCommand data),none)
  | disconnected (c : Fin maxChannels) : LineMove dock (dock.setModule c (dock.module c).disconnect,some c)
  | connected (c : Fin maxChannels) (name : Text) :
      LineMove dock (dock.setModule c ((dock.module c).connect name),some c)

theorem lineMove_same (dock : FlotillaDock) : LineMove dock (dock,none) := .informed dock.user dock.name

theorem processInformation_move (dock next : FlotillaDock) (command : Text)
    (processed : dock.processInformation command = .ok next) : LineMove dock (next,none) := by
  unfold processInformation at processed
  split at processed
  · obtain ⟨user,_,returned⟩ := (bind_ok_iff _ _ _).mp processed
    rw [← Except.ok.inj returned]
    exact .informed user dock.name
  · split at processed
    · obtain ⟨name,_,returned⟩ := (bind_ok_iff _ _ _).mp processed
      rw [← Except.ok.inj returned]
      exact .informed dock.user name
    · obtain ⟨debug,_,returned⟩ := (bind_ok_iff _ _ _).mp processed
      rw [← Except.ok.inj returned]
      exact lineMove_same dock

theorem processUpdate_move (dock next : FlotillaDock) (command : Text)
    (processed : dock.processUpdate command = .ok next) : LineMove dock (next,none) := by
  rw [processUpdate_eq] at processed
  obtain ⟨digits,_,rest⟩ := (bind_ok_iff _ _ _).mp processed
  obtain ⟨found,_,rest⟩ := (bind_ok_iff _ _ _).mp rest
  split at rest
  · obtain ⟨c,_,rest⟩ := (bind_ok_iff _ _ _).mp rest
    obtain ⟨data,_,returned⟩ := (bind_ok_iff _ _ _).mp rest
    rw [← Except.ok.inj returned]
    exact .queued c data
  · rw [← Except.ok.inj rest]
    exact lineMove_same dock

theorem applyLine_move (dock : FlotillaDock) (command : Text) (changed : FlotillaDock × Option (Fin maxChannels))
    (applied : dock.applyLine command = .ok changed) : LineMove dock changed := by
  obtain ⟨next,channel⟩ := changed
  cases command with
  | nil => contradiction
  | cons first rest =>
    change (if first = '#' then _ else if first = 'u' then _ else if first = 'd' then _
      else if first = 'c' then _ else _) = _ at applied
    split at applied
    · obtain ⟨processed,informed,returned⟩ := (bind_ok_iff _ _ _).mp applied
      rw [← Except.ok.inj returned]
      exact dock.processInformation_move _ _ informed
    · split at applied
      · obtain ⟨processed,updated,returned⟩ := (bind_ok_iff _ _ _).mp applied
        rw [← Except.ok.inj returned]
        exact dock.processUpdate_move _ _ updated
      · split at applied
        · rcases changeLine_cases _ _ _ _ _ applied with ⟨rfl,rfl⟩ | ⟨c,name,_,rfl,rfl⟩
          · exact lineMove_same next
          · exact .disconnected c
        · split at applied
          · rcases changeLine_cases _ _ _ _ _ applied with ⟨rfl,rfl⟩ | ⟨c,name,_,rfl,rfl⟩
            · exact lineMove_same next
            · exact .connected c name
          · rw [← Except.ok.inj applied]
            exact lineMove_same dock

theorem processCommand_move (dock next : FlotillaDock) (command : Text)
    (processed : dock.processCommand command = .ok next) :
    ∃ changed, LineMove dock changed ∧ next = announce changed := by
  rw [← applyLine_announce] at processed
  cases applied : dock.applyLine command with
  | error fault =>
    rw [applied] at processed
    contradiction
  | ok changed =>
    rw [applied] at processed
    exact ⟨changed,dock.applyLine_move command changed applied,(Except.ok.inj processed).symm⟩

/-- What every line keeps, reading the input keeps. -/
theorem readInput_keeps (kept : FlotillaDock → Prop)
    (line : ∀ dock changed, LineMove dock changed → kept dock → kept (announce changed))
    (dock next : FlotillaDock) (input rest : List Arrival) (read : dock.readInput input = .ok (next,rest))
    (start : kept dock) : kept next := by
  refine (readInput_run (fun dock _ => kept dock) ?_ dock next input rest read start).1
  intro dock next input _ processed holds
  obtain ⟨changed,move,rfl⟩ := dock.processCommand_move next _ processed
  exact line dock changed move holds

theorem lineMove_commands (dock : FlotillaDock) (changed : FlotillaDock × Option (Fin maxChannels))
    (move : LineMove dock changed) : (announce changed).commandQueue = dock.commandQueue := by
  cases move <;> rfl

theorem lineMove_state (dock : FlotillaDock) (changed : FlotillaDock × Option (Fin maxChannels))
    (move : LineMove dock changed) : (announce changed).state = dock.state := by
  cases move <;> rfl

end FlotillaDock

end FlotillaDaemon
