import FlotillaDaemon.ThreadSteps
import Mathlib.Logic.Relation

/-! The update thread left alone. The steps it takes from the start of a tick to its end,
with no step of another thread in between, compute the sequential `tick`. -/
namespace FlotillaDaemon
open Cpp Retained

namespace Slot

def UpdateSteps : Slot → Slot → Prop :=
  Relation.ReflTransGen (fun s t => ∃ action, action.begins = false ∧ s.updateStep action = some t)

def place (s : Slot) (dock : FlotillaDock) (update : UpdatePlace) : Slot := {s with dock := dock,update := update}

theorem updateStep_steps (s t : Slot) (action : UpdateAction) (inside : action.begins = false)
    (moved : s.updateStep action = some t) : UpdateSteps s t := .single ⟨action,inside,moved⟩

theorem commands_drained (s : Slot) (dock : FlotillaDock) :
    UpdateSteps (s.place dock .writing) (s.place {dock with commandQueue := []} (.channel 0)) := by
  generalize waiting : dock.commandQueue = queue
  induction queue generalizing dock with
  | nil =>
    have emptied : {dock with commandQueue := []} = dock := by rw [← waiting]
    rw [emptied]
    apply updateStep_steps _ _ .proceed rfl
    simp only [place,updateStep,waiting]
  | cons front rest ih =>
    have popped : UpdateSteps (s.place dock .writing) (s.place {dock with commandQueue := rest} .writing) := by
      apply updateStep_steps _ _ .proceed rfl
      simp only [place,updateStep,waiting]
    exact popped.trans (ih {dock with commandQueue := rest} rfl)

/-- One round of the second loop, through its serial calls when there is an update to send. -/
theorem channel_written (s : Slot) (dock : FlotillaDock) (port : SerialPort) (c : Fin maxChannels) :
    UpdateSteps (s.place dock (.channel c.val)) (s.place (dock.writeUpdate port c).1 (.channel (c.val + 1))) := by
  by_cases connected : (dock.module c).state = .moduleConnected
  · have tested : (s.place dock (.channel c.val)).updateStep .proceed = some (s.place dock (.polling c)) := by
      simp [place,updateStep,eachChannel_inside c.val c.isLt,moduleConnected,connected]
    let next := dock.setModule c ((dock.module c).getNextUpdate []).1
    have written : (dock.writeUpdate port c).1 = next := by
      rw [FlotillaDock.writeUpdate,if_neg (not_not.mpr connected)]
    have polled : (s.place dock (.polling c)).updateStep .proceed =
        some (s.place next (if ((dock.module c).getNextUpdate []).2.1 then .draining c
          else .channel (c.val + 1))) := rfl
    rw [written]
    apply (updateStep_steps _ _ .proceed rfl tested).trans
    cases fresh : ((dock.module c).getNextUpdate []).2.1 with
    | false =>
      rw [fresh] at polled
      exact updateStep_steps _ _ .proceed rfl polled
    | true =>
      rw [fresh] at polled
      apply (updateStep_steps _ _ .proceed rfl polled).trans
      apply (updateStep_steps _ (s.place next (.sending c)) (.waiting false) rfl rfl).trans
      apply (updateStep_steps _ (s.place next (.ending c)) .proceed rfl rfl).trans
      exact updateStep_steps _ _ .proceed rfl rfl
  · have skipped : (dock.writeUpdate port c).1 = dock := by
      rw [FlotillaDock.writeUpdate,if_pos connected]
    rw [skipped]
    apply updateStep_steps _ _ .proceed rfl
    simp [place,updateStep,eachChannel_inside c.val c.isLt,moduleConnected,connected]

theorem channels_written (s : Slot) (dock : FlotillaDock) (port : SerialPort) :
    UpdateSteps (s.place dock (.channel 0)) (s.place (dock.writeUpdates port).1 .input) := by
  have from_channel (left next : Nat) (rest : next + left = maxChannels) (d : FlotillaDock) (p : SerialPort) :
      UpdateSteps (s.place d (.channel next)) (s.place (((List.finRange maxChannels).drop next).foldl
        (fun state channel => FlotillaDock.writeUpdate state.1 state.2 channel) (d,p)).1 .input) := by
    induction left generalizing next d p with
    | zero =>
      have done : ¬ next < maxChannels := by omega
      rw [List.drop_of_length_le (by rw [List.length_finRange]; omega)]
      apply updateStep_steps _ _ .proceed rfl
      simp only [place,updateStep,eachChannel_done next done,List.foldl_nil]
    | succ left ih =>
      have bound : next < maxChannels := by omega
      have first := channel_written s d p ⟨next,bound⟩
      have later := ih (next + 1) (by omega) (d.writeUpdate p ⟨next,bound⟩).1 (d.writeUpdate p ⟨next,bound⟩).2
      rw [List.drop_eq_getElem_cons (by rw [List.length_finRange]; exact bound),List.getElem_finRange,
        List.foldl_cons]
      exact first.trans later
  exact from_channel maxChannels 0 (Nat.zero_add _) dock port

theorem line_processed (s : Slot) (dock next : FlotillaDock) (line : Text)
    (processed : dock.processCommand line = .ok next) :
    UpdateSteps (s.place dock (.processing line)) (s.place next .input) := by
  rw [← FlotillaDock.applyLine_announce] at processed
  cases applied : dock.applyLine line with
  | error fault =>
    rw [applied] at processed
    contradiction
  | ok changed =>
    rw [applied] at processed
    have announced := Except.ok.inj processed
    obtain ⟨mid,channel⟩ := changed
    cases channel with
    | none =>
      rw [← announced]
      apply updateStep_steps _ _ .proceed rfl
      simp only [place,updateStep,applied,FlotillaDock.announce]
    | some c =>
      rw [← announced]
      have changes : UpdateSteps (s.place dock (.processing line)) (s.place mid (.announcing c)) := by
        apply updateStep_steps _ _ .proceed rfl
        simp only [place,updateStep,applied]
      exact changes.trans (updateStep_steps _ _ .proceed rfl rfl)

theorem input_read (s : Slot) (dock next : FlotillaDock) (input rest : List Arrival)
    (read : dock.readInput input = .ok (next,rest)) : UpdateSteps (s.place dock .input) (s.place next .away) := by
  induction dock, input using FlotillaDock.readInput.induct with
  | case1 dock input waiting mid processed ih =>
    rw [FlotillaDock.readInput,dif_pos waiting,processed] at read
    apply (updateStep_steps _ (s.place dock .reading) (.waiting true) rfl rfl).trans
    apply (updateStep_steps _ (s.place dock (.processing (spReadline input).1)) (.readline input) rfl rfl).trans
    exact (line_processed s dock mid _ processed).trans (ih read)
  | case2 dock input waiting fault failed =>
    rw [FlotillaDock.readInput,dif_pos waiting,failed] at read
    contradiction
  | case3 dock input idle =>
    rw [FlotillaDock.readInput,dif_neg idle] at read
    rw [← (Prod.mk.inj (Except.ok.inj read)).1]
    exact updateStep_steps _ _ (.waiting false) rfl rfl

/-- A tick that returns is a run of the update thread: from its call, its steps alone lead
to the dock that the sequential tick leaves. -/
theorem tick_alone (s : Slot) (dock next : FlotillaDock) (port after : SerialPort)
    (returned : dock.tick port = .ok (next,after)) : UpdateSteps (s.place dock .called) (s.place next .away) := by
  unfold FlotillaDock.tick at returned
  split at returned
  next off =>
    rw [← (Prod.mk.inj (Except.ok.inj returned)).1]
    apply updateStep_steps _ _ .proceed rfl
    simp [place,updateStep,off]
  next connected =>
    have checked : UpdateSteps (s.place dock .called) (s.place dock .writing) := by
      apply updateStep_steps _ _ .proceed rfl
      simp [place,updateStep,not_not.mp connected]
    have drained := commands_drained s dock
    have written := channels_written s (dock.writeCommands port).1 (dock.writeCommands port).2
    change UpdateSteps _ (s.place (dock.writeQueues port).1 .input) at written
    generalize dock.writeQueues port = queues at returned written
    obtain ⟨mid,filled⟩ := queues
    cases read : mid.readInput filled.input with
    | error fault =>
      simp only [read] at returned
      contradiction
    | ok result =>
      simp only [read,Except.ok.injEq,Prod.mk.injEq] at returned
      rw [← returned.1]
      exact checked.trans (drained.trans (written.trans (input_read s mid result.1 filled.input result.2 read)))

end Slot

end FlotillaDaemon
