import Mathlib
import FlotillaDaemon.ClientMessages

/-! What stopping the server does for its clients. It says goodbye to each and then closes it,
and the first of these calls that throws is the last one made. -/
namespace FlotillaDaemon
open Cpp Retained

namespace Flotilla
variable {H : Type}

def ReachesAll [DecidableEq H] (f : Flotilla H) (network : Network H) : Prop :=
  ∃ after, (stopServer network).run f = .ok () after ∧
    ∀ hdl ∈ f.clients, .close hdl ∈ after.transmissions.drop f.transmissions.length

/-- The sends that say goodbye succeed, each at its place among the calls. -/
def GoodbyesSent (f : Flotilla H) (network : Network H) : Prop :=
  ∀ k < f.clients.entries.length, network.sends (f.transmissions.length + 2 * k) = true

theorem attempts_complete (network : Network H) (earlier : Nat) (transmissions : List (Transmission H))
    (all : (attempts network earlier transmissions).2 = true) : (attempts network earlier transmissions).1 = transmissions := by
  induction transmissions generalizing earlier with
  | nil => rfl
  | cons transmission rest ih =>
    rw [attempts] at all ⊢
    split at all
    next accepted =>
      rw [if_pos accepted]
      exact congrArg (transmission :: ·) (ih (earlier + 1) all)
    next => contradiction

theorem attempts_goodbyes_iff (network : Network H) (earlier : Nat) (clients : List (Σ _ : H, FlotillaClient)) :
    (attempts network earlier
        (clients.flatMap fun client => [.text client.1 "bye".toList,.close client.1])).2 = true ↔
      (∀ k < clients.length, network.sends (earlier + 2 * k) = true) ∧
        ∀ client ∈ clients, network.closes client.1 = true := by
  induction clients generalizing earlier with
  | nil => exact iff_of_true rfl ⟨by simp,by simp⟩
  | cons client rest ih =>
    have later := ih (earlier + 2)
    have places : (∀ k < (client :: rest).length, network.sends (earlier + 2 * k) = true) ↔
        network.sends earlier = true ∧ ∀ k < rest.length, network.sends (earlier + 2 + 2 * k) = true := by
      rw [List.length_cons,Nat.forall_lt_succ_left]
      refine and_congr_right fun _ => forall₂_congr fun k _ => ?_
      rw [Nat.mul_add,Nat.mul_one,Nat.add_comm (2 * k),← Nat.add_assoc]
    rw [List.flatMap_cons,places,List.forall_mem_cons]
    change (attempts network earlier (.text client.1 _ :: .close client.1 :: _)).2 = true ↔ _
    rw [attempts,attempts]
    change (if network.sends earlier = true then _ else _ : List (Transmission H) × Bool).2 = true ↔ _
    by_cases sent : network.sends earlier = true
    · rw [if_pos sent]
      change (if network.closes client.1 = true then _ else _ : List (Transmission H) × Bool).2 = true ↔ _
      by_cases closed : network.closes client.1 = true
      · rw [if_pos closed]
        refine later.trans ?_
        simp only [sent,closed,true_and]
      · rw [if_neg closed]
        simp [closed]
    · rw [if_neg sent]
      simp [sent]

/-- Stopping reaches every client exactly when the server listens and no call for any of them
throws. -/
theorem stop_reaches_all_iff [DecidableEq H] (network : Network H) (f : Flotilla H) :
    f.ReachesAll network ↔ Stoppable network f ∧ f.GoodbyesSent network := by
  have goodbyes := attempts_goodbyes_iff network f.transmissions.length f.clients.entries
  unfold ReachesAll
  rw [stopServer_run]
  by_cases listening : f.listening = true
  · rw [if_pos listening,transmitAll_run]
    change (∃ after, (if (attempts network f.transmissions.length f.farewell).2 = true then _ else _) = _ ∧ _) ↔ _
    by_cases all : (attempts network f.transmissions.length f.farewell).2 = true
    · have ⟨said,closed⟩ := goodbyes.mp all
      rw [if_pos all]
      refine iff_of_true ⟨_,rfl,?_⟩ ⟨⟨listening,closed⟩,said⟩
      intro hdl member
      change _ ∈ (f.transmissions ++ (attempts network f.transmissions.length f.farewell).1).drop _
      rw [attempts_complete network _ _ all,List.drop_left]
      obtain ⟨client,entry,rfl⟩ := List.mem_map.mp (AList.mem_keys.mp member)
      exact List.mem_flatMap.mpr ⟨client,entry,by simp⟩
    · rw [if_neg all]
      apply iff_of_false
      · rintro ⟨_,returned,_⟩
        contradiction
      · intro ⟨stoppable,said⟩
        exact all (goodbyes.mpr ⟨said,stoppable.closes⟩)
  · rw [if_neg listening]
    apply iff_of_false
    · rintro ⟨_,returned,_⟩
      contradiction
    · intro ⟨stoppable,_⟩
      exact listening stoppable.listening

section Runs

def pairServer : Flotilla Nat := {Flotilla.new with clients := (AList.insert 1 .new ∅).insert 0 .new,listening := true}

/-- The goodbye to the first client fails, and nothing else would. -/
def firstGone : Network Nat := ⟨fun n => n ≠ 0,fun _ => true⟩

end Runs

theorem stop_reaches_all_fails_gone :
    ¬ ∀ (network : Network Nat) (f : Flotilla Nat), f.listening = true → f.ReachesAll network := by
  intro reaches
  obtain ⟨after,returned,_⟩ := reaches firstGone pairServer rfl
  rw [stopServer_run,if_pos (show pairServer.listening = true from rfl),transmitAll_run] at returned
  contradiction

end Flotilla

end FlotillaDaemon
