import FlotillaDaemon.ClientMirrors

/-! What the passes of a run deliver. A client that hears each pass gets every event of a dock
once and in order, and two clients that hear the same passes get the same texts. -/
namespace FlotillaDaemon
open Cpp Retained Replay

namespace Host
variable {H : Type} [DecidableEq H]

def announcements (network : Network H) (d : Fin maxDocks) (h : Host H) (input : HostInput H) : List ModuleEvent :=
  ((h.step network input).flotilla.waiting d).drop (h.flotilla.waiting d).length

/-- What a client receives in a pass. A greeting is no part of it. -/
def told (network : Network H) (a : H) (h : Host H) (input : HostInput H) : List Text :=
  match input with
  | .updateClients =>
    if h.halted then []
    else received network a h.flotilla.transmissions.length ((List.finRange maxDocks).flatMap h.flotilla.passSends)
  | _ => []

end Host

section Machines
variable {H : Type} [DecidableEq H]

def announcing (network : Network H) (d : Fin maxDocks) : Machine (Host H) (HostInput H) (List ModuleEvent) :=
  ⟨fun h input => (h.step network input,h.announcements network d input)⟩

def telling (network : Network H) (a : H) : Machine (Host H) (HostInput H) (List Text) :=
  ⟨fun h input => (h.step network input,h.told network a input)⟩

def about (d : Fin maxDocks) (text : Text) : Bool :=
  beginsWith ("Dock:".toList ++ decimal d.val ++ " Data:".toList) text

/-- The texts about a dock that a client receives in a pass. -/
def tellingOf (network : Network H) (a : H) (d : Fin maxDocks) : Machine (Host H) (HostInput H) (List Text) :=
  ⟨fun h input => (h.step network input,(h.told network a input).filter (about d))⟩

end Machines

namespace Host
variable {H : Type} [DecidableEq H] (network : Network H)

structure Sound (h : Host H) : Prop where
  serving : h.Serving
  wired : ∀ e, (h.flotilla.dock e).Wired e

theorem sound_step (h : Host H) (sound : h.Sound) (input : HostInput H) : (h.step network input).Sound :=
  ⟨h.step_serving network sound.serving input,h.step_wired network sound.serving sound.wired input⟩

theorem sound_run (canonicalAddress : Text) (inputs : List (HostInput H)) :
    ((hosts network).run (.new canonicalAddress) inputs).Sound :=
  (hosts network).run_invariant Sound (fun h input sound => h.sound_step network sound input) _
    ⟨⟨rfl,rfl⟩,fun e => FlotillaDock.new_wired e⟩ inputs

/-- A pass keeps no event of the dock from the client. -/
def Heard (a : H) (d : Fin maxDocks) (h : Host H) (input : HostInput H) : Prop :=
  input = .updateClients → h.Hears network a d

instance (a : H) (d : Fin maxDocks) (h : Host H) (input : HostInput H) : Decidable (h.Heard network a d input) :=
  inferInstanceAs (Decidable (_ → _))

theorem step_conserves (h : Host H) (sound : h.Sound) (a : H) (d : Fin maxDocks) (input : HostInput H)
    (heard : h.Heard network a d input) :
    h.flotilla.waiting d ++ h.announcements network d input =
        (h.told network a input).filterMap (readEvent d.val) ++ (h.step network input).flotilla.waiting d ∧
      ((h.step network input).flotilla.dock d).table =
        replay ModuleEvent.channel ModuleEvent.shown (h.flotilla.dock d).table (h.announcements network d input) := by
  by_cases pass : input = .updateClients
  · subst pass
    by_cases halted : h.halted = true
    · have same : h.step network .updateClients = h := by
        unfold step
        rw [if_pos halted]
      rw [announcements,same,List.drop_length,told,if_pos halted,List.append_nil]
      exact ⟨rfl,rfl⟩
    · have stepped := h.step_flotilla network sound.serving .updateClients
      rw [if_neg halted,next] at stepped
      have empty : (h.step network .updateClients).flotilla.waiting d = [] := by
        rw [stepped]
        rfl
      rw [announcements,empty,List.drop_nil,List.append_nil,List.append_nil,told,if_neg halted]
      refine ⟨?_,?_⟩
      · exact (h.hears_told network a d sound.wired (heard rfl)).symm
      · rw [stepped]
        exact (h.flotilla.dock d).afterPass_table
  · obtain ⟨events,announced⟩ := h.step_announced network sound.serving d input pass
    have waits := h.flotilla.waiting_announced _ d (sound.wired d) events announced
    have added : h.announcements network d input = events := by
      rw [announcements,waits,List.drop_left]
    have silent : h.told network a input = [] := by
      cases input with
      | updateClients => exact absurd rfl pass
      | opened _ | closed _ | failed _ | message _ _ | tick _ _ | disconnect _ | setPort _ _ _ _ _ => rfl
    rw [added,silent,waits]
    exact ⟨rfl,announced.table⟩

end Host

section Runs

/-- Modules come and go before, between and after two passes. -/
def dialReplugged : List (HostInput Nat) :=
  [.tick 0 ("c 1/dial\n".toList.map .byte),.updateClients,.tick 0 ("d 2/touch\nc 2/motor\n".toList.map .byte),
    .updateClients,.tick 0 ("d 1/dial\n".toList.map .byte)]

end Runs

namespace Flotilla
variable {H : Type} [DecidableEq H]

omit [DecidableEq H] in
theorem passTexts_about (f : Flotilla H) (d e : Fin maxDocks) (wired : (f.dock e).Wired e) :
    (f.passTexts e).filter (about d) = if e = d then f.passTexts e else [] := by
  have headed (text : Text) (said : text ∈ f.passTexts e) :
      ∃ rest, text = "Dock:".toList ++ decimal e.val ++ " Data:".toList ++ rest := by
    rcases f.wired_texts e wired text said with ⟨event,rfl,_⟩ | ⟨c,name,data,rfl⟩
    · exact event_headed e.val event
    · exact value_headed e.val c name data
  by_cases own : e = d
  · subst own
    rw [if_pos rfl]
    apply List.filter_eq_self.mpr
    intro text said
    obtain ⟨rest,rfl⟩ := headed text said
    exact (beginsWith_iff _ _).mpr (List.prefix_append _ rest)
  · rw [if_neg own]
    apply List.filter_eq_nil_iff.mpr
    intro text said here
    obtain ⟨rest,rfl⟩ := headed text said
    have digits : ∀ i j : Fin 8, digitOf i = digitOf j → i = j := by decide
    obtain ⟨more,same⟩ := (beginsWith_iff _ _).mp here
    rw [(decimal_channel e).1,(decimal_channel d).1] at same
    simp only [List.append_assoc,List.append_cancel_left_eq,List.cons_append,List.cons.injEq] at same
    exact own (digits e d same.1.symm)

theorem pass_about (f : Flotilla H) (wired : ∀ e, (f.dock e).Wired e) (a : H) (d : Fin maxDocks) :
    (((List.finRange maxDocks).flatMap f.passSends).filterMap (Transmission.textTo a)).filter (about d) =
      if a ∈ f.audience d.val then f.passTexts d else [] := by
  have split (e : Fin maxDocks) : (if a ∈ f.audience e.val then f.passTexts e else []).filter (about d) =
      (if e = d then some (if a ∈ f.audience d.val then f.passTexts d else []) else none).getD [] := by
    by_cases own : e = d
    · subst own
      rw [if_pos rfl,Option.getD_some]
      split
      · rw [f.passTexts_about e e (wired e),if_pos rfl]
      · rfl
    · rw [if_neg own,Option.getD_none]
      split
      · rw [f.passTexts_about d e (wired e),if_neg own]
      · rfl
  rw [pass_texts,List.filter_flatMap]
  simp only [split]
  exact flatMap_own (List.finRange maxDocks) (List.nodup_finRange _) d (List.mem_finRange d) _

end Flotilla

namespace Host
variable {H : Type} [DecidableEq H] (network : Network H)

/-- A pass is for both clients or for neither, as far as a dock goes, and loses no text to them. -/
def Alike (a b : H) (d : Fin maxDocks) (h : Host H) (input : HostInput H) : Prop :=
  input = .updateClients → (a ∈ h.flotilla.audience d.val ↔ b ∈ h.flotilla.audience d.val) ∧
    ∀ hdl ∈ [a,b], reached network hdl h.flotilla.transmissions.length
      ((List.finRange maxDocks).flatMap h.flotilla.passSends) = true

instance (a b : H) (d : Fin maxDocks) (h : Host H) (input : HostInput H) : Decidable (h.Alike network a b d input) :=
  inferInstanceAs (Decidable (_ → _))

theorem alike_told (h : Host H) (sound : h.Sound) (a b : H) (d : Fin maxDocks) (input : HostInput H)
    (alike : h.Alike network a b d input) :
    (h.told network a input).filter (about d) = (h.told network b input).filter (about d) := by
  cases input with
  | opened _ | closed _ | failed _ | message _ _ | tick _ _ | disconnect _ | setPort _ _ _ _ _ => rfl
  | updateClients =>
    obtain ⟨both,reaches⟩ := alike rfl
    have first := reaches a List.mem_cons_self
    have second := reaches b (List.mem_cons_of_mem _ List.mem_cons_self)
    unfold told
    dsimp only
    split
    · rfl
    · rw [received_reached network a _ _ first,received_reached network b _ _ second,
        h.flotilla.pass_about sound.wired a d,h.flotilla.pass_about sound.wired b d]
      simp only [both]

end Host

section Runs

def secondVisit : List (HostInput Nat) :=
  [.opened 2,.message 2 (.session (.subscribe "0".toList)),.message 2 (.session .ready)]

def laterChanges : List (HostInput Nat) :=
  [.updateClients,.tick 0 ("u 2/touch 7\nd 2/touch\n".toList.map .byte),.message 2 (.session (.subscribe "3".toList)),
    .updateClients]

end Runs

end FlotillaDaemon
