import FlotillaDaemon.DockLines
import Mathlib.Data.List.DropRight

/-! The module table under well-formed lines `c n/name` and `d n/name`. A channel is
connected exactly when its last line connects it. Connecting a connected channel is
ignored, so the name is the one the first `c` gave since the last `d`. -/
namespace FlotillaDaemon
open Cpp Retained

inductive ModuleLine
  | connect (channel : Fin maxChannels) (name : Text)
  | disconnect (channel : Fin maxChannels) (name : Text)
  deriving DecidableEq

namespace ModuleLine

def channel : ModuleLine → Fin maxChannels
  | .connect channel _ | .disconnect channel _ => channel

def name : ModuleLine → Text
  | .connect _ name | .disconnect _ name => name

def connects : ModuleLine → Bool
  | .connect _ _ => true
  | .disconnect _ _ => false

def text (line : ModuleLine) : Text :=
  (if line.connects then 'c' else 'd') :: ' ' :: (decimal (line.channel.val + 1) ++ '/' :: line.name)

def change : ModuleLine → FlotillaModule → FlotillaModule
  | .connect _ name,m => m.connect name
  | .disconnect _ _,m => m.disconnect

end ModuleLine

namespace FlotillaDock

def changeModule (dock : FlotillaDock) (line : ModuleLine) : FlotillaDock :=
  (dock.setModule line.channel (line.change (dock.module line.channel))).queueModuleEvent line.channel

def processLines (dock : FlotillaDock) (lines : List ModuleLine) : Outcome FlotillaDock :=
  lines.foldlM (fun dock line => dock.processCommand line.text) dock

theorem lineNumber_text (letter : Char) (channel : Fin maxChannels) (rest : Text)
    (ends : ∀ c ∈ rest.head?, c.isDigit = false) :
    LineNumber (letter :: ' ' :: (decimal (channel.val + 1) ++ rest)) (channel.val + 1)
      (decimal (channel.val + 1)).length := by
  have bound : channel.val < 8 := channel.isLt
  refine ⟨by simp,?_,by simp only [intMin]; omega,by simp only [intMax]; omega⟩
  have read := numeral_decimal (channel.val + 1) rest ends
  simpa using read

theorem processChange_text (change : Text → FlotillaModule → FlotillaModule) (dock : FlotillaDock)
    (letter : Char) (channel : Fin maxChannels) (name : Text) :
    dock.processChange change (letter :: ' ' :: (decimal (channel.val + 1) ++ '/' :: name)) =
      .ok ((dock.setModule channel (change name (dock.module channel))).queueModuleEvent channel) := by
  have bound := channel.isLt
  have read := lineNumber_text letter channel ('/' :: name) (by simp)
  have indexed : arrayIndex maxChannels ((channel.val : Int) + 1 - 1) = .ok channel :=
    (arrayIndex_ok_iff _ _ _).mpr (by omega)
  have cut : substr (letter :: ' ' :: (decimal (channel.val + 1) ++ '/' :: name))
      ((decimal (channel.val + 1)).length + 3) = .ok name := by
    rw [substr_ok_iff]
    refine ⟨by simp,?_⟩
    rw [show (decimal (channel.val + 1)).length + 3 = ((decimal (channel.val + 1)).length + 1) + 2 by omega]
    simp [List.drop_append]
  rw [processChange_eq,numbered_eq _ _ _ _ read (by simp only [intMin]; omega),if_pos (by omega),cut,indexed]
  rfl

theorem processCommand_text (dock : FlotillaDock) (line : ModuleLine) :
    dock.processCommand line.text = .ok (dock.changeModule line) := by
  cases line with
  | connect channel name => exact dock.processChange_text (fun name m => m.connect name) 'c' channel name
  | disconnect channel name => exact dock.processChange_text (fun _ m => m.disconnect) 'd' channel name

theorem processLines_eq (dock : FlotillaDock) (lines : List ModuleLine) :
    dock.processLines lines = .ok (lines.foldl changeModule dock) := by
  induction lines generalizing dock with
  | nil => rfl
  | cons line rest ih =>
    have first := dock.processCommand_text line
    simp only [processLines,List.foldlM_cons,first] at ih ⊢
    exact ih _

theorem changeModule_module (dock : FlotillaDock) (line : ModuleLine) (channel : Fin maxChannels) :
    (dock.changeModule line).module channel =
      if line.channel = channel then line.change (dock.module channel) else dock.module channel := by
  by_cases own : line.channel = channel
  · subst own
    simp [changeModule,queueModuleEvent,setModule]
  · simp [changeModule,queueModuleEvent,setModule,own,Function.update_of_ne (Ne.symm own)]

theorem module_own_lines (dock : FlotillaDock) (lines : List ModuleLine) (channel : Fin maxChannels) :
    (lines.foldl changeModule dock).module channel =
      (lines.filter (fun line => line.channel = channel)).foldl (fun m line => line.change m)
        (dock.module channel) := by
  induction lines generalizing dock with
  | nil => rfl
  | cons line rest ih =>
    rw [List.foldl_cons,ih,changeModule_module]
    by_cases own : line.channel = channel <;> simp [own]

/-- A disconnected module after lines of its own: connected exactly when the last line
connects, and then under the name of the first connecting line after the last other one. -/
theorem own_lines_spec (m : FlotillaModule) (disconnected : m.state = .moduleDisconnected)
    (own : List ModuleLine) :
    let after := own.foldl (fun m line => line.change m) m
    (after.state = .moduleConnected ↔ own.getLast?.any ModuleLine.connects = true) ∧
      (after.state = .moduleConnected →
        (own.rtakeWhile ModuleLine.connects).head?.map ModuleLine.name = some after.name) := by
  induction own using List.reverseRecOn with
  | nil => simp [disconnected]
  | append_singleton earlier line ih =>
    obtain ⟨connectedIff,named⟩ := ih
    simp only [List.foldl_append,List.foldl_cons,List.foldl_nil,List.getLast?_append_cons,
      List.getLast?_singleton,Option.any_some]
    generalize earlier.foldl (fun m line => line.change m) m = before at connectedIff named ⊢
    cases line with
    | disconnect channel name =>
      simp [ModuleLine.change,FlotillaModule.disconnect,FlotillaModule.emptyQueue,ModuleLine.connects]
    | connect channel name =>
      rw [List.rtakeWhile_concat_pos _ _ _ rfl]
      by_cases already : before.state = .moduleConnected
      · have kept := named already
        rw [ModuleLine.change,before.connect_connected name already]
        simp only [already,ModuleLine.connects,forall_const,true_and]
        cases run : earlier.rtakeWhile ModuleLine.connects with
        | nil => simp [run] at kept
        | cons first rest => simpa [run] using kept
      · have off : before.state = .moduleDisconnected := by
          cases state : before.state with
          | moduleConnected => exact absurd state already
          | moduleDisconnected => rfl
        have fresh : earlier.rtakeWhile ModuleLine.connects = [] := by
          rw [List.rtakeWhile_eq_nil_iff]
          intro present connects
          apply already
          rw [connectedIff,List.getLast?_eq_some_getLast present]
          exact connects
        rw [ModuleLine.change,before.connect_disconnected name off,fresh]
        simp [ModuleLine.connects,ModuleLine.name]

end FlotillaDock

open FlotillaDock

def linesFor (channel : Fin maxChannels) (lines : List ModuleLine) : List ModuleLine :=
  lines.filter (fun line => line.channel = channel)

/-- The table follows the dock: every line is processed; a channel is connected exactly when
its last line is a `c`, and its name is that of the first `c` since its last `d`. -/
theorem table_follows_lines (dock : FlotillaDock)
    (disconnected : ∀ channel, (dock.module channel).state = .moduleDisconnected)
    (lines : List ModuleLine) :
    ∃ after, dock.processLines lines = .ok after ∧ ∀ channel,
      ((after.module channel).state = .moduleConnected ↔
        (linesFor channel lines).getLast?.any ModuleLine.connects = true) ∧
      ((after.module channel).state = .moduleConnected →
        ((linesFor channel lines).rtakeWhile ModuleLine.connects).head?.map ModuleLine.name =
          some (after.module channel).name) := by
  refine ⟨_,dock.processLines_eq lines,?_⟩
  intro channel
  rw [module_own_lines]
  exact own_lines_spec _ (disconnected channel) _

section Runs

/-- One channel is connected twice over, and again after a disconnect; another one is left empty. -/
def replugged : List ModuleLine :=
  [.connect 0 "dial".toList,.connect 2 "motor".toList,.connect 0 "motion".toList,.disconnect 0 "dial".toList,
    .connect 0 "touch".toList,.disconnect 2 "motor".toList,.connect 0 "light".toList]

end Runs

theorem table_follows_replugged :
    ∃ after, (FlotillaDock.new 0).processLines replugged = .ok after ∧ ∀ channel,
      ((after.module channel).state = .moduleConnected ↔
        (linesFor channel replugged).getLast?.any ModuleLine.connects = true) ∧
      ((after.module channel).state = .moduleConnected →
        ((linesFor channel replugged).rtakeWhile ModuleLine.connects).head?.map ModuleLine.name =
          some (after.module channel).name) :=
  table_follows_lines (.new 0) (fun _ => rfl) replugged

theorem table_keeps_first_name :
    ¬ ∀ (dock : FlotillaDock), (∀ channel, (dock.module channel).state = .moduleDisconnected) →
      ∀ (lines : List ModuleLine) (after : FlotillaDock), dock.processLines lines = .ok after →
        ∀ channel,
          ((after.module channel).state = .moduleConnected ↔
            (linesFor channel lines).getLast?.any ModuleLine.connects = true) ∧
          ((after.module channel).state = .moduleConnected →
            (linesFor channel lines).getLast?.map ModuleLine.name = some (after.module channel).name) := by
  intro follows
  have named := (follows (.new 0) (fun _ => rfl) [.connect 0 "dial".toList,.connect 0 "touch".toList] _
    (processLines_eq _ _) 0).2
  exact absurd (named (by decide)) (by decide)

end FlotillaDaemon
