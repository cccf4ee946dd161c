import FlotillaDaemon.DockTable

/-! Where a data line is cut. The offset counts the digits of the channel and the name that the
module has stored, so the data begins where it should exactly for a name of that length. -/
namespace FlotillaDaemon
open Cpp Retained

inductive DockLine
  | module (line : ModuleLine)
  | update (channel : Fin maxChannels) (name data : Text)
  deriving DecidableEq

def dataLine (channel : Fin maxChannels) (name data : Text) : Text :=
  'u' :: ' ' :: (decimal (channel.val + 1) ++ '/' :: (name ++ ' ' :: data))

namespace DockLine

def text : DockLine → Text
  | .module line => line.text
  | .update channel name data => dataLine channel name data

def module? : DockLine → Option ModuleLine
  | .module line => some line
  | .update _ _ _ => none

end DockLine

/-- The `c` and `d` lines for a channel. -/
def changesFor (channel : Fin maxChannels) (lines : List DockLine) : List ModuleLine :=
  linesFor channel (lines.filterMap DockLine.module?)

/-- The name in the last `c` line for a channel. -/
def lastFound (channel : Fin maxChannels) (lines : List DockLine) : Option Text :=
  ((changesFor channel lines).filter ModuleLine.connects).getLast?.map ModuleLine.name

/-- The name in the first `c` line for a channel since its last `d` line. -/
def firstFound (channel : Fin maxChannels) (lines : List DockLine) : Option Text :=
  ((changesFor channel lines).rtakeWhile ModuleLine.connects).head?.map ModuleLine.name

theorem enqueue_injective (queue : List Entry) (first second : Text) (same : enqueue queue first = enqueue queue second) :
    first = second := by
  by_cases none : first = [] <;> by_cases other : second = []
  · rw [none,other]
  · rw [none,enqueue_empty,enqueue_present _ _ other] at same
    simp at same
  · rw [other,enqueue_empty,enqueue_present _ _ none] at same
    simp at same
  · rw [enqueue_present _ _ none,enqueue_present _ _ other] at same
    exact congrArg Subtype.val (List.singleton_inj.mp (List.append_cancel_left same))

namespace FlotillaDock

def processDockLines (dock : FlotillaDock) (lines : List DockLine) : Outcome FlotillaDock :=
  lines.foldlM (fun dock line => dock.processCommand line.text) dock

/-- The dock with one more data text waiting for the clients; an empty one is not taken. -/
def pushed (dock : FlotillaDock) (channel : Fin maxChannels) (data : Text) : FlotillaDock :=
  dock.setModule channel ((dock.module channel).queueCommand data)

/-- What a data line should do, when this name came with the last `c` line for its channel: push
exactly its data under that name, and nothing else under any name. -/
structure CutRight (dock : FlotillaDock) (found : Option Text) (channel : Fin maxChannels) (name data : Text) : Prop where
  own : found = some name → dock.processCommand (dataLine channel name data) = .ok (dock.pushed channel data)
  never : ∀ next, dock.processCommand (dataLine channel name data) = .ok next →
    next = dock.pushed channel data ∨ next = dock

/-- What is cut off a name, a blank and data behind a stored name of this length. -/
def cut (stored : Nat) (name data : Text) : Text := (name ++ ' ' :: data).drop (stored + 1)

theorem cut_length (stored : Nat) (name data : Text) :
    (cut stored name data).length = name.length + data.length - stored := by
  rw [cut,List.length_drop,List.length_append,List.length_cons]
  omega

theorem cut_eq_data_iff (stored : Nat) (name data : Text) (present : data ≠ []) :
    cut stored name data = data ↔ stored = name.length := by
  have long := List.length_pos_iff.mpr present
  constructor
  · intro same
    have lengths := cut_length stored name data
    rw [same] at lengths
    omega
  · intro same
    rw [cut,same,List.drop_append,List.drop_eq_nil_of_le (Nat.le_succ _),List.nil_append,Nat.add_sub_cancel_left]
    rfl

theorem cut_eq_nil_iff (stored : Nat) (name data : Text) :
    cut stored name data = [] ↔ name.length + data.length ≤ stored := by
  rw [← List.length_eq_zero_iff,cut_length,Nat.sub_eq_zero_iff_le]

theorem pushed_empty (dock : FlotillaDock) (channel : Fin maxChannels) : dock.pushed channel [] = dock := by
  rw [pushed,FlotillaModule.queueCommand,enqueue_empty,setModule,Function.update_eq_self]

theorem pushed_injective (dock : FlotillaDock) (channel : Fin maxChannels) (first second : Text)
    (same : dock.pushed channel first = dock.pushed channel second) : first = second := by
  have queues := congrArg (fun after : FlotillaDock => (after.module channel).commandQueue) same
  simp only [pushed,setModule,Function.update_self] at queues
  exact enqueue_injective _ _ _ queues

/-- A data line pushes what lies behind the stored name, and throws when it is too short. -/
theorem processCommand_data (dock : FlotillaDock) (channel : Fin maxChannels) (name data : Text) :
    dock.processCommand (dataLine channel name data) =
      if (dock.module channel).name.length ≤ name.length + data.length
      then .ok (dock.pushed channel (cut (dock.module channel).name.length name data))
      else .error .outOfRange := by
  have bound := channel.isLt
  have read := lineNumber_text 'u' channel ('/' :: (name ++ ' ' :: data)) (by simp)
  have indexed : arrayIndex maxChannels ((channel.val : Int) + 1 - 1) = .ok channel :=
    (arrayIndex_ok_iff _ _ _).mpr (by omega)
  have tail : substr (dataLine channel name data)
      ((decimal (channel.val + 1)).length + 4 + (dock.module channel).name.length) =
      if (dock.module channel).name.length ≤ name.length + data.length
      then .ok (cut (dock.module channel).name.length name data) else .error .outOfRange := by
    have shape : (decimal (channel.val + 1)).length + 4 + (dock.module channel).name.length =
        ((decimal (channel.val + 1)).length + ((dock.module channel).name.length + 1 + 1)) + 1 + 1 := by omega
    have within : (decimal (channel.val + 1)).length + 4 + (dock.module channel).name.length ≤
        (dataLine channel name data).length ↔ (dock.module channel).name.length ≤ name.length + data.length := by
      simp only [dataLine,List.length_cons,List.length_append]
      omega
    unfold substr
    simp only [within]
    rw [shape,dataLine,List.drop_succ_cons,List.drop_succ_cons,List.drop_length_add_append,List.drop_succ_cons]
    rfl
  have command : dock.processCommand (dataLine channel name data) = dock.processUpdate (dataLine channel name data) := rfl
  rw [command,processUpdate_eq]
  unfold dataLine at tail ⊢
  rw [numbered_eq _ _ _ _ read (by simp only [intMin]; omega),if_pos (by omega),indexed]
  change (substr _ _ >>= _) = _
  rw [tail]
  split <;> rfl

/-- A line is cut right exactly when the stored name is as long as its own, or when the name is
not the last one found and nothing is left behind the stored one. -/
theorem cutRight_iff (dock : FlotillaDock) (found : Option Text) (channel : Fin maxChannels) (name data : Text)
    (present : data ≠ []) : dock.CutRight found channel name data ↔
      (dock.module channel).name.length = name.length ∨
        (found ≠ some name ∧ name.length + data.length ≤ (dock.module channel).name.length) := by
  have processed := dock.processCommand_data channel name data
  have cutsData := cut_eq_data_iff (dock.module channel).name.length name data present
  have nothing := cut_eq_nil_iff (dock.module channel).name.length name data
  generalize (dock.module channel).name.length = stored at processed cutsData nothing ⊢
  generalize cut stored name data = text at processed cutsData nothing
  constructor
  · intro ⟨own,never⟩
    by_cases same : stored = name.length
    · exact .inl same
    · right
      refine ⟨?_,?_⟩
      · intro last
        have right := own last
        rw [processed] at right
        split at right
        · exact same (cutsData.mp (pushed_injective _ _ _ _ (Except.ok.inj right)))
        · contradiction
      · by_contra short
        have fits : stored ≤ name.length + data.length := by omega
        rw [if_pos fits] at processed
        rcases never _ processed with right | still
        · exact same (cutsData.mp (pushed_injective _ _ _ _ right))
        · have empty := pushed_injective _ _ _ _ (still.trans (dock.pushed_empty channel).symm)
          exact short (nothing.mp empty)
  · intro condition
    refine ⟨?_,?_⟩
    · intro last
      rcases condition with same | ⟨other,_⟩
      · rw [processed,if_pos (by omega),cutsData.mpr same]
      · exact absurd last other
    · intro next returned
      rw [processed] at returned
      split at returned
      · rw [← Except.ok.inj returned]
        rcases condition with same | ⟨_,short⟩
        · rw [cutsData.mpr same]
          exact .inl rfl
        · rw [nothing.mpr short]
          exact .inr (dock.pushed_empty channel)
      · contradiction

/-- Data lines leave the table as the other lines make it. -/
def TableOf (dock : FlotillaDock) (lines : List ModuleLine) (initial : FlotillaDock) : Prop :=
  ∀ c, (dock.module c).state = ((lines.foldl changeModule initial).module c).state ∧
    (dock.module c).name = ((lines.foldl changeModule initial).module c).name

theorem pushed_table (dock : FlotillaDock) (channel c : Fin maxChannels) (data : Text) :
    ((dock.pushed channel data).module c).state = (dock.module c).state ∧
      ((dock.pushed channel data).module c).name = (dock.module c).name := by
  by_cases own : c = channel
  · subst own
    simp [pushed,setModule,FlotillaModule.queueCommand]
  · simp [pushed,setModule,own]

theorem change_table (line : ModuleLine) (first second : FlotillaModule) (state : first.state = second.state)
    (name : first.name = second.name) :
    (line.change first).state = (line.change second).state ∧ (line.change first).name = (line.change second).name := by
  cases line with
  | disconnect channel moduleName => exact ⟨rfl,name⟩
  | connect channel moduleName =>
    change (first.connect moduleName).state = (second.connect moduleName).state ∧
      (first.connect moduleName).name = (second.connect moduleName).name
    unfold FlotillaModule.connect
    rw [state]
    split
    · exact ⟨state,name⟩
    · exact ⟨rfl,rfl⟩

theorem processDockLines_table (initial dock after : FlotillaDock) (earlier : List ModuleLine) (lines : List DockLine)
    (table : dock.TableOf earlier initial) (processed : dock.processDockLines lines = .ok after) :
    after.TableOf (earlier ++ lines.filterMap DockLine.module?) initial := by
  induction lines generalizing dock earlier with
  | nil =>
    rw [← Except.ok.inj processed,List.filterMap_nil,List.append_nil]
    exact table
  | cons line rest ih =>
    rw [processDockLines,List.foldlM_cons] at processed
    obtain ⟨next,here,later⟩ := (bind_ok_iff _ _ _).mp processed
    cases line with
    | module line =>
      rw [DockLine.text,processCommand_text] at here
      have moved : next.TableOf (earlier ++ [line]) initial := by
        intro c
        rw [← Except.ok.inj here,List.foldl_append,List.foldl_cons,List.foldl_nil,changeModule_module,changeModule_module]
        split
        · exact change_table line _ _ (table c).1 (table c).2
        · exact table c
      have tail := ih next _ moved later
      rw [List.append_assoc] at tail
      exact tail
    | update channel name data =>
      rw [DockLine.text,processCommand_data] at here
      split at here
      · refine ih next earlier (fun c => ?_) later
        rw [← Except.ok.inj here]
        have kept := dock.pushed_table channel c (cut (dock.module channel).name.length name data)
        exact ⟨kept.1.trans (table c).1,kept.2.trans (table c).2⟩
      · contradiction

end FlotillaDock

open FlotillaDock

/-- On a dock that lines have brought to its state, a data line for a connected channel is cut
right exactly when its name is as long as the one the module took at its first `c` line. -/
theorem data_cut_iff (index : Nat) (lines : List DockLine) (dock : FlotillaDock)
    (processed : (FlotillaDock.new index).processDockLines lines = .ok dock) (channel : Fin maxChannels)
    (connected : (dock.module channel).state = .moduleConnected) (name data : Text) (present : data ≠ []) :
    ∃ stored, firstFound channel lines = some stored ∧
      (dock.CutRight (lastFound channel lines) channel name data ↔
        stored.length = name.length ∨
          (lastFound channel lines ≠ some name ∧ name.length + data.length ≤ stored.length)) := by
  have table := processDockLines_table (.new index) _ _ [] lines (fun _ => ⟨rfl,rfl⟩) processed channel
  rw [List.nil_append,module_own_lines] at table
  have named := (own_lines_spec ((FlotillaDock.new index).module channel) rfl (changesFor channel lines)).2
  refine ⟨(dock.module channel).name,?_,dock.cutRight_iff _ channel name data present⟩
  rw [table.2]
  exact named (table.1.symm.trans connected)

section Runs

def dialReplaced : List DockLine := [.module (.connect 0 "dial".toList),.module (.connect 0 "motion".toList)]

def dialDock : FlotillaDock :=
  (FlotillaDock.new 0).changeModule (.connect 0 "dial".toList) |>.changeModule (.connect 0 "motion".toList)

theorem dialReplaced_processed : (FlotillaDock.new 0).processDockLines dialReplaced = .ok dialDock := by
  simp only [processDockLines,dialReplaced,List.foldlM_cons,DockLine.text,processCommand_text]
  rfl

end Runs

theorem data_cut_dial : ∃ stored, firstFound 0 dialReplaced = some stored ∧
    (dialDock.CutRight (lastFound 0 dialReplaced) 0 "dial".toList "5".toList ↔
      stored.length = "dial".toList.length ∨ (lastFound 0 dialReplaced ≠ some "dial".toList ∧
        "dial".toList.length + "5".toList.length ≤ stored.length)) :=
  data_cut_iff 0 dialReplaced dialDock dialReplaced_processed 0 (by decide) _ _ (by decide)

theorem data_cut_motion :
    ¬ ∀ (index : Nat) (lines : List DockLine) (dock : FlotillaDock),
      (FlotillaDock.new index).processDockLines lines = .ok dock → ∀ channel,
        (dock.module channel).state = .moduleConnected → ∀ name data, ' ' ∉ name → data ≠ [] →
          dock.CutRight (lastFound channel lines) channel name data := by
  intro right
  have pushed := (right 0 dialReplaced dialDock dialReplaced_processed 0 (by decide) "motion".toList "5".toList (by decide)
    (by decide)).own (by decide)
  rw [processCommand_data] at pushed
  have texts := pushed_injective _ _ _ _ (Except.ok.inj pushed)
  exact absurd texts (by decide)

end FlotillaDaemon
