import Mathlib
import FlotillaDaemon.DockSession
import FlotillaDaemon.Framing

/-! Which strings the ticks of a dock take for lines, when the bytes come with pauses between
them. A read that times out returns what it has so far, as if the line had ended there. -/
namespace FlotillaDaemon
open Cpp Retained

/-- What arrives, without the pauses. -/
def arrivedBytes (arrived : List Arrival) : Text :=
  arrived.filterMap fun
    | .byte c => some c
    | .timeout => none

/-- No read times out in a line: a second without a byte comes where a line begins. -/
def Unbroken (arrived : List Arrival) : Prop :=
  arrived.IsChain fun earlier later => later = .timeout → earlier = .timeout ∨ earlier = .byte '\n'

/-- Whether the next `sp_readline` returns at the end of a line. -/
def readsEnd : List Arrival → Bool
  | .byte c :: rest => c = '\n' || readsEnd rest
  | _ => false

def withoutReturns (line : Text) : Text := line.filter fun c => c ≠ '\r'

/-- The stream split at `\n`, with every `\r` removed. -/
def streamLines (stream : Text) : List Text := (stream.splitOn '\n').dropLast.map withoutReturns

namespace FlotillaDock

/-- The strings that the loop of a tick hands to `process_command`, each with whether its whole
line was read. When a call throws, there are no others. -/
def handedLines (dock : FlotillaDock) (input : List Arrival) : List (Text × Bool) :=
  if _waiting : spInputWaiting input = true then
    ((spReadline input).1,readsEnd input) ::
      match dock.processCommand (spReadline input).1 with
      | .ok dock => handedLines dock (spReadline input).2
      | .error _ => []
  else []
termination_by input.length
decreasing_by exact spReadline_shortens input _waiting

theorem readInput_shortens (dock next : FlotillaDock) (input left : List Arrival)
    (read : dock.readInput input = .ok (next,left)) : left.length ≤ input.length := by
  refine (readInput_run (fun _ rest => rest.length ≤ input.length) ?_ dock next input left read le_rfl).1
  exact fun _ _ rest _ _ short => (spReadline_length rest).trans short

theorem tick_shortens (dock next : FlotillaDock) (port left : SerialPort) (ticked : dock.tick port = .ok (next,left)) :
    left.input.length ≤ port.input.length := by
  by_cases connected : dock.state = .connected
  · exact readInput_shortens _ next _ _ (dock.tick_connected next port left connected ticked).2
  · rw [tick,if_pos connected] at ticked
    rw [(Prod.mk.inj (Except.ok.inj ticked)).2]

/-- The same for one tick after the other, until nothing more arrives or a line throws. A pause
where a line begins lets one tick end and the next one find the line. -/
def handed (dock : FlotillaDock) (port : SerialPort) : List (Text × Bool) :=
  (if dock.state = .connected then (dock.writeQueues port).1.handedLines port.input else []) ++
    match _ticked : dock.tick port with
    | .ok (next,left) =>
      match _paused : left.input with
      | .timeout :: rest => handed next {left with input := rest}
      | _ => []
    | .error _ => []
termination_by port.input.length
decreasing_by
  have short := dock.tick_shortens next port left _ticked
  rw [_paused] at short
  exact short

/-- What a line looks up: the stored names, and which modules are connected. -/
def labels (dock : FlotillaDock) (c : Fin maxChannels) : Text × ModuleState :=
  ((dock.module c).name,(dock.module c).state)

theorem labels_setModule (dock : FlotillaDock) (c : Fin maxChannels) (m : FlotillaModule) :
    (dock.setModule c m).labels = Function.update dock.labels c (m.name,m.state) := by
  ext x : 1
  by_cases own : x = c
  · subst own
    simp [labels,setModule]
  · simp [labels,setModule,own]

theorem labels_polled (dock : FlotillaDock) (port : SerialPort) : (dock.writeQueues port).1.labels = dock.labels := by
  rw [writeQueues_dock]
  ext c : 1
  change ((polledUpdate (dock.module c)).name,(polledUpdate (dock.module c)).state) = _
  unfold polledUpdate
  split
  next connected =>
    rcases (dock.module c).getNextUpdate_cases with ⟨_,polled⟩ | ⟨_,_,_,polled⟩ <;> rw [polled] <;> rfl
  next off => rfl

section Labelled
variable (first second : FlotillaDock) (same : first.labels = second.labels) (command : Text)

include same

theorem processInformation_labels :
    (first.processInformation command).map labels = (second.processInformation command).map labels := by
  unfold processInformation
  split
  · apply outcome_map_congr
    exact fun user => congrArg Except.ok same
  · split
    · apply outcome_map_congr
      exact fun name => congrArg Except.ok same
    · apply outcome_map_congr
      exact fun debug => congrArg Except.ok same

theorem processUpdate_labels :
    (first.processUpdate command).map labels = (second.processUpdate command).map labels := by
  rw [processUpdate_eq,processUpdate_eq]
  apply outcome_map_congr
  intro digits
  apply outcome_map_congr
  intro found
  split
  next inside =>
    apply outcome_map_congr
    intro c
    have name : (first.module c).name = (second.module c).name := congrArg Prod.fst (congrFun same c)
    rw [name]
    apply outcome_map_congr
    intro data
    apply congrArg Except.ok
    rw [labels_setModule,labels_setModule,same]
    exact congrArg _ (congrFun same c)
  next outside => exact congrArg Except.ok same

theorem processChange_labels (change : Text → FlotillaModule → FlotillaModule)
    (changed : ∀ text m n, (m.name,m.state) = (n.name,n.state) →
      ((change text m).name,(change text m).state) = ((change text n).name,(change text n).state)) :
    (first.processChange change command).map labels = (second.processChange change command).map labels := by
  rw [processChange_eq,processChange_eq]
  apply outcome_map_congr
  intro digits
  apply outcome_map_congr
  intro found
  split
  next inside =>
    apply outcome_map_congr
    intro name
    apply outcome_map_congr
    intro c
    apply congrArg Except.ok
    change labels (first.setModule c _) = labels (second.setModule c _)
    rw [labels_setModule,labels_setModule,same]
    exact congrArg _ (changed name _ _ (congrFun same c))
  next outside => exact congrArg Except.ok same

/-- What a line does to the labels, and whether it throws, is decided by the labels. -/
theorem processCommand_labels :
    (first.processCommand command).map labels = (second.processCommand command).map labels := by
  cases command with
  | nil => rfl
  | cons start rest =>
    rw [processCommand_cons,processCommand_cons]
    split
    · exact processInformation_labels first second same _
    · split
      · exact processUpdate_labels first second same _
      · split
        · apply processChange_labels first second same
          intro _ m n equal
          exact congrArg (·,ModuleState.moduleDisconnected) (congrArg Prod.fst equal)
        · split
          · apply processChange_labels first second same
            intro name m n equal
            obtain ⟨_,state⟩ := Prod.mk.inj equal
            unfold FlotillaModule.connect
            rw [state]
            split
            · exact equal
            · rfl
          · exact congrArg Except.ok same

end Labelled

/-- Lines up to the first that throws, with it. -/
def untilFault : FlotillaDock → List (Text × Bool) → List (Text × Bool)
  | _,[] => []
  | dock,line :: rest =>
    line ::
      match dock.processCommand line.1 with
      | .ok next => untilFault next rest
      | .error _ => []

theorem untilFault_labels (first second : FlotillaDock) (same : first.labels = second.labels)
    (lines : List (Text × Bool)) : first.untilFault lines = second.untilFault lines := by
  induction lines generalizing first second with
  | nil => rfl
  | cons line rest ih =>
    have moved := processCommand_labels first second same line.1
    rw [untilFault,untilFault]
    cases here : first.processCommand line.1 with
    | error fault =>
      cases there : second.processCommand line.1 with
      | error other => rfl
      | ok next =>
        rw [here,there] at moved
        contradiction
    | ok next =>
      cases there : second.processCommand line.1 with
      | error other =>
        rw [here,there] at moved
        contradiction
      | ok other =>
        rw [here,there] at moved
        exact congrArg (line :: ·) (ih next other (Except.ok.inj moved))

end FlotillaDock

/-- Every read of a stream with pauses, as if no line threw. -/
def reads : List Arrival → List (Text × Bool)
  | [] => []
  | .timeout :: rest => reads rest
  | .byte c :: rest =>
    ((spReadline (.byte c :: rest)).1,readsEnd (.byte c :: rest)) :: reads (spReadline (.byte c :: rest)).2
termination_by arrived => arrived.length
decreasing_by
  · exact Nat.lt_succ_self _
  · exact spReadline_shortens _ rfl

theorem reads_waiting (input : List Arrival) (waiting : spInputWaiting input = true) :
    reads input = ((spReadline input).1,readsEnd input) :: reads (spReadline input).2 := by
  cases input with
  | nil => contradiction
  | cons arrival rest =>
    cases arrival with
    | timeout => contradiction
    | byte c => rw [reads]

namespace FlotillaDock

theorem handedLines_reads (dock : FlotillaDock) (input : List Arrival) :
    dock.untilFault (reads input) = dock.handedLines input ++
      match dock.readInput input with
      | .ok (next,left) => next.untilFault (reads left)
      | .error _ => [] := by
  induction dock, input using readInput.induct with
  | case1 dock input waiting next processed ih =>
    rw [reads_waiting input waiting,untilFault,handedLines,dif_pos waiting,readInput,dif_pos waiting]
    dsimp only
    rw [processed,List.cons_append]
    exact congrArg _ ih
  | case2 dock input waiting fault failed =>
    rw [reads_waiting input waiting,untilFault,handedLines,dif_pos waiting,readInput,dif_pos waiting]
    dsimp only
    rw [failed]
    rfl
  | case3 dock input idle =>
    rw [handedLines,dif_neg idle,readInput,dif_neg idle]
    rfl

theorem readInput_leaves (dock next : FlotillaDock) (input left : List Arrival)
    (read : dock.readInput input = .ok (next,left)) : left = [] ∨ ∃ rest, left = .timeout :: rest := by
  have idle := (readInput_run (fun _ _ => True) (fun _ _ _ _ _ _ => trivial) dock next input left read trivial).2
  match left with
  | [] => exact .inl rfl
  | .timeout :: rest => exact .inr ⟨rest,rfl⟩
  | .byte c :: rest => contradiction

theorem tick_failed (dock : FlotillaDock) (port : SerialPort) (fault : Fault) (connected : dock.state = .connected)
    (failed : dock.tick port = .error fault) : (dock.writeQueues port).1.readInput port.input = .error fault := by
  unfold tick at failed
  rw [if_neg (not_not.mpr connected)] at failed
  have input := dock.writeQueues_input port
  generalize dock.writeQueues port = queues at failed input ⊢
  obtain ⟨mid,filled⟩ := queues
  dsimp only at failed input ⊢
  rw [← input]
  cases read : mid.readInput filled.input with
  | ok result =>
    rw [read] at failed
    contradiction
  | error other =>
    rw [read] at failed
    exact congrArg Except.error (Except.error.inj failed)

/-- All ticks together hand over every read up to the first line that throws. -/
theorem handed_eq (dock : FlotillaDock) (port : SerialPort) (connected : dock.state = .connected) :
    dock.handed port = dock.untilFault (reads port.input) := by
  induction dock, port using handed.induct with
  | case1 dock port ih =>
    rw [untilFault_labels dock _ (dock.labels_polled port).symm,handedLines_reads,handed,if_pos connected]
    apply congrArg
    split
    next after left ticked =>
      obtain ⟨_,read⟩ := dock.tick_connected after port left connected ticked
      rw [read]
      dsimp only
      split
      next rest paused =>
        have later := ih after left ticked rest paused (dock.tick_state after port left connected ticked)
        rw [later,paused,reads]
      next idle =>
        rcases readInput_leaves _ _ _ _ read with empty | ⟨rest,paused⟩
        · rw [empty,reads]
          rfl
        · exact absurd paused (idle rest)
    next fault failed =>
      rw [dock.tick_failed port fault connected failed]

end FlotillaDock

theorem reads_cut (input : List Arrival) (cut : readsEnd input = false) :
    ∃ line : Text, '\n' ∉ line ∧ (input = line.map .byte ∨ ∃ left, input = line.map .byte ++ .timeout :: left) := by
  induction input with
  | nil => exact ⟨[],by simp,.inl rfl⟩
  | cons arrival rest ih =>
    cases arrival with
    | timeout => exact ⟨[],by simp,.inr ⟨rest,rfl⟩⟩
    | byte c =>
      obtain ⟨inside,later⟩ := Bool.or_eq_false_iff.mp cut
      obtain ⟨line,free,came⟩ := ih later
      refine ⟨c :: line,?_,?_⟩
      · rw [List.mem_cons,not_or]
        exact ⟨fun ended => of_decide_eq_false inside ended.symm,free⟩
      · rcases came with rfl | ⟨left,rfl⟩
        · exact .inl rfl
        · exact .inr ⟨left,rfl⟩

theorem reads_whole (input : List Arrival) (whole : readsEnd input = true) :
    ∃ (line : Text) (left : List Arrival), '\n' ∉ line ∧ input = line.map .byte ++ .byte '\n' :: left ∧
      spReadline input = (withoutReturns line,left) := by
  induction input with
  | nil => contradiction
  | cons arrival rest ih =>
    cases arrival with
    | timeout => contradiction
    | byte c =>
      by_cases ended : c = '\n'
      · subst ended
        exact ⟨[],rest,by simp,rfl,rfl⟩
      · have later : readsEnd rest = true := by
          rcases Bool.or_eq_true_iff.mp whole with here | later
          · exact absurd (of_decide_eq_true here) ended
          · exact later
        obtain ⟨line,left,free,rfl,read⟩ := ih later
        refine ⟨c :: line,left,?_,rfl,?_⟩
        · rw [List.mem_cons,not_or]
          exact ⟨Ne.symm ended,free⟩
        · rw [spReadline,if_neg ended]
          dsimp only
          rw [read]
          by_cases returned : c = '\r' <;> simp [withoutReturns,returned]

theorem unbroken_line (line : Text) (left : List Arrival) :
    Unbroken (line.map .byte ++ .byte '\n' :: left) ↔ Unbroken left := by
  unfold Unbroken
  induction line with
  | nil =>
    rw [List.map_nil,List.nil_append,List.isChain_cons]
    exact and_iff_right fun _ _ _ => .inr rfl
  | cons c rest ih =>
    rw [List.map_cons,List.cons_append,List.isChain_cons,ih]
    apply and_iff_right
    intro later first paused
    subst paused
    cases rest <;> simp at first

theorem unbroken_silent (left : List Arrival) (silent : arrivedBytes left = []) : Unbroken left := by
  unfold Unbroken
  induction left with
  | nil => exact List.isChain_nil
  | cons arrival rest ih =>
    cases arrival with
    | byte c => contradiction
    | timeout =>
      rw [List.isChain_cons]
      exact ⟨fun _ _ _ => .inl rfl,ih silent⟩

theorem unbroken_cut (line : Text) (left : List Arrival) (present : line ≠ []) (free : '\n' ∉ line) :
    ¬ Unbroken (line.map .byte ++ .timeout :: left) := by
  intro unbroken
  obtain ⟨before,last,rfl⟩ := List.eq_nil_or_concat line |>.resolve_left present
  have split : (before.concat last).map Arrival.byte ++ .timeout :: left =
      before.map .byte ++ .byte last :: .timeout :: left := by simp
  rcases List.isChain_iff_forall_rel_of_append_cons_cons.mp unbroken split rfl with paused | ended
  · contradiction
  · rw [Arrival.byte.inj ended] at free
    simp at free

theorem arrivedBytes_line (line : Text) (rest : List Arrival) :
    arrivedBytes (line.map .byte ++ rest) = line ++ arrivedBytes rest := by
  induction line with
  | nil => rfl
  | cons c later ih => exact congrArg (c :: ·) ih

theorem cut_broken (c : Char) (rest : List Arrival) (cut : readsEnd (.byte c :: rest) = false)
    (ends : '\n' ∈ arrivedBytes (.byte c :: rest)) : ¬ Unbroken (.byte c :: rest) := by
  obtain ⟨taken,single,all | ⟨left,split⟩⟩ := reads_cut _ cut
  · rw [all,← List.append_nil (taken.map Arrival.byte),arrivedBytes_line] at ends
    exact absurd ((List.append_nil taken) ▸ ends) single
  · rw [split]
    refine unbroken_cut taken left ?_ single
    rintro rfl
    exact Arrival.noConfusion (List.cons.inj split).1

/-- An unbroken stream is read line by line, and only such a stream begins with reads of all its
lines. -/
theorem reads_lines (input : List Arrival) (lines : List Text) (free : ∀ line ∈ lines, '\n' ∉ line)
    (came : arrivedBytes input = Framing.frames '\n' lines) :
    ((lines.map withoutReturns).map (fun line => (line,true)) <+: reads input → Unbroken input) ∧
      (Unbroken input → reads input = (lines.map withoutReturns).map (fun line => (line,true))) := by
  induction input using reads.induct generalizing lines with
  | case1 =>
    cases lines with
    | nil => exact ⟨fun _ => unbroken_silent [] rfl,fun _ => by rw [reads]; rfl⟩
    | cons line later =>
      rw [Framing.frames_cons] at came
      exact absurd came.symm (List.append_ne_nil_of_right_ne_nil _ (List.cons_ne_nil _ _))
  | case2 rest ih =>
    have here : Unbroken (.timeout :: rest) ↔ Unbroken rest := by
      unfold Unbroken
      rw [List.isChain_cons]
      exact and_iff_right fun _ _ _ => .inl rfl
    rw [here,reads]
    exact ih lines free came
  | case3 c rest ih =>
    cases lines with
    | nil => contradiction
    | cons line later =>
      rw [Framing.frames_cons] at came
      rw [reads,List.map_cons,List.map_cons,List.cons_prefix_cons]
      cases whole : readsEnd (.byte c :: rest) with
      | false =>
        have broken := cut_broken c rest whole (came ▸ by simp)
        refine ⟨?_,fun unbroken => absurd unbroken broken⟩
        intro same
        exact absurd (congrArg Prod.snd same.1) Bool.noConfusion
      | true =>
        obtain ⟨taken,left,single,split,read⟩ := reads_whole _ whole
        rw [split,arrivedBytes_line] at came
        obtain ⟨rfl,follows⟩ := Framing.first_unique _ _ _ _ _ single (free line List.mem_cons_self) came
        rw [read] at ih ⊢
        obtain ⟨first,second⟩ := ih later (fun other member => free other (List.mem_cons_of_mem _ member)) follows
        rw [split,unbroken_line]
        exact ⟨fun same => first same.2,fun unbroken => congrArg _ (second unbroken)⟩

namespace FlotillaDock

theorem untilFault_prefix (dock : FlotillaDock) (lines : List (Text × Bool)) : dock.untilFault lines <+: lines := by
  induction lines generalizing dock with
  | nil => exact List.prefix_rfl
  | cons line rest ih =>
    rw [untilFault,List.prefix_cons_inj]
    split
    · exact ih _
    · exact List.nil_prefix

theorem untilFault_lines_iff (dock : FlotillaDock) (lines : List Text) :
    dock.untilFault (lines.map fun line => (line,true)) = lines.map (fun line => (line,true)) ↔
      AllProcessable dock lines.dropLast := by
  induction lines generalizing dock with
  | nil => exact iff_of_true rfl trivial
  | cons line rest ih =>
    rw [List.map_cons,untilFault,List.cons.injEq,and_iff_right rfl]
    dsimp only
    cases rest with
    | nil =>
      refine iff_of_true ?_ trivial
      split <;> rfl
    | cons other later =>
      rw [List.dropLast_cons_cons,AllProcessable,← processCommand_ok_iff]
      cases processed : dock.processCommand line with
      | error fault => simp
      | ok next => simpa using ih next

end FlotillaDock

/-- Two schedules of one stream give its lines, and nothing cut, exactly when neither has a pause
of a second in a line and no line but the last throws. -/
theorem handed_timing_iff (dock : FlotillaDock) (written stream : Text) (first second : List Arrival)
    (connected : dock.state = .connected) (ends : stream.getLast? = some '\n')
    (one : arrivedBytes first = stream) (two : arrivedBytes second = stream) :
    dock.handed ⟨written,first⟩ = (streamLines stream).map (fun line => (line,true)) ∧
        dock.handed ⟨written,second⟩ = (streamLines stream).map (fun line => (line,true)) ↔
      (Unbroken first ∧ Unbroken second) ∧ dock.AllProcessable (streamLines stream).dropLast := by
  obtain ⟨lines,split,free⟩ := Framing.exists_frames '\n' stream ends
  have cut : streamLines stream = lines.map withoutReturns := by
    rw [streamLines,split,Framing.splitOn_frames _ _ free,List.dropLast_concat]
  have single (input : List Arrival) (came : arrivedBytes input = stream) :
      dock.handed ⟨written,input⟩ = (streamLines stream).map (fun line => (line,true)) ↔
        Unbroken input ∧ dock.AllProcessable (streamLines stream).dropLast := by
    obtain ⟨begins,read⟩ := reads_lines input lines free (came.trans split)
    rw [dock.handed_eq _ connected,← dock.untilFault_lines_iff,cut]
    constructor
    · intro same
      have unbroken := begins (same ▸ dock.untilFault_prefix _)
      rw [read unbroken] at same
      exact ⟨unbroken,same⟩
    · rintro ⟨unbroken,same⟩
      rw [read unbroken]
      exact same
  rw [single first one,single second two,← and_and_right]

section Runs

def dialStream : Text := "u 1/dial 412\n".toList

/-- Every byte at once, the same a second later, or a second's pause in the number. -/
def steady : List Arrival := dialStream.map .byte

def delayed : List Arrival := .timeout :: steady

def paused : List Arrival := (dialStream.take 11).map .byte ++ .timeout :: (dialStream.drop 11).map .byte

end Runs

theorem handed_timing_steady :
    connectedDock.handed ⟨[],steady⟩ = (streamLines dialStream).map (fun line => (line,true)) ∧
        connectedDock.handed ⟨[],delayed⟩ = (streamLines dialStream).map (fun line => (line,true)) ↔
      (Unbroken steady ∧ Unbroken delayed) ∧ connectedDock.AllProcessable (streamLines dialStream).dropLast :=
  handed_timing_iff connectedDock [] dialStream steady delayed rfl (by decide) (by decide) (by decide)

theorem handed_timing_fails_paused :
    ¬ ∀ (dock : FlotillaDock) (written stream : Text) (first second : List Arrival), dock.state = .connected →
      stream.getLast? = some '\n' → arrivedBytes first = stream → arrivedBytes second = stream →
      dock.handed ⟨written,first⟩ = (streamLines stream).map (fun line => (line,true)) ∧
        dock.handed ⟨written,second⟩ = (streamLines stream).map (fun line => (line,true)) := by
  intro timing
  have cut := (timing connectedDock [] dialStream steady paused rfl (by decide) (by decide) (by decide)).2
  exact absurd cut (by decide +kernel)

end FlotillaDaemon
