import FlotillaDaemon.Introduction

/-! How a dock is attached, with its serial calls. `get_version_info` asks for the version and waits
for the banner; a line that is something else ends the wait when 100 ms are over. -/
namespace FlotillaDaemon
open Cpp

def lineEnds : List Arrival → Bool
  | [] => false
  | .timeout :: _ => false
  | .byte c :: rest => if c = '\n' then true else lineEnds rest

theorem lineEnds_waiting (input : List Arrival) (ends : lineEnds input = true) : spInputWaiting input = true := by
  cases input with
  | nil => contradiction
  | cons arrival rest =>
    cases arrival with
    | timeout => contradiction
    | byte c => rfl

/-- `late k` says that 100 ms are over when line `k` has been read. A read that gets no byte takes a
second by itself. -/
def spWaitFor (waitFor : Text) (late : Nat → Bool) (k : Nat) (input : List Arrival) : Bool × List Arrival :=
  if (spReadline input).1 = waitFor then (true,(spReadline input).2)
  else if ends : late k = false ∧ lineEnds input = true then
    have _shorter := spReadline_shortens input (lineEnds_waiting input ends.2)
    spWaitFor waitFor late (k + 1) (spReadline input).2
  else (false,(spReadline input).2)
termination_by input.length

def readyBanner : Text := "# Flotilla ready to set sail..".toList

def skipLines : Nat → List Arrival → List Arrival
  | 0,input => input
  | count + 1,input => skipLines count (spReadline input).2

namespace FlotillaDock

def askVersion (dock : FlotillaDock) (late : Nat → Bool) (port : SerialPort) : (FlotillaDock × Bool) × SerialPort :=
  let port := port.spBlockingWrite "v\r".toList
  let (banner,input) := spWaitFor readyBanner late 0 port.input
  (dock.getVersionInfo banner input,{port with input := if banner then skipLines 4 input else input})

def openPort (dock : FlotillaDock) (copied opened : Bool) (late : Nat → Bool) (port : SerialPort) :
    (FlotillaDock × Bool) × SerialPort :=
  if dock.state ≠ .disconnected then ((dock,false),port)
  else
    let dock := {dock with state := .connecting}
    if copied && opened then
      let ((dock,ok),port) := dock.askVersion late port
      (({dock with state := if ok then .connected else .disconnected},ok),port)
    else (({dock with state := .disconnected},false),port)

def cmdEnumerate (port : SerialPort) : SerialPort := port.spBlockingWrite "e\r".toList

/-- What `scan_for_host` does with the slot that it has chosen. -/
def attach (dock : FlotillaDock) (copied opened : Bool) (late : Nat → Bool) (port : SerialPort) :
    (FlotillaDock × Bool) × SerialPort :=
  let (result,port) := dock.openPort copied opened late port
  (result,if result.2 then cmdEnumerate port else port)

end FlotillaDock

def rawLines (lines : List Text) : List Arrival := lines.flatMap fun line => (line ++ ['\n']).map .byte

def printed (line : Text) : Text := line.filter (· ≠ '\r')

theorem spReadline_raw (line : Text) (rest : List Arrival) (single : '\n' ∉ line) :
    spReadline ((line ++ ['\n']).map .byte ++ rest) = (printed line,rest) ∧
      lineEnds ((line ++ ['\n']).map .byte ++ rest) = true := by
  induction line with
  | nil => exact ⟨rfl,rfl⟩
  | cons c text ih =>
    rw [List.mem_cons,not_or] at single
    obtain ⟨read,ends⟩ := ih single.2
    rw [List.cons_append,List.map_cons,List.cons_append,spReadline,lineEnds,if_neg (Ne.symm single.1),
      if_neg (Ne.symm single.1),read]
    refine ⟨?_,ends⟩
    unfold printed
    dsimp only
    by_cases returned : c = '\r'
    · rw [if_pos returned,List.filter_cons_of_neg (by simp [returned])]
    · rw [if_neg returned,List.filter_cons_of_pos (by simp [returned])]

theorem lineEnds_raw (input : List Arrival) (ends : lineEnds input = true) :
    ∃ line rest, input = (line ++ ['\n']).map .byte ++ rest ∧ '\n' ∉ line := by
  induction input with
  | nil => contradiction
  | cons arrival rest ih =>
    cases arrival with
    | timeout => contradiction
    | byte c =>
      rw [lineEnds] at ends
      split at ends
      next newline => exact ⟨[],rest,by rw [newline]; rfl,List.not_mem_nil⟩
      next other =>
        obtain ⟨line,later,rfl,single⟩ := ih ends
        exact ⟨c :: line,later,rfl,List.not_mem_cons_of_ne_of_not_mem (Ne.symm other) single⟩

/-- The lines before the banner: whole ones, each something else and each read in time. -/
structure Prelude (waitFor : Text) (late : Nat → Bool) (start : Nat) (lines : List Text) : Prop where
  single : ∀ line ∈ lines, '\n' ∉ line
  other : ∀ line ∈ lines, printed line ≠ waitFor
  timely : ∀ k < lines.length, late (start + k) = false

theorem prelude_cons_iff (waitFor : Text) (late : Nat → Bool) (start : Nat) (line : Text) (lines : List Text) :
    Prelude waitFor late start (line :: lines) ↔
      ('\n' ∉ line ∧ printed line ≠ waitFor ∧ late start = false) ∧ Prelude waitFor late (start + 1) lines := by
  have shifted (k : Nat) : start + (k + 1) = start + 1 + k := by omega
  constructor
  · intro ⟨single,other,timely⟩
    rw [List.forall_mem_cons] at single other
    rw [List.length_cons,Nat.forall_lt_succ_left] at timely
    exact ⟨⟨single.1,other.1,timely.1⟩,single.2,other.2,fun k less => shifted k ▸ timely.2 k less⟩
  · intro ⟨⟨first,different,now⟩,single,other,timely⟩
    refine ⟨List.forall_mem_cons.mpr ⟨first,single⟩,List.forall_mem_cons.mpr ⟨different,other⟩,?_⟩
    rw [List.length_cons,Nat.forall_lt_succ_left]
    exact ⟨now,fun k less => by rw [shifted k]; exact timely k less⟩

theorem spWaitFor_iff (waitFor : Text) (late : Nat → Bool) (start : Nat) (input rest : List Arrival) :
    spWaitFor waitFor late start input = (true,rest) ↔
      ∃ lines tail, input = rawLines lines ++ tail ∧ Prelude waitFor late start lines ∧
        spReadline tail = (waitFor,rest) := by
  induction start, input using spWaitFor.induct waitFor late with
  | case1 start input found =>
    rw [spWaitFor,if_pos found,Prod.mk.injEq,eq_self,true_and]
    constructor
    · rintro rfl
      exact ⟨[],input,rfl,⟨by simp,by simp,by simp⟩,Prod.ext found rfl⟩
    · rintro ⟨lines,tail,rfl,waited,read⟩
      cases lines with
      | nil => exact congrArg Prod.snd read
      | cons line lines =>
        obtain ⟨⟨single,other,_⟩,_⟩ := (prelude_cons_iff _ _ _ _ _).mp waited
        rw [rawLines,List.flatMap_cons,List.append_assoc,(spReadline_raw line _ single).1] at found
        exact absurd found other
  | case2 start input other ends shorter ih =>
    rw [spWaitFor,if_neg other,dif_pos ends,ih]
    constructor
    · rintro ⟨lines,tail,behind,waited,read⟩
      obtain ⟨line,later,rfl,single⟩ := lineEnds_raw input ends.2
      rw [(spReadline_raw line later single).1] at behind other
      refine ⟨line :: lines,tail,?_,(prelude_cons_iff _ _ _ _ _).mpr ⟨⟨single,other,ends.1⟩,waited⟩,read⟩
      rw [rawLines,List.flatMap_cons,List.append_assoc]
      exact congrArg _ behind
    · rintro ⟨lines,tail,rfl,waited,read⟩
      cases lines with
      | nil => exact absurd (congrArg Prod.fst read) other
      | cons line lines =>
        obtain ⟨⟨single,_,_⟩,waited⟩ := (prelude_cons_iff _ _ _ _ _).mp waited
        refine ⟨lines,tail,?_,waited,read⟩
        rw [rawLines,List.flatMap_cons,List.append_assoc,(spReadline_raw line _ single).1]
        rfl
  | case3 start input other held =>
    rw [spWaitFor,if_neg other,dif_neg held]
    refine iff_of_false (by simp) ?_
    rintro ⟨lines,tail,rfl,waited,read⟩
    cases lines with
    | nil => exact absurd (congrArg Prod.fst read) other
    | cons line lines =>
      obtain ⟨⟨single,_,timely⟩,_⟩ := (prelude_cons_iff _ _ _ _ _).mp waited
      rw [rawLines,List.flatMap_cons,List.append_assoc] at held
      exact held ⟨timely,(spReadline_raw line _ single).2⟩

/-- What stands behind the key in the last line that begins with `#` and has the key. -/
def lastGiven (key : Text) (lines : List Text) : Option Text :=
  ((marked lines).filterMap fun line => (find key line).map fun position => line.drop (position + key.length)).getLast?

theorem readMembers_given (key member : Text) (lines : List Text) :
    (marked lines).foldl (fun member line => readMember key key.length line member) member =
      (lastGiven key lines).getD member := by
  unfold lastGiven
  induction marked lines using List.reverseRecOn with
  | nil => rfl
  | append_singleton earlier line ih =>
    rw [List.foldl_append,List.foldl_cons,List.foldl_nil,readMember,List.filterMap_append]
    cases found : find key line with
    | none => simpa [found] using ih
    | some position => simp [found]

namespace FlotillaDock

/-- A serial that no line gives is the one stored for an earlier dock. -/
theorem getVersionInfo_given (dock : FlotillaDock) (input : List Arrival) :
    (dock.getVersionInfo true input).2 = true ↔
      (∃ version, lastGiven "Version: ".toList (readLines 4 input) = some version ∧ version ≠ []) ∧
        ((lastGiven "Serial: ".toList (readLines 4 input)).getD dock.serial).length = 22 := by
  obtain ⟨version,serial,_⟩ := versionLine_marked {dock with version := [],user := [],name := []} (readLines 4 input)
  have versionIs := version.trans (readMembers_given "Version: ".toList [] (readLines 4 input))
  have serialIs := serial.trans (readMembers_given "Serial: ".toList dock.serial (readLines 4 input))
  unfold getVersionInfo
  rw [if_neg Bool.noConfusion,decide_eq_true_iff,versionIs,serialIs,gt_iff_lt,List.length_pos_iff]
  refine and_congr_left fun _ => ?_
  cases lastGiven "Version: ".toList (readLines 4 input) with
  | none => simp
  | some text => simp

theorem attach_setPort (dock : FlotillaDock) (copied opened : Bool) (late : Nat → Bool) (port : SerialPort) :
    (dock.attach copied opened late port).1 = dock.setPort copied opened
      (spWaitFor readyBanner late 0 port.input).1 (spWaitFor readyBanner late 0 port.input).2 := by
  change (dock.openPort copied opened late port).1 = _
  unfold openPort setPort
  by_cases off : dock.state = .disconnected
  · rw [if_neg (not_not.mpr off),if_neg (not_not.mpr off)]
    dsimp only
    split <;> rfl
  · rw [if_pos off,if_pos off]

theorem openPort_written (dock : FlotillaDock) (copied opened : Bool) (late : Nat → Bool) (port : SerialPort) :
    (dock.openPort copied opened late port).2.written =
      port.written ++ (if dock.state = .disconnected ∧ (copied && opened) = true then "v\r".toList else []) := by
  unfold openPort
  by_cases off : dock.state = .disconnected
  · rw [if_neg (not_not.mpr off)]
    by_cases ready : (copied && opened) = true
    · rw [if_pos ready,if_pos ⟨off,ready⟩]
      rfl
    · rw [if_neg ready,if_neg fun both => ready both.2,List.append_nil]
  · rw [if_pos off,if_neg fun both => off both.1,List.append_nil]

theorem attach_written (dock : FlotillaDock) (copied opened : Bool) (late : Nat → Bool) (port : SerialPort) :
    (dock.attach copied opened late port).2.written =
      port.written ++ (if dock.state = .disconnected ∧ (copied && opened) = true then "v\r".toList else []) ++
        (if (dock.attach copied opened late port).1.2 = true then "e\r".toList else []) := by
  rw [← dock.openPort_written copied opened late port]
  unfold attach
  generalize dock.openPort copied opened late port = result
  obtain ⟨⟨next,ok⟩,port⟩ := result
  cases ok with
  | true => rfl
  | false => exact (List.append_nil _).symm

end FlotillaDock

/-- A dock is connected exactly when its slot is free, its port opens, and it answers with the banner
behind such lines and then with four lines of which the last version is not empty and the last
serial, or the one that is stored if they give none, has 22 characters. It is asked for them when
its port is open, and for its modules when it is connected. -/
theorem attach_connects_iff (dock : FlotillaDock) (copied opened : Bool) (late : Nat → Bool) (port : SerialPort) :
    ((dock.attach copied opened late port).1.2 = true ↔
      dock.state = .disconnected ∧ (copied && opened) = true ∧
        ∃ lines tail rest, port.input = rawLines lines ++ tail ∧ Prelude readyBanner late 0 lines ∧
          spReadline tail = (readyBanner,rest) ∧
          (∃ version, lastGiven "Version: ".toList (readLines 4 rest) = some version ∧ version ≠ []) ∧
          ((lastGiven "Serial: ".toList (readLines 4 rest)).getD dock.serial).length = 22) ∧
      (dock.attach copied opened late port).2.written =
        port.written ++ (if dock.state = .disconnected ∧ (copied && opened) = true then "v\r".toList else []) ++
          (if (dock.attach copied opened late port).1.2 = true then "e\r".toList else []) := by
  refine ⟨?_,dock.attach_written copied opened late port⟩
  have wait := spWaitFor_iff readyBanner late 0 port.input
  have answers := FlotillaDock.getVersionInfo_given {dock with state := .connecting}
  rw [dock.attach_setPort]
  generalize spWaitFor readyBanner late 0 port.input = waited at wait
  unfold FlotillaDock.setPort
  by_cases off : dock.state = .disconnected
  · rw [if_neg (not_not.mpr off),and_iff_right off]
    by_cases ready : (copied && opened) = true
    · dsimp only
      rw [if_pos ready,and_iff_right ready]
      obtain ⟨banner,behind⟩ := waited
      constructor
      · intro connected
        cases banner with
        | true =>
          obtain ⟨lines,tail,shape,waited,read⟩ := (wait behind).mp rfl
          exact ⟨lines,tail,behind,shape,waited,read,(answers behind).mp connected⟩
        | false => contradiction
      · rintro ⟨lines,tail,rest,shape,waited,read,given⟩
        obtain ⟨rfl,rfl⟩ := Prod.mk.inj ((wait rest).mpr ⟨lines,tail,shape,waited,read⟩)
        exact (answers _).mpr given
    · dsimp only
      rw [if_neg ready]
      exact iff_of_false Bool.false_ne_true fun both => ready both.1
  · rw [if_pos off]
    exact iff_of_false Bool.false_ne_true fun both => off both.1

section Runs

def answering (lines : List Text) : SerialPort := ⟨[],rawLines (readyBanner :: lines)⟩

/-- A slot from which a dock with a serial has gone. -/
def usedSlot : FlotillaDock :=
  ((FlotillaDock.new 0).attach true true (fun _ => false)
    (answering ["# Version: 1.0".toList,"# Serial: 0123456789012345678901".toList])).1.1.disconnect

end Runs

/-- A dock that gives no serial is connected with that of the dock before it. -/
theorem attach_connects_used :
    (usedSlot.attach true true (fun _ => false) (answering ["# Version: 1.1".toList])).1.2 = true := by
  refine (attach_connects_iff usedSlot true true _ (answering ["# Version: 1.1".toList])).1.mpr ⟨by decide +kernel,rfl,
    [],_,rawLines ["# Version: 1.1".toList],rfl,⟨by simp,by simp,by simp⟩,rfl,⟨"1.1".toList,?_,by simp⟩,?_⟩
  · decide +kernel
  · decide +kernel

end FlotillaDaemon
