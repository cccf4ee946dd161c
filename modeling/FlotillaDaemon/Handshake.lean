import FlotillaDaemon.Dock

/-! The handshake of a dock that has just been opened: four lines after the banner carry
its version, serial, user and name. -/
namespace FlotillaDaemon
open Cpp Retained

/-- `if ((position = line.find(key)) != npos) member = line.substr(position + skip)`. -/
def readMember (key : Text) (skip : Nat) (line member : Text) : Text :=
  match find key line with
  | some position => line.drop (position + skip)
  | none => member

def readLines : Nat → List Arrival → List Text
  | 0,_ => []
  | count + 1,input => (spReadline input).1 :: readLines count (spReadline input).2

namespace FlotillaDock

def versionLine (dock : FlotillaDock) (line : Text) : FlotillaDock :=
  if line.head? = some '#' then
    {dock with
      version := readMember "Version: ".toList 9 line dock.version
      serial := readMember "Serial: ".toList 8 line dock.serial
      user := readMember "User: ".toList 6 line dock.user
      name := readMember "Dock: ".toList 6 line dock.name}
  else dock

/-- `banner` is what `sp_wait_for` returns, `input` what arrives after it. -/
def getVersionInfo (dock : FlotillaDock) (banner : Bool) (input : List Arrival) : FlotillaDock × Bool :=
  let dock := {dock with version := [],user := [],name := []}
  if banner = false then (dock,false)
  else
    let dock := (readLines 4 input).foldl versionLine dock
    (dock,decide (dock.version.length > 0 ∧ dock.serial.length = 22))

/-- `copied` and `opened` are the outcomes of `sp_copy_port` and `sp_open`. -/
def setPort (dock : FlotillaDock) (copied opened banner : Bool) (input : List Arrival) : FlotillaDock × Bool :=
  if dock.state ≠ .disconnected then (dock,false)
  else
    let dock := {dock with state := .connecting}
    if copied && opened then
      let (dock,ok) := dock.getVersionInfo banner input
      ({dock with state := if ok then .connected else .disconnected},ok)
    else ({dock with state := .disconnected},false)

def Introduced (dock next : FlotillaDock) : Prop :=
  ∃ version serial user name,next = {dock with version := version,serial := serial,user := user,name := name}

theorem versionLine_introduces (dock : FlotillaDock) (line : Text) : dock.Introduced (dock.versionLine line) := by
  unfold versionLine
  split
  · exact ⟨_,_,_,_,rfl⟩
  · exact ⟨dock.version,dock.serial,dock.user,dock.name,rfl⟩

theorem introduced_trans (dock mid next : FlotillaDock) (first : dock.Introduced mid) (second : mid.Introduced next) :
    dock.Introduced next := by
  obtain ⟨_,_,_,_,rfl⟩ := first
  obtain ⟨_,_,_,_,rfl⟩ := second
  exact ⟨_,_,_,_,rfl⟩

theorem getVersionInfo_introduces (dock : FlotillaDock) (banner : Bool) (input : List Arrival) :
    dock.Introduced (dock.getVersionInfo banner input).1 := by
  have lines (read : List Text) (d : FlotillaDock) : d.Introduced (read.foldl versionLine d) := by
    induction read generalizing d with
    | nil => exact ⟨d.version,d.serial,d.user,d.name,rfl⟩
    | cons line rest ih => exact introduced_trans _ _ _ (d.versionLine_introduces line) (ih _)
  unfold getVersionInfo
  split
  · exact ⟨_,_,_,_,rfl⟩
  · exact introduced_trans _ _ _ ⟨_,_,_,_,rfl⟩ (lines _ _)

theorem getVersionInfo_frame (dock : FlotillaDock) (banner : Bool) (input : List Arrival) :
    (dock.getVersionInfo banner input).1.state = dock.state ∧
      (dock.getVersionInfo banner input).1.module = dock.module := by
  obtain ⟨_,_,_,_,introduced⟩ := dock.getVersionInfo_introduces banner input
  rw [introduced]
  exact ⟨rfl,rfl⟩

theorem setPort_effect (dock : FlotillaDock) (copied opened banner : Bool) (input : List Arrival) :
    ∃ next ok,dock.setPort copied opened banner input = (next,ok) ∧ (ok = true → dock.state = .disconnected) ∧
      Introduced {dock with state := if ok then .connected else dock.state} next := by
  unfold setPort
  split
  next up => exact ⟨dock,false,rfl,by simp,dock.version,dock.serial,dock.user,dock.name,rfl⟩
  next down =>
    have off := not_not.mp down
    split
    · have introduced := getVersionInfo_introduces {dock with state := .connecting} banner input
      dsimp only
      generalize getVersionInfo {dock with state := .connecting} banner input = result at introduced ⊢
      obtain ⟨version,serial,user,name,same⟩ := introduced
      refine ⟨_,result.2,rfl,fun _ => off,version,serial,user,name,?_⟩
      rw [same,off]
    · refine ⟨_,false,rfl,by simp,dock.version,dock.serial,dock.user,dock.name,?_⟩
      simp [off]

end FlotillaDock

end FlotillaDaemon
