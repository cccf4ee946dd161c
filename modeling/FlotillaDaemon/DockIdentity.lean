import Mathlib
import FlotillaDaemon.Introduction
import FlotillaDaemon.PortSlots
import FlotillaDaemon.Framing

/-! What a slot takes for the identity of its dock, line by line, and how it passes the identity
on to the clients. The serial of an earlier dock stays until a line replaces it. -/
namespace FlotillaDaemon
open Cpp Retained

theorem readMember_some (key line member : Text) (present : key <:+: line) :
    key ++ readMember key key.length line member <:+ line := by
  obtain ⟨position,found⟩ := Option.isSome_iff_exists.mp ((find_isSome_iff key line).mpr present)
  obtain ⟨⟨rest,starts⟩,_⟩ := (find_some_iff key line position).mp found
  rw [readMember,found]
  dsimp only
  rw [← List.drop_drop,← starts,List.drop_left,starts]
  exact List.drop_suffix position line

theorem readMember_none (key line member : Text) (absent : ¬ key <:+: line) :
    readMember key key.length line member = member := by
  rw [readMember,(find_none_iff key line).mpr absent]

/-- A member read from several lines is what one of them has behind the key, if any has it. -/
theorem readMembers_source (key : Text) (lines : List Text) (member : Text) :
    (∃ line ∈ lines, key <:+: line) ∧
        (∃ line ∈ lines, key ++ lines.foldl (fun member line => readMember key key.length line member) member <:+ line) ∨
      (∀ line ∈ lines, ¬ key <:+: line) ∧
        lines.foldl (fun member line => readMember key key.length line member) member = member := by
  induction lines using List.reverseRecOn with
  | nil => exact .inr ⟨by simp,rfl⟩
  | append_singleton earlier line ih =>
    rw [List.foldl_append,List.foldl_cons,List.foldl_nil]
    by_cases present : key <:+: line
    · exact .inl ⟨⟨line,by simp,present⟩,line,by simp,readMember_some key line _ present⟩
    · rw [readMember_none key line _ present]
      rcases ih with ⟨⟨other,member,holds⟩,source,inside,read⟩ | ⟨absent,kept⟩
      · exact .inl ⟨⟨other,by simp [member],holds⟩,source,by simp [inside],read⟩
      · refine .inr ⟨?_,kept⟩
        simpa [or_imp,forall_and] using ⟨absent,present⟩

namespace FlotillaDock

/-- The version and the serial are what some of these lines have behind their keys, and they
are long enough. -/
structure Attested (dock : FlotillaDock) (lines : List Text) : Prop where
  version : ∃ line ∈ lines, "Version: ".toList ++ dock.version <:+ line
  present : dock.version ≠ []
  serial : ∃ line ∈ lines, "Serial: ".toList ++ dock.serial <:+ line
  size : dock.serial.length = 22

/-- The lines bring a serial, or those that give a version find no serial of an earlier dock to
stand for it. A line can end in that serial by chance. -/
def BringsSerial (dock : FlotillaDock) (lines : List Text) : Prop :=
  ¬ KeepsMember "Version: ".toList [] (marked lines) → dock.serial.length = 22 →
    (∃ line ∈ marked lines, "Serial: ".toList <:+: line) ∨
      ∃ line ∈ lines, "Serial: ".toList ++ dock.serial <:+ line

theorem getVersionInfo_attested_iff (dock : FlotillaDock) (input : List Arrival) :
    ((dock.getVersionInfo true input).2 = true → (dock.getVersionInfo true input).1.Attested (readLines 4 input)) ↔
      dock.BringsSerial (readLines 4 input) := by
  obtain ⟨version,serial,_⟩ := versionLine_marked {dock with version := [],user := [],name := []} (readLines 4 input)
  have unread := readMembers_iff "Version: ".toList [] (marked (readLines 4 input))
  have versions := readMembers_source "Version: ".toList (marked (readLines 4 input)) []
  have serials := readMembers_source "Serial: ".toList (marked (readLines 4 input)) dock.serial
  have inside (line : Text) (member : line ∈ marked (readLines 4 input)) : line ∈ readLines 4 input :=
    (List.mem_filter.mp member).1
  have sizes : "Version: ".toList.length = 9 ∧ "Serial: ".toList.length = 8 := ⟨rfl,rfl⟩
  rw [sizes.1] at unread versions
  rw [sizes.2] at serials
  dsimp only at version serial
  rw [← version] at unread versions
  rw [← serial] at serials
  unfold getVersionInfo BringsSerial
  rw [if_neg Bool.noConfusion,decide_eq_true_iff,← unread]
  dsimp only
  generalize (readLines 4 input).foldl versionLine {dock with version := [],user := [],name := []} = after
    at unread versions serials ⊢
  constructor
  · intro attested versioned size
    rcases serials with ⟨brought,_⟩ | ⟨_,kept⟩
    · exact .inl brought
    · have source := (attested ⟨List.length_pos_iff.mpr versioned,kept ▸ size⟩).serial
      rw [kept] at source
      exact .inr source
  · intro brings ⟨long,size⟩
    have present := List.length_pos_iff.mp long
    refine ⟨?_,present,?_,size⟩
    · rcases versions with ⟨_,line,member,read⟩ | ⟨_,kept⟩
      · exact ⟨line,inside line member,read⟩
      · exact absurd kept present
    · rcases serials with ⟨_,line,member,read⟩ | ⟨absent,kept⟩
      · exact ⟨line,inside line member,read⟩
      · rcases brings present (kept ▸ size) with ⟨line,member,holds⟩ | chance
        · exact absurd holds (absent line member)
        · rw [kept]
          exact chance

end FlotillaDock

namespace PortSlot

/-- When `get_version_info` returns true in a call, the lines it has read bear it out. -/
def CallAttested (s : PortSlot) : PortCall → Prop
  | .setPort _ attempt =>
    s.dock.state = .disconnected → attempt.copied = true → attempt.opened = true → s.answered attempt = true →
      (s.introduced attempt).Attested (readLines 4 attempt.input)
  | .disconnect => True

/-- A call that gets past the banner reads a serial of its own, if it reads a version. -/
def CallBringsSerial (s : PortSlot) : PortCall → Prop
  | .setPort _ attempt =>
    s.dock.state = .disconnected → attempt.copied = true → attempt.opened = true → attempt.banner = true →
      s.dock.BringsSerial (readLines 4 attempt.input)
  | .disconnect => True

theorem call_attested_iff (s : PortSlot) (call : PortCall) : s.CallAttested call ↔ s.CallBringsSerial call := by
  cases call with
  | disconnect => exact Iff.rfl
  | setPort name attempt =>
    refine imp_congr_right fun _ => imp_congr_right fun _ => imp_congr_right fun _ => ?_
    unfold answered introduced
    cases attempt.banner with
    | false =>
      apply iff_of_true
      · exact fun answered => absurd answered Bool.false_ne_true
      · exact fun banner => absurd banner Bool.false_ne_true
    | true => exact (FlotillaDock.getVersionInfo_attested_iff _ _).trans ⟨fun brings _ => brings,fun brings => brings rfl⟩

end PortSlot

/-- Over every history of a slot, the handshakes that succeed are borne out by their own lines
exactly when each that reads a version also reads a serial, or finds none stored. -/
theorem handshakes_attested_iff (index : Nat) (calls : List PortCall) :
    portCalls.Along PortSlot.CallAttested (.new index) calls ↔
      portCalls.Along PortSlot.CallBringsSerial (.new index) calls := by
  apply portCalls.along_congr fun _ => True
  · exact fun _ _ _ _ => trivial
  · exact fun s call _ => s.call_attested_iff call
  · trivial

section Runs

/-- A dock is opened and introduces itself with these lines. -/
def introduces (lines : List Text) : PortCall :=
  .setPort none ⟨true,true,true,lines.flatMap (lineArrivals · true)⟩

/-- After a first dock comes one whose serial is lost. -/
def lostSerial : List PortCall :=
  [introduces ["# Version: 1.0".toList,"# Serial: 0123456789012345678901".toList,"# User: ada".toList,"# Dock: desk".toList],
    .disconnect,introduces ["# Version: 1.1".toList,"".toList,"# User: bob".toList,"# Dock: lab".toList]]

end Runs

theorem handshakes_attested_fails_lost :
    ¬ ∀ (index : Nat) (calls : List PortCall), portCalls.Along PortSlot.CallAttested (.new index) calls := by
  intro attested
  have taken := (attested 0 lostSerial).2.2.1
  obtain ⟨line,member,suffix⟩ := (taken (by decide +kernel) rfl rfl (by decide +kernel)).serial
  revert suffix
  revert line
  decide +kernel

inductive InformationLine
  | user (value : Text)
  | dock (value : Text)

namespace InformationLine

def text : InformationLine → Text
  | .user value => "# User: ".toList ++ value
  | .dock value => "# Dock: ".toList ++ value

/-- The dock with what the line says, and nothing else changed. -/
def stored (dock : FlotillaDock) : InformationLine → FlotillaDock
  | .user value => {dock with user := value}
  | .dock value => {dock with name := value}

structure ReadAlike (line : InformationLine) (dock : FlotillaDock) : Prop where
  command : dock.processCommand line.text = .ok (line.stored dock)
  handshake : dock.versionLine line.text = line.stored dock

/-- The other keys are not in the text, or have behind them what the dock holds anyway. A key of
a user is looked for first by one reader, and can never be in a name. -/
def Unmistaken (dock : FlotillaDock) : InformationLine → Prop
  | .user value =>
    KeepsMember "Version: ".toList dock.version [value] ∧ KeepsMember "Serial: ".toList dock.serial [value] ∧
      KeepsMember "Dock: ".toList dock.name [value]
  | .dock value =>
    KeepsMember "Version: ".toList dock.version [value] ∧ KeepsMember "Serial: ".toList dock.serial [value] ∧
      ¬ "User: ".toList <:+: value

end InformationLine

theorem member_behind_iff (k : Char) (key before text member : Text) (absent : k ∉ before) :
    readMember (k :: key) (k :: key).length (before ++ text) member = member ↔ KeepsMember (k :: key) member [text] := by
  rw [readMember_behind k key before text member absent]
  exact readMembers_iff (k :: key) member [text]

theorem substr_behind (label value : Text) : substr (label ++ value) label.length = .ok value := by
  rw [substr_ok_iff,List.length_append,List.drop_left]
  exact ⟨Nat.le_add_right _ _,rfl⟩

namespace FlotillaDock

theorem processCommand_hash (dock : FlotillaDock) (rest : Text) :
    dock.processCommand ('#' :: rest) = dock.processInformation ('#' :: rest) :=
  (dock.processCommand_cons '#' rest).trans (if_pos rfl)

theorem processCommand_user (dock : FlotillaDock) (value : Text) :
    dock.processCommand ("# User: ".toList ++ value) = .ok {dock with user := value} := by
  have found : (find "User: ".toList ("# User: ".toList ++ value)).isSome = true :=
    (find_isSome_iff _ _).mpr ⟨"# ".toList,value,rfl⟩
  have cut := substr_behind "# User: ".toList value
  change substr _ 8 = _ at cut
  refine (dock.processCommand_hash _).trans ?_
  change dock.processInformation ("# User: ".toList ++ value) = _
  rw [processInformation,if_pos found,cut]
  rfl

theorem processCommand_dock (dock : FlotillaDock) (value : Text) :
    dock.processCommand ("# Dock: ".toList ++ value) =
      .ok (if (find "User: ".toList value).isSome then {dock with user := value} else {dock with name := value}) := by
  have found : (find "Dock: ".toList ("# Dock: ".toList ++ value)).isSome = true :=
    (find_isSome_iff _ _).mpr ⟨"# ".toList,value,rfl⟩
  have behind : (find "User: ".toList ("# Dock: ".toList ++ value)).isSome = (find "User: ".toList value).isSome := by
    have moved := find_behind 'U' "ser: ".toList "# Dock: ".toList value (by decide)
    change find "User: ".toList _ = _ at moved
    rw [moved,Option.isSome_map]
    rfl
  have cut := substr_behind "# Dock: ".toList value
  change substr _ 8 = _ at cut
  refine (dock.processCommand_hash _).trans ?_
  change dock.processInformation ("# Dock: ".toList ++ value) = _
  rw [processInformation,behind,if_pos found,cut]
  split <;> rfl

theorem versionLine_eq_iff (dock : FlotillaDock) (line user name : Text) (hash : line.head? = some '#') :
    dock.versionLine line = {dock with user := user,name := name} ↔
      readMember "Version: ".toList 9 line dock.version = dock.version ∧
        readMember "Serial: ".toList 8 line dock.serial = dock.serial ∧
        readMember "User: ".toList 6 line dock.user = user ∧ readMember "Dock: ".toList 6 line dock.name = name := by
  rw [versionLine,if_pos hash,FlotillaDock.mk.injEq]
  simp only [true_and,and_true]
  tauto

theorem versionLine_user_iff (dock : FlotillaDock) (value : Text) :
    dock.versionLine ("# User: ".toList ++ value) = {dock with user := value} ↔
      KeepsMember "Version: ".toList dock.version [value] ∧ KeepsMember "Serial: ".toList dock.serial [value] ∧
        KeepsMember "Dock: ".toList dock.name [value] := by
  have own := readMember_own 'U' "ser: ".toList "# ".toList value dock.user (by decide)
  refine (dock.versionLine_eq_iff ("# User: ".toList ++ value) value dock.name rfl).trans ?_
  refine and_congr ?_ (and_congr ?_ ((and_iff_right own).trans ?_))
  · exact member_behind_iff 'V' "ersion: ".toList "# User: ".toList value dock.version (by decide)
  · exact member_behind_iff 'S' "erial: ".toList "# User: ".toList value dock.serial (by decide)
  · exact member_behind_iff 'D' "ock: ".toList "# User: ".toList value dock.name (by decide)

theorem versionLine_dock_iff (dock : FlotillaDock) (value : Text) :
    dock.versionLine ("# Dock: ".toList ++ value) = {dock with name := value} ↔
      KeepsMember "Version: ".toList dock.version [value] ∧ KeepsMember "Serial: ".toList dock.serial [value] ∧
        KeepsMember "User: ".toList dock.user [value] := by
  have own := readMember_own 'D' "ock: ".toList "# ".toList value dock.name (by decide)
  refine (dock.versionLine_eq_iff ("# Dock: ".toList ++ value) dock.user value rfl).trans ?_
  refine and_congr ?_ (and_congr ?_ ((and_iff_left own).trans ?_))
  · exact member_behind_iff 'V' "ersion: ".toList "# Dock: ".toList value dock.version (by decide)
  · exact member_behind_iff 'S' "erial: ".toList "# Dock: ".toList value dock.serial (by decide)
  · exact member_behind_iff 'U' "ser: ".toList "# Dock: ".toList value dock.user (by decide)

end FlotillaDock

theorem keepsMember_self (key value : Text) (present : key ≠ []) (kept : KeepsMember key value [value]) :
    ¬ key <:+: value := by
  intro holds
  obtain ⟨position,found⟩ := Option.isSome_iff_exists.mp ((find_isSome_iff key value).mpr holds)
  have behind := kept value (by simp [found]) position found
  have size := congrArg List.length behind
  have long := List.length_pos_iff.mpr present
  have inside := holds.length_le
  rw [List.length_drop] at size
  omega

theorem keepsMember_absent (key member value : Text) (absent : ¬ key <:+: value) : KeepsMember key member [value] := by
  intro text last position found
  have lacks := (find_none_iff key value).mpr absent
  simp [lacks] at last

/-- Both readers store exactly the text of an information line if and only if it is unmistaken. -/
theorem information_read_alike_iff (dock : FlotillaDock) (line : InformationLine) :
    line.ReadAlike dock ↔ line.Unmistaken dock := by
  cases line with
  | user value =>
    constructor
    · intro alike
      exact (dock.versionLine_user_iff value).mp alike.handshake
    · intro unmistaken
      exact ⟨dock.processCommand_user value,(dock.versionLine_user_iff value).mpr unmistaken⟩
  | dock value =>
    have read := dock.processCommand_dock value
    constructor
    · intro ⟨command,handshake⟩
      obtain ⟨version,serial,user⟩ := (dock.versionLine_dock_iff value).mp handshake
      refine ⟨version,serial,?_⟩
      intro holds
      have same := Except.ok.inj (read.symm.trans command)
      rw [if_pos ((find_isSome_iff _ _).mpr holds)] at same
      have own : value = dock.user := congrArg FlotillaDock.user same
      rw [← own] at user
      exact keepsMember_self _ value (by simp) user holds
    · intro ⟨version,serial,absent⟩
      refine ⟨?_,(dock.versionLine_dock_iff value).mpr ⟨version,serial,keepsMember_absent _ _ value absent⟩⟩
      rw [if_neg (fun holds => absent ((find_isSome_iff _ _).mp holds))] at read
      exact read

theorem information_fails_keyed :
    ¬ ∀ (dock : FlotillaDock) (line : InformationLine), '\r' ∉ line.text → '\n' ∉ line.text → line.ReadAlike dock := by
  intro alike
  have read := (alike (.new 0) (.dock "User: x".toList) (by decide) (by decide)).command
  have user := congrArg (Except.map FlotillaDock.user) read
  exact absurd user (by decide +kernel)

def isHexDigit (c : Char) : Bool := c.isDigit || 'a' ≤ c && c ≤ 'f' || 'A' ≤ c && c ≤ 'F'

/-- A dock as it is told to the clients. Its user and its name can hold the separator. -/
structure Tellable (dock : FlotillaDock) : Prop where
  version : ',' ∉ dock.version
  serial : ∀ c ∈ dock.serial, isHexDigit c = true
  size : dock.serial.length = 22
  single : ∀ text ∈ [dock.user,dock.name], '\r' ∉ text ∧ '\n' ∉ text
  index : dock.index < maxDocks

theorem tellable_serial (dock : FlotillaDock) (tellable : Tellable dock) : ',' ∉ dock.serial := by
  intro member
  exact absurd (tellable.serial ',' member) (by decide)

theorem decimal_plain (n : Nat) : ',' ∉ decimal n := by
  intro member
  exact absurd (Nat.isDigit_of_mem_toDigits (by omega) (by omega) member) (by decide)

theorem decimal_injective (first second : Nat) (same : decimal first = decimal second) : first = second := by
  have read := congrArg (Nat.ofDigitChars 10 · 0) same
  dsimp only [decimal] at read
  rwa [Nat.ofDigitChars_ten_toDigits,Nat.ofDigitChars_ten_toDigits] at read

/-- Two docks are told alike exactly when they differ at most in where the user ends and the
name begins. -/
theorem ident_eq_iff (first second : FlotillaDock) (one : Tellable first) (two : Tellable second) :
    first.ident = second.ident ↔
      first.version = second.version ∧ first.serial = second.serial ∧ first.index = second.index ∧
        first.user ++ ',' :: first.name = second.user ++ ',' :: second.name := by
  have joined (dock : FlotillaDock) : dock.ident = "# Dock: ".toList ++ (dock.version ++ ',' :: (dock.serial ++ ',' ::
      ((dock.user ++ ',' :: dock.name) ++ ',' :: decimal dock.index))) := by
    have comma : ",".toList = [','] := rfl
    unfold FlotillaDock.ident
    generalize "# Dock: ".toList = label
    generalize decimal dock.index = digits
    simp only [comma,List.append_assoc,List.cons_append,List.nil_append]
  rw [joined,joined,List.append_cancel_left_eq]
  constructor
  · intro same
    obtain ⟨version,same⟩ := Framing.first_unique ',' _ _ _ _ one.version two.version same
    obtain ⟨serial,same⟩ := Framing.first_unique ',' _ _ _ _ (tellable_serial first one) (tellable_serial second two) same
    obtain ⟨named,index⟩ := Framing.last_unique ',' _ _ _ _ (decimal_plain _) (decimal_plain _) same
    exact ⟨version,serial,decimal_injective _ _ index,named⟩
  · intro ⟨version,serial,index,named⟩
    rw [version,serial,index,named]

section Runs

def toldDock (user name : Text) : FlotillaDock :=
  {FlotillaDock.new 0 with version := "1.0".toList,serial := List.replicate 22 '0',user := user,name := name}

theorem toldDock_tellable (user name : Text) (single : ∀ text ∈ [user,name], '\r' ∉ text ∧ '\n' ∉ text) :
    Tellable (toldDock user name) := by
  refine ⟨?_,?_,rfl,single,?_⟩
  · exact show ',' ∉ "1.0".toList by decide
  · intro c member
    rw [List.eq_of_mem_replicate member]
    rfl
  · exact show 0 < maxDocks by decide

/-- The comma that ends the user of one is part of the user of the other. -/
def longUser : FlotillaDock := toldDock "a,b".toList "c".toList

def longName : FlotillaDock := toldDock "a".toList "b,c".toList

theorem longUser_tellable : Tellable longUser := toldDock_tellable _ _ (by decide)

theorem longName_tellable : Tellable longName := toldDock_tellable _ _ (by decide)

end Runs

theorem ident_eq_shifted :
    longUser.ident = longName.ident ↔
      longUser.version = longName.version ∧ longUser.serial = longName.serial ∧ longUser.index = longName.index ∧
        longUser.user ++ ',' :: longUser.name = longName.user ++ ',' :: longName.name :=
  ident_eq_iff longUser longName longUser_tellable longName_tellable

theorem ident_not_injective :
    ¬ ∀ first second : FlotillaDock, Tellable first → Tellable second →
      (first.version,first.serial,first.user,first.name,first.index) ≠
        (second.version,second.serial,second.user,second.name,second.index) → first.ident ≠ second.ident := by
  intro injective
  refine injective longUser longName longUser_tellable longName_tellable ?_ ?_
  · intro same
    have users := congrArg (fun fields => fields.2.2.1) same
    exact absurd users (by decide)
  · decide +kernel

end FlotillaDaemon
