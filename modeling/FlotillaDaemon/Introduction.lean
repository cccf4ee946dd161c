import FlotillaDaemon.Handshake
import Mathlib.Data.List.Induction

/-! What the handshake reads back of the texts a dock sends. Every line is searched for every
key, wherever it stands, so a text that holds a key can replace what an earlier line gave. -/
namespace FlotillaDaemon
open Cpp

def lineArrivals (line : Text) (returned : Bool) : List Arrival :=
  (line ++ (if returned then ['\r','\n'] else ['\n'])).map .byte

/-- The last of these texts that holds the key, if one does, has the value behind it. -/
def KeepsMember (key value : Text) (texts : List Text) : Prop :=
  ∀ text ∈ (texts.filter fun text => (find key text).isSome).getLast?, ∀ position ∈ find key text,
    text.drop (position + key.length) = value

structure Identity where
  version : Text
  serial : Text
  user : Text
  name : Text

namespace Identity

def labelled (i : Identity) : List (Text × Text) :=
  [("# Version: ".toList,i.version),("# Serial: ".toList,i.serial),("# User: ".toList,i.user),("# Dock: ".toList,i.name)]

def lines (i : Identity) : List Text := i.labelled.map fun line => line.1 ++ line.2

/-- The lines of a dock, each with its own ending, and whatever comes after them. -/
def arrivals (i : Identity) (returned : Nat → Bool) (rest : List Arrival) : List Arrival :=
  (i.lines.zipIdx.flatMap fun line => lineArrivals line.1 (returned line.2)) ++ rest

/-- The texts that a dock stores: none spans lines, it has a version, and its serial has its length. -/
structure Stored (i : Identity) : Prop where
  single : ∀ text ∈ [i.version,i.serial,i.user,i.name], '\r' ∉ text ∧ '\n' ∉ text
  version : i.version ≠ []
  serial : i.serial.length = 22

structure ReadBack (i : Identity) (result : FlotillaDock × Bool) : Prop where
  returned : result.2 = true
  version : result.1.version = i.version
  serial : result.1.serial = i.serial
  user : result.1.user = i.user
  name : result.1.name = i.name

end Identity

theorem spReadline_line (line : Text) (returned : Bool) (rest : List Arrival) (single : '\r' ∉ line ∧ '\n' ∉ line) :
    spReadline (lineArrivals line returned ++ rest) = (line,rest) := by
  obtain ⟨noReturn,noEnd⟩ := single
  induction line with
  | nil => cases returned <;> rfl
  | cons c text ih =>
    rw [List.mem_cons,not_or] at noReturn noEnd
    have tail := ih noReturn.2 noEnd.2
    unfold lineArrivals at tail ⊢
    rw [List.cons_append,List.map_cons,List.cons_append,spReadline,if_neg (Ne.symm noEnd.1)]
    dsimp only
    rw [tail,if_neg (Ne.symm noReturn.1)]

theorem readLines_ended (lines : List (Text × Bool)) (rest : List Arrival)
    (single : ∀ line ∈ lines, '\r' ∉ line.1 ∧ '\n' ∉ line.1) :
    readLines lines.length ((lines.flatMap fun line => lineArrivals line.1 line.2) ++ rest) = lines.map Prod.fst := by
  induction lines with
  | nil => rfl
  | cons line later ih =>
    rw [List.length_cons,List.flatMap_cons,List.append_assoc,readLines,
      spReadline_line _ _ _ (single line List.mem_cons_self)]
    exact congrArg _ (ih fun other member => single other (List.mem_cons_of_mem _ member))

theorem find_behind (k : Char) (key before text : Text) (absent : k ∉ before) :
    find (k :: key) (before ++ text) = (find (k :: key) text).map (· + before.length) := by
  induction before with
  | nil => simp
  | cons c rest ih =>
    rw [List.mem_cons,not_or] at absent
    have here : (k :: key).isPrefixOf (c :: (rest ++ text)) = false := by
      rw [List.isPrefixOf,beq_eq_false_iff_ne.mpr absent.1,Bool.false_and]
    rw [List.cons_append,find,here,if_neg Bool.false_ne_true,ih absent.2,Option.map_map]
    rfl

theorem find_here (key text : Text) : find key (key ++ text) = some 0 := by
  rw [find_some_iff]
  exact ⟨List.prefix_append key text,Nat.zero_le _,fun earlier less => absurd less (Nat.not_lt_zero _)⟩

theorem readMember_behind (k : Char) (key before text member : Text) (absent : k ∉ before) :
    readMember (k :: key) (k :: key).length (before ++ text) member = readMember (k :: key) (k :: key).length text member := by
  unfold readMember
  rw [find_behind k key before text absent]
  cases find (k :: key) text with
  | none => rfl
  | some position =>
    rw [Option.map_some]
    dsimp only
    rw [Nat.add_right_comm,Nat.add_comm,List.drop_length_add_append]

theorem readMember_own (k : Char) (key before text member : Text) (absent : k ∉ before) :
    readMember (k :: key) (k :: key).length (before ++ (k :: key ++ text)) member = text := by
  rw [readMember_behind k key before _ member absent,readMember,find_here]
  dsimp only
  rw [Nat.zero_add,List.drop_left]

/-- A member read from several texts is the value exactly when the last text with the key has it. -/
theorem readMembers_iff (key value : Text) (texts : List Text) :
    texts.foldl (fun member text => readMember key key.length text member) value = value ↔ KeepsMember key value texts := by
  induction texts using List.reverseRecOn with
  | nil => exact iff_of_true rfl fun _ none => nomatch none
  | append_singleton earlier text ih =>
    rw [List.foldl_append,List.foldl_cons,List.foldl_nil,readMember]
    unfold KeepsMember
    rw [List.filter_append]
    cases found : find key text with
    | none =>
      rw [List.filter_cons_of_neg (by simp [found]),List.filter_nil,List.append_nil]
      exact ih
    | some position => simp [found]

namespace Identity

theorem lines_single (i : Identity) (stored : i.Stored) : ∀ line ∈ i.lines, '\r' ∉ line ∧ '\n' ∉ line := by
  have labels : ∀ line ∈ i.labelled, ('\r' ∉ line.1 ∧ '\n' ∉ line.1) ∧ line.2 ∈ [i.version,i.serial,i.user,i.name] := by
    simp only [labelled,List.forall_mem_cons]
    refine ⟨⟨by decide,by simp⟩,⟨by decide,by simp⟩,⟨by decide,by simp⟩,⟨by decide,by simp⟩,by simp⟩
  intro line member
  obtain ⟨pair,inside,rfl⟩ := List.mem_map.mp member
  obtain ⟨plain,own⟩ := labels pair inside
  obtain ⟨noReturn,noEnd⟩ := stored.single pair.2 own
  simp [plain.1,plain.2,noReturn,noEnd]

theorem readLines_arrivals (i : Identity) (stored : i.Stored) (returned : Nat → Bool) (rest : List Arrival) :
    readLines 4 (i.arrivals returned rest) = i.lines := by
  have read := readLines_ended (i.lines.zipIdx.map fun line => (line.1,returned line.2)) rest (by
    intro line member
    obtain ⟨pair,inside,rfl⟩ := List.mem_map.mp member
    exact i.lines_single stored _ (List.fst_mem_of_mem_zipIdx inside))
  rw [List.length_map,List.length_zipIdx,List.flatMap_map,List.map_map] at read
  exact read.trans (List.zipIdx_map_fst 0 i.lines)

end Identity

def readLine (key : Text) (count : Nat) (member : Text) (line : Text × Text) : Text :=
  readMember key count (line.1 ++ line.2) member

/-- A member after the line of its own: only a text that holds its key can replace it. -/
theorem member_kept_iff (k : Char) (key label before value member : Text) (count : Nat) (later : List (Text × Text))
    (head : key.head? = some k) (length : count = key.length) (own : label = before ++ key) (first : k ∉ before)
    (absent : ∀ line ∈ later, k ∉ line.1) :
    ((label,value) :: later).foldl (readLine key count) member = value ↔
      KeepsMember key value (later.map Prod.snd) := by
  obtain ⟨tail,rfl⟩ := List.head?_eq_some_iff.mp head
  subst length own
  have follows (member : Text) : later.foldl (readLine (k :: tail) (k :: tail).length) member =
      (later.map Prod.snd).foldl (fun member text => readMember (k :: tail) (k :: tail).length text member) member := by
    induction later generalizing member with
    | nil => rfl
    | cons line rest ih =>
      rw [List.foldl_cons,List.map_cons,List.foldl_cons,readLine,
        readMember_behind k tail line.1 _ _ (absent line List.mem_cons_self)]
      exact ih (fun other member => absent other (List.mem_cons_of_mem _ member)) _
  rw [List.foldl_cons,readLine,List.append_assoc,readMember_own k tail before value member first,follows]
  exact readMembers_iff _ _ _

/-- The lines that a handshake looks into. -/
def marked (lines : List Text) : List Text := lines.filter fun line => line.head? = some '#'

namespace FlotillaDock

theorem versionLine_marked (dock : FlotillaDock) (lines : List Text) :
    let after := lines.foldl versionLine dock
    after.version = (marked lines).foldl (fun member line => readMember "Version: ".toList 9 line member) dock.version ∧
      after.serial = (marked lines).foldl (fun member line => readMember "Serial: ".toList 8 line member) dock.serial ∧
      after.user = (marked lines).foldl (fun member line => readMember "User: ".toList 6 line member) dock.user ∧
      after.name = (marked lines).foldl (fun member line => readMember "Dock: ".toList 6 line member) dock.name := by
  induction lines generalizing dock with
  | nil => exact ⟨rfl,rfl,rfl,rfl⟩
  | cons line rest ih =>
    rw [List.foldl_cons,versionLine]
    by_cases hash : line.head? = some '#'
    · have first : marked (line :: rest) = line :: marked rest := by simp [marked,hash]
      rw [if_pos hash,first]
      exact ih _
    · have passed : marked (line :: rest) = marked rest := by simp [marked,hash]
      rw [if_neg hash,passed]
      exact ih dock

theorem versionLines_members (dock : FlotillaDock) (lines : List (Text × Text))
    (labels : ∀ line ∈ lines, ∃ label, line.1 = '#' :: label) :
    let after := (lines.map fun line => line.1 ++ line.2).foldl versionLine dock
    after.version = lines.foldl (readLine "Version: ".toList 9) dock.version ∧
      after.serial = lines.foldl (readLine "Serial: ".toList 8) dock.serial ∧
      after.user = lines.foldl (readLine "User: ".toList 6) dock.user ∧
      after.name = lines.foldl (readLine "Dock: ".toList 6) dock.name := by
  have all : marked (lines.map fun line => line.1 ++ line.2) = lines.map fun line => line.1 ++ line.2 := by
    apply List.filter_eq_self.mpr
    intro text member
    obtain ⟨line,inside,rfl⟩ := List.mem_map.mp member
    obtain ⟨label,own⟩ := labels line inside
    rw [own]
    rfl
  have read := dock.versionLine_marked (lines.map fun line => line.1 ++ line.2)
  rw [all] at read
  simp only [List.foldl_map] at read ⊢
  exact read

end FlotillaDock

/-- The handshake reads back what a dock stores exactly when, for each member that other lines
follow, the last later text that holds its key has its value behind it. -/
theorem handshake_reads_back_iff (dock : FlotillaDock) (i : Identity) (stored : i.Stored) (returned : Nat → Bool)
    (rest : List Arrival) : i.ReadBack (dock.getVersionInfo true (i.arrivals returned rest)) ↔
      KeepsMember "Version: ".toList i.version [i.serial,i.user,i.name] ∧
        KeepsMember "Serial: ".toList i.serial [i.user,i.name] ∧ KeepsMember "User: ".toList i.user [i.name] := by
  have members := FlotillaDock.versionLines_members {dock with version := [],user := [],name := []} i.labelled (by
    intro line member
    simp only [Identity.labelled,List.mem_cons,List.not_mem_nil,or_false] at member
    rcases member with rfl | rfl | rfl | rfl <;> exact ⟨_,rfl⟩)
  have read : i.labelled.map (fun line => line.1 ++ line.2) = readLines 4 (i.arrivals returned rest) :=
    (i.readLines_arrivals stored returned rest).symm
  rw [read] at members
  have version (member : Text) := member_kept_iff 'V' "Version: ".toList "# Version: ".toList "# ".toList i.version member 9
    [("# Serial: ".toList,i.serial),("# User: ".toList,i.user),("# Dock: ".toList,i.name)] rfl (by decide) (by decide)
    (by decide) (by
      simp only [List.forall_mem_cons]
      decide)
  have serial (member : Text) := member_kept_iff 'S' "Serial: ".toList "# Serial: ".toList "# ".toList i.serial member 8
    [("# User: ".toList,i.user),("# Dock: ".toList,i.name)] rfl (by decide) (by decide) (by decide) (by
      simp only [List.forall_mem_cons]
      decide)
  have user (member : Text) := member_kept_iff 'U' "User: ".toList "# User: ".toList "# ".toList i.user member 6
    [("# Dock: ".toList,i.name)] rfl (by decide) (by decide) (by decide) (by
      simp only [List.forall_mem_cons]
      decide)
  have name (member : Text) := (member_kept_iff 'D' "Dock: ".toList "# Dock: ".toList "# ".toList i.name member 6
    [] rfl (by decide) (by decide) (by decide) (by simp)).mpr fun _ none => nomatch none
  obtain ⟨versionIs,serialIs,userIs,nameIs⟩ := members
  unfold FlotillaDock.getVersionInfo
  rw [if_neg Bool.noConfusion]
  dsimp only
  generalize (readLines 4 (i.arrivals returned rest)).foldl FlotillaDock.versionLine
    {dock with version := [],user := [],name := []} = after at versionIs serialIs userIs nameIs ⊢
  rw [Identity.labelled,List.foldl_cons] at serialIs userIs nameIs
  rw [List.foldl_cons] at userIs nameIs
  rw [List.foldl_cons] at nameIs
  constructor
  · intro ⟨_,versionRead,serialRead,userRead,_⟩
    exact ⟨(version _).mp (versionIs.symm.trans versionRead),(serial _).mp (serialIs.symm.trans serialRead),(user _).mp (userIs.symm.trans userRead)⟩
  · intro ⟨versionKept,serialKept,userKept⟩
    have versionRead := versionIs.trans ((version _).mpr versionKept)
    have serialRead := serialIs.trans ((serial _).mpr serialKept)
    refine ⟨?_,versionRead,serialRead,userIs.trans ((user _).mpr userKept),nameIs.trans (name _)⟩
    rw [versionRead,serialRead,decide_eq_true_iff]
    exact ⟨List.length_pos_iff.mpr stored.version,stored.serial⟩

section Runs

def plainDock : Identity := ⟨"1.0".toList,"0123456789012345678901".toList,"ada".toList,"desk".toList⟩

/-- The user text of this dock begins like a line with a version. -/
def keyedDock : Identity := {plainDock with user := "Version: x".toList}

theorem plainDock_stored : plainDock.Stored := ⟨by decide,by decide,by decide⟩

theorem keyedDock_stored : keyedDock.Stored := ⟨by decide,by decide,by decide⟩

end Runs

theorem handshake_reads_back_plain :
    plainDock.ReadBack ((FlotillaDock.new 0).getVersionInfo true (plainDock.arrivals (fun _ => true) [])) ↔
      KeepsMember "Version: ".toList plainDock.version [plainDock.serial,plainDock.user,plainDock.name] ∧
        KeepsMember "Serial: ".toList plainDock.serial [plainDock.user,plainDock.name] ∧
        KeepsMember "User: ".toList plainDock.user [plainDock.name] :=
  handshake_reads_back_iff _ plainDock plainDock_stored _ _

theorem handshake_fails_keyed :
    ¬ ∀ (dock : FlotillaDock) (i : Identity) (returned : Nat → Bool) (rest : List Arrival), i.Stored →
      i.ReadBack (dock.getVersionInfo true (i.arrivals returned rest)) := by
  intro reads
  have version := (reads (.new 0) keyedDock (fun _ => true) [] keyedDock_stored).version
  exact absurd version (by decide +kernel)

end FlotillaDaemon
