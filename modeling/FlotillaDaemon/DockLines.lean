import FlotillaDaemon.Dock

/-! Which lines from a dock are processed without a fault. The line decides together
with the stored name of the channel it addresses; nothing checks its length, its number
or a lower bound of the channel first. -/
namespace FlotillaDaemon
open Cpp Retained

/-- The text begins with a number in the range of `int`, written in `size` characters. -/
def IntNumeral (text : Text) (number : Int) (size : Nat) : Prop :=
  Numeral text number size ∧ intMin ≤ number ∧ number ≤ intMax

/-- The same from the third character of a line. -/
def LineNumber (command : Text) (number : Int) (size : Nat) : Prop :=
  2 ≤ command.length ∧ IntNumeral (command.drop 2) number size

theorem channelNumber_ok_iff (text : Text) (channel : Int) (size : Nat) :
    channelNumber text = .ok (channel,size) ↔ IntNumeral text (channel + 1) size ∧ intMin ≤ channel := by
  have split : channelNumber text =
      stoi text >>= fun found => int32 (found.1 - 1) >>= fun channel => .ok (channel,found.2) := rfl
  rw [split,bind_ok_iff]
  constructor
  · intro ⟨⟨number,length⟩,parsed,rest⟩
    obtain ⟨stepped,ranged,same⟩ := (bind_ok_iff _ _ _).mp rest
    obtain ⟨rfl,rfl⟩ := Prod.mk.inj (Except.ok.inj same)
    obtain ⟨rfl,low,_⟩ := (int32_ok_iff _ _).mp ranged
    rw [Int.sub_add_cancel]
    exact ⟨(stoi_ok_iff _ _ _).mp parsed,low⟩
  · intro ⟨read,low⟩
    have high := read.2.2
    refine ⟨(channel + 1,size),(stoi_ok_iff _ _ _).mpr read,(bind_ok_iff _ _ _).mpr ⟨channel,?_,rfl⟩⟩
    rw [int32_ok_iff]
    omega

theorem channelNumber_defined_iff (text : Text) :
    Defined (channelNumber text) ↔ ∀ number size, IntNumeral text number size → intMin < number := by
  have split : channelNumber text =
      stoi text >>= fun found => int32 (found.1 - 1) >>= fun channel => .ok (channel,found.2) := rfl
  rw [split,defined_bind_iff]
  constructor
  · intro ⟨_,ranged⟩ number size read
    have stepped := ((defined_bind_iff _ _).mp (ranged (number,size) ((stoi_ok_iff _ _ _).mpr read))).1
    have low := ((int32_defined_iff _).mp stepped).1
    dsimp only at low
    omega
  · intro above
    refine ⟨stoi_defined text,?_⟩
    intro ⟨number,size⟩ parsed
    have read := (stoi_ok_iff _ _ _).mp parsed
    have low := above number size read
    have high := read.2.2
    refine (defined_bind_iff _ _).mpr ⟨(int32_defined_iff _).mpr ?_,fun _ _ => defined_ok _⟩
    dsimp only
    omega

section Numbered
variable {β : Type} (command : Text) (next : Text → Int × Nat → Outcome β)

/-- The parse that begins both a line of a dock and an update from a client. -/
theorem numbered_eq (number : Int) (size : Nat) (read : LineNumber command number size)
    (low : intMin < number) :
    (substr command 2 >>= fun digits => channelNumber digits >>= next digits) =
      next (command.drop 2) (number - 1,size) := by
  have cut : substr command 2 = .ok (command.drop 2) := (substr_ok_iff _ _ _).mpr ⟨read.1,rfl⟩
  have found : channelNumber (command.drop 2) = .ok (number - 1,size) := by
    rw [channelNumber_ok_iff,Int.sub_add_cancel]
    exact ⟨read.2,by omega⟩
  rw [cut]
  change (channelNumber (command.drop 2) >>= _) = _
  rw [found]
  rfl

theorem numbered_returns_iff :
    Returns (substr command 2 >>= fun digits => channelNumber digits >>= next digits) ↔
      ∃ number size, LineNumber command number size ∧ intMin < number ∧
        Returns (next (command.drop 2) (number - 1,size)) := by
  constructor
  · intro returned
    obtain ⟨digits,cut,rest⟩ := (returns_bind_iff _ _).mp returned
    obtain ⟨⟨channel,size⟩,found,rest⟩ := (returns_bind_iff _ _).mp rest
    obtain ⟨long,rfl⟩ := (substr_ok_iff _ _ _).mp cut
    obtain ⟨read,low⟩ := (channelNumber_ok_iff _ _ _).mp found
    refine ⟨channel + 1,size,⟨long,read⟩,by omega,?_⟩
    rw [Int.add_sub_cancel]
    exact rest
  · intro ⟨number,size,read,low,rest⟩
    rw [numbered_eq command next number size read low]
    exact rest

theorem numbered_defined_iff :
    Defined (substr command 2 >>= fun digits => channelNumber digits >>= next digits) ↔
      ∀ number size, LineNumber command number size →
        intMin < number ∧ Defined (next (command.drop 2) (number - 1,size)) := by
  constructor
  · intro exceptions number size read
    have digits := ((defined_bind_iff _ _).mp exceptions).2 _ ((substr_ok_iff _ _ _).mpr ⟨read.1,rfl⟩)
    have parsed := ((defined_bind_iff _ _).mp digits).1
    have low := (channelNumber_defined_iff _).mp parsed number size read.2
    rw [numbered_eq command next number size read low] at exceptions
    exact ⟨low,exceptions⟩
  · intro rest
    refine (defined_bind_iff _ _).mpr ⟨substr_defined command 2,?_⟩
    intro digits cut
    obtain ⟨long,rfl⟩ := (substr_ok_iff _ _ _).mp cut
    refine (defined_bind_iff _ _).mpr ⟨?_,?_⟩
    · exact (channelNumber_defined_iff _).mpr fun number size read => (rest number size ⟨long,read⟩).1
    · intro ⟨channel,size⟩ found
      obtain ⟨read,_⟩ := (channelNumber_ok_iff _ _ _).mp found
      have follows := (rest (channel + 1) size ⟨long,read⟩).2
      rw [Int.add_sub_cancel] at follows
      exact follows

end Numbered

namespace FlotillaDock

theorem processUpdate_eq (dock : FlotillaDock) (command : Text) :
    dock.processUpdate command =
      substr command 2 >>= fun digits => channelNumber digits >>= fun found =>
        if found.1 < maxChannels then
          arrayIndex maxChannels found.1 >>= fun c =>
            substr command (found.2 + 4 + (dock.module c).name.length) >>= fun data =>
              .ok (dock.setModule c ((dock.module c).queueCommand data))
        else .ok dock := by
  rw [processUpdate,lineChannel,bind_assoc]
  rfl

theorem processChange_eq (change : Text → FlotillaModule → FlotillaModule) (dock : FlotillaDock)
    (command : Text) :
    dock.processChange change command =
      substr command 2 >>= fun digits => channelNumber digits >>= fun found =>
        if found.1 < maxChannels then
          substr command (found.2 + 3) >>= fun name =>
            arrayIndex maxChannels found.1 >>= fun c =>
              .ok ((dock.setModule c (change name (dock.module c))).queueModuleEvent c)
        else .ok dock := by
  rw [processChange,lineChannel,bind_assoc]
  rfl

/-- The line `u` ends in a fault of the number, of the channel, or of a line that is too
short for the stored name; otherwise it returns. -/
structure UpdateReadable (dock : FlotillaDock) (command : Text) (number : Int) (size : Nat) : Prop where
  read : LineNumber command number size
  low : intMin < number
  channel : number ≤ maxChannels → ∃ c : Fin maxChannels, (c.val : Int) = number - 1 ∧
    size + 4 + (dock.module c).name.length ≤ command.length

structure ChangeReadable (command : Text) (number : Int) (size : Nat) : Prop where
  read : LineNumber command number size
  low : intMin < number
  channel : number ≤ maxChannels → 1 ≤ number ∧ size + 3 ≤ command.length

def InformationReadable (command : Text) : Prop :=
  2 ≤ command.length ∧ ("User: ".toList <:+: command ∨ "Dock: ".toList <:+: command → 8 ≤ command.length)

structure Processable (dock : FlotillaDock) (command : Text) : Prop where
  present : command ≠ []
  information : command.head? = some '#' → InformationReadable command
  update : command.head? = some 'u' → ∃ number size, UpdateReadable dock command number size
  change : command.head? = some 'd' ∨ command.head? = some 'c' →
    ∃ number size, ChangeReadable command number size

theorem processUpdate_ok_iff (dock : FlotillaDock) (command : Text) :
    Returns (dock.processUpdate command) ↔ ∃ number size, UpdateReadable dock command number size := by
  rw [processUpdate_eq,numbered_returns_iff]
  constructor
  · intro ⟨number,size,read,low,rest⟩
    refine ⟨number,size,read,low,?_⟩
    intro inside
    rw [if_pos (by omega)] at rest
    obtain ⟨c,indexed,rest⟩ := (returns_bind_iff _ _).mp rest
    obtain ⟨data,cut,_⟩ := (returns_bind_iff _ _).mp rest
    exact ⟨c,(arrayIndex_ok_iff _ _ _).mp indexed,((substr_ok_iff _ _ _).mp cut).1⟩
  · intro ⟨number,size,read,low,channel⟩
    refine ⟨number,size,read,low,?_⟩
    split
    next inside =>
      obtain ⟨c,same,long⟩ := channel (by omega)
      refine (returns_bind_iff _ _).mpr ⟨c,(arrayIndex_ok_iff _ _ _).mpr same,?_⟩
      exact (returns_bind_iff _ _).mpr ⟨_,(substr_ok_iff _ _ _).mpr ⟨long,rfl⟩,returns_ok _⟩
    next outside => exact returns_ok dock

theorem processChange_ok_iff (change : Text → FlotillaModule → FlotillaModule) (dock : FlotillaDock)
    (command : Text) :
    Returns (dock.processChange change command) ↔ ∃ number size, ChangeReadable command number size := by
  rw [processChange_eq,numbered_returns_iff]
  constructor
  · intro ⟨number,size,read,low,rest⟩
    refine ⟨number,size,read,low,?_⟩
    intro inside
    rw [if_pos (by omega)] at rest
    obtain ⟨name,cut,rest⟩ := (returns_bind_iff _ _).mp rest
    obtain ⟨c,indexed,_⟩ := (returns_bind_iff _ _).mp rest
    have same := (arrayIndex_ok_iff _ _ _).mp indexed
    dsimp only at same
    exact ⟨by omega,((substr_ok_iff _ _ _).mp cut).1⟩
  · intro ⟨number,size,read,low,channel⟩
    refine ⟨number,size,read,low,?_⟩
    split
    next inside =>
      obtain ⟨first,long⟩ := channel (by omega)
      refine (returns_bind_iff _ _).mpr ⟨_,(substr_ok_iff _ _ _).mpr ⟨long,rfl⟩,?_⟩
      obtain ⟨c,indexed⟩ := (arrayIndex_returns_iff maxChannels (number - 1)).mpr ⟨by omega,inside⟩
      exact (returns_bind_iff _ _).mpr ⟨c,indexed,returns_ok _⟩
    next outside => exact returns_ok dock

theorem processInformation_ok_iff (dock : FlotillaDock) (command : Text) :
    Returns (dock.processInformation command) ↔ InformationReadable command := by
  have parsed (position : Nat) (next : Text → FlotillaDock) :
      Returns (substr command position >>= fun text => .ok (next text)) ↔ position ≤ command.length := by
    simp [returns_bind_iff,substr_ok_iff]
  unfold processInformation InformationReadable
  simp only [← find_isSome_iff]
  split
  next user =>
    refine (parsed 8 _).trans ?_
    simp only [user,true_or,forall_const]
    omega
  next noUser =>
    split
    next name =>
      refine (parsed 8 _).trans ?_
      simp only [name,or_true,forall_const]
      omega
    next noName =>
      refine (parsed 2 _).trans ?_
      simp only [noUser,noName,or_self,Bool.false_eq_true,false_implies,and_true]

theorem processCommand_cons (dock : FlotillaDock) (first : Char) (rest : Text) :
    dock.processCommand (first :: rest) =
      if first = '#' then dock.processInformation (first :: rest)
      else if first = 'u' then dock.processUpdate (first :: rest)
      else if first = 'd' then dock.processChange (fun _ m => m.disconnect) (first :: rest)
      else if first = 'c' then dock.processChange (fun name m => m.connect name) (first :: rest)
      else .ok dock := rfl

theorem processCommand_ok_iff (dock : FlotillaDock) (command : Text) :
    Returns (dock.processCommand command) ↔ Processable dock command := by
  cases command with
  | nil =>
    constructor
    · intro ⟨next,returned⟩
      contradiction
    · exact fun readable => absurd rfl readable.present
  | cons first rest =>
    have fields : Processable dock (first :: rest) ↔
        (first = '#' → InformationReadable (first :: rest)) ∧
        (first = 'u' → ∃ number size, UpdateReadable dock (first :: rest) number size) ∧
        (first = 'd' ∨ first = 'c' → ∃ number size, ChangeReadable (first :: rest) number size) := by
      constructor
      · intro ⟨_,information,update,change⟩
        simp only [List.head?_cons,Option.some.injEq] at information update change
        exact ⟨information,update,change⟩
      · intro ⟨information,update,change⟩
        refine ⟨by simp,?_,?_,?_⟩ <;> simpa only [List.head?_cons,Option.some.injEq]
    rw [processCommand_cons,fields]
    by_cases hash : first = '#'
    · subst hash
      simpa using dock.processInformation_ok_iff _
    · by_cases u : first = 'u'
      · subst u
        simpa using dock.processUpdate_ok_iff _
      · by_cases d : first = 'd'
        · subst d
          simpa using dock.processChange_ok_iff _ _
        · by_cases c : first = 'c'
          · subst c
            simpa using dock.processChange_ok_iff _ _
          · simp [hash,u,d,c]

/-- Every fault of the line is an exception: no access leaves the module table and the
subtraction does not overflow. -/
def InBounds (dock : FlotillaDock) (command : Text) : Prop :=
  ∀ fault, dock.processCommand command = .error fault → fault.isException = true

/-- The lines whose channel is checked well enough. A line `d` or `c` that is too short
throws before its channel is used. -/
structure Addressable (command : Text) : Prop where
  update : command.head? = some 'u' → ∀ number size, LineNumber command number size → 1 ≤ number
  change : command.head? = some 'd' ∨ command.head? = some 'c' → ∀ number size,
    LineNumber command number size → intMin < number ∧ (size + 3 ≤ command.length → 1 ≤ number)

theorem processUpdate_inBounds_iff (dock : FlotillaDock) (command : Text) :
    Defined (dock.processUpdate command) ↔ ∀ number size, LineNumber command number size → 1 ≤ number := by
  rw [processUpdate_eq,numbered_defined_iff]
  refine forall_congr' fun number => forall_congr' fun size => imp_congr_right fun _ => ?_
  dsimp only
  by_cases inside : number - 1 < maxChannels
  · rw [if_pos inside,defined_bind_iff,arrayIndex_defined_iff]
    constructor
    · intro ⟨_,⟨first,_⟩,_⟩
      omega
    · intro first
      refine ⟨by simp only [intMin]; omega,⟨by omega,inside⟩,?_⟩
      intro c _
      exact (defined_bind_iff _ _).mpr ⟨substr_defined _ _,fun _ _ => defined_ok _⟩
  · rw [if_neg inside]
    simp only [defined_ok,and_true,intMin]
    omega

theorem processChange_inBounds_iff (change : Text → FlotillaModule → FlotillaModule) (dock : FlotillaDock)
    (command : Text) :
    Defined (dock.processChange change command) ↔
      ∀ number size, LineNumber command number size →
        intMin < number ∧ (size + 3 ≤ command.length → 1 ≤ number) := by
  rw [processChange_eq,numbered_defined_iff]
  refine forall_congr' fun number => forall_congr' fun size => imp_congr_right fun _ => ?_
  apply and_congr_right
  intro _
  dsimp only
  by_cases inside : number - 1 < maxChannels
  · rw [if_pos inside,defined_bind_iff]
    constructor
    · intro defined long
      obtain ⟨_,rest⟩ := defined
      have indexed := ((defined_bind_iff _ _).mp (rest _ ((substr_ok_iff _ _ _).mpr ⟨long,rfl⟩))).1
      have first := ((arrayIndex_defined_iff _ _).mp indexed).1
      omega
    · intro checked
      refine ⟨substr_defined _ _,?_⟩
      intro name cut
      have first := checked ((substr_ok_iff _ _ _).mp cut).1
      have indexed := (arrayIndex_defined_iff maxChannels (number - 1)).mpr ⟨by omega,inside⟩
      exact (defined_bind_iff _ _).mpr ⟨indexed,fun _ _ => defined_ok _⟩
  · rw [if_neg inside]
    simp only [defined_ok,true_iff]
    omega

theorem processInformation_defined (dock : FlotillaDock) (command : Text) :
    Defined (dock.processInformation command) := by
  unfold processInformation
  split
  · exact (defined_bind_iff _ _).mpr ⟨substr_defined command 8,fun _ _ => defined_ok _⟩
  · split
    · exact (defined_bind_iff _ _).mpr ⟨substr_defined command 8,fun _ _ => defined_ok _⟩
    · exact (defined_bind_iff _ _).mpr ⟨substr_defined command 2,fun _ _ => defined_ok _⟩

/-- The module table is accessed inside its bounds, without overflow, exactly for the
lines whose number is at least one or whose line throws first. -/
theorem inBounds_iff (dock : FlotillaDock) (command : Text) : InBounds dock command ↔ Addressable command := by
  cases command with
  | nil =>
    constructor
    · exact fun _ => ⟨by simp,by simp⟩
    · intro _ fault failed
      rw [← Except.error.inj failed]
      rfl
  | cons first rest =>
    have fields : Addressable (first :: rest) ↔
        (first = 'u' → ∀ number size, LineNumber (first :: rest) number size → 1 ≤ number) ∧
        (first = 'd' ∨ first = 'c' → ∀ number size, LineNumber (first :: rest) number size →
          intMin < number ∧ (size + 3 ≤ (first :: rest).length → 1 ≤ number)) := by
      constructor
      · intro ⟨update,change⟩
        simp only [List.head?_cons,Option.some.injEq] at update change
        exact ⟨update,change⟩
      · intro ⟨update,change⟩
        refine ⟨?_,?_⟩ <;> simpa only [List.head?_cons,Option.some.injEq]
    change Defined (dock.processCommand (first :: rest)) ↔ _
    rw [processCommand_cons,fields]
    by_cases hash : first = '#'
    · subst hash
      simpa using dock.processInformation_defined _
    · by_cases u : first = 'u'
      · subst u
        simpa using dock.processUpdate_inBounds_iff _
      · by_cases d : first = 'd'
        · subst d
          simpa using dock.processChange_inBounds_iff (fun _ m => m.disconnect) ('d' :: rest)
        · by_cases c : first = 'c'
          · subst c
            simpa using dock.processChange_inBounds_iff (fun name m => m.connect name) ('c' :: rest)
          · simp [hash,u,d,c]

theorem inBounds_fails_zero :
    ¬ ∀ (dock : FlotillaDock) (command : Text), InBounds dock command := by
  intro bounded
  exact absurd (bounded (.new 0) "u 0/dial 412".toList (.badIndex maxChannels (-1)) rfl) (by decide)

def arrivedLines (input : List Arrival) : List Text :=
  if _waiting : spInputWaiting input = true then (spReadline input).1 :: arrivedLines (spReadline input).2
  else []
termination_by input.length
decreasing_by exact spReadline_shortens input _waiting

def AllProcessable : FlotillaDock → List Text → Prop
  | _,[] => True
  | dock,line :: rest =>
    Processable dock line ∧ ∀ next, dock.processCommand line = .ok next → AllProcessable next rest

theorem readInput_ok_iff (dock : FlotillaDock) (input : List Arrival) :
    Returns (dock.readInput input) ↔ AllProcessable dock (arrivedLines input) := by
  induction dock, input using readInput.induct with
  | case1 dock input waiting next processed ih =>
    rw [readInput,dif_pos waiting,processed,arrivedLines,dif_pos waiting]
    simp only [AllProcessable,processed,Except.ok.injEq,forall_eq',ih,← processCommand_ok_iff]
    simp
  | case2 dock input waiting fault failed =>
    rw [readInput,dif_pos waiting,failed,arrivedLines,dif_pos waiting]
    simp only [AllProcessable,← processCommand_ok_iff,failed]
    simp
  | case3 dock input idle =>
    rw [readInput,dif_neg idle,arrivedLines,dif_neg idle]
    simp [AllProcessable]

/-- A tick returns normally exactly when each line it reads is processable. -/
theorem tick_ok_iff (dock : FlotillaDock) (port : SerialPort) :
    (∃ after, dock.tick port = .ok after) ↔
      (dock.state = .connected → AllProcessable (dock.writeQueues port).1 (arrivedLines port.input)) := by
  unfold tick
  by_cases connected : dock.state = .connected
  · have lines := readInput_ok_iff (dock.writeQueues port).1 port.input
    rw [if_neg (not_not.mpr connected)]
    dsimp only
    rw [writeQueues_input]
    simp only [connected,forall_const,← lines]
    cases (dock.writeQueues port).1.readInput port.input <;> simp
  · simp [connected]

theorem tick_fails_blank :
    ¬ ∀ (dock : FlotillaDock) (port : SerialPort), ∃ after, dock.tick port = .ok after := by
  intro returns
  obtain ⟨after,returned⟩ := returns {FlotillaDock.new 0 with state := .connected} ⟨[],[.byte '\n']⟩
  have failed : (FlotillaDock.tick {FlotillaDock.new 0 with state := .connected} ⟨[],[.byte '\n']⟩).isOk =
      false := by decide +kernel
  rw [returned] at failed
  contradiction

end FlotillaDock

end FlotillaDaemon
