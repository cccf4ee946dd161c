import FlotillaDaemon.UpdatePass
import FlotillaDaemon.Server

/-! The values among the texts that a client is sent, and the last one that it has received. No
other text that the daemon sends reads as a value. -/
namespace FlotillaDaemon
open Cpp Retained

def valueHead (d : Fin maxDocks) (c : Fin maxChannels) : Text :=
  "Dock:".toList ++ decimal d.val ++ " Data:u ".toList ++ decimal c.val ++ "/".toList

/-- The value in a message about a module, if it is one. -/
def readValue (d : Fin maxDocks) (c : Fin maxChannels) (name text : Text) : Option Text :=
  text.dropPrefix? (valueHead d c ++ name ++ " ".toList)

section Reading
variable (d : Fin maxDocks) (c : Fin maxChannels) (name : Text)

theorem readValue_some_iff (text value : Text) :
    readValue d c name text = some value ↔ text = valueHead d c ++ name ++ " ".toList ++ value := by
  rw [readValue,List.dropPrefix?_eq_some_iff]
  constructor
  · rintro ⟨start,rfl,same⟩
    rw [beq_iff_eq.mp same]
  · rintro rfl
    exact ⟨_,rfl,beq_self_eq_true _⟩

theorem readValue_own (data : Text) : readValue d c name ((Message.value c name data).text d.val) = some data := by
  rw [readValue_some_iff]
  unfold Message.text valueHead
  simp only [List.append_assoc]

theorem digits_apart (e : Fin maxDocks) (x : Fin maxChannels) (same : valueHead e x = valueHead d c) : e = d ∧ x = c := by
  have digits : ∀ i j : Fin 8, digitOf i = digitOf j → i = j := by decide
  unfold valueHead at same
  rw [(decimal_channel e).1,(decimal_channel d).1,(decimal_channel x).1,(decimal_channel c).1] at same
  simp only [List.append_assoc,List.append_cancel_left_eq,List.cons_append,
    List.cons.injEq] at same
  exact ⟨digits e d same.1,digits x c same.2.1⟩

theorem readValue_head (head rest : Text) (long : head.length = (valueHead d c).length) (other : head ≠ valueHead d c) :
    readValue d c name (head ++ rest) = none := by
  apply Option.eq_none_iff_forall_ne_some.mpr
  intro value read
  have same := (readValue_some_iff d c name _ _).mp read
  simp only [List.append_assoc] at same
  exact other (List.append_inj_left same long)

theorem valueHead_length : (valueHead d c).length = 16 := by
  unfold valueHead
  rw [(decimal_channel d).1,(decimal_channel c).1]
  simp only [List.length_append]
  rfl

theorem readValue_other (e : Fin maxDocks) (x : Fin maxChannels) (other data : Text) (apart : ¬ (e = d ∧ x = c)) :
    readValue d c name ((Message.value x other data).text e.val) = none := by
  have split : (Message.value x other data).text e.val = valueHead e x ++ (other ++ " ".toList ++ data) := by
    unfold Message.text valueHead
    simp only [List.append_assoc]
  rw [split]
  refine readValue_head d c name _ _ ?_ fun same => apart (digits_apart d c e x same)
  rw [valueHead_length,valueHead_length]

theorem readValue_event (e : Fin maxDocks) (event : ModuleEvent) : readValue d c name (event.text e.val) = none := by
  let mark : Char := if event.connected then 'c' else 'd'
  have marked : (if event.connected then "c".toList else "d".toList) = [mark] := by
    simp only [mark]
    cases event.connected <;> rfl
  have other : mark ≠ 'u' := by
    simp only [mark]
    cases event.connected <;> decide
  have letter : " Data:u ".toList = " Data:".toList ++ ['u',' '] := by decide
  have split : event.text e.val =
      ("Dock:".toList ++ [digitOf e] ++ " Data:".toList ++ [mark] ++ " ".toList ++ [digitOf event.channel] ++
        "/".toList) ++ event.name := by
    unfold ModuleEvent.text
    rw [marked,(decimal_channel e).1,(decimal_channel event.channel).1]
  rw [split]
  apply readValue_head
  · rw [valueHead_length]
    simp only [List.length_append]
    rfl
  · intro same
    unfold valueHead at same
    rw [(decimal_channel d).1,(decimal_channel c).1,letter] at same
    simp only [List.append_assoc,List.append_cancel_left_eq,List.cons_append,
      List.cons.injEq] at same
    exact other same.2.1

theorem readValue_plain (text : Text) (plain : text.head? ≠ some 'D') : readValue d c name text = none := by
  apply Option.eq_none_iff_forall_ne_some.mpr
  intro value read
  rw [(readValue_some_iff d c name _ _).mp read] at plain
  exact plain rfl

end Reading

section Receiving
variable {H : Type} [DecidableEq H]

def Transmission.textTo (a : H) : Transmission H → Option Text
  | .text hdl message => if hdl = a then some message else none
  | _ => none

variable (network : Network H) (a : H)

/-- The texts that a client receives: those sent to it with success. -/
def received : Nat → List (Transmission H) → List Text
  | _,[] => []
  | earlier,transmission :: rest =>
    (if network.accepts earlier transmission then transmission.textTo a else none).toList ++ received (earlier + 1) rest

/-- No text to the client is lost. -/
def reached : Nat → List (Transmission H) → Bool
  | _,[] => true
  | earlier,transmission :: rest =>
    ((transmission.textTo a).isNone || network.accepts earlier transmission) && reached (earlier + 1) rest

theorem received_append (earlier : Nat) (first second : List (Transmission H)) :
    received network a earlier (first ++ second) =
      received network a earlier first ++ received network a (earlier + first.length) second := by
  induction first generalizing earlier with
  | nil => rfl
  | cons transmission rest ih =>
    rw [List.cons_append,received,received,ih,List.length_cons,List.append_assoc,Nat.add_right_comm,Nat.add_assoc]

theorem received_mem (earlier : Nat) (transmissions : List (Transmission H)) (text : Text)
    (got : text ∈ received network a earlier transmissions) : .text a text ∈ transmissions := by
  induction transmissions generalizing earlier with
  | nil => contradiction
  | cons transmission rest ih =>
    rcases List.mem_append.mp got with here | later
    · have read := Option.mem_toList.mp here
      split at read
      · cases transmission with
        | text hdl message =>
          rw [Transmission.textTo] at read
          split at read
          next own =>
            rw [own,Option.mem_some.mp read]
            exact List.mem_cons_self
          · contradiction
        | binary hdl message => contradiction
        | close hdl => contradiction
      · contradiction
    · exact List.mem_cons_of_mem _ (ih _ later)

theorem mem_received (earlier : Nat) (transmissions : List (Transmission H))
    (kept : reached network a earlier transmissions = true) (text : Text) (sent : .text a text ∈ transmissions) :
    text ∈ received network a earlier transmissions := by
  induction transmissions generalizing earlier with
  | nil => contradiction
  | cons transmission rest ih =>
    rw [reached,Bool.and_eq_true] at kept
    rw [received]
    rcases List.mem_cons.mp sent with rfl | later
    · have accepted : network.accepts earlier (.text a text) = true := by simpa [Transmission.textTo] using kept.1
      simp [accepted,Transmission.textTo]
    · exact List.mem_append.mpr (.inr (ih _ kept.2 later))

/-- The last value of a module that a client has received. -/
def heldValue (d : Fin maxDocks) (c : Fin maxChannels) (name : Text) (transmissions : List (Transmission H)) :
    Option Text :=
  ((received network a 0 transmissions).filterMap (readValue d c name)).getLast?

theorem heldValue_append (d : Fin maxDocks) (c : Fin maxChannels) (name : Text) (first second : List (Transmission H)) :
    heldValue network a d c name (first ++ second) =
      ((received network a first.length second).filterMap (readValue d c name)).getLast?.or
        (heldValue network a d c name first) := by
  rw [heldValue,received_append,Nat.zero_add,List.filterMap_append,List.getLast?_append,heldValue]

/-- Texts that are no values of the module leave the value as it is. -/
theorem heldValue_kept (d : Fin maxDocks) (c : Fin maxChannels) (name : Text) (first second : List (Transmission H))
    (others : ∀ text, .text a text ∈ second → readValue d c name text = none) :
    heldValue network a d c name (first ++ second) = heldValue network a d c name first := by
  have none : (received network a first.length second).filterMap (readValue d c name) = [] :=
    List.filterMap_eq_nil_iff.mpr fun text got => others text (received_mem network a _ _ text got)
  rw [heldValue_append,none,List.getLast?_nil,Option.none_or]

/-- When a value is sent and no other, it is the one held after. -/
theorem heldValue_sent (d : Fin maxDocks) (c : Fin maxChannels) (name value text : Text)
    (first second : List (Transmission H)) (kept : reached network a first.length second = true)
    (sent : .text a text ∈ second) (read : readValue d c name text = some value)
    (only : ∀ text, .text a text ∈ second → ∀ other ∈ readValue d c name text, other = value) :
    heldValue network a d c name (first ++ second) = some value := by
  have present : value ∈ (received network a first.length second).filterMap (readValue d c name) :=
    List.mem_filterMap.mpr ⟨text,mem_received network a _ _ kept text sent,read⟩
  have last := List.getLast?_eq_some_getLast (List.ne_nil_of_mem present)
  have same : ((received network a first.length second).filterMap (readValue d c name)).getLast
      (List.ne_nil_of_mem present) = value := by
    obtain ⟨text,got,read⟩ := List.mem_filterMap.mp (List.getLast_mem (List.ne_nil_of_mem present))
    exact only text (received_mem network a _ _ text got) _ read
  rw [heldValue_append,last,same]
  rfl

end Receiving

end FlotillaDaemon
