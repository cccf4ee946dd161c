import FlotillaDaemon.PortSlots

/-! The scans of the serial ports. `update_connected_docks` first disconnects the docks whose port
is no longer listed, then offers each listed port to `scan_for_host`, which gives it the first free
slot. `strcmp` reads both names, so it is undefined on a port without one; `none` stands for that. -/
namespace FlotillaDaemon
open Cpp Retained

def vid : Int := 0x16D0

def pid : Int := 0x08C3

/-- An entry of the list. `ids` is what `sp_get_port_usb_vid_pid` stores when it succeeds. The first
pass does not look at its result: when it fails, `leftover` is what the two variables hold. -/
structure ListedPort where
  name : Option Text
  description : Option Text
  ids : Option (Int × Int)
  leftover : Fin maxDocks → Int × Int
  attempt : Attempt

abbrev SlotTable := Fin maxDocks → PortSlot

/-- `strcmp(a, b) == 0`. -/
def sameName : Option Text → Option Text → Option Bool
  | some a,some b => some (decide (a = b))
  | _,_ => none

namespace PortSlot

/-- `sp_get_port_name(port)`, which is `NULL` for a `NULL` port. -/
def portName (s : PortSlot) : Option Text := s.port.bind PortCopy.name

def found (s : PortSlot) (x : Fin maxDocks) : List ListedPort → Option Bool
  | [] => some false
  | port :: rest => do
    let (usbVid,usbPid) := port.ids.getD (port.leftover x)
    let here ← if port.name.isSome ∧ usbVid = vid ∧ usbPid = pid then sameName s.portName port.name else some false
    let later ← found s x rest
    return here || later

def recheck (s : PortSlot) (x : Fin maxDocks) (ports : List ListedPort) : Option PortSlot :=
  if s.port = none ∨ s.dock.state = .disconnected then some s
  else do
    let found ← s.found x ports
    return if found then s else s.disconnect

end PortSlot

namespace SlotTable

def new : SlotTable := fun x => .new x.val

def set (table : SlotTable) (x : Fin maxDocks) (slot : PortSlot) : SlotTable := Function.update table x slot

def occupied (table : SlotTable) (name : Option Text) : List (Fin maxDocks) → Option Bool
  | [] => some false
  | x :: rest =>
    if (table x).dock.state ≠ .disconnected then do
      let same ← sameName name (table x).portName
      if same then return true else occupied table name rest
    else occupied table name rest

def freeSlot (table : SlotTable) : Option (Fin maxDocks) :=
  (List.finRange maxDocks).find? fun x => decide ((table x).dock.state = .disconnected)

/-- The table after a port, and what `set_port` returned if it was called. A dock that has been
connected is sent the command to enumerate, which changes nothing in the table. -/
def scanForHost (table : SlotTable) (port : ListedPort) : Option (SlotTable × Option Bool) :=
  if port.name = none ∨ port.description = none then some (table,none)
  else if port.ids ≠ some (vid,pid) then some (table,none)
  else do
    if ← table.occupied port.name (List.finRange maxDocks) then return (table,none)
    match table.freeSlot with
    | none => return (table,none)
    | some x =>
      let (slot,ok) := (table x).setPort port.name port.attempt
      return (table.set x slot,some ok)

def recheckDocks (table : SlotTable) (ports : List ListedPort) : Option SlotTable :=
  (List.finRange maxDocks).foldlM (fun table x => ((table x).recheck x ports).map (table.set x)) table

def scanPorts (table : SlotTable) (ports : List ListedPort) : Option SlotTable :=
  ports.foldlM (fun table port => (table.scanForHost port).map Prod.fst) table

/-- `none` when `sp_list_ports` fails. -/
def updateConnectedDocks (table : SlotTable) (listed : Option (List ListedPort)) : Option SlotTable :=
  match listed with
  | none => some table
  | some ports => do
    let table ← table.recheckDocks ports
    table.scanPorts ports

end SlotTable

namespace PortSlot

def Holds (s : PortSlot) (name : Text) : Prop := s.dock.state = .connected ∧ s.portName = some name

theorem holds_unique (s : PortSlot) (name other : Text) (first : s.Holds name) (second : s.Holds other) : name = other :=
  Option.some.inj (first.2.symm.trans second.2)

def Listed (x : Fin maxDocks) (ports : List ListedPort) (name : Text) : Prop :=
  ∃ port ∈ ports, port.name = some name ∧ port.ids.getD (port.leftover x) = (vid,pid)

theorem found_listed (s : PortSlot) (x : Fin maxDocks) (name : Text) (named : s.portName = some name)
    (ports : List ListedPort) : ∃ found, s.found x ports = some found ∧ (found = true ↔ Listed x ports name) := by
  induction ports with
  | nil => exact ⟨false,rfl,by simp [Listed]⟩
  | cons port rest ih =>
    obtain ⟨later,read,meaning⟩ := ih
    have split : Listed x (port :: rest) name ↔
        (port.name = some name ∧ port.ids.getD (port.leftover x) = (vid,pid)) ∨ Listed x rest name := by
      simp [Listed]
    rw [split,← meaning]
    unfold found
    rcases same : port.ids.getD (port.leftover x) with ⟨usbVid,usbPid⟩
    cases other : port.name with
    | none =>
      refine ⟨later,?_,by simp⟩
      simp [read]
    | some b =>
      rw [named,read]
      by_cases ids : usbVid = vid ∧ usbPid = pid
      · refine ⟨decide (name = b) || later,by simp [ids,sameName],?_⟩
        rw [Bool.or_eq_true,decide_eq_true_iff,Option.some.injEq,Prod.mk.injEq,and_iff_left ids]
        exact or_congr_left eq_comm
      · refine ⟨later,by simp [ids],?_⟩
        simp [ids]

theorem recheck_effect (s : PortSlot) (x : Fin maxDocks) (ports : List ListedPort)
    (settled : s.dock.state = .disconnected ∨ ∃ name, s.Holds name) :
    ∃ next, s.recheck x ports = some next ∧
      (next.dock.state = .disconnected ∨ next = s ∧ ∃ name, s.Holds name ∧ Listed x ports name) ∧
      ∀ name, s.Holds name → Listed x ports name → next = s := by
  rcases settled with off | ⟨name,connected,named⟩
  · refine ⟨s,if_pos (.inr off),.inl off,fun _ _ _ => rfl⟩
  · have present : ¬ (s.port = none ∨ s.dock.state = .disconnected) := by
      rintro (absent | off)
      · rw [portName,absent] at named
        contradiction
      · exact s.connected_up connected off
    obtain ⟨found,read,meaning⟩ := s.found_listed x name named ports
    rw [recheck,if_neg present,read]
    cases found with
    | true =>
      refine ⟨s,rfl,.inr ⟨rfl,name,⟨connected,named⟩,meaning.mp rfl⟩,fun _ _ _ => rfl⟩
    | false =>
      refine ⟨s.disconnect,rfl,.inl ?_,?_⟩
      · rw [s.disconnect_dock]
        exact s.dock.disconnect_effect.1
      · intro other holds listed
        rw [s.holds_unique other name holds ⟨connected,named⟩] at listed
        exact absurd (meaning.mpr listed) Bool.false_ne_true

theorem setPort_holds (s : PortSlot) (name : Text) (attempt : Attempt) (off : s.dock.state = .disconnected) :
    if (s.setPort (some name) attempt).2 then (s.setPort (some name) attempt).1.Holds name
    else (s.setPort (some name) attempt).1.dock.state = .disconnected := by
  cases copied : attempt.copied with
  | false =>
    rw [s.setPort_uncopied _ attempt off copied]
    exact off
  | true =>
    cases opened : attempt.opened with
    | false =>
      rw [s.setPort_unopened _ attempt off copied opened]
      exact off
    | true =>
      rw [s.setPort_opened _ attempt off copied opened]
      cases s.answered attempt with
      | false => rfl
      | true => exact ⟨rfl,rfl⟩

end PortSlot

namespace SlotTable
open PortSlot

/-- Every dock is disconnected or connected to a named port, no two of them to one name. -/
structure Proper (table : SlotTable) : Prop where
  settled : ∀ x, (table x).dock.state = .disconnected ∨ ∃ name, (table x).Holds name
  distinct : ∀ x y name, (table x).Holds name → (table y).Holds name → x = y

theorem set_same (table : SlotTable) (x : Fin maxDocks) (slot : PortSlot) : table.set x slot x = slot :=
  Function.update_self ..

theorem set_other (table : SlotTable) (x y : Fin maxDocks) (slot : PortSlot) (apart : y ≠ x) :
    table.set x slot y = table y := Function.update_of_ne apart ..

theorem pass_slots (pass : Fin maxDocks → PortSlot → Option PortSlot) (slots : List (Fin maxDocks)) (distinct : slots.Nodup)
    (table : SlotTable) (defined : ∀ x ∈ slots, ∃ slot, pass x (table x) = some slot) :
    ∃ next, slots.foldlM (fun table x => (pass x (table x)).map (table.set x)) table = some next ∧
      (∀ x ∈ slots, pass x (table x) = some (next x)) ∧ ∀ x ∉ slots, next x = table x := by
  induction slots generalizing table with
  | nil => exact ⟨table,rfl,by simp,fun _ _ => rfl⟩
  | cons x rest ih =>
    obtain ⟨fresh,distinct⟩ := List.nodup_cons.mp distinct
    obtain ⟨slot,made⟩ := defined x List.mem_cons_self
    have apart (y : Fin maxDocks) (member : y ∈ rest) : table.set x slot y = table y :=
      table.set_other x y slot fun same => fresh (same ▸ member)
    obtain ⟨next,passed,inside,outside⟩ := ih distinct (table.set x slot) fun y member => by
      rw [apart y member]
      exact defined y (List.mem_cons_of_mem _ member)
    refine ⟨next,?_,?_,?_⟩
    · rw [List.foldlM_cons,made]
      exact passed
    · intro y member
      rcases List.mem_cons.mp member with rfl | later
      · rw [made,outside y fresh,table.set_same]
      · rw [← inside y later,apart y later]
    · intro y absent
      rw [List.mem_cons,not_or] at absent
      exact (outside y absent.2).trans (table.set_other x y slot absent.1)

theorem recheckDocks_slots (table : SlotTable) (ports : List ListedPort) (proper : table.Proper) :
    ∃ next, table.recheckDocks ports = some next ∧ ∀ x, (table x).recheck x ports = some (next x) := by
  obtain ⟨next,passed,inside,_⟩ := pass_slots (fun x slot => slot.recheck x ports) (List.finRange maxDocks)
    (List.nodup_finRange _) table fun x _ => by
      obtain ⟨slot,checked,_⟩ := (table x).recheck_effect x ports (proper.settled x)
      exact ⟨slot,checked⟩
  exact ⟨next,passed,fun x => inside x (List.mem_finRange x)⟩

def Attached (table : SlotTable) (ports : List ListedPort) : Prop :=
  ∀ x name, (table x).Holds name → ∃ port ∈ ports, port.name = some name

theorem recheckDocks_effect (table : SlotTable) (ports : List ListedPort) (proper : table.Proper) :
    ∃ next, table.recheckDocks ports = some next ∧ next.Proper ∧ next.Attached ports ∧
      ∀ x name, (table x).Holds name → Listed x ports name → next x = table x := by
  obtain ⟨next,passed,slots⟩ := table.recheckDocks_slots ports proper
  have effect (x : Fin maxDocks) : (next x).dock.state = .disconnected ∨
      next x = table x ∧ ∃ name, (table x).Holds name ∧ Listed x ports name := by
    obtain ⟨slot,checked,outcome,_⟩ := (table x).recheck_effect x ports (proper.settled x)
    rw [slots x] at checked
    rw [Option.some.inj checked]
    exact outcome
  have held (x : Fin maxDocks) (name : Text) (holds : (next x).Holds name) :
      (table x).Holds name ∧ Listed x ports name := by
    rcases effect x with off | ⟨same,other,holdsOther,listed⟩
    · rw [holds.1] at off
      contradiction
    · rw [same] at holds
      exact ⟨holds,(table x).holds_unique name other holds holdsOther ▸ listed⟩
  refine ⟨next,passed,⟨?_,?_⟩,?_,?_⟩
  · intro x
    rcases effect x with off | ⟨same,name,holds,_⟩
    · exact .inl off
    · exact .inr ⟨name,same ▸ holds⟩
  · exact fun x y name first second => proper.distinct x y name (held x name first).1 (held y name second).1
  · intro x name holds
    obtain ⟨port,member,named,_⟩ := (held x name holds).2
    exact ⟨port,member,named⟩
  · intro x name holds listed
    obtain ⟨slot,checked,_,kept⟩ := (table x).recheck_effect x ports (proper.settled x)
    rw [slots x] at checked
    exact (Option.some.inj checked).trans (kept name holds listed)

def Matches (port : ListedPort) (name : Text) : Prop :=
  port.name = some name ∧ port.description ≠ none ∧ port.ids = some (vid,pid)

/-- What `scan_for_host` can do with a port. -/
inductive Examined (table : SlotTable) (port : ListedPort) : SlotTable → Option Bool → Prop
  | other (mismatch : ∀ name, ¬ Matches port name) : Examined table port table none
  | held (x : Fin maxDocks) (name : Text) (named : port.name = some name) (holds : (table x).Holds name) :
      Examined table port table none
  | full (taken : ∀ x, (table x).dock.state ≠ .disconnected) : Examined table port table none
  | tried (x : Fin maxDocks) (name : Text) (named : port.name = some name) (free : (table x).dock.state = .disconnected)
      (first : ∀ y < x, (table y).dock.state ≠ .disconnected) (unheld : ∀ y, ¬ (table y).Holds name) :
      Examined table port (table.set x ((table x).setPort (some name) port.attempt).1)
        (some ((table x).setPort (some name) port.attempt).2)

theorem occupied_held (table : SlotTable) (name : Text) (proper : table.Proper) (slots : List (Fin maxDocks)) :
    ∃ taken, table.occupied (some name) slots = some taken ∧ (taken = true ↔ ∃ x ∈ slots, (table x).Holds name) := by
  induction slots with
  | nil => exact ⟨false,rfl,by simp⟩
  | cons x rest ih =>
    obtain ⟨taken,read,meaning⟩ := ih
    rcases proper.settled x with off | ⟨other,connected,named⟩
    · refine ⟨taken,?_,?_⟩
      · rw [occupied,if_neg (not_not.mpr off)]
        exact read
      · simp [meaning,Holds,off]
    · rw [occupied,if_pos ((table x).connected_up connected),named,sameName]
      by_cases same : name = other
      · exact ⟨true,by simp [same],by simp [same,Holds,connected,named]⟩
      · refine ⟨taken,by simpa [same] using read,?_⟩
        simp [meaning,Holds,named,Ne.symm same]

theorem freeSlot_first (table : SlotTable) (x : Fin maxDocks) (free : table.freeSlot = some x) :
    (table x).dock.state = .disconnected ∧ ∀ y < x, (table y).dock.state ≠ .disconnected := by
  obtain ⟨here,i,bound,same,before⟩ := List.find?_eq_some_iff_getElem.mp free
  refine ⟨of_decide_eq_true here,fun y earlier off => ?_⟩
  rw [List.getElem_finRange] at same
  have index : i = x.val := by simpa using congrArg Fin.val same
  have taken := before y.val (by rw [index]; exact earlier)
  rw [List.getElem_finRange] at taken
  simp [off] at taken

theorem scanForHost_examined (table : SlotTable) (port : ListedPort) (proper : table.Proper) :
    ∃ next result, table.scanForHost port = some (next,result) ∧ table.Examined port next result := by
  unfold scanForHost
  cases named : port.name with
  | none =>
    refine ⟨table,none,by simp,.other fun name matching => ?_⟩
    rw [matching.1] at named
    contradiction
  | some name =>
    by_cases described : port.description = none
    · exact ⟨table,none,by simp [described],.other fun name matching => matching.2.1 described⟩
    by_cases ids : port.ids = some (vid,pid)
    swap
    · exact ⟨table,none,by simp [described,ids],.other fun name matching => ids matching.2.2⟩
    obtain ⟨taken,read,meaning⟩ := table.occupied_held name proper (List.finRange maxDocks)
    simp only [described,ids,read,reduceCtorEq,or_self,if_false,ne_eq,not_true_eq_false,Option.bind_eq_bind,Option.bind_some]
    cases taken with
    | true =>
      obtain ⟨x,_,holds⟩ := meaning.mp rfl
      exact ⟨table,none,rfl,.held x name named holds⟩
    | false =>
      have unheld (y : Fin maxDocks) (holds : (table y).Holds name) : False :=
        Bool.false_ne_true (meaning.mpr ⟨y,List.mem_finRange y,holds⟩)
      cases free : table.freeSlot with
      | none =>
        refine ⟨table,none,rfl,.full fun x => ?_⟩
        have taken := List.find?_eq_none.mp free x (List.mem_finRange x)
        exact fun off => taken (decide_eq_true off)
      | some x =>
        obtain ⟨off,first⟩ := table.freeSlot_first x free
        exact ⟨_,_,rfl,.tried x name named off first unheld⟩

theorem set_proper (table : SlotTable) (x : Fin maxDocks) (slot : PortSlot) (proper : table.Proper)
    (outcome : slot.dock.state = .disconnected ∨ ∃ name, slot.Holds name ∧ ∀ y, ¬ (table y).Holds name) :
    (table.set x slot).Proper := by
  have mine (y : Fin maxDocks) (name : Text) (own : slot.Holds name) (other : (table y).Holds name) : False := by
    rcases outcome with off | ⟨named,holds,unheld⟩
    · rw [own.1] at off
      contradiction
    · exact unheld y (slot.holds_unique named name holds own ▸ other)
  constructor
  · intro y
    by_cases own : y = x
    · rw [own,table.set_same]
      rcases outcome with off | ⟨name,holds,_⟩
      · exact .inl off
      · exact .inr ⟨name,holds⟩
    · rw [table.set_other x y slot own]
      exact proper.settled y
  · intro y z name first second
    by_cases own : y = x
    · by_cases other : z = x
      · rw [own,other]
      · rw [own,table.set_same] at first
        rw [table.set_other x z slot other] at second
        exact (mine z name first second).elim
    · rw [table.set_other x y slot own] at first
      by_cases other : z = x
      · rw [other,table.set_same] at second
        exact (mine y name second first).elim
      · rw [table.set_other x z slot other] at second
        exact proper.distinct y z name first second

theorem examined_effect (table next : SlotTable) (port : ListedPort) (result : Option Bool)
    (examined : table.Examined port next result) (proper : table.Proper) :
    next.Proper ∧ (∀ x, (table x).dock.state ≠ .disconnected → next x = table x) ∧
      ∀ x name, (next x).Holds name → (table x).Holds name ∨ port.name = some name := by
  cases examined with
  | other _ => exact ⟨proper,fun _ _ => rfl,fun _ _ holds => .inl holds⟩
  | held _ _ _ _ => exact ⟨proper,fun _ _ => rfl,fun _ _ holds => .inl holds⟩
  | full _ => exact ⟨proper,fun _ _ => rfl,fun _ _ holds => .inl holds⟩
  | tried x name named free first unheld =>
    have outcome := (table x).setPort_holds name port.attempt free
    generalize (table x).setPort (some name) port.attempt = returned at outcome
    obtain ⟨slot,ok⟩ := returned
    have filled : slot.dock.state = .disconnected ∨ slot.Holds name := by
      cases ok with
      | true => exact .inr outcome
      | false => exact .inl outcome
    refine ⟨table.set_proper x slot proper (filled.imp_right fun holds => ⟨name,holds,unheld⟩),?_,?_⟩
    · intro y taken
      exact table.set_other x y slot fun own => taken (own ▸ free)
    · intro y other holds
      by_cases own : y = x
      · rw [own,table.set_same] at holds
        rcases filled with off | mine
        · rw [holds.1] at off
          contradiction
        · right
          rw [named]
          exact mine.2.symm.trans holds.2
      · rw [table.set_other x y slot own] at holds
        exact .inl holds

theorem scanPorts_effect (table : SlotTable) (ports : List ListedPort) (proper : table.Proper) :
    ∃ next, table.scanPorts ports = some next ∧ next.Proper ∧
      (∀ x, (table x).dock.state ≠ .disconnected → next x = table x) ∧
      ∀ x name, (next x).Holds name → (table x).Holds name ∨ ∃ port ∈ ports, port.name = some name := by
  induction ports generalizing table with
  | nil => exact ⟨table,rfl,proper,fun _ _ => rfl,fun _ _ holds => .inl holds⟩
  | cons port rest ih =>
    obtain ⟨mid,result,scanned,examined⟩ := table.scanForHost_examined port proper
    obtain ⟨properMid,keptMid,heldMid⟩ := table.examined_effect mid port result examined proper
    obtain ⟨next,passed,properNext,kept,held⟩ := ih mid properMid
    refine ⟨next,?_,properNext,?_,?_⟩
    · rw [scanPorts,List.foldlM_cons,scanned]
      exact passed
    · intro x taken
      have same := keptMid x taken
      exact (kept x (by rw [same]; exact taken)).trans same
    · intro x name holds
      rcases held x name holds with earlier | ⟨other,member,named⟩
      · rcases heldMid x name earlier with before | named
        · exact .inl before
        · exact .inr ⟨port,List.mem_cons_self,named⟩
      · exact .inr ⟨other,List.mem_cons_of_mem _ member,named⟩

theorem scanPorts_append (table : SlotTable) (earlier later : List ListedPort) :
    table.scanPorts (earlier ++ later) = (table.scanPorts earlier).bind fun mid => mid.scanPorts later :=
  List.foldlM_append

/-- `set_port` was called on the first free slot, and this call fails. -/
def TriedInVain (table : SlotTable) (port : ListedPort) : Prop :=
  ∃ x, (table x).dock.state = .disconnected ∧ (∀ y < x, (table y).dock.state ≠ .disconnected) ∧
    ((table x).setPort port.name port.attempt).2 = false ∧
    table.scanForHost port = some (table.set x ((table x).setPort port.name port.attempt).1,some false)

/-- What a scan that finds these ports makes of the table. -/
structure Right (before : SlotTable) (ports : List ListedPort) (after : SlotTable) : Prop where
  connected : ∀ x, (after x).dock.state ≠ .disconnected → (after x).dock.state = .connected ∧
    ∃ name, (after x).portName = some name ∧ ∃ port ∈ ports, port.name = some name
  distinct : ∀ x y, (after x).dock.state ≠ .disconnected → (after y).dock.state ≠ .disconnected →
    (after x).portName = (after y).portName → x = y
  served : ∀ earlier port later name, ports = earlier ++ port :: later → Matches port name →
    (∃! x, (after x).Holds name) ∨
      ∃ examined, (before.recheckDocks ports).bind (fun table => table.scanPorts earlier) = some examined ∧
        (examined.TriedInVain port ∨ ∀ x, (examined x).dock.state ≠ .disconnected)
  untouched : ∀ x, (before x).dock.state = .connected →
    (∃ port ∈ ports, port.name = (before x).portName ∧ port.ids = some (vid,pid)) → after x = before x

theorem examined_served (table next after : SlotTable) (port : ListedPort) (name : Text) (result : Option Bool)
    (looked : table.scanForHost port = some (next,result)) (examined : table.Examined port next result)
    (matching : Matches port name) (proper : after.Proper)
    (kept : ∀ x, (next x).dock.state ≠ .disconnected → after x = next x) :
    (∃! x, (after x).Holds name) ∨ table.TriedInVain port ∨ ∀ x, (table x).dock.state ≠ .disconnected := by
  have lasts (x : Fin maxDocks) (holds : (next x).Holds name) : ∃! x, (after x).Holds name := by
    have still : (after x).Holds name := by
      rw [kept x ((next x).connected_up holds.1)]
      exact holds
    exact ⟨x,still,fun y other => proper.distinct y x name other still⟩
  cases examined with
  | other mismatch => exact absurd matching (mismatch name)
  | held x other named holds =>
    have same : other = name := Option.some.inj (named.symm.trans matching.1)
    exact .inl (lasts x (same ▸ holds))
  | full taken => exact .inr (.inr taken)
  | tried x other named free first unheld =>
    have same : other = name := Option.some.inj (named.symm.trans matching.1)
    subst same
    have outcome := (table x).setPort_holds other port.attempt free
    cases returned : ((table x).setPort (some other) port.attempt).2 with
    | false =>
      rw [returned,← named] at looked
      rw [← named] at returned
      exact .inr (.inl ⟨x,free,first,returned,looked⟩)
    | true =>
      rw [returned,if_pos rfl] at outcome
      exact .inl (lasts x (by rw [table.set_same]; exact outcome))

theorem updateConnectedDocks_right (before : SlotTable) (ports : List ListedPort) (proper : before.Proper) :
    ∃ after, before.updateConnectedDocks (some ports) = some after ∧ after.Proper ∧ before.Right ports after := by
  obtain ⟨checked,passed,properMid,attached,listedKept⟩ := before.recheckDocks_effect ports proper
  obtain ⟨after,scanned,properAfter,kept,held⟩ := checked.scanPorts_effect ports properMid
  have upHolds (x : Fin maxDocks) (up : (after x).dock.state ≠ .disconnected) : ∃ name, (after x).Holds name :=
    (properAfter.settled x).resolve_left up
  refine ⟨after,?_,properAfter,?_,?_,?_,?_⟩
  · rw [updateConnectedDocks,passed]
    exact scanned
  · intro x up
    obtain ⟨name,holds⟩ := upHolds x up
    refine ⟨holds.1,name,holds.2,?_⟩
    rcases held x name holds with earlier | listed
    · exact attached x name earlier
    · exact listed
  · intro x y upX upY same
    obtain ⟨name,first⟩ := upHolds x upX
    obtain ⟨other,second⟩ := upHolds y upY
    have names : name = other := Option.some.inj (first.2.symm.trans (same.trans second.2))
    exact properAfter.distinct x y name first (names ▸ second)
  · intro earlier port later name split matching
    rw [split,scanPorts_append] at scanned
    obtain ⟨examined,ran,properTable,_,_⟩ := checked.scanPorts_effect earlier properMid
    obtain ⟨next,result,looked,what⟩ := examined.scanForHost_examined port properTable
    obtain ⟨properNext,_,_⟩ := examined.examined_effect next port result what properTable
    obtain ⟨last,rest,_,keptRest,_⟩ := next.scanPorts_effect later properNext
    have ended : last = after := by
      rw [ran,Option.bind_some,scanPorts,List.foldlM_cons,looked] at scanned
      exact Option.some.inj (rest.symm.trans scanned)
    rw [ended] at keptRest
    have start : (before.recheckDocks ports).bind (fun table => table.scanPorts earlier) = some examined := by
      rw [passed]
      exact ran
    exact (examined.examined_served next after port name result looked what matching properAfter keptRest).imp_right
      fun unserved => ⟨examined,start,unserved⟩
  · intro x connected ⟨port,member,named,ids⟩
    have up := (before x).connected_up connected
    obtain ⟨name,holds⟩ := (proper.settled x).resolve_left up
    have same := listedKept x name holds ⟨port,member,named.trans holds.2,by rw [ids]; rfl⟩
    exact (kept x (by rw [same]; exact up)).trans same

theorem scans_proper (scans : List (Option (List ListedPort))) (table : SlotTable) (proper : table.Proper) :
    ∃ after, scans.foldlM updateConnectedDocks table = some after ∧ after.Proper := by
  induction scans generalizing table with
  | nil => exact ⟨table,rfl,proper⟩
  | cons listed rest ih =>
    rw [List.foldlM_cons]
    cases listed with
    | none => exact ih table proper
    | some ports =>
      obtain ⟨next,scanned,properNext,_⟩ := table.updateConnectedDocks_right ports proper
      rw [scanned]
      exact ih next properNext

end SlotTable

/-- The slot table is right after every scan, and no scan reads a missing name. -/
theorem slot_table_right (scans : List (Option (List ListedPort))) :
    ∃ before, scans.foldlM SlotTable.updateConnectedDocks SlotTable.new = some before ∧
      before.updateConnectedDocks none = some before ∧
      ∀ ports, ∃ after, before.updateConnectedDocks (some ports) = some after ∧ before.Right ports after := by
  have start : SlotTable.new.Proper := by
    refine ⟨fun _ => .inl rfl,fun x _ _ holds => ?_⟩
    have free : (SlotTable.new x).dock.state = .disconnected := rfl
    rw [holds.1] at free
    contradiction
  obtain ⟨before,ran,proper⟩ := SlotTable.scans_proper scans SlotTable.new start
  refine ⟨before,ran,rfl,fun ports => ?_⟩
  obtain ⟨after,scanned,_,right⟩ := before.updateConnectedDocks_right ports proper
  exact ⟨after,scanned,right⟩

section Runs

def dialPort : ListedPort :=
  ⟨some "/dev/ttyACM0".toList,some "Flotilla Dock".toList,some (vid,pid),fun _ => (0,0),true,true,true,
    "# Version: 1.0\n# Serial: 0123456789012345678901\n# User: a\n# Dock: b\n".toList.map .byte⟩

def motorPort : ListedPort := {dialPort with name := some "/dev/ttyACM1".toList}

def deafPort : ListedPort := {dialPort with name := some "/dev/ttyACM2".toList,attempt := ⟨true,true,false,[]⟩}

def heldNames (table : SlotTable) : List (DockState × Option Text) :=
  [0,1,2].map fun x : Fin maxDocks => ((table x).dock.state,(table x).portName)

end Runs

/-- The second scan leaves one dock where it is, tries another in vain and attaches a third. -/
theorem slot_table_right_dial : ∃ before after,
    [some [deafPort,dialPort]].foldlM SlotTable.updateConnectedDocks SlotTable.new = some before ∧
      before.updateConnectedDocks (some [deafPort,motorPort,dialPort]) = some after ∧
      before.Right [deafPort,motorPort,dialPort] after ∧ after 0 = before 0 ∧
      (after 0).Holds "/dev/ttyACM0".toList ∧ (after 1).Holds "/dev/ttyACM1".toList ∧
      (after 2).dock.state = .disconnected := by
  obtain ⟨before,ran,_,scan⟩ := slot_table_right [some [deafPort,dialPort]]
  obtain ⟨after,scanned,right⟩ := scan [deafPort,motorPort,dialPort]
  have first : ([some [deafPort,dialPort]].foldlM SlotTable.updateConnectedDocks SlotTable.new).map heldNames =
      some [(.connected,dialPort.name),(.disconnected,none),(.disconnected,none)] := by decide +kernel
  have second : (([some [deafPort,dialPort]].foldlM SlotTable.updateConnectedDocks SlotTable.new).bind fun table =>
      table.updateConnectedDocks (some [deafPort,motorPort,dialPort])).map heldNames =
      some [(.connected,dialPort.name),(.connected,motorPort.name),(.disconnected,none)] := by decide +kernel
  rw [ran,Option.bind_some,scanned] at second
  rw [ran] at first
  simp only [heldNames,List.map_cons,List.map_nil,Option.map_some,Option.some.injEq,List.cons.injEq,Prod.mk.injEq] at first second
  refine ⟨before,after,ran,scanned,right,?_,second.1,second.2.1,second.2.2.1.1⟩
  exact right.untouched 0 first.1.1 ⟨dialPort,by simp,first.1.2.symm,rfl⟩

end FlotillaDaemon
