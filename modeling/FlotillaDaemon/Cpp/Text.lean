import Mathlib.Data.List.Basic
import Mathlib.Data.List.TakeDrop

/-! Byte strings and the fallible operations on them. A text holds one character
for each byte. A call that throws returns the exception; an access outside an
array and a signed overflow have no defined result, and a wait that nothing ends has no
result at all: they end the run with their own faults, which no handler catches. -/
namespace Cpp

abbrev Text := List Char

inductive Fault
  | outOfRange
  | invalidArgument
  | otherException
  | badIndex (length : Nat) (index : Int)
  | overflow (value : Int)
  | blocked
  deriving DecidableEq, Repr

abbrev Outcome := Except Fault

/-- The faults that `catch (std::exception)` sees. -/
def Fault.isException : Fault → Bool
  | .outOfRange | .invalidArgument | .otherException => true
  | .badIndex _ _ | .overflow _ | .blocked => false

def charAt (text : Text) (position : Nat) : Outcome Char :=
  match text[position]? with
  | some c => .ok c
  | none => .error .outOfRange

def substr (text : Text) (position : Nat) : Outcome Text :=
  if position ≤ text.length then .ok (text.drop position) else .error .outOfRange

def substrN (text : Text) (position count : Nat) : Outcome Text :=
  if position ≤ text.length then .ok ((text.drop position).take count) else .error .outOfRange

def beginsWith (key text : Text) : Bool := text.take key.length == key

def find (key : Text) : Text → Option Nat
  | [] => if key = [] then some 0 else none
  | c :: rest => if key.isPrefixOf (c :: rest) then some 0 else (find key rest).map (· + 1)

/-- `find(key) + count` in the unsigned size type. Only `npos`, its largest value,
wraps: no string is long enough for a position that does. -/
def offsetAfter (found : Option Nat) (count : Nat) : Nat :=
  match found with
  | some position => position + count
  | none => count - 1

def arrayIndex (length : Nat) (index : Int) : Outcome (Fin length) :=
  if h : 0 ≤ index ∧ index < length then .ok ⟨index.toNat,by omega⟩ else .error (.badIndex length index)

def intMin : Int := -2147483648
def intMax : Int := 2147483647

def int32 (value : Int) : Outcome Int :=
  if intMin ≤ value ∧ value ≤ intMax then .ok value else .error (.overflow value)

def decimal (n : Nat) : Text := Nat.toDigits 10 n

theorem bind_ok_iff {α β : Type} (first : Outcome α) (next : α → Outcome β) (result : β) :
    (first >>= next) = .ok result ↔ ∃ value, first = .ok value ∧ next value = .ok result := by
  cases first with
  | error fault => simp [bind,Except.bind]
  | ok value => simp [bind,Except.bind]

theorem bind_error_iff {α β : Type} (first : Outcome α) (next : α → Outcome β) (fault : Fault) :
    (first >>= next) = .error fault ↔
      first = .error fault ∨ ∃ value, first = .ok value ∧ next value = .error fault := by
  cases first with
  | error fault => simp [bind,Except.bind]
  | ok value => simp [bind,Except.bind]

theorem outcome_map_bind {A B C : Type} (first : Outcome A) (next : A → Outcome B) (change : B → C) :
    (first >>= next).map change = first >>= fun value => (next value).map change := by
  cases first <;> rfl

/-- Two continuations, the first of them seen through a view. -/
theorem outcome_bind_map {A B C : Type} (first : Outcome A) (next : A → Outcome B) (other : A → Outcome C) (view : B → C)
    (same : ∀ value, (next value).map view = other value) : (first >>= next).map view = first >>= other := by
  rw [outcome_map_bind]
  exact bind_congr same

theorem outcome_map_congr {A B C : Type} (first : Outcome A) (next other : A → Outcome B) (view : B → C)
    (same : ∀ value, (next value).map view = (other value).map view) :
    (first >>= next).map view = (first >>= other).map view := by
  rw [outcome_map_bind first other]
  exact outcome_bind_map first next _ view same

def Returns {α : Type} (outcome : Outcome α) : Prop := ∃ value, outcome = .ok value

/-- Every fault of the outcome is an exception, so that its result is defined. -/
def Defined {α : Type} (outcome : Outcome α) : Prop :=
  ∀ fault, outcome = .error fault → fault.isException = true

@[simp]
theorem returns_ok {α : Type} (value : α) : Returns (.ok value : Outcome α) := ⟨value,rfl⟩

@[simp]
theorem not_returns_error {α : Type} (fault : Fault) : ¬ Returns (.error fault : Outcome α) := by
  intro ⟨value,returned⟩
  contradiction

@[simp]
theorem defined_ok {α : Type} (value : α) : Defined (.ok value : Outcome α) := by
  intro fault failed
  contradiction

@[simp]
theorem defined_error_iff {α : Type} (fault : Fault) :
    Defined (.error fault : Outcome α) ↔ fault.isException = true := by
  simp [Defined]

theorem returns_bind_iff {α β : Type} (first : Outcome α) (next : α → Outcome β) :
    Returns (first >>= next) ↔ ∃ value, first = .ok value ∧ Returns (next value) := by
  simp only [Returns,bind_ok_iff]
  constructor
  · intro ⟨result,value,returned,rest⟩
    exact ⟨value,returned,result,rest⟩
  · intro ⟨value,returned,result,rest⟩
    exact ⟨result,value,returned,rest⟩

theorem defined_bind_iff {α β : Type} (first : Outcome α) (next : α → Outcome β) :
    Defined (first >>= next) ↔ Defined first ∧ ∀ value, first = .ok value → Defined (next value) := by
  simp only [Defined,bind_error_iff]
  constructor
  · intro exceptions
    refine ⟨fun fault failed => exceptions fault (Or.inl failed),?_⟩
    intro value returned fault failed
    exact exceptions fault (Or.inr ⟨value,returned,failed⟩)
  · intro ⟨start,rest⟩ fault failed
    rcases failed with failed | ⟨value,returned,failed⟩
    · exact start fault failed
    · exact rest value returned fault failed

theorem substr_ok_iff (text result : Text) (position : Nat) :
    substr text position = .ok result ↔ position ≤ text.length ∧ text.drop position = result := by
  unfold substr
  split
  next inside => simp [inside]
  next outside => simp [outside]

theorem substr_defined (text : Text) (position : Nat) : Defined (substr text position) := by
  unfold substr
  split <;> simp [Fault.isException]

theorem substrN_ok_iff (text result : Text) (position count : Nat) :
    substrN text position count = .ok result ↔
      position ≤ text.length ∧ (text.drop position).take count = result := by
  unfold substrN
  split
  next inside => simp [inside]
  next outside => simp [outside]

theorem substrN_defined (text : Text) (position count : Nat) : Defined (substrN text position count) := by
  unfold substrN
  split <;> simp [Fault.isException]

theorem arrayIndex_ok_iff (length : Nat) (index : Int) (i : Fin length) :
    arrayIndex length index = .ok i ↔ (i.val : Int) = index := by
  unfold arrayIndex
  split
  next inside =>
    simp only [Except.ok.injEq,Fin.ext_iff]
    omega
  next outside =>
    simp only [reduceCtorEq,false_iff]
    have := i.isLt
    omega

theorem arrayIndex_returns_iff (length : Nat) (index : Int) :
    Returns (arrayIndex length index) ↔ 0 ≤ index ∧ index < length := by
  unfold arrayIndex
  split
  next inside => simpa using inside
  next outside => simpa [Returns] using outside

theorem arrayIndex_defined_iff (length : Nat) (index : Int) :
    Defined (arrayIndex length index) ↔ 0 ≤ index ∧ index < length := by
  unfold arrayIndex
  split
  next inside => simpa using inside
  next outside => simpa [Fault.isException] using outside

theorem int32_ok_iff (value result : Int) :
    int32 value = .ok result ↔ value = result ∧ intMin ≤ value ∧ value ≤ intMax := by
  unfold int32
  split
  next fits => simp [fits]
  next outside => simpa using fun _ => not_and.mp outside

theorem int32_defined_iff (value : Int) : Defined (int32 value) ↔ intMin ≤ value ∧ value ≤ intMax := by
  unfold int32
  split
  next fits => simpa using fits
  next outside => simpa [Fault.isException] using not_and.mp outside

theorem beginsWith_iff (key text : Text) : beginsWith key text = true ↔ key <+: text := by
  rw [beginsWith,beq_iff_eq,List.prefix_iff_eq_take,eq_comm]

theorem find_some_iff (key text : Text) (position : Nat) :
    find key text = some position ↔
      key <+: text.drop position ∧ position ≤ text.length ∧
        ∀ earlier < position, ¬ key <+: text.drop earlier := by
  induction text generalizing position with
  | nil =>
    by_cases empty : key = []
    · subst empty
      constructor
      · intro found
        have : position = 0 := by simpa [find,eq_comm] using found
        subst this
        simp
      · intro ⟨_,bound,_⟩
        have : position = 0 := by simpa using bound
        simp [find,this]
    · simp [find,empty]
  | cons c rest ih =>
    unfold find
    by_cases here : key.isPrefixOf (c :: rest) = true
    · have starts : key <+: c :: rest := List.isPrefixOf_iff_prefix.mp here
      rw [if_pos here]
      constructor
      · intro found
        have zero : position = 0 := by simpa [eq_comm] using found
        subst zero
        exact ⟨starts,Nat.zero_le _,fun _ earlier => absurd earlier (Nat.not_lt_zero _)⟩
      · intro ⟨_,_,first⟩
        cases position with
        | zero => rfl
        | succ position => exact absurd starts (first 0 (Nat.succ_pos _))
    · have missing : ¬ key <+: c :: rest := fun starts => here (List.isPrefixOf_iff_prefix.mpr starts)
      rw [if_neg here]
      cases position with
      | zero => simp [missing]
      | succ position =>
        have step : (find key rest).map (· + 1) = some (position + 1) ↔ find key rest = some position := by
          cases find key rest <;> simp
        rw [step,ih position]
        constructor
        · intro ⟨occurs,bound,first⟩
          refine ⟨by simpa using occurs,by simpa using bound,?_⟩
          intro earlier less
          cases earlier with
          | zero => simpa using missing
          | succ earlier => simpa using first earlier (by omega)
        · intro ⟨occurs,bound,first⟩
          refine ⟨by simpa using occurs,by simpa using bound,?_⟩
          intro earlier less
          simpa using first (earlier + 1) (by omega)

theorem find_none_iff (key text : Text) : find key text = none ↔ ¬ key <:+: text := by
  induction text with
  | nil => by_cases empty : key = [] <;> simp [find,empty]
  | cons c rest ih =>
    unfold find
    rw [List.infix_cons_iff]
    by_cases here : key.isPrefixOf (c :: rest) = true
    · simp [here,List.isPrefixOf_iff_prefix.mp here]
    · have missing : ¬ key <+: c :: rest := fun starts => here (List.isPrefixOf_iff_prefix.mpr starts)
      rw [if_neg here]
      simp only [Option.map_eq_none_iff,ih,missing,false_or]

theorem find_isSome_iff (key text : Text) : (find key text).isSome = true ↔ key <:+: text := by
  rw [← not_iff_not,← find_none_iff]
  cases find key text <;> simp

theorem offsetAfter_some_le (key text : Text) (position : Nat) (found : find key text = some position) :
    offsetAfter (find key text) key.length ≤ text.length := by
  obtain ⟨occurs,bound,_⟩ := (find_some_iff key text position).mp found
  have size := occurs.length_le
  rw [found]
  simp only [offsetAfter,List.length_drop] at size ⊢
  omega

end Cpp
