import FlotillaDaemon.Cpp.Text
import Mathlib.Data.List.TakeWhile
import Mathlib.Tactic.Ring

/-! `std::stoi` in base ten. The scanner is `strtol` in the "C" locale; `Numeral` is
the grammar of the texts it accepts, stated without the scanner. -/
namespace Cpp

def isSpace (c : Char) : Bool := c == ' ' || (9 ≤ c.toNat && c.toNat ≤ 13)

def splitSign : Text → Text × Text
  | '-' :: rest => (['-'],rest)
  | '+' :: rest => (['+'],rest)
  | rest => ([],rest)

def signedValue (sign digits : Text) : Int :=
  if sign = ['-'] then -(Nat.ofDigitChars 10 digits 0 : Int) else Nat.ofDigitChars 10 digits 0

def strtol (text : Text) : Option (Int × Nat) :=
  let spaces := text.takeWhile isSpace
  let (sign,body) := splitSign (text.dropWhile isSpace)
  let digits := body.takeWhile Char.isDigit
  if digits = [] then none
  else some (signedValue sign digits,spaces.length + sign.length + digits.length)

def stoi (text : Text) : Outcome (Int × Nat) :=
  match strtol text with
  | none => .error .invalidArgument
  | some (value,used) =>
    if intMin ≤ value ∧ value ≤ intMax then .ok (value,used) else .error .outOfRange

/-- The text begins with a number of the given value, written in its first `used`
characters: white space, at most one sign and every digit that follows. -/
inductive Numeral : Text → Int → Nat → Prop
  | read (spaces sign digits rest : Text)
      (blank : ∀ c ∈ spaces, isSpace c = true)
      (signed : sign = [] ∨ sign = ['+'] ∨ sign = ['-'])
      (present : digits ≠ []) (numeric : ∀ c ∈ digits, c.isDigit = true)
      (ends : ∀ c ∈ rest.head?, c.isDigit = false) :
      Numeral (spaces ++ (sign ++ (digits ++ rest))) (signedValue sign digits)
        (spaces.length + sign.length + digits.length)

theorem digit_bounds (c : Char) (digit : c.isDigit = true) : 48 ≤ c.toNat ∧ c.toNat ≤ 57 := by
  simpa [Char.isDigit,UInt32.le_iff_toNat_le] using digit

theorem digit_not_space (c : Char) (digit : c.isDigit = true) : isSpace c = false := by
  have bounds := digit_bounds c digit
  have code : c ≠ ' ' := by rintro rfl; simp at digit
  simp only [isSpace,Bool.or_eq_false_iff,beq_eq_false_iff_ne,Bool.and_eq_false_iff,decide_eq_false_iff_not]
  exact ⟨code,Or.inr (by omega)⟩

private theorem span_unique (p : Char → Bool) (before after : Text)
    (inside : ∀ c ∈ before, p c = true) (outside : ∀ c ∈ after.head?, p c = false) :
    (before ++ after).takeWhile p = before ∧ (before ++ after).dropWhile p = after := by
  have stop : after.takeWhile p = [] ∧ after.dropWhile p = after := by
    cases after with
    | nil => exact ⟨rfl,rfl⟩
    | cons c rest => simp [outside c (by simp)]
  rw [List.takeWhile_append_of_pos inside,List.dropWhile_append_of_pos inside,stop.1,stop.2]
  simp

private theorem span_boundary (p : Char → Bool) (text : Text) :
    ∀ c ∈ (text.dropWhile p).head?, p c = false := by
  induction text with
  | nil => simp
  | cons c rest ih =>
    by_cases holds : p c = true
    · simpa [List.dropWhile_cons,holds] using ih
    · simp [holds]

theorem splitSign_eq (text : Text) :
    (splitSign text).1 ++ (splitSign text).2 = text ∧
      ((splitSign text).1 = [] ∨ (splitSign text).1 = ['+'] ∨ (splitSign text).1 = ['-']) := by
  unfold splitSign
  split <;> simp

theorem splitSign_digits (sign digits : Text) (rest : Text)
    (signed : sign = [] ∨ sign = ['+'] ∨ sign = ['-'])
    (present : digits ≠ []) (numeric : ∀ c ∈ digits, c.isDigit = true) :
    splitSign (sign ++ (digits ++ rest)) = (sign,digits ++ rest) := by
  rcases signed with rfl | rfl | rfl
  · cases digits with
    | nil => exact absurd rfl present
    | cons c tail =>
      have digit := numeric c (by simp)
      have plus : c ≠ '+' := by rintro rfl; simp at digit
      have minus : c ≠ '-' := by rintro rfl; simp at digit
      simp [splitSign,plus,minus]
  · rfl
  · rfl

theorem strtol_iff (text : Text) (value : Int) (used : Nat) :
    strtol text = some (value,used) ↔ Numeral text value used := by
  constructor
  · intro scanned
    simp only [strtol] at scanned
    split at scanned
    next missing => contradiction
    next present =>
      obtain ⟨valueEq,usedEq⟩ := Prod.mk.inj (Option.some.inj scanned)
      obtain ⟨signEq,signed⟩ := splitSign_eq (text.dropWhile isSpace)
      generalize splitSign (text.dropWhile isSpace) = parts at *
      have shape : text = text.takeWhile isSpace ++
          (parts.1 ++ (parts.2.takeWhile Char.isDigit ++ parts.2.dropWhile Char.isDigit)) := by
        rw [List.takeWhile_append_dropWhile,signEq,List.takeWhile_append_dropWhile]
      have read := Numeral.read (text.takeWhile isSpace) parts.1 (parts.2.takeWhile Char.isDigit)
        (parts.2.dropWhile Char.isDigit) (fun c => List.mem_takeWhile_imp) signed present
        (fun c => List.mem_takeWhile_imp) (span_boundary Char.isDigit parts.2)
      rw [← shape,valueEq,usedEq] at read
      exact read
  · intro ⟨spaces,sign,digits,rest,blank,signed,present,numeric,ends⟩
    have start : ∀ c ∈ (sign ++ (digits ++ rest)).head?, isSpace c = false := by
      rcases signed with rfl | rfl | rfl
      · cases digits with
        | nil => exact absurd rfl present
        | cons c tail => simpa using digit_not_space c (numeric c (by simp))
      · simp [isSpace]
      · simp [isSpace]
    obtain ⟨spacesEq,bodyEq⟩ := span_unique isSpace spaces (sign ++ (digits ++ rest)) blank start
    obtain ⟨digitsEq,_⟩ := span_unique Char.isDigit digits rest numeric ends
    simp only [strtol,spacesEq,bodyEq,splitSign_digits sign digits rest signed present numeric,digitsEq,
      if_neg present]

theorem stoi_ok_iff (text : Text) (value : Int) (used : Nat) :
    stoi text = .ok (value,used) ↔ Numeral text value used ∧ intMin ≤ value ∧ value ≤ intMax := by
  rw [← strtol_iff]
  unfold stoi
  cases strtol text with
  | none => simp
  | some found =>
    obtain ⟨v,k⟩ := found
    dsimp only
    split
    next fits =>
      simp only [Except.ok.injEq,Prod.mk.injEq,Option.some.injEq]
      constructor
      · rintro ⟨rfl,rfl⟩
        exact ⟨⟨rfl,rfl⟩,fits⟩
      · exact fun same => same.1
    next outside =>
      simp only [reduceCtorEq,Option.some.injEq,Prod.mk.injEq,false_iff]
      rintro ⟨⟨rfl,rfl⟩,fits⟩
      exact outside fits

theorem stoi_defined (text : Text) : Defined (stoi text) := by
  unfold stoi
  cases strtol text with
  | none => simp [Fault.isException]
  | some found =>
    dsimp only
    split <;> simp [Fault.isException]

theorem stoi_substrN_defined (text : Text) (position count : Nat) :
    Defined (substrN text position count >>= stoi) :=
  (defined_bind_iff _ _).mpr ⟨substrN_defined text position count,fun digits _ => stoi_defined digits⟩

private theorem digits_value_lt (digits : Text) (numeric : ∀ c ∈ digits, c.isDigit = true) :
    Nat.ofDigitChars 10 digits 0 < 10 ^ digits.length := by
  induction digits with
  | nil => simp
  | cons c rest ih =>
    have digit := digit_bounds c (numeric c (by simp))
    have tail := ih (fun d member => numeric d (by simp [member]))
    have zero : '0'.toNat = 48 := rfl
    rw [Nat.ofDigitChars_cons,Nat.ofDigitChars_eq_ofDigitChars_zero,zero,List.length_cons,pow_succ]
    have lead : c.toNat - 48 ≤ 9 := by omega
    have scaled := Nat.mul_le_mul_left (10 ^ rest.length) lead
    simp only [Nat.mul_zero,Nat.zero_add]
    omega

theorem numeral_short (text : Text) (value : Int) (used : Nat) (read : Numeral text value used)
    (short : text.length ≤ 2) : intMin ≤ value ∧ value ≤ intMax := by
  cases read with
  | read spaces sign digits rest blank signed present numeric ends =>
    have size : digits.length ≤ 2 := by simp only [List.length_append] at short; omega
    have bound := digits_value_lt digits numeric
    have power : 10 ^ digits.length ≤ 10 ^ 2 := Nat.pow_le_pow_right (by omega) size
    simp only [signedValue,intMin,intMax]
    split <;> omega

theorem numeral_decimal (n : Nat) (rest : Text) (ends : ∀ c ∈ rest.head?, c.isDigit = false) :
    Numeral (decimal n ++ rest) n (decimal n).length := by
  have read := Numeral.read [] [] (decimal n) rest (by simp) (Or.inl rfl) Nat.toDigits_ne_nil
    (fun c member => Nat.isDigit_of_mem_toDigits (by omega) (by omega) member) ends
  simpa [signedValue,decimal] using read

example : stoi " +12/dial".toList = .ok (12,4) := by decide

end Cpp
