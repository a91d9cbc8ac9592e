/-!
# Values

The numbers of the calculator are the integers that fit 32 bits in two's
complement. A `Reckoner.Value` is such an integer together with the proof that it
is in range, so arithmetic is done on the integers, exactly, and
`Reckoner.Value.ofInt?` is the one place where a result that does not fit is
turned away.

The second half of the file is the decimal form of a value:
`Reckoner.Value.digits` writes it, without a sign unless it is negative and
without leading zeros, and `Reckoner.Value.ofDigits?` reads it, allowing for one
sign of either kind and for leading zeros. Reading undoes writing
(`Reckoner.Value.ofDigits?_digits`).
-/

namespace Reckoner

/-- The range of a value: from `-2 ^ 31` to `2 ^ 31 - 1`, both included. -/
def InRange (n : Int) : Prop := -2147483648 ≤ n ∧ n ≤ 2147483647

instance (n : Int) : Decidable (InRange n) := inferInstanceAs (Decidable (_ ∧ _))

/-- **A value**: an integer in range. -/
structure Value where
  /-- The integer itself. -/
  toInt : Int
  /-- It is in range. -/
  inRange : InRange toInt
deriving DecidableEq

namespace Value

@[ext]
theorem ext {v w : Value} (h : v.toInt = w.toInt) : v = w := by
  cases v
  cases w
  congr

/-- The value equal to an integer, if the integer is in range. -/
def ofInt? (n : Int) : Option Value :=
  if h : InRange n then some ⟨n, h⟩ else none

theorem ofInt?_eq_some_iff {n : Int} {v : Value} : ofInt? n = some v ↔ v.toInt = n := by
  unfold ofInt?
  split
  · simp [Value.ext_iff, eq_comm]
  · next h =>
    simp only [reduceCtorEq, false_iff]
    exact fun hv => h (hv ▸ v.inRange)

theorem ofInt?_eq_none_iff {n : Int} : ofInt? n = none ↔ ¬InRange n := by
  unfold ofInt?
  split <;> simp_all

@[simp]
theorem ofInt?_toInt (v : Value) : ofInt? v.toInt = some v := ofInt?_eq_some_iff.2 rfl

/-! ### The decimal form -/

/-- The decimal digits of a value, after a minus sign if it is negative. -/
def digits (v : Value) : List Char :=
  match v.toInt with
  | .ofNat n => Nat.toDigits 10 n
  | .negSucc n => '-' :: Nat.toDigits 10 (n + 1)

/-- The decimal form of a value. -/
def text (v : Value) : String := .ofList v.digits

/-- The natural number written by one or more ASCII digits, and nothing else. -/
def natOfDigits? (cs : List Char) : Option Nat :=
  if !cs.isEmpty && cs.all Char.isDigit then some (Nat.ofDigitChars 10 cs 0) else none

/-- The integer written by ASCII digits, possibly after one sign. -/
def intOfDigits? : List Char → Option Int
  | '+' :: cs => (natOfDigits? cs).map Int.ofNat
  | '-' :: cs => (natOfDigits? cs).map fun n => -Int.ofNat n
  | cs => (natOfDigits? cs).map Int.ofNat

/-- **Reading a value**: ASCII digits, possibly after one sign, in range. -/
def ofDigits? (cs : List Char) : Option Value := intOfDigits? cs >>= ofInt?

/-- The digits of a number are digits. -/
theorem isDigit_of_mem_toDigits {n : Nat} {c : Char} (h : c ∈ Nat.toDigits 10 n) :
    c.isDigit = true :=
  Nat.isDigit_of_mem_toDigits (by decide) (by decide) h

theorem natOfDigits?_toDigits (n : Nat) : natOfDigits? (Nat.toDigits 10 n) = some n := by
  have h : (Nat.toDigits 10 n).all Char.isDigit = true :=
    List.all_eq_true.2 fun _ => isDigit_of_mem_toDigits
  simp [natOfDigits?, h, Nat.toDigits_ne_nil, Nat.ofDigitChars_ten_toDigits]

/-- Without a sign the digits are read as they stand. -/
theorem intOfDigits?_of_isDigit {cs : List Char} (h : ∀ c ∈ cs, c.isDigit) :
    intOfDigits? cs = (natOfDigits? cs).map Int.ofNat := by
  unfold intOfDigits?
  split
  · exact absurd (h '+' List.mem_cons_self) (by decide)
  · exact absurd (h '-' List.mem_cons_self) (by decide)
  · rfl

theorem intOfDigits?_digits (v : Value) : intOfDigits? v.digits = some v.toInt := by
  unfold digits
  split
  · next n hn =>
    rw [intOfDigits?_of_isDigit fun _ => isDigit_of_mem_toDigits, natOfDigits?_toDigits, hn]
    rfl
  · next n hn =>
    rw [intOfDigits?, natOfDigits?_toDigits, hn]
    rfl

/-- **Reading undoes writing.** -/
theorem ofDigits?_digits (v : Value) : ofDigits? v.digits = some v := by
  rw [ofDigits?, intOfDigits?_digits]
  exact ofInt?_toInt v

end Value

end Reckoner
