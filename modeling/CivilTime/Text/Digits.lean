/- Numbers in decimal digits: as many as needed, or a fixed count. -/
namespace CivilTime.Text

/-- The digits of a number, without leading zeros. -/
def decimal (n : Nat) : List Char := Nat.toDigits 10 n

theorem ofDigitChars_decimal (n : Nat) : Nat.ofDigitChars 10 (decimal n) 0 = n :=
  Nat.ofDigitChars_toDigits (by decide) (by decide)

theorem isDigit_of_mem_decimal {n : Nat} {c : Char} (h : c ∈ decimal n) : c.isDigit = true :=
  Nat.isDigit_of_mem_toDigits (by decide) (by decide) h

/-- The most digits with which an integer is written out. -/
def maxDigits : Nat := 4300

/-- An integer that can be written out. Its sign does not count as a digit. -/
def Writable (n : Int) : Prop := (decimal n.natAbs).length ≤ maxDigits

instance (n : Int) : Decidable (Writable n) := inferInstanceAs (Decidable (_ ≤ _))

/-- The last `width` digits of a number, with leading zeros. -/
def fixed : Nat → Nat → List Char
  | 0, _ => []
  | width + 1, n => fixed width (n / 10) ++ [Nat.digitChar (n % 10)]

@[simp] theorem length_fixed (width n : Nat) : (fixed width n).length = width := by
  induction width generalizing n with
  | zero => rfl
  | succ width ih => simp [fixed, ih]

theorem ofDigitChars_fixed (width n : Nat) :
    Nat.ofDigitChars 10 (fixed width n) 0 = n % Nat.pow 10 width := by
  induction width generalizing n with
  | zero => simp [fixed, Nat.ofDigitChars, Nat.mod_one]
  | succ width ih =>
    have hd := Nat.toNat_digitChar_of_lt_ten (Nat.mod_lt n (show 0 < 10 by decide))
    rw [fixed, Nat.ofDigitChars_append, ih]
    simp only [Nat.ofDigitChars, List.foldl_cons, List.foldl_nil, hd]
    have h0 : '0'.toNat = 48 := rfl
    have hpow : Nat.pow 10 (width + 1) = 10 * Nat.pow 10 width := Nat.mul_comm _ 10
    rw [h0, hpow, Nat.mod_mul]
    omega

/-- An integer in decimal, with a sign only if it is negative. -/
def integer (n : Int) : String :=
  if n < 0 then String.ofList ('-' :: decimal n.natAbs) else String.ofList (decimal n.natAbs)

/-- The complaint about an integer with more digits than are written out. -/
def tooManyDigits : String :=
  let remedy := "use sys.set_int_max_str_digits() to increase the limit"
  s!"Exceeds the limit ({integer maxDigits} digits) for integer string conversion; {remedy}"

/-- A fraction of a second in nanoseconds as a decimal fraction: the digits after the point end with
the last one that is not zero, and a whole second has none. -/
def fraction (nanos : Nat) : List Char :=
  if nanos = 0 then [] else '.' :: dropZeros (fixed 9 nanos)
where
  dropZeros : List Char → List Char
    | [] => []
    | c :: r =>
      match dropZeros r with
      | [] => if c = '0' then [] else [c]
      | s => c :: s

/-- Nanoseconds denoted by at most nine digits after the point. -/
def fractionNanos (digits : List Char) : Nat :=
  Nat.ofDigitChars 10 digits 0 * Nat.pow 10 (9 - digits.length)

end CivilTime.Text
