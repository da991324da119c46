import Mathlib.Data.Int.Log
import Mathlib.Data.Rat.Floor
import Pxeos.Lib.Shell

/-!
# Numbers in `awk`

A text that comes from outside and looks like a decimal number is a number for `awk` as well: two
such texts are compared by the doubles that they stand for, all others by their characters.
-/

namespace Pxeos.Lib

/-- A double. -/
inductive AwkNumber where
  | finite (value : ℚ)
  | infinite (negative : Bool)
  | nan
  deriving DecidableEq

/-- The nearest integer, the even one of two. -/
def roundHalfEven (x : ℚ) : ℤ :=
  let below := ⌊x⌋
  if x - below < 1 / 2 then below
  else if 1 / 2 < x - below then below + 1
  else if below % 2 = 0 then below
  else below + 1

/-- The nearest double. -/
def toDouble (x : ℚ) : AwkNumber :=
  if x = 0 then .finite 0
  else
    let unit : ℤ := max (Int.log 2 |x| - 52) (-1074)
    let value : ℚ := roundHalfEven (|x| / 2 ^ unit) * 2 ^ unit
    if 2 ^ 1024 ≤ value then .infinite (decide (x < 0))
    else .finite (if x < 0 then -value else value)

/-- The value of an operation on numbers of fewer than three hundred digits, whose result does not
overflow. -/
def asDouble (x : ℚ) : ℚ :=
  match toDouble x with
  | .finite value => value
  | _ => x

/-- A sign, and what stands behind it. -/
def readSign : Str → Bool × Str
  | '-' :: s => (true, s)
  | '+' :: s => (false, s)
  | s => (false, s)

/-- The power of ten at the end of a number; nothing if something else stands there. -/
def readExponent : Str → Option ℤ
  | [] => some 0
  | c :: s =>
    let (negative, digits) := readSign s
    if (c = 'e' ∨ c = 'E') ∧ isNumber digits = true then
      some (if negative then -(Nat.ofDigitChars 10 digits 0 : ℤ)
        else (Nat.ofDigitChars 10 digits 0 : ℤ))
    else none

/-- The value of a decimal number. -/
def readDecimal (s : Str) : Option ℚ :=
  let (negative, s) := readSign s
  let whole := s.takeWhile Char.isDigit
  let rest := s.dropWhile Char.isDigit
  let (fraction, rest) :=
    match rest with
    | '.' :: t => (t.takeWhile Char.isDigit, t.dropWhile Char.isDigit)
    | t => ([], t)
  if whole ++ fraction = [] then none
  else
    (readExponent rest).map fun e =>
      let value : ℚ :=
        (Nat.ofDigitChars 10 (whole ++ fraction) 0 : ℚ) * 10 ^ (e - (fraction.length : ℤ))
      if negative then -value else value

/-- The number that a text from outside looks like. -/
def strnum (s : Str) : Option AwkNumber :=
  let lower := s.map Char.toLower
  if lower = "+inf".toList then some (.infinite false)
  else if lower = "-inf".toList then some (.infinite true)
  else if lower = "+nan".toList ∨ lower = "-nan".toList then some .nan
  else (readDecimal s).map toDouble

/-- `a == b`, of two texts from outside. -/
def awkEqual (a b : Str) : Bool :=
  match strnum a, strnum b with
  | some x, some y => decide (x = y)
  | _, _ => a == b

lemma strnum_nil : strnum [] = none := rfl

/-- The empty text is no number. -/
lemma awkEqual_nil {b : Str} (h : b ≠ []) : awkEqual [] b = false := by
  unfold awkEqual
  rw [strnum_nil]
  exact beq_eq_false_iff_ne.mpr h.symm

example : awkEqual "0123".toList "123".toList = true := by decide +kernel

end Pxeos.Lib
