import Mathlib.Algebra.Group.Int.Defs
import Mathlib.Data.Int.Order.Basic
import Mathlib.Tactic.Ring

/-!
# Java's 64-bit integers and their decimal text

A Java `long` is Lean's `Int64`: addition, subtraction and negation wrap modulo `2^64`, and the
comparisons are signed. The wrapping addition makes it an additive group, which is the structure in
which sums of balances are taken.

`Long.toString` writes the decimal text of a value, and `parseLong` reads one back as
`Long.parseLong` does: an optional sign, then decimal digits of any script, and a value in range.
`parseLong_toText` is the round trip, through `parseInteger`, which both parsers share.
-/

namespace NovaBank.Java

/-- The wrapping addition of `long` values is that of an additive group. -/
instance instAddCommGroupInt64 : AddCommGroup Int64 where
  add_assoc := Int64.add_assoc
  zero_add := Int64.zero_add
  add_zero := Int64.add_zero
  add_comm := Int64.add_comm
  neg_add_cancel := Int64.add_left_neg
  sub_eq_add_neg := Int64.sub_eq_add_neg
  nsmul := nsmulRec
  zsmul := zsmulRec

/-- The integer of a value has 64 bits. -/
theorem toInt_bounds (v : Int64) : -2^63 ≤ v.toInt ∧ v.toInt < 2^63 := ⟨v.le_toInt, v.toInt_lt⟩

/-- The negation of a value is nonnegative exactly for the values from 0 down, but for the least,
which is its own negation. -/
theorem neg_nonneg_iff (v : Int64) : 0 ≤ -v ↔ ¬ (0 < v ∨ v = Int64.minValue) := by
  have hbounds := toInt_bounds v
  have hneg : (-v).toInt = if v.toInt = -2^63 then -2^63 else -v.toInt := by
    rw [Int64.toInt_neg, Int.bmod_def]
    split_ifs <;> omega
  rw [← Int64.toInt_inj, Int64.le_iff_toInt_le, Int64.lt_iff_toInt_lt, hneg, Int64.toInt_zero,
    Int64.toInt_minValue]
  split_ifs <;> omega

/-- The wrapping sum of two values, from their integers. -/
theorem ofInt_toInt_add (a b : Int64) : Int64.ofInt (a.toInt + b.toInt) = a + b := by
  rw [Int64.ofInt_add, Int64.ofInt_toInt, Int64.ofInt_toInt]

/-- The wrapping difference of two values, from their integers. -/
theorem ofInt_toInt_sub (a b : Int64) : Int64.ofInt (a.toInt + -b.toInt) = a - b := by
  rw [← sub_eq_add_neg, Int64.ofInt_sub, Int64.ofInt_toInt, Int64.ofInt_toInt]

/-- An integer of up to 65 bits wraps round once at most. -/
theorem toInt_ofInt_cases {z : ℤ} (lo : -2^64 ≤ z) (hi : z < 2^64) :
    (Int64.ofInt z).toInt = if z < -2^63 then z + 2^64 else if z < 2^63 then z else z - 2^64 := by
  have hsize : Int64.size = 2^64 := rfl
  rw [Int64.toInt_ofInt, hsize, Int.bmod_def]
  split_ifs <;> omega

/-- From a value that is not negative, an integer of 64 bits leads out of the range upwards only. -/
theorem toInt_ofInt_of_nonneg {a : Int64} (ha : 0 ≤ a) {z : ℤ} (lo : -2^63 ≤ z) (hi : z ≤ 2^63) :
    (Int64.ofInt (a.toInt + z)).toInt =
      if a.toInt + z < 2^63 then a.toInt + z else a.toInt + z - 2^64 := by
  have hbounds := toInt_bounds a
  rw [Int64.le_iff_toInt_le, Int64.toInt_zero] at ha
  rw [toInt_ofInt_cases (by omega) (by omega), if_neg (by omega)]

/-- A sum with a value that is not negative is exact unless it is too large. -/
theorem toInt_add_eq_iff {a : Int64} (ha : 0 ≤ a) (b : Int64) :
    (a + b).toInt = a.toInt + b.toInt ↔ a.toInt + b.toInt < 2^63 := by
  have hb := toInt_bounds b
  rw [← ofInt_toInt_add, toInt_ofInt_of_nonneg ha hb.1 hb.2.le]
  split_ifs <;> omega

/-- The wrapped difference from a value that is not negative. -/
theorem toInt_sub_cases {a : Int64} (ha : 0 ≤ a) (b : Int64) :
    (a - b).toInt =
      if a.toInt - b.toInt < 2^63 then a.toInt - b.toInt else a.toInt - b.toInt - 2^64 := by
  have hb := toInt_bounds b
  rw [← ofInt_toInt_sub, toInt_ofInt_of_nonneg ha (by omega) (by omega), ← sub_eq_add_neg]

/-- A difference from a value that is not negative is exact unless it is too large. -/
theorem toInt_sub_eq_iff {a : Int64} (ha : 0 ≤ a) (b : Int64) :
    (a - b).toInt = a.toInt - b.toInt ↔ a.toInt - b.toInt < 2^63 := by
  rw [toInt_sub_cases ha]
  split_ifs <;> omega

/-- The sign of the wrapped difference tells whether the value is enough, unless the difference is too
large. -/
theorem sub_nonneg_iff {a : Int64} (ha : 0 ≤ a) (b : Int64) :
    0 ≤ a - b ↔ b.toInt ≤ a.toInt ∧ a.toInt - b.toInt < 2^63 := by
  have hbounds := toInt_bounds a
  have hb := toInt_bounds b
  rw [Int64.le_iff_toInt_le, Int64.toInt_zero, toInt_sub_cases ha]
  split_ifs <;> omega

/-- The code points of the zeros of the decimal digits that `Character.digit` accepts, in the basic
multilingual plane. -/
def digitZeros : List ℕ :=
  [0x30, 0x660, 0x6F0, 0x7C0, 0x966, 0x9E6, 0xA66, 0xAE6, 0xB66, 0xBE6, 0xC66, 0xCE6, 0xD66, 0xE50,
    0xED0, 0xF20, 0x1040, 0x1090, 0x17E0, 0x1810, 0x1946, 0x19D0, 0x1A80, 0x1A90, 0x1B50, 0x1BB0,
    0x1C40, 0x1C50, 0xA620, 0xA8D0, 0xA900, 0xA9D0, 0xAA50, 0xABF0, 0xFF10]

/-- `Character.digit(c, 10)`: the value of a decimal digit of any script. -/
def digit (c : Char) : Option ℕ :=
  (digitZeros.find? fun z => decide (z ≤ c.toNat ∧ c.toNat < z + 10)).map (c.toNat - ·)

/-- The value of a text of digits, continuing from the digits already read. -/
def digits : ℕ → List Char → Option ℕ
  | n, [] => some n
  | n, c :: cs => (digit c).bind fun d => digits (10 * n + d) cs

/-- The integer that a text of one or more digits after an optional sign denotes. -/
def parseInteger (s : String) : Option ℤ :=
  match s.toList with
  | [] => none
  | ['-'] => none
  | ['+'] => none
  | '-' :: cs => (digits 0 cs).map fun n : ℕ => -(n : ℤ)
  | '+' :: cs => (digits 0 cs).map fun n : ℕ => (n : ℤ)
  | cs => (digits 0 cs).map fun n : ℕ => (n : ℤ)

/-- `Long.parseLong`, with `none` for a `NumberFormatException`. -/
def parseLong (s : String) : Option Int64 :=
  (parseInteger s).bind fun z =>
    if -2^63 ≤ z ∧ z < 2^63 then some (Int64.ofInt z) else none

/-- `Integer.parseInt`, with `none` for a `NumberFormatException`. -/
def parseInt (s : String) : Option Int32 :=
  (parseInteger s).bind fun z =>
    if -2^31 ≤ z ∧ z < 2^31 then some (Int32.ofInt z) else none

/-- `String.valueOf(long)`, the decimal text of a value. -/
def Long.toText (v : Int64) : String := toString v.toInt

/-- `String.valueOf(int)`. -/
def Integer.toText (v : Int32) : String := toString v.toInt

/-! ## The round trip -/

/-- A decimal digit that Lean writes is read back. -/
theorem digit_digitChar {d : ℕ} (hd : d < 10) : digit d.digitChar = some d := by
  have h : ∀ d : Fin 10, digit (d : ℕ).digitChar = some (d : ℕ) := by decide
  exact h ⟨d, hd⟩

/-- Digits are read from left to right. -/
theorem digits_append (cs ds : List Char) (n : ℕ) :
    digits n (cs ++ ds) = (digits n cs).bind fun m => digits m ds := by
  induction cs generalizing n with
  | nil => rfl
  | cons c cs ih =>
    simp only [List.cons_append, digits]
    cases digit c with
    | none => rfl
    | some d => simp [ih]

/-- The decimal digits of a number denote it. -/
theorem digits_toDigits (n : ℕ) : digits 0 (Nat.toDigits 10 n) = some n := by
  induction n using Nat.strong_induction_on with
  | _ n ih =>
    rcases lt_or_ge n 10 with h | h
    · rw [Nat.toDigits_of_lt_base h]
      simp [digits, digit_digitChar h]
    · have hd : n % 10 < 10 := Nat.mod_lt n (by norm_num)
      rw [Nat.toDigits_of_base_le (by norm_num) h, digits_append, ih (n / 10) (by omega)]
      simp only [Option.bind_some, digits, digit_digitChar hd, Option.some.injEq]
      omega

/-- The first digit of a number is not a sign. -/
theorem toDigits_head (n : ℕ) {c : Char} {cs : List Char} (h : Nat.toDigits 10 n = c :: cs) :
    c ≠ '-' ∧ c ≠ '+' := by
  have hc : c.isDigit :=
    Nat.isDigit_of_mem_toDigits (by norm_num) (le_refl 10) (h ▸ List.mem_cons_self)
  constructor <;> rintro rfl <;> exact absurd hc (by decide)

/-- The text of an integer denotes it. -/
theorem parseInteger_toString (z : ℤ) : parseInteger (toString z) = some z := by
  rw [Int.toString_eq_repr, Int.repr_eq_if]
  split_ifs with hz
  · -- No sign: the first character is a digit.
    have hl : (z.toNat.repr).toList = Nat.toDigits 10 z.toNat := Nat.toList_repr
    have hn := digits_toDigits z.toNat
    unfold parseInteger
    rw [hl]
    cases hd : Nat.toDigits 10 z.toNat with
    | nil => exact absurd hd Nat.toDigits_ne_nil
    | cons c cs =>
      obtain ⟨h1, h2⟩ := toDigits_head z.toNat hd
      rw [hd] at hn
      split <;> simp_all
  · have hl : ("-" ++ ((-z).toNat.repr)).toList = '-' :: Nat.toDigits 10 (-z).toNat := by
      rw [String.toList_append, Nat.toList_repr]
      rfl
    have hn := digits_toDigits (-z).toNat
    unfold parseInteger
    rw [hl]
    cases hd : Nat.toDigits 10 (-z).toNat with
    | nil => exact absurd hd Nat.toDigits_ne_nil
    | cons c cs =>
      rw [hd] at hn
      show (digits 0 (c :: cs)).map (fun n : ℕ => -(n : ℤ)) = some z
      rw [hn, Option.map_some]
      congr 1
      omega

/-- The text of an integer has digits and a sign. -/
theorem mem_toString {z : ℤ} {c : Char} (h : c ∈ (toString z).toList) :
    c = '-' ∨ c.isDigit = true := by
  have hdigit : ∀ n : ℕ, c ∈ (n.repr).toList → c.isDigit = true := by
    intro n hc
    rw [Nat.toList_repr] at hc
    exact Nat.isDigit_of_mem_toDigits (by norm_num) (le_refl 10) hc
  rw [Int.toString_eq_repr, Int.repr_eq_if] at h
  split_ifs at h
  · exact .inr (hdigit _ h)
  · rw [String.toList_append, List.mem_append] at h
    rcases h with h | h
    · exact .inl (by simpa using h)
    · exact .inr (hdigit _ h)

/-- The decimal text of an integer has at least one character. -/
theorem toString_ne_empty (z : ℤ) : toString z ≠ "" := by
  intro h
  have hparse := parseInteger_toString z
  rw [h] at hparse
  cases hparse

/-- An integer in the range of `long` is read back from its decimal text. -/
theorem parseLong_toString {z : ℤ} (lo : -2^63 ≤ z) (hi : z < 2^63) :
    parseLong (toString z) = some (Int64.ofInt z) := by
  rw [parseLong, parseInteger_toString, Option.bind_some, if_pos ⟨lo, hi⟩]

/-- Every `long` is read back from its decimal text. -/
@[simp] theorem parseLong_toText (v : Int64) : parseLong (Long.toText v) = some v := by
  have h1 := v.minValue_le_toInt
  have h2 := v.toInt_lt
  have hmin : Int64.minValue.toInt = -2^63 := by decide
  rw [hmin] at h1
  rw [Long.toText, parseLong_toString h1 h2, Int64.ofInt_toInt]

/-- An `int` is read as the `long` of the same value from its decimal text. -/
@[simp] theorem parseLong_integer_toText (v : Int32) :
    parseLong (Integer.toText v) = some v.toInt64 := by
  have h1 := v.minValue_le_toInt
  have h2 := v.toInt_lt
  have hmin : Int32.minValue.toInt = -2^31 := by decide
  rw [hmin] at h1
  rw [Integer.toText, parseLong_toString (by omega) (by omega), ← Int32.toInt_toInt64,
    Int64.ofInt_toInt]

/-- Every `int` is read back from its decimal text. -/
@[simp] theorem parseInt_toText (v : Int32) : parseInt (Integer.toText v) = some v := by
  have h1 := v.minValue_le_toInt
  have h2 := v.toInt_lt
  have hmin : Int32.minValue.toInt = -2^31 := by decide
  rw [hmin] at h1
  rw [Integer.toText, parseInt, parseInteger_toString, Option.bind_some, if_pos ⟨h1, h2⟩,
    Int32.ofInt_toInt]

end NovaBank.Java
