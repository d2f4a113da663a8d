/-
# Words of the guest

Texts and byte layouts of the machine words the guest sees.

| rule | function |
| --- | --- |
| hexadecimal, lower case, no leading zeros | `hex` |
| the same, at least `w` digits | `hexPad w` |
| low byte first | `toBytes n`, read back by `ofBytes` |
| a sum that would pass the largest 64-bit word stays there | `saturatingAdd` |

Source: specification, 6.
-/

namespace GuestKernel

/-- Lower-case hexadecimal digits of `n` without leading zeros. -/
def hex (n : Nat) : String := String.ofList (Nat.toDigits 16 n)

/-- Lower-case hexadecimal digits of `n`, filled with zeros on the left to `width` digits. -/
def hexPad (width n : Nat) : String :=
  let digits := Nat.toDigits 16 n
  String.ofList (List.replicate (width - digits.length) '0' ++ digits)

/-- A 32-bit word as eight hexadecimal digits. -/
def hexWord (w : UInt32) : String := hexPad 8 w.toNat

/-- The `count` low bytes of `value`, lowest first. -/
def toBytes : (count value : Nat) → List UInt8
  | 0, _ => []
  | n + 1, value => UInt8.ofNat (value % 256) :: toBytes n (value / 256)

@[simp] theorem length_toBytes (count value : Nat) : (toBytes count value).length = count := by
  induction count generalizing value with
  | zero => rfl
  | succ n ih => simp [toBytes, ih]

/-- The number whose bytes, lowest first, are the given ones. -/
def ofBytes : List UInt8 → Nat
  | [] => 0
  | b :: rest => b.toNat + 256 * ofBytes rest

theorem ofBytes_toBytes (count value : Nat) :
    ofBytes (toBytes count value) = value % (1 <<< (8 * count)) := by
  induction count generalizing value with
  | zero => simp [toBytes, ofBytes, Nat.mod_one]
  | succ n ih =>
    have next : 1 <<< (8 * (n + 1)) = 256 * 1 <<< (8 * n) := by
      rw [Nat.mul_succ, Nat.shiftLeft_add, Nat.shiftLeft_eq _ 8, Nat.mul_comm]
    have split : value % (1 <<< (8 * (n + 1))) = value % 256 + 256 * (value / 256 % (1 <<< (8 * n))) := by
      rw [next, Nat.mod_mul]
    simp only [toBytes, ofBytes, ih, UInt8.toNat_ofNat', split]
    omega

/-- The sum of two 64-bit words, or the largest 64-bit word where it does not fit. -/
def saturatingAdd (a b : UInt64) : UInt64 :=
  UInt64.ofNat (min (a.toNat + b.toNat) (UInt64.size - 1))

theorem toNat_saturatingAdd (a b : UInt64) :
    (saturatingAdd a b).toNat = min (a.toNat + b.toNat) (UInt64.size - 1) := by
  simp only [saturatingAdd, UInt64.toNat_ofNat']
  apply Nat.mod_eq_of_lt
  simp only [UInt64.size]
  omega

end GuestKernel
