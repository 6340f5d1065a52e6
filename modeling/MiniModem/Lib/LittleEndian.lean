import Mathlib.Data.Nat.Bitwise
import Mathlib.Tactic.Ring

/-!
# Little-endian 16-bit words

A 16-bit word travels as its low byte followed by its high byte. `lowByte`/`highByte` take a word
apart with a mask and a shift, `ofBytes` puts it together again with a shift and a bitwise or, and the
lemmas below turn all three into arithmetic on `Nat`, from which the two round trips follow.
-/

namespace MiniModem.Lib

/-- Bytes in a buffer or on a wire. -/
abbrev Bytes := List UInt8

/-- The byte sent first. -/
def lowByte (v : UInt16) : UInt8 := (v &&& 0xff).toUInt8

/-- The byte sent second. -/
def highByte (v : UInt16) : UInt8 := (v >>> 8).toUInt8

/-- The word whose bytes are `lo` and `hi`. -/
def ofBytes (lo hi : UInt8) : UInt16 := lo.toUInt16 ||| hi.toUInt16 <<< 8

/-- The low byte is the remainder modulo 256. -/
lemma toNat_lowByte (v : UInt16) : (lowByte v).toNat = v.toNat % 256 := by
  have mask : v.toNat &&& 255 = v.toNat % 256 := Nat.and_two_pow_sub_one_eq_mod v.toNat 8
  have wide : (v &&& 0xff).toNat = v.toNat % 256 := by
    rw [UInt16.toNat_and]
    exact mask
  rw [lowByte, UInt16.toNat_toUInt8, wide]
  omega

/-- The high byte is the quotient by 256. -/
lemma toNat_highByte (v : UInt16) : (highByte v).toNat = v.toNat / 256 := by
  have lt := v.toNat_lt
  have shift : (v >>> 8).toNat = v.toNat / 256 := by
    rw [UInt16.toNat_shiftRight, Nat.shiftRight_eq_div_pow]
    rfl
  rw [highByte, UInt16.toNat_toUInt8, shift]
  omega

/-- The two bytes of a word do not overlap, so the bitwise or is a sum. -/
lemma toNat_ofBytes (lo hi : UInt8) : (ofBytes lo hi).toNat = lo.toNat + 256 * hi.toNat := by
  have ltLo := lo.toNat_lt
  have ltHi := hi.toNat_lt
  have shift : (hi.toUInt16 <<< 8).toNat = hi.toNat <<< 8 := by
    rw [UInt16.toNat_shiftLeft, UInt8.toNat_toUInt16, Nat.shiftLeft_eq]
    simp
    omega
  rw [ofBytes, UInt16.toNat_or, UInt8.toNat_toUInt16, shift, Nat.or_comm,
    ← Nat.shiftLeft_add_eq_or_of_lt ltLo, Nat.shiftLeft_eq]
  ring

/-- Joining the bytes of a word gives the word back. -/
@[simp] lemma ofBytes_split (v : UInt16) : ofBytes (lowByte v) (highByte v) = v := by
  apply UInt16.toNat_inj.mp
  rw [toNat_ofBytes, toNat_lowByte, toNat_highByte]
  omega

/-- The low byte of a joined word. -/
@[simp] lemma lowByte_ofBytes (lo hi : UInt8) : lowByte (ofBytes lo hi) = lo := by
  have lt := lo.toNat_lt
  apply UInt8.toNat_inj.mp
  rw [toNat_lowByte, toNat_ofBytes]
  omega

/-- The high byte of a joined word. -/
@[simp] lemma highByte_ofBytes (lo hi : UInt8) : highByte (ofBytes lo hi) = hi := by
  have lt := lo.toNat_lt
  apply UInt8.toNat_inj.mp
  rw [toNat_highByte, toNat_ofBytes]
  omega

end MiniModem.Lib
