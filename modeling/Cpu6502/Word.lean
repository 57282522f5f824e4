/-
Bytes, addresses and the little-endian words built from them. An address is a
16-bit word, so arithmetic on it wraps from the top of the space to its bottom.
-/

namespace Cpu6502

abbrev Byte := UInt8

abbrev Address := UInt16

def Address.ofBytes (low high : Byte) : Address :=
  low.toUInt16 + 256 * high.toUInt16

def Address.lowByte (address : Address) : Byte :=
  address.toUInt8

def Address.highByte (address : Address) : Byte :=
  (address / 256).toUInt8

theorem Address.toNat_ofBytes (low high : Byte) :
    (Address.ofBytes low high).toNat = low.toNat + 256 * high.toNat := by
  have lowBound := low.toNat_lt
  have highBound := high.toNat_lt
  simp only [Address.ofBytes, UInt16.toNat_add, UInt16.toNat_mul, UInt8.toNat_toUInt16,
    UInt16.reduceToNat]
  omega

theorem Address.toNat_lowByte (address : Address) : address.lowByte.toNat = address.toNat % 256 :=
  UInt16.toNat_toUInt8 address

theorem Address.toNat_highByte (address : Address) :
    address.highByte.toNat = address.toNat / 256 := by
  have bound := address.toNat_lt
  simp only [Address.highByte, UInt16.toNat_toUInt8, UInt16.toNat_div, UInt16.reduceToNat]
  omega

@[simp] theorem Address.lowByte_ofBytes (low high : Byte) :
    (Address.ofBytes low high).lowByte = low := by
  have lowBound := low.toNat_lt
  apply UInt8.toNat_inj.mp
  rw [toNat_lowByte, toNat_ofBytes]
  omega

@[simp] theorem Address.highByte_ofBytes (low high : Byte) :
    (Address.ofBytes low high).highByte = high := by
  have lowBound := low.toNat_lt
  apply UInt8.toNat_inj.mp
  rw [toNat_highByte, toNat_ofBytes]
  omega

@[simp] theorem Address.ofBytes_lowByte_highByte (address : Address) :
    Address.ofBytes address.lowByte address.highByte = address := by
  apply UInt16.toNat_inj.mp
  rw [toNat_ofBytes, toNat_lowByte, toNat_highByte]
  omega

end Cpu6502
