import CongestionResponse.Lib.Wire

/-! `QuicDataWriter` and `QuicDataReader` in network byte order.

Each function of the source writes or reads one field; a reader names the error its
caller reports where the field is cut short. -/
namespace CongestionResponse.Quic
open Lib

/-! ### `UFloat16` -/

def kUFloat16MaxExponent : Nat := 30
def kUFloat16MantissaBits : Nat := 11
def kUFloat16MantissaEffectiveBits : Nat := 12
def kUFloat16MaxValue : Nat := (2 ^ kUFloat16MantissaEffectiveBits - 1) <<< kUFloat16MaxExponent

/-- One step of the binary search for the highest bit. -/
def shiftMantissa (s : Nat × Nat) (offset : Nat) : Nat × Nat :=
  if 2 ^ (kUFloat16MantissaBits + offset) ≤ s.2 then (s.1 + offset, s.2 >>> offset) else s

/-- The 16 bits that `WriteUFloat16` writes. -/
def toUFloat16 (value : Nat) : Nat :=
  if value < 2 ^ kUFloat16MantissaEffectiveBits then value
  else if kUFloat16MaxValue ≤ value then 2 ^ 16 - 1
  else
    let s := [16, 8, 4, 2, 1].foldl shiftMantissa (0, value)
    (s.2 + s.1 <<< kUFloat16MantissaBits) % 2 ^ 16

/-- The value that `ReadUFloat16` makes of 16 bits. -/
def fromUFloat16 (value : Nat) : Nat :=
  if value < 2 ^ kUFloat16MantissaEffectiveBits then value
  else
    let exponent := value >>> kUFloat16MantissaBits - 1
    (value - exponent <<< kUFloat16MantissaBits) <<< exponent

/-! ### `QuicDataWriter` -/

def writeUInt8 (value : UInt8) : Write Unit := .bytes [value]

def writeUInt32 (value : Nat) : Write Unit := .bytes (bigEndian 4 value)

def writeBytesToUInt64 (numBytes value : Nat) : Write Unit := .bytes (bigEndian numBytes value)

def writeUFloat16 (value : Nat) : Write Unit := .bytes (bigEndian 2 (toUFloat16 value))

def writeConnectionId (connectionId : Nat) : Write Unit := .bytes (bigEndian 8 connectionId)

/-- `WriteTag` of a version label, which the callers turn round before. -/
def writeVersionLabel (versionLabel : Nat) : Write Unit := .bytes (bigEndian 4 versionLabel)

/-! ### `QuicDataReader` -/

section Reader
variable {κ : Type}

def readBytesToUInt64 (numBytes : Nat) (error : String) : Parse String κ Nat := do
  let bytes ← Parse.take numBytes error
  return fromBigEndian bytes

def readUInt8 (error : String) : Parse String κ Nat := readBytesToUInt64 1 error
def readUInt16 (error : String) : Parse String κ Nat := readBytesToUInt64 2 error
def readUInt32 (error : String) : Parse String κ Nat := readBytesToUInt64 4 error
def readUInt64 (error : String) : Parse String κ Nat := readBytesToUInt64 8 error

def readUFloat16 (error : String) : Parse String κ Nat := do
  let value ← readUInt16 error
  return fromUFloat16 value

def readStringPiece (size : Nat) (error : String) : Parse String κ (List UInt8) :=
  Parse.take size error

def readStringPiece16 (error : String) : Parse String κ (List UInt8) := do
  let size ← readUInt16 error
  readStringPiece size error

theorem reads_uint_mod (numBytes value : Nat) (error : String) :
    Reads (readBytesToUInt64 numBytes error : Parse String κ Nat) (bigEndian numBytes value) []
      (value % 256 ^ numBytes) := by
  have hread := (Reads.take (κ := κ) (length_bigEndian numBytes value) error).map fromBigEndian
  rwa [fromBigEndian_bigEndian] at hread

/-- A number that fits its field is read as it was written. -/
theorem reads_uint {numBytes value : Nat} (h : value < 256 ^ numBytes) (error : String) :
    Reads (readBytesToUInt64 numBytes error : Parse String κ Nat) (bigEndian numBytes value) []
      value := by
  have hread := reads_uint_mod (κ := κ) numBytes value error
  rwa [Nat.mod_eq_of_lt h] at hread

theorem reads_ufloat16 (value : Nat) (error : String) :
    Reads (readUFloat16 error : Parse String κ Nat) (bigEndian 2 (toUFloat16 value)) []
      (fromUFloat16 (toUFloat16 value % 256 ^ 2)) :=
  (reads_uint_mod 2 (toUFloat16 value) error).map fromUFloat16

end Reader

/-! ### Reads that nobody checks -/

/-- A number whose read is not checked: where its bytes are missing it stays zero, and the
rest of the data is used up. -/
def readOrZero (numBytes : Nat) (data : List UInt8) : Nat × List UInt8 :=
  if numBytes ≤ data.length then (fromBigEndian (data.take numBytes), data.drop numBytes)
  else (0, [])

theorem readOrZero_lt (numBytes : Nat) (data : List UInt8) :
    (readOrZero numBytes data).1 < 256 ^ numBytes := by
  unfold readOrZero
  split
  · rename_i h
    have hlt := fromBigEndian_lt (data.take numBytes)
    rwa [List.length_take, Nat.min_eq_left h] at hlt
  · exact Nat.pow_pos (by decide)

theorem readOrZero_bigEndian {numBytes value : Nat} (h : value < 256 ^ numBytes)
    (rest : List UInt8) :
    readOrZero numBytes (bigEndian numBytes value ++ rest) = (value, rest) := by
  have hle : numBytes ≤ (bigEndian numBytes value ++ rest).length := by
    rw [List.length_append, length_bigEndian]
    exact Nat.le_add_right _ _
  have hlength := length_bigEndian numBytes value
  rw [readOrZero, if_pos hle, List.take_left' hlength, List.drop_left' hlength,
    fromBigEndian_bigEndian, Nat.mod_eq_of_lt h]

end CongestionResponse.Quic
