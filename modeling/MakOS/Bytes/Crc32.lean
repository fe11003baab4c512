/-
The reflected CRC-32 with polynomial `0xedb88320`, byte by byte, as a fold that can be continued:
checking a byte string in pieces gives the checksum of the whole.
-/
import MakOS.Bytes.Record

namespace MakOS.Bytes

/-- One bit of the reflected division. -/
def crcBit (crc : UInt32) : UInt32 := (crc >>> 1) ^^^ (0xedb88320 &&& (0 - (crc &&& 1)))

def crcByte (crc : UInt32) (byte : UInt8) : UInt32 :=
  (List.range 8).foldl (fun crc _ => crcBit crc) (crc ^^^ byte.toUInt32)

def crcUpdate (crc : UInt32) (bytes : List UInt8) : UInt32 := bytes.foldl crcByte crc

/-- The running checksum before any byte. -/
def crcNew : UInt32 := 0xffffffff

/-- The checksum a running value stands for. -/
def crcFinish (crc : UInt32) : UInt32 := ~~~crc

def crc32 (bytes : List UInt8) : UInt32 := crcFinish (crcUpdate crcNew bytes)

example : crc32 [0x31, 0x32, 0x33, 0x34, 0x35, 0x36, 0x37, 0x38, 0x39] = 0xcbf43926 := by decide +kernel

/-! ## Sealed records: the last four bytes hold the checksum of the others -/

def sealRecord {n : Nat} (record : Vector UInt8 n) : Vector UInt8 n :=
  putU32 record (n - 4) (crc32 (slice record 0 (n - 4)))

def sealed {n : Nat} (record : Vector UInt8 n) : Bool :=
  crc32 (slice record 0 (n - 4)) == getU32 record (n - 4)

theorem slice_sealRecord {n : Nat} (record : Vector UInt8 n) (offset length : Nat) (h : offset + length ≤ n - 4) :
    slice (sealRecord record) offset length = slice record offset length :=
  slice_put_other _ _ _ _ _ (.inl h)

theorem sealed_sealRecord {n : Nat} (record : Vector UInt8 n) (h : 4 ≤ n) : sealed (sealRecord record) = true := by
  unfold sealed
  rw [slice_sealRecord _ _ _ (by omega), sealRecord, getU32_putU32 _ _ _ (by omega)]
  exact beq_self_eq_true _

/-- A sealed record with the given fields. -/
def sealedFields (n : Nat) (fields : List (Nat × List UInt8)) : Vector UInt8 n :=
  sealRecord (writeFields (zeros n) fields)

section Fields

variable {n offset length : Nat} {fields : List (Nat × List UInt8)}

theorem slice_sealedFields {bytes : List UInt8} (h : Ascending (n - 4) fields) (hm : (offset, bytes) ∈ fields)
    (hl : bytes.length = length) : slice (sealedFields n fields) offset length = bytes := by
  have hin := h.within _ hm
  rw [sealedFields, slice_sealRecord _ _ _ (by rw [← hl]; exact hin),
    slice_writeFields _ (h.mono (Nat.sub_le ..)) hm hl]

theorem getLe_sealedFields {width value : Nat} (h : Ascending (n - 4) fields)
    (hm : (offset, leBytes width value) ∈ fields) (hv : value < 256 ^ width) :
    getLe (sealedFields n fields) offset width = value := by
  rw [getLe, slice_sealedFields h hm (length_leBytes ..), ofLe_leBytes_of_lt hv]

theorem getU32_sealedFields {value : UInt32} (h : Ascending (n - 4) fields)
    (hm : (offset, leBytes 4 value.toNat) ∈ fields) : getU32 (sealedFields n fields) offset = value := by
  rw [getU32, getLe_sealedFields h hm (by have := value.toNat_lt; omega), UInt32.ofNat_toNat]

theorem byteAt_sealedFields {byte : UInt8} (h : Ascending (n - 4) fields) (hm : (offset, [byte]) ∈ fields) :
    byteAt (sealedFields n fields) offset = byte := by
  have hin := h.within _ hm
  rw [List.length_singleton] at hin
  exact byteAt_of_slice (by omega) (slice_sealedFields h hm rfl)

theorem window_sealedFields {width : Nat} {part : Vector UInt8 width} (h : Ascending (n - 4) fields)
    (hm : (offset, part.toList) ∈ fields) : window (sealedFields n fields) offset width = part := by
  have hin := h.within _ hm
  rw [Vector.length_toList] at hin
  exact window_of_slice (by omega) (slice_sealedFields h hm (Vector.length_toList ..))

theorem sealed_sealedFields (h : 4 ≤ n) : sealed (sealedFields n fields) = true := sealed_sealRecord _ h

end Fields

end MakOS.Bytes
