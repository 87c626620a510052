import Mathlib.Algebra.Group.Nat.Defs
import ServerStudy.Shared.PacketBuffer

/-!
# Reading from an array (google/protobuf/io/coded_stream.h, coded_stream.cc)

`CodedInputStream` as `ParseFromArray` makes it: there is no underlying stream
and nobody pushes a limit, so `total_bytes_read_` and `current_limit_` are both
the size of the array all along, `buffer_size_after_limit_` is 0, and
`Refresh()` returns false. Sizes are those of an `int`.

The fast paths read through a pointer without looking at `buffer_end_`;
`memory` goes on past the array so that they can be followed there.
A reader that returns false is `none`: where it stands then is not looked at
by any caller.
-/

namespace ServerStudy.Protobuf

open ServerStudy.Core

def kMaxVarintBytes : Nat := 10

def kMaxVarint32Bytes : Nat := 5

/-- 64 MB. -/
def kDefaultTotalBytesLimit : Nat := 64 * 2 ^ 20

/-- `default_recursion_limit_`. -/
def defaultRecursionLimit : Nat := 100

structure CodedInputStream where
  /-- The memory from the start of the array on. -/
  memory : Mem Byte
  buffer : Nat
  bufferEnd : Nat
  lastTag : UInt32
  legitimateMessageEnd : Bool
  recursionDepth : Nat

namespace CodedInputStream

/-- `CodedInputStream(buffer, size)`. -/
def new (memory : Mem Byte) (size : Nat) : CodedInputStream where
  memory := memory
  buffer := 0
  bufferEnd := size
  lastTag := 0
  legitimateMessageEnd := false
  recursionDepth := 0

def bufferSize (s : CodedInputStream) : Nat := s.bufferEnd - s.buffer

def advance (s : CodedInputStream) (amount : Nat) : CodedInputStream :=
  { s with buffer := s.buffer + amount }

/-- `total_bytes_read_`, which is also `current_limit_`. -/
def totalBytesRead (s : CodedInputStream) : Nat := s.bufferEnd

end CodedInputStream

/-! ## Varints -/

/-- `b & 0x80`. -/
def continues (b : Byte) : Bool := b &&& 0x80 != 0

/-- `count` of the unrolled steps of a varint, each a byte added at `shift`;
whether it ended there. The last step of a whole number also takes back the
high bit, which is shifted out. -/
def varintPart (memory : Mem Byte) :
    (count : Nat) → (shift : UInt32) → (ptr : Nat) → (part : UInt32) → UInt32 × Nat × Bool
  | 0, _, ptr, part => (part, ptr, false)
  | count + 1, shift, ptr, part =>
      let b := memory ptr
      let part := part + (b.toUInt32 <<< shift)
      if continues b then
        varintPart memory count (shift + 7) (ptr + 1) (part - ((0x80 : UInt32) <<< shift))
      else (part, ptr + 1, true)

/-- The bytes of a varint past 32 bits, which are read and discarded. -/
def discardVarint (memory : Mem Byte) : (count : Nat) → (ptr : Nat) → Option Nat
  | 0, _ => none
  | count + 1, ptr =>
      if continues (memory ptr) then discardVarint memory count (ptr + 1) else some (ptr + 1)

/-- `NULL` is `none`. -/
def readVarint32FromArray (memory : Mem Byte) (ptr : Nat) : Option (UInt32 × Nat) :=
  match varintPart memory kMaxVarint32Bytes 0 ptr 0 with
  | (result, ptr, true) => some (result, ptr)
  | (result, ptr, false) =>
      match discardVarint memory (kMaxVarintBytes - kMaxVarint32Bytes) ptr with
      | none => none
      | some ptr => some (result, ptr)

/-- The fast path of `ReadVarint64Fallback`, in 32-bit pieces. -/
def readVarint64FromArray (memory : Mem Byte) (ptr : Nat) : Option (UInt64 × Nat) :=
  match varintPart memory 4 0 ptr 0 with
  | (part0, ptr, true) => some (part0.toUInt64, ptr)
  | (part0, ptr, false) =>
      match varintPart memory 4 0 ptr 0 with
      | (part1, ptr, true) => some (part0.toUInt64 ||| part1.toUInt64 <<< 28, ptr)
      | (part1, ptr, false) =>
          match varintPart memory 2 0 ptr 0 with
          | (part2, ptr, true) =>
              some (part0.toUInt64 ||| part1.toUInt64 <<< 28 ||| part2.toUInt64 <<< 56, ptr)
          | (_, _, false) => none

/-- The loop of `ReadVarint64Slow` with `left` bytes to `kMaxVarintBytes`. -/
def slowLoop (memory : Mem Byte) (bufferEnd : Nat) :
    (left count ptr : Nat) → (result : UInt64) → Option (UInt64 × Nat)
  | 0, _, _, _ => none
  | left + 1, count, ptr, result =>
      if ptr = bufferEnd then none
      else
        let b := memory ptr
        let result := result ||| (b &&& 0x7F).toUInt64 <<< UInt64.ofNat (7 * count)
        if continues b then slowLoop memory bufferEnd left (count + 1) (ptr + 1) result
        else some (result, ptr + 1)

namespace CodedInputStream

/-- The fast path is safe: ten bytes are left, or the last byte would end a
varint. -/
def fast (s : CodedInputStream) : Bool :=
  kMaxVarintBytes ≤ s.bufferSize ||
    (s.buffer < s.bufferEnd && !continues (s.memory (s.bufferEnd - 1)))

def readVarint64Slow (s : CodedInputStream) : Option (UInt64 × CodedInputStream) :=
  match slowLoop s.memory s.bufferEnd kMaxVarintBytes 0 s.buffer 0 with
  | none => none
  | some (value, ptr) => some (value, { s with buffer := ptr })

def readVarint64Fallback (s : CodedInputStream) : Option (UInt64 × CodedInputStream) :=
  if s.fast then
    match readVarint64FromArray s.memory s.buffer with
    | none => none
    | some (value, ptr) => some (value, s.advance (ptr - s.buffer))
  else s.readVarint64Slow

def readVarint64 (s : CodedInputStream) : Option (UInt64 × CodedInputStream) :=
  if s.buffer < s.bufferEnd && s.memory s.buffer < 0x80 then
    some ((s.memory s.buffer).toUInt64, s.advance 1)
  else s.readVarint64Fallback

def readVarint32Slow (s : CodedInputStream) : Option (UInt32 × CodedInputStream) :=
  match s.readVarint64Fallback with
  | none => none
  | some (result, s) => some (result.toUInt32, s)

def readVarint32Fallback (s : CodedInputStream) : Option (UInt32 × CodedInputStream) :=
  if s.fast then
    match readVarint32FromArray s.memory s.buffer with
    | none => none
    | some (value, ptr) => some (value, { s with buffer := ptr })
  else s.readVarint32Slow

def readVarint32 (s : CodedInputStream) : Option (UInt32 × CodedInputStream) :=
  if s.buffer < s.bufferEnd && s.memory s.buffer < 0x80 then
    some ((s.memory s.buffer).toUInt32, s.advance 1)
  else s.readVarint32Fallback

/-! ## Tags -/

/-- A tag of 0 is a failure or the end; at a legitimate end the flag is set. -/
def readTagSlow (s : CodedInputStream) : UInt32 × CodedInputStream :=
  if s.buffer = s.bufferEnd then
    -- `Refresh()` fails, and the limits are compared
    if kDefaultTotalBytesLimit ≤ s.totalBytesRead then
      (0, { s with legitimateMessageEnd := s.totalBytesRead = kDefaultTotalBytesLimit })
    else (0, { s with legitimateMessageEnd := true })
  else
    match s.readVarint64 with
    | none => (0, s)
    | some (result, s) => (result.toUInt32, s)

def readTagFallback (s : CodedInputStream) : UInt32 × CodedInputStream :=
  if s.fast then
    match readVarint32FromArray s.memory s.buffer with
    | none => (0, s)
    | some (tag, ptr) => (tag, { s with buffer := ptr })
  else if s.bufferSize = 0 && s.totalBytesRead < kDefaultTotalBytesLimit then
    (0, { s with legitimateMessageEnd := true })
  else s.readTagSlow

/-- `last_tag_ = ReadTagFallback()`. -/
def readLastTag (s : CodedInputStream) : UInt32 × CodedInputStream :=
  match s.readTagFallback with
  | (tag, s) => (tag, { s with lastTag := tag })

def readTag (s : CodedInputStream) : UInt32 × CodedInputStream :=
  if s.buffer < s.bufferEnd && s.memory s.buffer < 0x80 then
    let tag := (s.memory s.buffer).toUInt32
    (tag, { s.advance 1 with lastTag := tag })
  else s.readLastTag

/-- The tag and whether it is at or below the cutoff. -/
def readTagWithCutoff (s : CodedInputStream) (cutoff : UInt32) :
    (UInt32 × Bool) × CodedInputStream :=
  let b₀ := s.memory s.buffer
  let b₁ := s.memory (s.buffer + 1)
  if s.buffer < s.bufferEnd && 0 < b₀ && b₀ < 0x80 then
    let tag := b₀.toUInt32
    ((tag, 0x7f ≤ cutoff || tag ≤ cutoff), { s.advance 1 with lastTag := tag })
  else if s.buffer < s.bufferEnd && 0x80 ≤ cutoff && s.buffer + 1 < s.bufferEnd &&
      0x80 ≤ b₀ &&& ~~~b₁ then
    let tag := ((1 : UInt32) <<< 7) * b₁.toUInt32 + (b₀.toUInt32 - 0x80)
    ((tag, ((0x7f : UInt32) <<< 7) + 0x7f ≤ cutoff || tag ≤ cutoff),
      { s.advance 2 with lastTag := tag })
  else
    match s.readLastTag with
    | (tag, s) => ((tag, tag - 1 < cutoff), s)

def lastTagWas (s : CodedInputStream) (expected : UInt32) : Bool := s.lastTag = expected

def expectAtEnd (s : CodedInputStream) : Bool × CodedInputStream :=
  if s.buffer = s.bufferEnd then (true, { s with lastTag := 0, legitimateMessageEnd := true })
  else (false, s)

def consumedEntireMessage (s : CodedInputStream) : Bool := s.legitimateMessageEnd

/-! ## Fixed sizes, strings and groups -/

/-- The bytes from `buffer_` on. -/
def bytes (s : CodedInputStream) (size : Nat) : List Byte := s.memory.slice s.buffer size

/-- Both `ReadRaw` and the fast path: the array is all there is. -/
def readLittleEndian32 (s : CodedInputStream) : Option (UInt32 × CodedInputStream) :=
  if 4 ≤ s.bufferSize then some (UInt32.ofNat (ofLe (s.bytes 4)), s.advance 4) else none

def readLittleEndian64 (s : CodedInputStream) : Option (UInt64 × CodedInputStream) :=
  if 8 ≤ s.bufferSize then some (UInt64.ofNat (ofLe (s.bytes 8)), s.advance 8) else none

/-- `InternalReadStringInline`; the size becomes an `int`. -/
def readString (s : CodedInputStream) (size : UInt32) : Option (List Byte × CodedInputStream) :=
  if 2 ^ 31 ≤ size.toNat then none
  else if size.toNat ≤ s.bufferSize then some (s.bytes size.toNat, s.advance size.toNat)
  else none

def incrementRecursionDepth (s : CodedInputStream) : Bool × CodedInputStream :=
  let s := { s with recursionDepth := s.recursionDepth + 1 }
  (s.recursionDepth ≤ defaultRecursionLimit, s)

def decrementRecursionDepth (s : CodedInputStream) : CodedInputStream :=
  if 0 < s.recursionDepth then { s with recursionDepth := s.recursionDepth - 1 } else s

end CodedInputStream

end ServerStudy.Protobuf
