import ServerStudy.Core.LittleEndian
import ServerStudy.Core.Memory

/-!
# `PacketBuffer` (Shared/PacketBuffer.h, Shared/PacketBuffer.cpp)

A 65535-byte array with two `uint16` positions. Bytes between `readPos` and
`writePos` are unread; bytes before `readPos` are stale until a compaction
(`reArrange`) moves the unread ones to the front.

`buffer` is the memory from `buffer.data()` on, so that an access past the
array is an access like any other: the array is its first `maxBufSize` bytes.
What such an access does to anything else is left out. That includes the
positions: in the compiled class `readPos` lies a byte of padding behind the
array, so that a header written past the end hits its low byte, and here it
does not. `effects` records every copy into or within the array and every
addition to a position, with which one can say that there is no such access.

Log output is left out.
-/

namespace ServerStudy

open ServerStudy.Core

/-- `char`. -/
abbrev Byte := UInt8

/-- `MAX_BUF_SIZE` (util.h). -/
def maxBufSize : Nat := 65535

/-- What an operation did to the array or to a position. -/
inductive Effect
  | load (r : Region)
  | store (r : Region)
  /-- `pos += inc` on a `uint16` field, before the sum is narrowed. -/
  | advance (pos inc : Nat)
  deriving DecidableEq, Repr

/-- The copy stays in the array; the sum fits the field. -/
def Effect.InRange : Effect → Prop
  | .load r => r.Inside 0 maxBufSize
  | .store r => r.Inside 0 maxBufSize
  | .advance pos inc => pos + inc < 65536

instance : DecidablePred Effect.InRange
  | .load r => inferInstanceAs (Decidable (r.Inside 0 maxBufSize))
  | .store r => inferInstanceAs (Decidable (r.Inside 0 maxBufSize))
  | .advance pos inc => inferInstanceAs (Decidable (pos + inc < 65536))

structure PacketBuffer where
  buffer : Mem Byte
  readPos : UInt16
  writePos : UInt16
  /-- Ghost: the effects so far, oldest first. -/
  effects : List Effect

/-- A protobuf message about to be sent: `PROTOCOL_NUMBER` of its type and the
`ByteSize()` bytes `SerializeToArray` writes. -/
structure Packet where
  protocolNumber : UInt16
  bytes : List Byte
  deriving DecidableEq, Repr

/-- `packet.ByteSize()`. -/
def Packet.byteSize (packet : Packet) : Nat := packet.bytes.length

/-- `packet.SerializeToArray` into a zeroed array of `size` bytes: refused if
the message is longer. -/
def Packet.serializeToArray (packet : Packet) (size : Nat) : Option (Mem Byte) :=
  if size < packet.byteSize then none else some (Mem.ofList 0 packet.bytes)

namespace PacketBuffer

/-- The constructor. `past` is what memory holds after the array. -/
def new (past : Mem Byte) : PacketBuffer where
  buffer := fun i => if i < maxBufSize then 0 else past i
  readPos := 0
  writePos := 0
  effects := []

/-! ## Reading -/

def getHeaderSize : UInt16 := 2 + 2

def getRemainSize (pb : PacketBuffer) : UInt16 :=
  UInt16.ofNat (maxBufSize - pb.writePos.toNat)

def getBuffer (pb : PacketBuffer) : Mem Byte := pb.buffer.offset pb.readPos.toNat

def getBufferSize (pb : PacketBuffer) : UInt16 :=
  if pb.readPos > pb.writePos then 0 else pb.writePos - pb.readPos

def getPacketBuffer (pb : PacketBuffer) : Mem Byte := pb.getBuffer

def getPacketSize (pb : PacketBuffer) : UInt16 :=
  if pb.getBufferSize < 2 then 0 else ofLe16 (pb.getBuffer.slice 0 2)

/-- Compares `writePos`, not the number of unread bytes, with the header. -/
def getPacketNo (pb : PacketBuffer) : UInt16 :=
  if pb.writePos < getHeaderSize then 0 else ofLe16 (pb.getBuffer.slice 2 2)

def isAbleToGetPacket (pb : PacketBuffer) : Bool :=
  let packetSize := pb.getPacketSize
  -- also a size field that holds 0
  if packetSize = 0 then false
  else
    let packetBufferSize := pb.getBufferSize
    if packetBufferSize = 0 then false
    else decide (packetSize ≤ packetBufferSize)

def getPayloadBuffer (pb : PacketBuffer) : Mem Byte :=
  pb.getBuffer.offset getHeaderSize.toNat

/-- The difference is narrowed to `uint16`: it wraps for a size below 4. -/
def getPayloadBufferSize (pb : PacketBuffer) : UInt16 := pb.getPacketSize - getHeaderSize

/-- The bytes given to `ParseFromArray`. -/
def payload (pb : PacketBuffer) : List Byte :=
  pb.getPayloadBuffer.slice 0 pb.getPayloadBufferSize.toNat

/-- The bytes from `getBuffer` on, `getBufferSize` many. -/
def unread (pb : PacketBuffer) : List Byte := pb.getBuffer.slice 0 pb.getBufferSize.toNat

/-- The part of the array `getPacketSize` copies from. -/
def getPacketSizeLoads (pb : PacketBuffer) : List Region :=
  if pb.getBufferSize < 2 then [] else [⟨pb.readPos.toNat, 2⟩]

/-- The part of memory `getPacketNo` copies from. -/
def getPacketNoLoads (pb : PacketBuffer) : List Region :=
  if pb.writePos < getHeaderSize then [] else [⟨pb.readPos.toNat + 2, 2⟩]

/-- `[getPayloadBuffer(), getPayloadBuffer() + getPayloadBufferSize())`. -/
def payloadRegion (pb : PacketBuffer) : Region :=
  ⟨pb.readPos.toNat + getHeaderSize.toNat, pb.getPayloadBufferSize.toNat⟩

/-! ## Writing -/

/-- `CopyMemory(buffer.data() + writePos, src, size); writePos += size;` -/
def write (pb : PacketBuffer) (src : Mem Byte) (size : UInt16) : PacketBuffer where
  buffer := pb.buffer.copy pb.writePos.toNat src size.toNat
  readPos := pb.readPos
  writePos := pb.writePos + size
  effects := pb.effects ++
    [.store ⟨pb.writePos.toNat, size.toNat⟩, .advance pb.writePos.toNat size.toNat]

def reArrange (pb : PacketBuffer) : PacketBuffer :=
  let bufferSize := pb.getBufferSize
  { buffer := pb.buffer.copy 0 pb.getBuffer bufferSize.toNat
    readPos := 0
    writePos := bufferSize
    effects := pb.effects ++
      [.load ⟨pb.readPos.toNat, bufferSize.toNat⟩, .store ⟨0, bufferSize.toNat⟩] }

/-- The compaction `AppendBuffer` and `SetPacket` try before they test the
room: `if (size > GetRemainSize()) ReArrange();` -/
def makeRoom (pb : PacketBuffer) (size : UInt16) : PacketBuffer :=
  if size > pb.getRemainSize then pb.reArrange else pb

/-- `pBuffer` is `none` for a null pointer. -/
def appendBuffer (pb : PacketBuffer) (pBuffer : Option (Mem Byte)) (size : UInt16) :
    Bool × PacketBuffer :=
  match pBuffer with
  | none => (false, pb)
  | some src =>
      if size = 0 then (false, pb)
      else
        let pb := pb.makeRoom size
        -- refused, the window stays compacted
        if size > pb.getRemainSize then (false, pb)
        else (true, pb.write src size)

def clear (pb : PacketBuffer) : PacketBuffer where
  buffer := fun i => if i < maxBufSize then 0 else pb.buffer i
  readPos := 0
  writePos := 0
  effects := pb.effects ++ [.store ⟨0, maxBufSize⟩]

def truncateBuffer (pb : PacketBuffer) (size : UInt16) : PacketBuffer :=
  if size > pb.getBufferSize then pb
  else
    { pb with
      readPos := pb.readPos + size
      effects := pb.effects ++ [.advance pb.readPos.toNat size.toNat] }

def consumePacket (pb : PacketBuffer) : PacketBuffer :=
  let packetSize := pb.getPacketSize
  pb.truncateBuffer packetSize

def setPacketSize (pb : PacketBuffer) (packetSize : UInt16) : Bool × PacketBuffer :=
  if packetSize.toNat > maxBufSize then (false, pb)
  else (true, pb.write (Mem.ofList 0 (le16 packetSize)) 2)

def setPacketNo (pb : PacketBuffer) (packetNo : UInt16) : Bool × PacketBuffer :=
  (true, pb.write (Mem.ofList 0 (le16 packetNo)) 2)

/-- `packetSize` is an `int` sum narrowed to `uint16`, and so is the size
handed to `appendBuffer`. -/
def setPacket (pb : PacketBuffer) (packet : Packet) : Bool × PacketBuffer :=
  let packetSize : UInt16 := UInt16.ofNat (getHeaderSize.toNat + packet.byteSize)
  let pb := pb.makeRoom packetSize
  if packetSize > pb.getRemainSize then (false, pb)
  else
    -- from here on a refusal leaves the header in the buffer
    match pb.setPacketSize packetSize with
    | (false, pb) => (false, pb)
    | (true, pb) =>
    match pb.setPacketNo packet.protocolNumber with
    | (false, pb) => (false, pb)
    | (true, pb) =>
    match packet.serializeToArray maxBufSize with
    | none => (false, pb)
    | some buffer =>
    match pb.appendBuffer (some buffer) (UInt16.ofNat packet.byteSize) with
    | (false, pb) => (false, pb)
    | (true, pb) => (true, pb)

end PacketBuffer

end ServerStudy
