import ServerStudy.Shared.PacketBuffer

/-!
# The dispatcher (MServer/PacketHandlerManager.h)

A table of functors indexed by packet number. `Handle` looks the number of
the head packet up and passes the packet to the functor found there, which
parses the payload, consumes the packet and only then runs the handler.

A handler reaches the session through its public functions, and none of those
it uses touches `recvBuffer`. So it is a function on the rest of the session,
a type `σ` of the session's own; `Msg` is the type its messages are parsed
to.
-/

namespace ServerStudy

open ServerStudy.Core

/-- Ghost: one run of a handler. -/
structure Dispatch (Msg : Type) where
  packetNo : UInt16
  /-- The bytes handed to `ParseFromArray`. -/
  payload : List Byte
  message : Msg
  /-- The bytes `ConsumePacket` removed. -/
  packet : List Byte
  /-- The unread bytes of `recvBuffer` when the handler starts. -/
  unread : List Byte

/-- Ghost: the session at a call of `Handle`. -/
structure HandleCall (σ : Type) where
  recvBuffer : PacketBuffer
  rest : σ

/-- Ghost: what has happened to a receive buffer, oldest first. -/
structure RecvTrace (σ Msg : Type) where
  /-- The bytes `AppendBuffer` has taken. -/
  accepted : List Byte
  entered : List (HandleCall σ)
  dispatches : List (Dispatch Msg)

/-- `SessionBase`: the receive buffer and the rest. -/
structure SessionBase (σ Msg : Type) where
  recvBuffer : PacketBuffer
  rest : σ
  trace : RecvTrace σ Msg

/-- `PacketFunctor<TSession, TProtoBuf>`: the parser of its message and
`PacketHandler<TSession, TProtoBuf>::operator()`. -/
structure PacketFunctor (σ Msg : Type) where
  parseFromArray : List Byte → Option Msg
  handler : σ → Msg → Bool × σ

/-- `packetFunctors.size()`, which is `UINT16_MAX`. -/
def packetFunctorsSize : Nat := 65535

/-- The table. Its entries are those below `packetFunctorsSize`; the word
after them is what an access with number 65535 gets. -/
structure PacketHandlerManager (σ Msg : Type) where
  packetFunctors : UInt16 → Option (PacketFunctor σ Msg)

variable {σ Msg : Type}

/-- `packetBuffer.ConsumePacket()` in `Handle`, and its ghost record. -/
def SessionBase.consumePacket (s : SessionBase σ Msg) (protobuf : Msg) : SessionBase σ Msg :=
  let rb := s.recvBuffer.consumePacket
  let dispatch : Dispatch Msg :=
    { packetNo := s.recvBuffer.getPacketNo
      payload := s.recvBuffer.payload
      message := protobuf
      packet := s.recvBuffer.unread.take (s.recvBuffer.unread.length - rb.unread.length)
      unread := rb.unread }
  { s with
    recvBuffer := rb
    trace := { s.trace with dispatches := s.trace.dispatches ++ [dispatch] } }

/-- `PacketFunctor::Handle`. -/
def PacketFunctor.handle (f : PacketFunctor σ Msg) (s : SessionBase σ Msg) :
    Bool × SessionBase σ Msg :=
  match f.parseFromArray s.recvBuffer.payload with
  -- the packet is not consumed
  | none => (false, s)
  | some protobuf =>
      let s := s.consumePacket protobuf
      match f.handler s.rest protobuf with
      | (result, rest) => (result, { s with rest := rest })

/-- Ghost: record a call of `Handle`. -/
def SessionBase.enter (s : SessionBase σ Msg) : SessionBase σ Msg :=
  { s with
    trace := { s.trace with entered := s.trace.entered ++ [⟨s.recvBuffer, s.rest⟩] } }

namespace PacketHandlerManager

/-- `PacketHandlerManager::Handle`. The number is not checked. -/
def handle (mgr : PacketHandlerManager σ Msg) (s : SessionBase σ Msg) :
    Bool × SessionBase σ Msg :=
  let s := s.enter
  let packetNo := s.recvBuffer.getPacketNo
  match mgr.packetFunctors packetNo with
  | none => (false, s)
  | some pFnPacketHandler => pFnPacketHandler.handle s

/-- `ClearPacketFunctors`: every entry of the table. -/
def clearPacketFunctors (mgr : PacketHandlerManager σ Msg) : PacketHandlerManager σ Msg where
  packetFunctors := fun no =>
    if no.toNat < packetFunctorsSize then none else mgr.packetFunctors no

/-- `Register<TProtoBuf>(protocolNumber)`. -/
def register (mgr : PacketHandlerManager σ Msg) (functor : PacketFunctor σ Msg)
    (protocolNumber : UInt16) : Bool × PacketHandlerManager σ Msg :=
  if protocolNumber.toNat > packetFunctorsSize then (false, mgr)
  else
    match mgr.packetFunctors protocolNumber with
    | some _ => (false, mgr)
    | none =>
        (true, { packetFunctors := fun no =>
          if no = protocolNumber then some functor else mgr.packetFunctors no })

/-- Ghost: the indexes at which `Register` accesses the table. -/
def registerAccesses (protocolNumber : UInt16) : List Nat :=
  if protocolNumber.toNat > packetFunctorsSize then [] else [protocolNumber.toNat]

/-- Ghost: the indexes at which `Handle` accesses the table. -/
def handleAccesses (packetBuffer : PacketBuffer) : List Nat := [packetBuffer.getPacketNo.toNat]

end PacketHandlerManager

end ServerStudy
