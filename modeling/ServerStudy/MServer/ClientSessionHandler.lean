import ServerStudy.MServer.ClientSession
import ServerStudy.Shared.ChatMessage

/-!
# The Chat handler (MServer/ClientSessionHandler.cpp)

The reply to a message is the message, a comma and the number of replies the
process has made.
-/

namespace ServerStudy

open ServerStudy.Core

/-- Decimal digits, as `fmt` writes an unsigned integer. -/
def decimal (n : Nat) : Text := (Nat.toDigits 10 n).map fun c => UInt8.ofNat c.toNat

/-- `fmt::format("{},{}", message, count)`. -/
def formatReply (message : Text) (count : UInt64) : Text :=
  message ++ 44 :: decimal count.toNat

/-- The handler up to `SendPacket`: the counter and the reply. -/
def chatReply (codec : ChatCodec) (s : ClientState) (message : Text) : ClientState × Packet :=
  let count := s.count + 1
  ({ s with count := count }, codec.packet (formatReply message count))

/-- `PacketHandler<ClientSession, PC2S_Chat>::operator()`. The result of
`SendPacket` is dropped. -/
def chatHandler (codec : ChatCodec) (s : ClientState) (message : Text) : Bool × ClientState :=
  match chatReply codec s message with
  | (s, out) => (true, (s.sendPacket out).2)

def chatFunctor (codec : ChatCodec) : PacketFunctor ClientState Text where
  parseFromArray := codec.parseFromArray
  handler := chatHandler codec

/-- `_s_packet_handler_manager` after its constructor: cleared, then
`Initialize`. `past` is the word after the table. -/
def clientManager (codec : ChatCodec) (past : Option (PacketFunctor ClientState Text)) :
    PacketHandlerManager ClientState Text :=
  let cleared := PacketHandlerManager.clearPacketFunctors ⟨fun _ => past⟩
  (cleared.register (chatFunctor codec) chatProtocolNumber).2

/-- A `ClientSession`. -/
abbrev ClientSession := SessionBase ClientState Text

/-- `ClientSession()`: two empty buffers. The socket and the counter are not
the session's own. -/
def ClientSession.new (recvPast sendPast : Mem Byte) (sock : Socket) (count : UInt64) :
    ClientSession :=
  SessionBase.new recvPast ⟨.new sendPast, sock, count⟩

end ServerStudy
