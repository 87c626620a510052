import ServerStudy.Core.Varint
import ServerStudy.Shared.PacketBuffer

/-!
# `Chat` messages (Shared/protocol/protobuf, Shared/p_*.h)

`PC2S::Chat` and `PS2C::Chat` are one message type, `required string message
= 1`. The class protoc generates for it is a parameter, `ChatCodec`. What is
relied on is `ChatCodec.Lawful`: a message reads back, and `ByteSize()` is
that of a tag, a varint length and the text.

`chatWire` is a codec of that wire format; it accepts the field and nothing
else, where protobuf also skips unknown fields and takes the last of several.
-/

namespace ServerStudy

open ServerStudy.Core

/-- `std::string`. -/
abbrev Text := List Byte

/-- The generated class `Chat`: its serialized bytes and its parser. -/
structure ChatCodec where
  serialize : Text → List Byte
  parseFromArray : List Byte → Option Text

/-- `CodedOutputStream::VarintSize32`. -/
def varintSize32 (value : Nat) : Nat :=
  if value < 2 ^ 7 then 1
  else if value < 2 ^ 14 then 2
  else if value < 2 ^ 21 then 3
  else if value < 2 ^ 28 then 4
  else 5

/-- What protobuf promises for messages below its own limit of 2 GB. -/
structure ChatCodec.Lawful (codec : ChatCodec) : Prop where
  parse_serialize : ∀ m : Text, m.length < 2 ^ 31 →
    codec.parseFromArray (codec.serialize m) = some m
  byteSize : ∀ m : Text, m.length < 2 ^ 31 →
    (codec.serialize m).length = 1 + varintSize32 m.length + m.length

/-- `PC2S::ProtocolNumber::Chat` and `PS2C::ProtocolNumber::Chat`, the first of
their enumerations. -/
def chatProtocolNumber : UInt16 := 0

/-- A `PC2S_Chat` or `PS2C_Chat` with its message set. -/
def ChatCodec.packet (codec : ChatCodec) (message : Text) : Packet :=
  ⟨chatProtocolNumber, codec.serialize message⟩

/-! ## The wire format -/

/-- Field 1, length-delimited. -/
def chatTag : Byte := 10

def chatWire : ChatCodec where
  serialize m := chatTag :: (varint 5 m.length ++ m)
  parseFromArray
    | [] => none
    | tag :: rest =>
        if tag = chatTag then
          match readVarint 5 rest with
          | none => none
          | some (size, text) => if text.length = size then some text else none
        else none

theorem length_varint5 {n : Nat} (h : n < 2 ^ 31) : (varint 5 n).length = varintSize32 n := by
  have h1 : n < 128 ↔ n < 2 ^ 7 := by omega
  have h2 : n / 128 < 128 ↔ n < 2 ^ 14 := by omega
  have h3 : n / 128 / 128 < 128 ↔ n < 2 ^ 21 := by omega
  have h4 : n / 128 / 128 / 128 < 128 ↔ n < 2 ^ 28 := by omega
  have h5 : n / 128 / 128 / 128 / 128 < 128 := by omega
  simp only [varint, varintSize32, h1, h2, h3, h4, if_pos h5]
  split_ifs <;> rfl

theorem chatWire_lawful : chatWire.Lawful where
  parse_serialize m hm := by
    have hlen : m.length < 128 ^ (4 + 1) := by omega
    show (match readVarint (4 + 1) (varint (4 + 1) m.length ++ m) with
      | none => none
      | some (size, text) => if text.length = size then some text else none) = some m
    rw [readVarint_varint hlen]
    exact if_pos rfl
  byteSize m hm := by
    show (varint 5 m.length ++ m).length + 1 = _
    rw [List.length_append, length_varint5 hm]
    omega

end ServerStudy
