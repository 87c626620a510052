import ServerStudy.Protobuf.CodedOutputStream
import ServerStudy.Shared.ChatMessage

/-!
# The generated class `Chat` (compiler/cpp/cpp_message.cc, cpp_string_field.cc)

What protoc prints for `message Chat { required string message = 1; }`, which is
the same for `PC2S` and `PS2C`, under `ParseFromArray` and `SerializeToArray` of
google/protobuf/message_lite.cc. That strings are checked for UTF-8 only logs
and is left out.
-/

namespace ServerStudy.Protobuf

open ServerStudy.Core

@[ext] structure Chat where
  message : Text
  /-- The bit of `_has_bits_[0]`. -/
  hasMessage : Bool
  unknownFields : UnknownFields

namespace Chat

/-- `Clear()`. -/
def clear : Chat := ⟨[], false, []⟩

def setMessage (chat : Chat) (value : Text) : Chat :=
  { chat with message := value, hasMessage := true }

/-- `mutable_unknown_fields()` with one more field. -/
def addUnknown (chat : Chat) (field : UnknownField) : Chat :=
  { chat with unknownFields := chat.unknownFields ++ [field] }

def isInitialized (chat : Chat) : Bool := chat.hasMessage

/-- `WireFormatLite::ReadString`. -/
def readString (input : CodedInputStream) : Option (Text × CodedInputStream) :=
  match input.readVarint32 with
  | none => none
  | some (length, input) => input.readString length

/-- `handle_unusual`, with what comes after `break`. -/
def handleUnusual (next : Chat → CodedInputStream → Option (Chat × CodedInputStream))
    (chat : Chat) (input : CodedInputStream) (tag : UInt32) : Option (Chat × CodedInputStream) :=
  if tag = 0 || getTagWireType tag = some .endGroup then some (chat, input)
  else
    match skipField input tag with
    | none => none
    | some (field, input) => next (chat.addUnknown field) input

/-- A pass of the loop reads a tag of a byte or more. -/
def mergeLoop : (fuel : Nat) → Chat → CodedInputStream → Option (Chat × CodedInputStream)
  | 0, _, _ => none
  | fuel + 1, chat, input =>
      match input.readTagWithCutoff 127 with
      | ((tag, false), input) => handleUnusual (mergeLoop fuel) chat input tag
      | ((tag, true), input) =>
          if getTagFieldNumber tag = 1 then
            if tag = 10 then
              match readString input with
              | none => none
              | some (value, input) =>
                  match input.expectAtEnd with
                  | (true, input) => some (chat.setMessage value, input)
                  | (false, input) => mergeLoop fuel (chat.setMessage value) input
            else handleUnusual (mergeLoop fuel) chat input tag
          else handleUnusual (mergeLoop fuel) chat input tag

def mergePartialFromCodedStream (chat : Chat) (input : CodedInputStream) :
    Option (Chat × CodedInputStream) :=
  mergeLoop (input.bufferSize + 1) chat input

/-- `ParseFromArray`: the message, if it returns true. -/
def parseFromArray (data : Mem Byte) (size : Nat) : Option Chat :=
  match clear.mergePartialFromCodedStream (.new data size) with
  | none => none
  | some (chat, input) =>
      if chat.isInitialized && input.consumedEntireMessage then some chat else none

/-- `SerializeToArray` of a message without unknown fields. -/
def serializeToArray (chat : Chat) : List Byte :=
  if chat.hasMessage then writeStringToArray 1 chat.message else []

end Chat

/-- The class as the sessions use it: a new message is set and serialized, and
a message that was parsed is read. -/
def chatClass : ChatCodec where
  serialize message := (Chat.clear.setMessage message).serializeToArray
  parseFromArray payload :=
    (Chat.parseFromArray (Mem.ofList 0 payload) payload.length).map Chat.message

end ServerStudy.Protobuf
