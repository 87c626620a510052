import ServerStudy.Protobuf.CodedInputStream

/-!
# Fields and unknown fields (google/protobuf/wire_format.cc, wire_format_lite.h)

`SkipField` reads one field after its tag into an `UnknownFieldSet`, and
`SkipMessage` the fields of a group up to its end tag; each calls the other.
`SkipMessage` reads a tag of a byte or more in every pass, so as much `fuel` as
there are bytes left, and one more, is enough.
-/

namespace ServerStudy.Protobuf

open ServerStudy.Core

/-- `WireFormatLite::WireType`. -/
inductive WireType
  | varint
  | fixed64
  | lengthDelimited
  | startGroup
  | endGroup
  | fixed32
  deriving DecidableEq, Repr

def WireType.value : WireType → UInt32
  | .varint => 0
  | .fixed64 => 1
  | .lengthDelimited => 2
  | .startGroup => 3
  | .endGroup => 4
  | .fixed32 => 5

def kTagTypeBits : UInt32 := 3

def makeTag (fieldNumber : UInt32) (type : WireType) : UInt32 :=
  fieldNumber <<< kTagTypeBits ||| type.value

/-- `none` is a value that is no enumerator. -/
def getTagWireType (tag : UInt32) : Option WireType :=
  match (tag &&& 7).toNat with
  | 0 => some .varint
  | 1 => some .fixed64
  | 2 => some .lengthDelimited
  | 3 => some .startGroup
  | 4 => some .endGroup
  | 5 => some .fixed32
  | _ => none

def getTagFieldNumber (tag : UInt32) : UInt32 := tag >>> kTagTypeBits

inductive UnknownField
  | varint (number : UInt32) (value : UInt64)
  | fixed32 (number : UInt32) (value : UInt32)
  | fixed64 (number : UInt32) (value : UInt64)
  | lengthDelimited (number : UInt32) (value : List Byte)
  | group (number : UInt32) (fields : List UnknownField)
  deriving Repr

/-- `UnknownFieldSet`. -/
abbrev UnknownFields := List UnknownField

/-- `SkipField`, with `SkipMessage` for the fields of a group. -/
def skipFieldWith (skipMessage : CodedInputStream → Option (UnknownFields × CodedInputStream))
    (input : CodedInputStream) (tag : UInt32) : Option (UnknownField × CodedInputStream) :=
  let number := getTagFieldNumber tag
  match getTagWireType tag with
  | some .varint =>
      match input.readVarint64 with
      | none => none
      | some (value, input) => some (.varint number value, input)
  | some .fixed64 =>
      match input.readLittleEndian64 with
      | none => none
      | some (value, input) => some (.fixed64 number value, input)
  | some .lengthDelimited =>
      match input.readVarint32 with
      | none => none
      | some (length, input) =>
          match input.readString length with
          | none => none
          | some (value, input) => some (.lengthDelimited number value, input)
  | some .startGroup =>
      match input.incrementRecursionDepth with
      | (false, _) => none
      | (true, input) =>
          match skipMessage input with
          | none => none
          | some (fields, input) =>
              let input := input.decrementRecursionDepth
              -- the ending tag must match the starting tag
              if input.lastTagWas (makeTag number .endGroup) then
                some (.group number fields, input)
              else none
  | some .endGroup => none
  | some .fixed32 =>
      match input.readLittleEndian32 with
      | none => none
      | some (value, input) => some (.fixed32 number value, input)
  | none => none

def skipMessage : (fuel : Nat) → CodedInputStream → Option (UnknownFields × CodedInputStream)
  | 0, _ => none
  | fuel + 1, input =>
      match input.readTag with
      | (tag, input) =>
          if tag = 0 then some ([], input)
          else if getTagWireType tag = some .endGroup then some ([], input)
          else
            match skipFieldWith (skipMessage fuel) input tag with
            | none => none
            | some (field, input) =>
                match skipMessage fuel input with
                | none => none
                | some (fields, input) => some (field :: fields, input)

def skipField (input : CodedInputStream) (tag : UInt32) :
    Option (UnknownField × CodedInputStream) :=
  skipFieldWith (skipMessage (input.bufferSize + 1)) input tag

end ServerStudy.Protobuf
