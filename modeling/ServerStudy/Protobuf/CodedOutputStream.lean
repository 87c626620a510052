import ServerStudy.Protobuf.WireFormat

/-!
# Writing to an array (google/protobuf/io/coded_stream.h, coded_stream.cc)

Each writer is given a target in an array that is large enough and returns the
end of what it wrote; here it returns the bytes.
-/

namespace ServerStudy.Protobuf

open ServerStudy.Core

/-- `static_cast<uint8>((value >> shift) | 0x80)`. -/
def groupByte (value shift : UInt32) : Byte := (value >>> shift ||| 0x80).toUInt8

/-- Every byte is written with its high bit set, which is then cleared in the
last. The bounds are `1 << 7`, `1 << 14`, `1 << 21` and `1 << 28`. -/
def writeVarint32FallbackToArrayInline (value : UInt32) : List Byte :=
  if 0x80 ≤ value then
    if 0x4000 ≤ value then
      if 0x200000 ≤ value then
        if 0x10000000 ≤ value then
          [groupByte value 0, groupByte value 7, groupByte value 14, groupByte value 21,
            (value >>> 28).toUInt8]
        else
          [groupByte value 0, groupByte value 7, groupByte value 14, groupByte value 21 &&& 0x7F]
      else [groupByte value 0, groupByte value 7, groupByte value 14 &&& 0x7F]
    else [groupByte value 0, groupByte value 7 &&& 0x7F]
  else [groupByte value 0 &&& 0x7F]

def writeVarint32ToArray (value : UInt32) : List Byte :=
  if value < 0x80 then [value.toUInt8] else writeVarint32FallbackToArrayInline value

def writeTagToArray (value : UInt32) : List Byte :=
  if value < 0x80 then [value.toUInt8]
  else if value < 0x4000 then [(value ||| 0x80).toUInt8, (value >>> 7).toUInt8]
  else writeVarint32FallbackToArrayInline value

/-- `WireFormatLite::WriteStringToArray`. -/
def writeStringToArray (fieldNumber : UInt32) (value : List Byte) : List Byte :=
  writeTagToArray (makeTag fieldNumber .lengthDelimited) ++
    (writeVarint32ToArray (UInt32.ofNat value.length) ++ value)

end ServerStudy.Protobuf
