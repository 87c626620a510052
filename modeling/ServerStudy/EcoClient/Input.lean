import ServerStudy.EcoClient.EcoClient

/-!
# What the client reads (EcoClient/ecoClient.cpp)

The beginning of the outer loop: `fgets` into an array of `MAX_BUF_SIZE` zeros,
then the character before the terminator overwritten, which should be the line
feed. The text goes to `set_message` as a C string.
-/

namespace ServerStudy

open ServerStudy.Core

/-- The characters one call of `fgets` takes: up to a line feed, at most `k`. -/
def fgetsLine : Nat → List Byte → List Byte
  | 0, _ => []
  | _ + 1, [] => []
  | k + 1, c :: stream => if c = 10 then [c] else c :: fgetsLine k stream

/-- `fgets(data, size, stdin)` into zeros: the array and the rest of the
stream, or `NULL` at its end. -/
def fgets (size : Nat) (stream : List Byte) : Option (List Byte × List Byte) :=
  if stream = [] then none
  else
    let line := fgetsLine (size - 1) stream
    some (line ++ List.replicate (size - line.length) 0, stream.drop line.length)

/-- The C string at the beginning of an array. -/
def cString (data : List Byte) : List Byte := data.takeWhile (· ≠ 0)

/-- How the beginning of a pass ends. -/
inductive Reading
  /-- `continue` -/
  | again
  /-- `at` has thrown `std::out_of_range`, which nothing catches. -/
  | outOfRange
  | line (message : Text) (rest : List Byte)
  deriving DecidableEq, Repr

/-- From `fgets` to `set_message`. -/
def readLine (stream : List Byte) : Reading :=
  match fgets maxBufSize stream with
  | none => .again
  | some (inputData, rest) =>
      -- `static_cast<uint32>(strlen(inputData.data()) - 1)`
      let len := ((cString inputData).length + (2 ^ 32 - 1)) % 2 ^ 32
      if len < inputData.length then .line (cString (inputData.set len 0)) rest else .outOfRange

end ServerStudy
