import ServerStudy.Fmt.Decimal

/-!
# The writer (Shared/format.h, format.cc)

`BasicWriter<char>` over its buffer: cells and a size. The cells past the size
hold what the memory held before. `grow_buffer` hands them out and returns
where they begin, and the writers fill them through pointers, which are offsets
here.

The values are those of integer, `bool`, `char` and string arguments.
The capacity is left out, and with it the moves of the cells to a larger array.
-/

namespace ServerStudy.Fmt

open ServerStudy.Core

/-- `Alignment`. -/
inductive Alignment
  | default | left | right | center | numeric
  deriving DecidableEq, Repr

def SIGN_FLAG : Nat := 1
def PLUS_FLAG : Nat := 2
def MINUS_FLAG : Nat := 4
def HASH_FLAG : Nat := 8
def CHAR_FLAG : Nat := 0x10

/-- `AlignSpec`. -/
structure AlignSpec where
  width : Nat
  fill : Byte
  align : Alignment := .default
  deriving DecidableEq, Repr

/-- `FormatSpec` with its constructor's defaults. -/
structure FormatSpec extends AlignSpec where
  width := 0
  fill := char ' '
  flags : Nat := 0
  precision : Int := -1
  type : Byte := 0
  deriving DecidableEq, Repr

def FormatSpec.flag (spec : FormatSpec) (f : Nat) : Bool := spec.flags &&& f ≠ 0

/-- `BasicWriter`: the buffer's cells and its size. -/
structure Writer where
  data : Mem Byte
  size : Nat

namespace Writer

/-- `str()`. -/
def str (w : Writer) : Text := w.data.slice 0 w.size

/-- `Buffer::append`, `operator<<(BasicStringRef)`. -/
def append (w : Writer) (xs : Text) : Writer := ⟨w.data.write w.size xs, w.size + xs.length⟩

/-- The new cells begin where the old ones ended. -/
def growBuffer (w : Writer) (n : Nat) : Nat × Writer := (w.size, { w with size := w.size + n })

end Writer

/-- `std::fill_n`, `std::fill`. -/
def fillN (m : Mem Byte) (start n : Nat) (fill : Byte) : Mem Byte :=
  m.write start (List.replicate n fill)

/-- `fill_padding`: the padding on both sides, and where the content goes. -/
def fillPadding (m : Mem Byte) (buffer totalSize contentSize : Nat) (fill : Byte) :
    Nat × Mem Byte :=
  let padding := totalSize - contentSize
  let leftPadding := padding / 2
  let m := fillN m buffer leftPadding fill
  let content := buffer + leftPadding
  (content, fillN m (content + contentSize) (padding - leftPadding) fill)

/-- `prepare_int_buffer` for an `AlignSpec`, which has no precision: the sign or
prefix `pre` and the padding are written, and the result points to the cell of
the last digit. -/
def prepareAligned (w : Writer) (numDigits : Nat) (spec : AlignSpec) (pre : Text) : Writer × Nat :=
  let size := pre.length + numDigits
  if spec.width ≤ size then
    let (p, w) := w.growBuffer size
    ({ w with data := w.data.write p pre }, p + size - 1)
  else
    let (p, w) := w.growBuffer spec.width
    let end' := p + spec.width
    match spec.align with
    | .left =>
        let m := w.data.write p pre
        let p := p + size
        ({ w with data := fillN m p (end' - p) spec.fill }, p - 1)
    | .center =>
        let (p, m) := fillPadding w.data p spec.width size spec.fill
        ({ w with data := m.write p pre }, p + size - 1)
    | .numeric =>
        let m := w.data.write p pre
        let p := p + pre.length
        let size := size - pre.length
        ({ w with data := fillN m p (end' - size - p) spec.fill }, end' - 1)
    | .default | .right =>
        let m := w.data.write (end' - size) pre
        ({ w with data := fillN m p (end' - size - p) spec.fill }, end' - 1)

/-- The padding in front of or behind a number with a precision. -/
def growFilled (w : Writer) (fillSize : Nat) (fill : Byte) : Writer :=
  let (p, w) := w.growBuffer fillSize
  { w with data := fillN w.data p fillSize fill }

/-- `prepare_int_buffer` for a `FormatSpec`.

The pointer of a number that stands to the left is taken before the padding
behind it is handed out. `reserve(width)` does not count the cells that are in
use already, so this padding may move the number away from it. -/
def prepareIntBuffer (w : Writer) (numDigits : Nat) (spec : FormatSpec) (pre : Text) :
    Writer × Nat :=
  if (numDigits : Int) < spec.precision then
    -- an octal prefix is counted as a digit
    let pre := if pre.getLast? = some (char '0') then pre.dropLast else pre
    let numberSize := pre.length + spec.precision.toNat
    let subspec : AlignSpec := { width := numberSize, fill := char '0', align := .numeric }
    if spec.width ≤ numberSize then prepareAligned w numDigits subspec pre
    else
      let fillSize := spec.width - numberSize
      let w := if spec.align = .left then w else growFilled w fillSize spec.fill
      let (w, result) := prepareAligned w numDigits subspec pre
      (if spec.align = .left then growFilled w fillSize spec.fill else w, result)
  else prepareAligned w numDigits spec.toAlignSpec pre

/-! ## Integers -/

def lowerDigits : Text := text "0123456789abcdef"

def upperDigits : Text := text "0123456789ABCDEF"

/-- The cases of `write_int` with a base of `2 ^ shift`. -/
def writeShiftedInt (w : Writer) (shift : Nat) [NeZero shift] (digit : Nat → Byte) (absValue : Nat)
    (spec : FormatSpec) (pre : Text) : Writer :=
  let numDigits := countShifts shift 0 absValue
  let (w, p) := prepareIntBuffer w numDigits spec pre
  { w with data := writeShifts shift digit w.data p absValue }

/-- `std::isprint` in the C locale. -/
def isprint (c : Byte) : Bool := 0x20 ≤ c ∧ c ≤ 0x7e

/-- `static_cast<unsigned>(code)` of a signed `char`. -/
def unsignedOfChar (code : Byte) : Nat :=
  if code < 0x80 then code.toNat else 2 ^ 32 - 256 + code.toNat

/-- The message `report_unknown_type` throws. -/
def reportUnknownType (code : Byte) (type : Text) : Text :=
  if isprint code then text "unknown format code '" ++ code :: (text "' for " ++ type)
  else
    -- `{:02x}`
    let hex := (writeShiftedInt ⟨fun _ => 0, 0⟩ 4 (fun d => lowerDigits.getD d 0)
      (unsignedOfChar code) { width := 2, fill := char '0', align := .numeric } []).str
    text "unknown format code '\\x" ++ hex ++ text "' for " ++ type

/-- The two overloads of `count_digits`. -/
def countDigitsOf (bits n : Nat) : Nat := if bits = 32 then countDigits32 n else countDigits clzll n

/-- `write_int` for a `value` whose unsigned type has `bits` bits. -/
def writeInt (w : Writer) (bits : Nat) (value : Int) (spec : FormatSpec) : Except Text Writer :=
  let absValue := (value % 2 ^ bits).toNat
  let (pre, absValue) :=
    if value < 0 then ([char '-'], (2 ^ bits - absValue) % 2 ^ bits)
    else if spec.flag SIGN_FLAG then
      ([if spec.flag PLUS_FLAG then char '+' else char ' '], absValue)
    else ([], absValue)
  if spec.type = 0 ∨ spec.type = char 'd' then
    let numDigits := countDigitsOf bits absValue
    let (w, p) := prepareIntBuffer w numDigits spec pre
    .ok { w with data := formatDecimal w.data (p + 1 - numDigits) absValue numDigits }
  else if spec.type = char 'x' ∨ spec.type = char 'X' then
    let pre := if spec.flag HASH_FLAG then pre ++ [char '0', spec.type] else pre
    let digits := if spec.type = char 'x' then lowerDigits else upperDigits
    .ok (writeShiftedInt w 4 (fun d => digits.getD d 0) absValue spec pre)
  else if spec.type = char 'b' ∨ spec.type = char 'B' then
    let pre := if spec.flag HASH_FLAG then pre ++ [char '0', spec.type] else pre
    .ok (writeShiftedInt w 1 (fun d => UInt8.ofNat (48 + d)) absValue spec pre)
  else if spec.type = char 'o' then
    let pre := if spec.flag HASH_FLAG then pre ++ [char '0'] else pre
    .ok (writeShiftedInt w 3 (fun d => UInt8.ofNat (48 + d)) absValue spec pre)
  else
    .error (reportUnknownType spec.type (text (if spec.flag CHAR_FLAG then "char" else "integer")))

/-! ## Strings and characters -/

/-- `write_str(s, size, spec)`. -/
def writeStrSized (w : Writer) (s : Text) (spec : FormatSpec) : Writer :=
  if s.length < spec.width then
    let (out, w) := w.growBuffer spec.width
    match spec.align with
    | .right =>
        let m := fillN w.data out (spec.width - s.length) spec.fill
        { w with data := m.write (out + (spec.width - s.length)) s }
    | .center =>
        let (out, m) := fillPadding w.data out spec.width s.length spec.fill
        { w with data := m.write out s }
    | .default | .left | .numeric =>
        let m := fillN w.data (out + s.length) (spec.width - s.length) spec.fill
        { w with data := m.write out s }
  else
    let (out, w) := w.growBuffer s.length
    { w with data := w.data.write out s }

/-- `write_str(s, spec)`, for a pointer that is not null. -/
def writeStr (w : Writer) (s : Text) (spec : FormatSpec) : Except Text Writer :=
  if spec.type ≠ 0 ∧ spec.type ≠ char 's' then
    .error (reportUnknownType spec.type (text "string"))
  else
    let strSize := if 0 ≤ spec.precision ∧ spec.precision.toNat < s.length then
      spec.precision.toNat else s.length
    .ok (writeStrSized w (s.take strSize) spec)

/-- `visit_char`. -/
def visitChar (w : Writer) (value : Byte) (spec : FormatSpec) : Except Text Writer :=
  if spec.type ≠ 0 ∧ spec.type ≠ char 'c' then
    writeInt w 32 value.toInt8.toInt { spec with flags := spec.flags ||| CHAR_FLAG }
  else if spec.align = .numeric ∨ spec.flags ≠ 0 then
    .error (text "invalid format specifier for char")
  else if 1 < spec.width then
    let (out, w) := w.growBuffer spec.width
    match spec.align with
    | .right =>
        let m := fillN w.data out (spec.width - 1) spec.fill
        .ok { w with data := m.write (out + (spec.width - 1)) [value] }
    | .center =>
        let (out, m) := fillPadding w.data out spec.width 1 spec.fill
        .ok { w with data := m.write out [value] }
    | .default | .left | .numeric =>
        let m := fillN w.data (out + 1) (spec.width - 1) spec.fill
        .ok { w with data := m.write out [value] }
  else
    let (out, w) := w.growBuffer 1
    .ok { w with data := w.data.write out [value] }

end ServerStudy.Fmt
