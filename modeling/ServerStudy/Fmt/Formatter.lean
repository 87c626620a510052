import ServerStudy.Fmt.Writer

/-!
# The formatter (Shared/format.h, format.cc)

`BasicFormatter<char>::format` interprets a format string over its arguments.
A pointer into the string is the text from there on; the terminating zero is
its end. What the functions throw, a `FormatError`, is its message.

The arguments are those the servers and the client pass: integers, `bool`,
`char` and strings. None is named, so that looking for a name finds nothing.
-/

namespace ServerStudy.Fmt

open ServerStudy.Core

/-- `Arg`, by its type. -/
inductive Arg
  | int (value : Int32)
  | uint (value : UInt32)
  | longLong (value : Int64)
  | ulongLong (value : UInt64)
  | bool (value : Bool)
  | char (value : Byte)
  | string (value : Text)

/-- `type <= Arg::LAST_INTEGER_TYPE`, and here `<= Arg::LAST_NUMERIC_TYPE`. -/
def Arg.isNumeric : Arg → Bool
  | .string _ => false
  | _ => true

def Arg.isUnsigned : Arg → Bool
  | .uint _ | .ulongLong _ => true
  | _ => false

/-- `*s`. -/
def cur (s : Text) : Byte := s.headD 0

/-- The text between two pointers. -/
def range (start s : Text) : Text := start.take (start.length - s.length)

def isDigit (c : Byte) : Bool := char '0' ≤ c ∧ c ≤ char '9'

def isNameStart (c : Byte) : Bool :=
  (char 'a' ≤ c ∧ c ≤ char 'z') ∨ (char 'A' ≤ c ∧ c ≤ char 'Z') ∨ char '_' = c

/-! ## Numbers -/

/-- The loop of `parse_nonnegative_int`, in `unsigned`. -/
def parseDigits (value : Nat) : Text → Nat × Text
  | [] => (value, [])
  | c :: s =>
      if isDigit c then
        let newValue := (value * 10 + (c.toNat - 48)) % 2 ^ 32
        if newValue < value then (2 ^ 32 - 1, s) else parseDigits newValue s
      else (value, c :: s)

/-- `parse_nonnegative_int`. The callers have seen a digit. -/
def parseNonnegativeInt (s : Text) : Except Text (Nat × Text) :=
  let (value, s) := parseDigits 0 s
  if 2 ^ 31 - 1 < value then .error (text "number is too big") else .ok (value, s)

/-! ## Arguments -/

def doGetArg (args : List Arg) (argIndex : Nat) : Except Text Arg :=
  match args[argIndex]? with
  | some arg => .ok arg
  | none => .error (text "argument index out of range")

/-- `next_arg`; the second component is `next_arg_index_`. -/
def nextArg (args : List Arg) (next : Int) : Except Text Arg × Int :=
  if 0 ≤ next then (doGetArg args next.toNat, next + 1)
  else (.error (text "cannot switch from manual to automatic argument indexing"), next)

def checkNoAutoIndex (next : Int) : Except Text Int :=
  if 0 < next then .error (text "cannot switch from automatic to manual argument indexing")
  else .ok (-1)

/-- `FormatterBase::get_arg`. -/
def getArg (args : List Arg) (next : Int) (argIndex : Nat) : Except Text Arg × Int :=
  match checkNoAutoIndex next with
  | .error e => (.error e, next)
  | .ok next => (doGetArg args argIndex, next)

/-- The error of `parse_arg_index`, which depends on what follows. -/
def indexed (s : Text) : Except Text Arg × Int → Except Text (Arg × Int × Text)
  | (.ok arg, next) => .ok (arg, next, s)
  | (.error e, _) =>
      .error (if cur s ≠ char '}' ∧ cur s ≠ char ':' then text "invalid format string" else e)

def parseArgIndex (args : List Arg) (next : Int) (s : Text) : Except Text (Arg × Int × Text) :=
  if isDigit (cur s) then do
    let (argIndex, s) ← parseNonnegativeInt s
    indexed s (getArg args next argIndex)
  else indexed s (nextArg args next)

/-- `parse_arg_name`. -/
def parseArgName (next : Int) : Except Text (Arg × Int × Text) := do
  let _ ← checkNoAutoIndex next
  .error (text "argument not found")

def parseArg (args : List Arg) (next : Int) (s : Text) : Except Text (Arg × Int × Text) :=
  if isNameStart (cur s) then parseArgName next else parseArgIndex args next s

/-! ## Format specifications -/

def requireNumericArgument (arg : Arg) (spec : Byte) : Except Text Unit :=
  if arg.isNumeric then .ok ()
  else .error (text "format specifier '" ++ spec :: text "' requires numeric argument")

def checkSign (arg : Arg) (sign : Byte) : Except Text Unit := do
  requireNumericArgument arg sign
  if arg.isUnsigned then
    .error (text "format specifier '" ++ sign :: text "' requires signed argument")
  else .ok ()

/-- `if (spec.align_ == ALIGN_NUMERIC) require_numeric_argument(arg, '=')`. -/
def checkAlignment (arg : Arg) (align : Alignment) : Except Text Unit :=
  if align = .numeric then requireNumericArgument arg (char '=') else .ok ()

/-- The alignment characters. -/
def alignmentOf (c : Byte) : Option Alignment :=
  if c = char '<' then some .left
  else if c = char '>' then some .right
  else if c = char '=' then some .numeric
  else if c = char '^' then some .center
  else none

/-- Fill and alignment. The second character is looked at first; a `'}'` before
it is left where it is, but its alignment stays. -/
def parseFillAlign (arg : Arg) (spec : FormatSpec) (s : Text) : Except Text (FormatSpec × Text) :=
  let c := cur s
  if c = 0 then .ok (spec, s)
  else
    match alignmentOf (cur s.tail), alignmentOf c with
    | some align, _ =>
        if c = char '}' then .ok ({ spec with align }, s)
        else if c = char '{' then .error (text "invalid fill character '\x7b'")
        else do
          checkAlignment arg align
          .ok ({ spec with align, fill := c }, s.tail.tail)
    | none, some align => do
        checkAlignment arg align
        .ok ({ spec with align }, s.tail)
    | none, none => .ok (spec, s)

def parseSign (arg : Arg) (spec : FormatSpec) (s : Text) : Except Text (FormatSpec × Text) :=
  let signed flags := do
    checkSign arg (cur s)
    .ok ({ spec with flags := spec.flags ||| flags }, s.tail)
  if cur s = char '+' then signed (SIGN_FLAG ||| PLUS_FLAG)
  else if cur s = char '-' then signed MINUS_FLAG
  else if cur s = char ' ' then signed SIGN_FLAG
  else .ok (spec, s)

def parseHash (arg : Arg) (spec : FormatSpec) (s : Text) : Except Text (FormatSpec × Text) :=
  if cur s = char '#' then do
    requireNumericArgument arg (char '#')
    .ok ({ spec with flags := spec.flags ||| HASH_FLAG }, s.tail)
  else .ok (spec, s)

def parseZero (arg : Arg) (spec : FormatSpec) (s : Text) : Except Text (FormatSpec × Text) :=
  if cur s = char '0' then do
    requireNumericArgument arg (char '0')
    .ok ({ spec with align := .numeric, fill := char '0' }, s.tail)
  else .ok (spec, s)

/-- The integer an argument holds, for the width or the precision, `name`. -/
def integerValue (name : Text) (arg : Arg) : Except Text Nat :=
  match arg with
  | .int value => if value < 0 then .error (text "negative " ++ name) else .ok value.toInt.toNat
  | .uint value => .ok value.toNat
  | .longLong value =>
      if value < 0 then .error (text "negative " ++ name) else .ok value.toInt.toNat
  | .ulongLong value => .ok value.toNat
  | _ => .error (name ++ text " is not integer")

def dynamicValue (name : Text) (arg : Arg) : Except Text Nat := do
  let value ← integerValue name arg
  if 2 ^ 31 - 1 < value then .error (text "number is too big") else .ok value

/-- A width or a precision given by an argument, after its `'{'`. -/
def parseDynamic (name : Text) (args : List Arg) (next : Int) (s : Text) :
    Except Text (Nat × Int × Text) := do
  let (arg, next, s) ← parseArg args next s
  if cur s ≠ char '}' then .error (text "invalid format string")
  else do
    let value ← dynamicValue name arg
    .ok (value, next, s.tail)

def parseWidth (args : List Arg) (next : Int) (spec : FormatSpec) (s : Text) :
    Except Text (FormatSpec × Int × Text) :=
  if isDigit (cur s) then do
    let (value, s) ← parseNonnegativeInt s
    .ok ({ spec with width := value }, next, s)
  else if cur s = char '{' then do
    let (value, next, s) ← parseDynamic (text "width") args next s.tail
    .ok ({ spec with width := value }, next, s)
  else .ok (spec, next, s)

/-- The number after the point of a precision. -/
def parsePrecisionValue (args : List Arg) (next : Int) (s : Text) :
    Except Text (Nat × Int × Text) :=
  if isDigit (cur s) then do
    let (value, s) ← parseNonnegativeInt s
    .ok (value, next, s)
  else if cur s = char '{' then parseDynamic (text "precision") args next s.tail
  else .error (text "missing precision specifier")

def parsePrecision (args : List Arg) (next : Int) (arg : Arg) (spec : FormatSpec) (s : Text) :
    Except Text (FormatSpec × Int × Text) :=
  if cur s = char '.' then do
    let (value, next, s) ← parsePrecisionValue args next s.tail
    if arg.isNumeric then .error (text "precision not allowed in integer format specifier")
    else .ok ({ spec with precision := value }, next, s)
  else .ok (spec, next, s)

def parseType (spec : FormatSpec) (s : Text) : FormatSpec × Text :=
  if cur s ≠ char '}' ∧ cur s ≠ 0 then ({ spec with type := cur s }, s.tail) else (spec, s)

/-- What follows the colon, in its order. -/
def parseSpecText (args : List Arg) (next : Int) (arg : Arg) (s : Text) :
    Except Text (FormatSpec × Int × Text) := do
  let (spec, s) ← parseFillAlign arg {} s
  let (spec, s) ← parseSign arg spec s
  let (spec, s) ← parseHash arg spec s
  let (spec, s) ← parseZero arg spec s
  let (spec, next, s) ← parseWidth args next spec s
  let (spec, next, s) ← parsePrecision args next arg spec s
  let (spec, s) := parseType spec s
  .ok (spec, next, s)

/-- A specification, if a colon begins one. -/
def parseSpec (args : List Arg) (next : Int) (arg : Arg) (s : Text) :
    Except Text (FormatSpec × Int × Text) :=
  if cur s = char ':' then parseSpecText args next arg s.tail else .ok ({}, next, s)

/-! ## Formatting -/

/-- `ArgFormatter::visit`. -/
def visit (w : Writer) (arg : Arg) (spec : FormatSpec) : Except Text Writer :=
  match arg with
  | .int value => writeInt w 32 value.toInt spec
  | .uint value => writeInt w 32 value.toNat spec
  | .longLong value => writeInt w 64 value.toInt spec
  | .ulongLong value => writeInt w 64 value.toNat spec
  | .bool value =>
      if spec.type ≠ 0 then writeInt w 32 (if value then 1 else 0) spec
      else writeStr w (text (if value then "true" else "false")) spec
  | .char value => visitChar w value spec
  | .string value => writeStr w value spec

/-- `format(format_str, arg)`: from behind the argument's index to behind its
`'}'`. -/
def formatArg (args : List Arg) (w : Writer) (next : Int) (arg : Arg) (s : Text) :
    Except Text (Writer × Int × Text) := do
  let (spec, next, s) ← parseSpec args next arg s
  if cur s ≠ char '}' then .error (text "missing '\x7d' in format string")
  else do
    let w ← visit w arg spec
    .ok (w, next, s.tail)

/-- A replacement field, from behind its `'{'`. -/
def formatField (args : List Arg) (w : Writer) (next : Int) (s : Text) :
    Except Text (Writer × Int × Text) := do
  let (arg, next, s) ← parseArg args next s
  formatArg args w next arg s

/-- The loop of `format`. -/
def formatLoop (args : List Arg) : Nat → Writer → Int → Text → Text → Option (Except Text Writer)
  | 0, _, _, _, _ => none
  | fuel + 1, w, next, start, s =>
      if cur s = 0 then some (.ok (w.append (range start s)))
      else
        let c := cur s
        let s' := s.tail
        if c ≠ char '{' ∧ c ≠ char '}' then formatLoop args fuel w next start s'
        else if cur s' = c then
          formatLoop args fuel (w.append (range start s')) next s'.tail s'.tail
        else if c = char '}' then some (.error (text "unmatched '\x7d' in format string"))
        else
          match formatField args (w.append (range start s)) next s' with
          | .error e => some (.error e)
          | .ok (w, next, s) => formatLoop args fuel w next s s

/-- `fmt::format`, with a buffer in whatever memory it finds. -/
def format (m : Mem Byte) (formatStr : Text) (args : List Arg) : Option (Except Text Text) :=
  (formatLoop args (formatStr.length + 1) ⟨m, 0⟩ 0 formatStr formatStr).map fun result =>
    result.map Writer.str

end ServerStudy.Fmt
