import ServerStudy.Logic.FormatRuns

/-!
# Format strings as templates

A template is a list of characters, doubled braces and replacement fields, and
`render` is its text over some arguments: the meaning of the format language,
with no pointer and no buffer. The values are well formed by construction, so
that `print` writes each of them unambiguously.
-/

namespace ServerStudy.Fmt

open ServerStudy.Core

/-! ## Which argument a field takes -/

/-- Fields without an index take the arguments in turn; one with an index ends
that for good. -/
inductive Indexing
  | automatic (used : Nat)
  | manual
  deriving DecidableEq

/-- `next_arg_index_`. -/
def Indexing.toInt : Indexing → Int
  | .automatic used => used
  | .manual => -1

def Indexing.pick (args : List Arg) : Indexing → Option Nat → Except Text (Arg × Indexing)
  | .automatic used, none => (doGetArg args used).map (·, .automatic (used + 1))
  | .manual, none => .error (text "cannot switch from manual to automatic argument indexing")
  | .automatic (_ + 1), some _ =>
      .error (text "cannot switch from automatic to manual argument indexing")
  | .automatic 0, some i | .manual, some i => (doGetArg args i).map (·, .manual)

/-! ## Specifications -/

/-- The fill character and the alignment. -/
structure AlignPart where
  fill : Option Byte
  align : Alignment
  explicit : align ≠ .default
  fill_ok : ∀ c ∈ fill, c ≠ 0 ∧ c ≠ char '{' ∧ c ≠ char '}'

inductive Sign
  | plus | minus | space
  deriving DecidableEq

/-- The index of an argument, as the code can read it. -/
abbrev Index := { i : Nat // i < 2 ^ 31 }

/-- A width or a precision: a number, or the value of an argument. -/
inductive Count
  | lit (n : Nat) (small : n < 2 ^ 31)
  | arg (index : Option Index)

/-- The parts of a specification, in their order. -/
structure SpecParts where
  align : Option AlignPart := none
  sign : Option Sign := none
  hash : Bool := false
  zero : Bool := false
  width : Option Count := none
  precision : Option Count := none
  type : Option Byte := none
  width_pos : ∀ h, width ≠ some (.lit 0 h) := by decide
  type_ok : ∀ c ∈ type, isNameStart c := by decide

/-- `'<'`, `'>'`, `'='` and `'^'`. -/
def Alignment.char : Alignment → Byte
  | .left => Fmt.char '<'
  | .right => Fmt.char '>'
  | .numeric => Fmt.char '='
  | .center => Fmt.char '^'
  | .default => 0

def Sign.char : Sign → Byte
  | .plus => Fmt.char '+'
  | .minus => Fmt.char '-'
  | .space => Fmt.char ' '

def Sign.flags : Sign → Nat
  | .plus => SIGN_FLAG ||| PLUS_FLAG
  | .minus => MINUS_FLAG
  | .space => SIGN_FLAG

/-- An argument's index in front of a field or of what gives a count. -/
def indexText (index : Option Index) : Text :=
  index.elim [] fun i => decimal i.1

def AlignPart.print (part : AlignPart) : Text := part.fill.toList ++ [part.align.char]

def Count.print : Count → Text
  | .lit n _ => decimal n
  | .arg index => char '{' :: (indexText index ++ [char '}'])

namespace SpecParts

variable (parts : SpecParts)

def signText : Text := (parts.sign.map Sign.char).toList
def hashText : Text := if parts.hash then [char '#'] else []
def zeroText : Text := if parts.zero then [char '0'] else []
def widthText : Text := parts.width.elim [] Count.print
def precisionText : Text := parts.precision.elim [] fun count => char '.' :: count.print

/-- All but the alignment. -/
def printRest : Text :=
  parts.signText ++ (parts.hashText ++ (parts.zeroText ++ (parts.widthText ++
    (parts.precisionText ++ parts.type.toList))))

def print : Text := parts.align.elim [] AlignPart.print ++ parts.printRest

end SpecParts

/-- A specification. The empty one is written without a colon. -/
structure Spec extends SpecParts where
  nonempty : toSpecParts.print ≠ []

/-- The value of a count. -/
def Count.eval (name : Text) (args : List Arg) (st : Indexing) :
    Count → Except Text (Nat × Indexing)
  | .lit n _ => .ok (n, st)
  | .arg index => do
      let (found, st) ← st.pick args (index.map Subtype.val)
      let value ← dynamicValue name found
      .ok (value, st)

section Eval

variable (parts : SpecParts) (args : List Arg) (st : Indexing) (arg : Arg) (spec : FormatSpec)

def evalAlign : Except Text FormatSpec :=
  match parts.align with
  | none => .ok spec
  | some part => do
      checkAlignment arg part.align
      .ok { spec with align := part.align, fill := part.fill.getD spec.fill }

def evalSign : Except Text FormatSpec :=
  match parts.sign with
  | none => .ok spec
  | some sign => do
      checkSign arg sign.char
      .ok { spec with flags := spec.flags ||| sign.flags }

def evalHash : Except Text FormatSpec :=
  if parts.hash then do
    requireNumericArgument arg (char '#')
    .ok { spec with flags := spec.flags ||| HASH_FLAG }
  else .ok spec

def evalZero : Except Text FormatSpec :=
  if parts.zero then do
    requireNumericArgument arg (char '0')
    .ok { spec with align := .numeric, fill := char '0' }
  else .ok spec

def evalWidth : Except Text (FormatSpec × Indexing) :=
  match parts.width with
  | none => .ok (spec, st)
  | some count => do
      let (value, st) ← count.eval (text "width") args st
      .ok ({ spec with width := value }, st)

def evalPrecision : Except Text (FormatSpec × Indexing) :=
  match parts.precision with
  | none => .ok (spec, st)
  | some count => do
      let (value, st) ← count.eval (text "precision") args st
      if arg.isNumeric then .error (text "precision not allowed in integer format specifier")
      else .ok ({ spec with precision := value }, st)

end Eval

/-- What a specification asks for, once its argument has passed its checks. -/
def SpecParts.eval (parts : SpecParts) (args : List Arg) (st : Indexing) (arg : Arg) :
    Except Text (FormatSpec × Indexing) := do
  let spec ← evalAlign parts arg {}
  let spec ← evalSign parts arg spec
  let spec ← evalHash parts arg spec
  let spec ← evalZero parts arg spec
  let (spec, st) ← evalWidth parts args st spec
  let (spec, st) ← evalPrecision parts args st arg spec
  .ok ({ spec with type := parts.type.getD spec.type }, st)

/-! ## Templates -/

/-- A replacement field. -/
structure Field where
  index : Option Index := none
  spec : Option Spec := none

inductive Piece
  | plain (c : Byte) (ok : c ≠ 0 ∧ c ≠ char '{' ∧ c ≠ char '}')
  | openBrace
  | closeBrace
  | field (f : Field)

def Field.specText (f : Field) : Text := f.spec.elim [] fun spec => char ':' :: spec.print

def Piece.print : Piece → Text
  | .plain c _ => [c]
  | .openBrace => [char '{', char '{']
  | .closeBrace => [char '}', char '}']
  | .field f => char '{' :: (indexText f.index ++ f.specText ++ [char '}'])

def printAll (pieces : List Piece) : Text := pieces.flatMap Piece.print

def Field.render (f : Field) (args : List Arg) (st : Indexing) :
    Except Text (Text × Indexing) := do
  let (arg, st) ← st.pick args (f.index.map Subtype.val)
  let (spec, st) ← f.spec.elim (.ok ({}, st)) fun spec => spec.eval args st arg
  let shown ← argText arg spec
  .ok (shown, st)

def Piece.render (args : List Arg) (st : Indexing) : Piece → Except Text (Text × Indexing)
  | .plain c _ => .ok ([c], st)
  | .openBrace => .ok ([char '{'], st)
  | .closeBrace => .ok ([char '}'], st)
  | .field f => f.render args st

/-- The text of a template, or the first error. -/
def render (args : List Arg) : Indexing → List Piece → Except Text Text
  | _, [] => .ok []
  | st, piece :: pieces => do
      let (shown, st) ← piece.render args st
      let rest ← render args st pieces
      .ok (shown ++ rest)

end ServerStudy.Fmt
