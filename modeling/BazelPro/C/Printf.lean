import BazelPro.C.Memory
import BazelPro.Lib.Positional

/-!
# The fields of the C standard

What the standard says a conversion of `printf` puts out, for given flags, width and precision. A
width or precision that is missing is `0` or `none`. A `*` takes them from an argument, which may
be negative (`starWidth`, `starPrecision`).
-/

namespace BazelPro.C

open Positional

/-- The flags of a directive. -/
structure FieldFlags where
  minus : Bool
  plus : Bool
  space : Bool
  zero : Bool
  alt : Bool

/-- The character of a digit. -/
def digitChar (caps : Bool) (d : Nat) : Byte :=
  BitVec.ofNat 8 (if d < 10 then 48 + d else if caps then 55 + d else 87 + d)

/-- The digits of a number, at least as many as the precision says. Zero with the precision zero
has none. -/
def digitString (caps : Bool) (base : Nat) (prec : Option Nat) (n : Nat) : List Byte :=
  if n = 0 ∧ prec = some 0 then []
  else ((numeral base n).map (digitChar caps)).leftpad (prec.getD 1) (chr '0')

/-- The sign of a signed conversion. -/
def sign (fl : FieldFlags) (v : Int) : List Byte :=
  if v < 0 then [chr '-'] else if fl.plus then [chr '+'] else if fl.space then [chr ' '] else []

/-- Digits behind a sign or a prefix, in a field. The flag `0` fills with zeros between them,
unless there is a `-` or a precision. -/
def numericField (fl : FieldFlags) (width : Nat) (prec : Option Nat) (lead digits : List Byte) :
    List Byte :=
  if fl.minus then (lead ++ digits).rightpad width (chr ' ')
  else if fl.zero ∧ prec = none then lead ++ digits.leftpad (width - lead.length) (chr '0')
  else (lead ++ digits).leftpad width (chr ' ')

/-- The conversions `d` and `i`. -/
def signedField (fl : FieldFlags) (width : Nat) (prec : Option Nat) (v : Int) : List Byte :=
  numericField fl width prec (sign fl v) (digitString false 10 prec v.natAbs)

/-- The unsigned conversions. -/
inductive UnsignedConv where
  | u | x | X | o
  deriving DecidableEq

namespace UnsignedConv

/-- The character of a conversion. -/
def char : UnsignedConv → Byte
  | .u => chr 'u'
  | .x => chr 'x'
  | .X => chr 'X'
  | .o => chr 'o'

/-- The base of a conversion. -/
def base : UnsignedConv → Nat
  | .u => 10
  | .x => 16
  | .X => 16
  | .o => 8

/-- The significant digits of a number. -/
def digits (conv : UnsignedConv) (n : Nat) : List Byte :=
  (numeral conv.base n).map (digitChar (conv = .X))

end UnsignedConv

/-- The prefix of the alternate form, which only a hexadecimal number other than zero has. -/
def altPrefix (fl : FieldFlags) (conv : UnsignedConv) (n : Nat) : List Byte :=
  if fl.alt ∧ conv.base = 16 ∧ n ≠ 0 then [chr '0', conv.char] else []

/-- The digits of an unsigned conversion. The alternate form of an octal number begins with a
zero. -/
def unsignedDigits (fl : FieldFlags) (prec : Option Nat) (conv : UnsignedConv) (n : Nat) :
    List Byte :=
  let digits := digitString (conv = .X) conv.base prec n
  if fl.alt ∧ conv = .o ∧ digits.head? ≠ some (chr '0') then chr '0' :: digits else digits

/-- The conversions `u`, `x`, `X` and `o`. -/
def unsignedField (fl : FieldFlags) (width : Nat) (prec : Option Nat) (conv : UnsignedConv)
    (n : Nat) : List Byte :=
  numericField fl width prec (altPrefix fl conv n) (unsignedDigits fl prec conv n)

/-- The characters of a string that are printed: no more than the precision says. -/
def stringBody (prec : Option Nat) (s : List Byte) : List Byte :=
  match prec with
  | none => s
  | some p => s.take p

/-- The conversion `s`. -/
def stringField (fl : FieldFlags) (width : Nat) (prec : Option Nat) (s : List Byte) : List Byte :=
  if fl.minus then (stringBody prec s).rightpad width (chr ' ')
  else (stringBody prec s).leftpad width (chr ' ')

/-- A width that is taken from an argument: a negative one is a `-` and a width. -/
def starWidth (fl : FieldFlags) (w : Int) : FieldFlags × Nat :=
  ({ fl with minus := fl.minus || decide (w < 0) }, w.natAbs)

/-- A precision that is taken from an argument: a negative one is none. -/
def starPrecision (p : Int) : Option Nat := if p < 0 then none else some p.toNat

end BazelPro.C
