import BazelPro.C.Memory
import BazelPro.Lib.Sink

/-!
# The async-signal-safe formatter

After `src/lib/snprintf_asyncsignalsafe.cc`, for a target with 32-bit `int` and 64-bit `long`.
Signed overflow wraps. A pointer into a string is what is left of the string, its NUL included, so
that a read beyond the NUL is a `Fault`; so is a store outside one of the 36-byte arrays `tmp`.

The characters go where `X_STORE_PRT` stores them, which is a parameter (`Sink`): `Printer` is the
array of the source, and a list of events is an array without an end.
-/

namespace BazelPro.Print

open C

/-- A NUL-terminated string: the characters before the NUL. -/
structure CStr where
  chars : List Byte
  no_nul : 0 ∉ chars

/-- Why a call has no result. -/
inductive Fault where
  /-- a read beyond the NUL of a string -/
  | overread
  /-- a store outside of `tmp` -/
  | scratch
  /-- `%f`, which is left out -/
  | float
  /-- the format did not end -/
  | fuel
  deriving DecidableEq

/-- An argument: the word that an integer type is read from, and the string that a `char *`
points to. -/
structure VaArg where
  word : BitVec 64
  str : CStr

/-- A `va_list`: the arguments, the next one by its index. -/
abbrev VaList := Nat → VaArg

/-- The value of an `int` after a signed operation. -/
def int32 (x : Int) : Int := x.bmod (2 ^ 32)

/-- `va_arg(ap, int)`. -/
def VaArg.int (a : VaArg) : Int := (a.word.setWidth 32).toInt

/-! ## The format -/

/-- The flags, width and precision of a directive. -/
structure Spec where
  width : Int := 0
  ljust : Bool := false
  plus : Bool := false
  space : Bool := false
  altform : Bool := false
  prec : Int := 0
  half : Bool := false
  tlong : Nat := 0
  fillz : Bool := false
  precGiven : Bool := false
  deriving DecidableEq

/-- A directive: what stands before its conversion, the conversion, and the index of the argument
that the conversion takes. -/
structure Directive where
  spec : Spec
  conv : Byte
  arg : Nat
  deriving DecidableEq

/-- `*fmt++`. -/
def next : List Byte → Except Fault (Byte × List Byte)
  | [] => .error .overread
  | c :: fmt => .ok (c, fmt)

/-- `c >= '0' && c <= '9'`. -/
def isDigit (c : Byte) : Bool := chr '0' ≤ c ∧ c ≤ chr '9'

/-- The loops that read a width or a precision, with the `fmt--` behind them. -/
def digitRun (n : Int) : List Byte → Except Fault (Int × List Byte)
  | [] => .error .overread
  | c :: fmt =>
      if isDigit c then digitRun (int32 (n * 10 + (c.toNat - (chr '0').toNat))) fmt
      else .ok (n, c :: fmt)

/-- The `switch` over the flags, the width, the precision and the length modifiers; `none` is
`goto break_for`. -/
def scanChar (spec : Spec) (c : Byte) (fmt : List Byte) :
    Except Fault (Option (Spec × List Byte)) :=
  if c = chr 'h' then .ok (some ({ spec with half := true }, fmt))
  else if c = chr 'l' then do
    let (c', fmt') ← next fmt
    if c' = chr 'l' then .ok (some ({ spec with tlong := 2 }, fmt'))
    else .ok (some ({ spec with tlong := 1 }, fmt))
  else if c = chr '-' then .ok (some ({ spec with ljust := true }, fmt))
  else if c = chr '+' then .ok (some ({ spec with plus := true }, fmt))
  else if c = chr ' ' then .ok (some ({ spec with space := true }, fmt))
  else if c = chr '0' then .ok (some ({ spec with fillz := true }, fmt))
  else if c = chr '#' then .ok (some ({ spec with altform := true }, fmt))
  else if c = chr '*' then .ok (some ({ spec with width := -1 }, fmt))
  else if c = chr '.' then do
    let (c', fmt') ← next fmt
    if c' = chr '*' then .ok (some ({ spec with prec := -1, precGiven := true }, fmt'))
    else do
      let (prec, fmt) ← digitRun 0 fmt
      .ok (some ({ spec with prec := prec, precGiven := true }, fmt))
  else if isDigit c then do
    let (width, fmt) ← digitRun 0 (c :: fmt)
    .ok (some ({ spec with width := width }, fmt))
  else .ok none

/-- `for (c = *fmt++; ; c = *fmt++)` with that `switch`. -/
def scan : Nat → Spec → List Byte → Except Fault (Spec × Byte × List Byte)
  | 0, _, _ => .error .fuel
  | fuel + 1, spec, fmt => do
      let (c, fmt) ← next fmt
      match ← scanChar spec c fmt with
      | some (spec, fmt) => scan fuel spec fmt
      | none => pure (spec, c, fmt)

/-- The directive behind a `%`, with the width and the precision that it takes from the
arguments. -/
def directive (ap : VaList) (fmt : List Byte) (arg : Nat) :
    Except Fault (Directive × List Byte) := do
  let (spec, c, fmt) ← scan fmt.length {} fmt
  let (width, arg) := if spec.width = -1 then ((ap arg).int, arg + 1) else (spec.width, arg)
  let (prec, arg) := if spec.prec = -1 then ((ap arg).int, arg + 1) else (spec.prec, arg)
  pure (⟨{ spec with width := width, prec := prec }, c, arg⟩, fmt)

/-! ## Conversions -/

/-- `*p++ = c` in the array `tmp`. -/
def push (tmp : List Byte) (c : Byte) : Except Fault (List Byte) :=
  if tmp.length < 36 then .ok (tmp ++ [c]) else .error .scratch

/-- The characters of the string that begins at `tmp`. -/
def cString (tmp : List Byte) : List Byte := tmp.takeWhile fun c => c ≠ 0

/-- The digits of `itoa`. -/
def digits (caps : Bool) : List Byte :=
  if caps then
    ['0', '1', '2', '3', '4', '5', '6', '7', '8', '9', 'A', 'B', 'C', 'D', 'E', 'F'].map chr
  else
    ['0', '1', '2', '3', '4', '5', '6', '7', '8', '9', 'a', 'b', 'c', 'd', 'e', 'f'].map chr

/-- The first loop of `itoa`, which fills its `tmp` backwards. There are `room` bytes below `s`. -/
def digitLoop (caps : Bool) (base : Nat) :
    Nat → Nat → Int → List Byte → Except Fault (Nat × Int × List Byte)
  | 0, num, prec, s => if num ≠ 0 then .error .scratch else .ok (0, prec, s)
  | room + 1, num, prec, s =>
      if num ≠ 0 ∨ room + 1 = 35 then
        digitLoop caps base room (num / base) (int32 (prec - 1))
          ((digits caps).getD (num % base) 0 :: s)
      else .ok (room + 1, prec, s)

/-- `while (prec-- > 0) *--s = '0'`. -/
def zeroLoop : Nat → Int → List Byte → Except Fault (List Byte)
  | 0, prec, s => if 0 < prec then .error .scratch else .ok s
  | room + 1, prec, s => if 0 < prec then zeroLoop room (prec - 1) (chr '0' :: s) else .ok s

/-- `do { *buf++ = *s; } while (*s++ != '\0')`. -/
def copyOut : List Byte → List Byte → Except Fault (List Byte)
  | _, [] => .error .overread
  | buf, c :: s => do
      let buf ← push buf c
      if c ≠ 0 then copyOut buf s else pure buf

/-- `itoa`, which stores behind what its caller has stored in `tmp`. -/
def itoa (buf : List Byte) (num : BitVec 32) (base : Nat) (caps : Bool) (prec : Int) :
    Except Fault (List Byte) := do
  let (room, prec, s) ← digitLoop caps base 35 num.toNat prec [0]
  let s ← zeroLoop room prec s
  copyOut buf s

/-- What the cases for `d`, `i`, `u`, `p`, `x`, `X`, `o` and `O` leave to the common part: the
characters they have stored with `X_STORE_PRT`, the width, what they have stored in `tmp`, and the
arguments of `itoa`. -/
structure IntegerConversion where
  ahead : List Byte
  width : Int
  tmp : List Byte
  num : BitVec 64
  base : Nat
  prec : Int

/-- The argument of an integer conversion. -/
def Directive.num (ap : VaList) (d : Directive) : BitVec 64 :=
  if d.spec.tlong = 2 then (ap d.arg).word
  else if d.spec.tlong = 1 then (ap d.arg).word
  else ((ap d.arg).word.setWidth 32).signExtend 64

/-- `if (half) num = (int) (unsigned short) num`. -/
def Spec.halveUnsigned (spec : Spec) (num : BitVec 64) : BitVec 64 :=
  if spec.half then (num.setWidth 16).setWidth 64 else num

/-- The case for `d` and `i`, after the argument has been fetched. -/
def signedConversion (spec : Spec) (num : BitVec 64) : IntegerConversion :=
  let num := if spec.half then (num.setWidth 16).signExtend 64 else num
  let negative := num.slt 0
  if spec.fillz ∧ (negative ∨ spec.plus ∨ spec.space) then
    { ahead := [if negative then chr '-' else if spec.space then chr ' ' else chr '+']
      width := if 0 < spec.width then spec.width - 1 else spec.width
      tmp := []
      num := if negative then -num else num
      base := 10
      prec := spec.prec }
  else if ¬ spec.fillz then
    { ahead := []
      width := spec.width
      tmp := if negative then [chr '-'] else if spec.plus then [chr '+']
        else if spec.space then [chr ' '] else []
      num := if negative then -num else num
      base := 10
      prec := spec.prec }
  else ⟨[], spec.width, [], num, 10, spec.prec⟩

/-- The cases for the integer conversions. -/
def integerConversion (ap : VaList) (d : Directive) : Option IntegerConversion :=
  let spec := d.spec
  if d.conv = chr 'd' ∨ d.conv = chr 'i' then some (signedConversion spec (d.num ap))
  else if d.conv = chr 'u' then
    some ⟨[], spec.width, [], spec.halveUnsigned (d.num ap), 10, spec.prec⟩
  else if d.conv = chr 'p' ∨ d.conv = chr 'x' ∨ d.conv = chr 'X' then
    if spec.altform ∧ d.conv ≠ chr 'p' then
      some ⟨[], spec.width, [chr '0', d.conv], spec.halveUnsigned (d.num ap), 16,
        int32 (spec.prec + 2)⟩
    else some ⟨[], spec.width, [], spec.halveUnsigned (d.num ap), 16, spec.prec⟩
  else if d.conv = chr 'o' ∨ d.conv = chr 'O' then
    if spec.altform then
      some ⟨[], spec.width, [chr '0'], spec.halveUnsigned (d.num ap), 8, int32 (spec.prec + 1)⟩
    else some ⟨[], spec.width, [], spec.halveUnsigned (d.num ap), 8, spec.prec⟩
  else none

/-- The variables that the part after the `switch` reads; `p` is the string it points to. -/
structure Field where
  ljust : Bool
  fillz : Bool
  width : Int
  prec : Int
  p : List Byte

/-- What a directive stores: a field, with characters ahead of it or with the count of `%n`, or
the character of an unknown conversion. -/
inductive Conversion where
  | field (ahead : List Byte) (f : Field)
  | count (address : Nat) (f : Field)
  | literal (c : Byte)

/-- `X_INF`. -/
def xInf : Int := 0x7ffffff0

/-- The `switch` over the conversions, and the call of `itoa` behind it. -/
def convert (ap : VaList) (d : Directive) : Except Fault Conversion :=
  let spec := d.spec
  match integerConversion ap d with
  | some q => do
      let tmp ← itoa q.tmp (q.num.setWidth 32) q.base (d.conv = chr 'X') q.prec
      let fillz := if q.prec ≠ 0 then false else spec.fillz
      pure (.field q.ahead ⟨spec.ljust, fillz, q.width, xInf, cString tmp⟩)
  | none =>
      if d.conv = chr 'f' then .error .float
      else if d.conv = chr 's' then
        let prec := if spec.prec = 0 then xInf else spec.prec
        .ok (.field [] ⟨spec.ljust, spec.fillz, spec.width, prec, (ap d.arg).str.chars⟩)
      else if d.conv = chr 'c' then
        let p := cString [(ap d.arg).word.setWidth 8, 0]
        .ok (.field [] ⟨spec.ljust, spec.fillz, spec.width, 1, p⟩)
      else if d.conv = chr 'n' then
        .ok (.count (ap d.arg).word.toNat ⟨spec.ljust, spec.fillz, spec.width, spec.prec, []⟩)
      else if d.conv = chr '%' then
        .ok (.field [] ⟨spec.ljust, spec.fillz, spec.width, 1, [chr '%']⟩)
      else .ok (.literal d.conv)

/-- The number of arguments that a conversion takes. -/
def argsOf (conv : Byte) : Nat :=
  if conv ∈ ['d', 'i', 'u', 'p', 'x', 'X', 'o', 'O', 'f', 's', 'c', 'n'].map chr then 1 else 0

/-! ## Output -/

/-- What happens to the output: `X_STORE_PRT(c)`, or a store of the count by `%n`. -/
inductive Event where
  | char (c : Byte)
  | count (address : Nat)
  deriving DecidableEq

section Output

variable {σ : Type} [Sink Event σ]

/-- `X_STORE_PRT(c)`. -/
def putChar (s : σ) (c : Byte) : σ := Sink.put s (.char c)

/-- `while (pad-- > 0) X_STORE_PRT(c)`, with the `pad` it leaves. -/
def padding (pad : Int) (c : Byte) (s : σ) : Int × σ :=
  (if 0 < pad then -1 else int32 (pad - 1), (putChar · c)^[pad.toNat] s)

/-- `for (; plen-- > 0 && width-- > 0; p++) X_STORE_PRT(*p)`. -/
def bodyLoop : Int → Int → List Byte → σ → Except Fault σ
  | plen, width, [], s => if 0 < plen ∧ 0 < width then .error .overread else .ok s
  | plen, width, c :: p, s =>
      if 0 < plen ∧ 0 < width then bodyLoop (plen - 1) (width - 1) p (putChar s c) else .ok s

/-- `plen`: the length of the string, or the precision if it is less. -/
def Field.plen (f : Field) : Int :=
  let plen := int32 f.p.length
  if plen > f.prec then f.prec else plen

/-- `width`, which is `plen` at least. -/
def Field.bodyWidth (f : Field) : Int := if f.width < f.plen then f.plen else f.width

/-- The part after the `switch`. -/
def emitField (f : Field) (s : σ) : Except Fault σ := do
  let pad := int32 (f.bodyWidth - f.plen)
  -- the padding goes in front, where it uses `pad` up, or behind
  let (pad, s) := if f.ljust then (pad, s)
    else padding pad (if f.fillz then chr '0' else chr ' ') s
  let s ← bodyLoop f.plen f.bodyWidth (f.p ++ [0]) s
  pure (padding pad (chr ' ') s).2

/-- The output of a directive. -/
def emit (conversion : Conversion) (s : σ) : Except Fault σ :=
  match conversion with
  | .field ahead f => emitField f (ahead.foldl putChar s)
  | .count address f => emitField f (Sink.put s (.count address))
  | .literal c => .ok (putChar s c)

/-- The outer loop of `vsnprintf_asyncsignalsafe`. -/
def fmtLoop (ap : VaList) : Nat → List Byte → Nat → σ → Except Fault σ
  | 0, _, _, _ => .error .fuel
  | fuel + 1, fmt, arg, s => do
      let (c, fmt) ← next fmt
      if c = 0 then pure s
      else if c ≠ chr '%' then fmtLoop ap fuel fmt arg (putChar s c)
      else do
        let (d, fmt) ← directive ap fmt arg
        -- the format ends in the middle of a directive
        if d.conv = 0 then pure s
        else do
          let conversion ← convert ap d
          let s ← emit conversion s
          fmtLoop ap fuel fmt (d.arg + argsOf d.conv) s

/-- The loop over a whole format. -/
def format (fmt : CStr) (ap : VaList) (s : σ) : Except Fault σ :=
  fmtLoop ap (fmt.chars.length + 1) (fmt.chars ++ [0]) 0 s

end Output

/-! ## The array -/

/-- The memory, with the addresses of the stores to it, the last one first. -/
structure Ram where
  bytes : Mem
  stores : List Nat

/-- A store of one byte. -/
def Ram.store (ram : Ram) (i : Nat) (c : Byte) : Ram :=
  { bytes := storeAt ram.bytes i [c], stores := i :: ram.stores }

/-- The bytes of the `int` at `address`. -/
def intBytes (address : Nat) : List Nat := [address, address + 1, address + 2, address + 3]

/-- A store of an `int`. -/
def Ram.storeInt (ram : Ram) (address : Nat) (n : Int) : Ram :=
  { bytes := storeAt ram.bytes address (bytes32 (BitVec.ofInt 32 n))
    stores := intBytes address ++ ram.stores }

/-- The variables that `X_STORE_PRT` uses. -/
structure Printer where
  ram : Ram
  buf : Nat
  be : Nat
  bp : Nat
  n : BitVec 32

/-- `X_STORE_PRT(c)`. -/
def Printer.xStorePrt (p : Printer) (c : Byte) : Printer :=
  if p.bp < p.be then { p with ram := p.ram.store p.bp c, bp := p.bp + 1, n := p.n + 1 }
  else if p.bp = p.be then { p with ram := p.ram.store p.be 0, n := p.n + 1 }
  else { p with n := p.n + 1 }

instance : Sink Event Printer where
  put p
    | .char c => p.xStorePrt c
    | .count address => { p with ram := p.ram.storeInt address ((p.bp : Int) - p.buf) }

/-- `vsnprintf_asyncsignalsafe`, with its return value. -/
def vsnprintfAsyncsignalsafe (ram : Ram) (buf : Nat) (size : BitVec 64) (fmt : CStr)
    (ap : VaList) : Except Fault (Ram × BitVec 32) := do
  let p : Printer ← format fmt ap ⟨ram, buf, buf + size.toNat - 1, buf, 0⟩
  pure (p.ram.store (if p.bp < p.be then p.bp else p.be) 0, p.n)

end BazelPro.Print
