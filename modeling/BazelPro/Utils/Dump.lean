import BazelPro.C.Hex

/-!
# The hex dump

After `_hexdump` and `hexdump` in `src/utils/dump.cc`. The dump is printed into a block from the
heap; whether an allocation succeeds is an argument, by its size. A store outside the block, a
signed overflow, and the use of a pointer that was never set are undefined and make the call
`none`.
-/

namespace BazelPro.Utils

open C

/-- `LINE_SIZE`. -/
def lineSize : Nat := 128

/-- A block from the heap. -/
structure Block where
  size : Nat
  bytes : Mem

/-- A store to the block. -/
def Block.store (b : Block) (off : Nat) (bs : List Byte) : Option Block :=
  if off + bs.length ≤ b.size then some { b with bytes := storeAt b.bytes off bs } else none

/-- The string at the start of the block, which must end inside of it. -/
def Block.string (b : Block) : Option (List Byte) :=
  if (load b.bytes 0 b.size).contains 0 then some ((load b.bytes 0 b.size).takeWhile (· ≠ 0))
  else none

/-- The locals that the loops of `_hexdump` change. -/
structure Dump where
  line : Block
  lineIte : Nat
  buf : Mem

namespace Dump

/-- `line_ite += sprintf(&line[line_ite], ...)`, which puts out `text`. -/
def print (d : Dump) (text : List Byte) : Option Dump :=
  if d.lineIte + text.length < 2 ^ 31 then do
    let line ← d.line.store d.lineIte (text ++ [0])
    pure { d with line := line, lineIte := d.lineIte + text.length }
  else none

variable (myStr : Mem) (len : Nat)

/-- The inner loop for one `i`. -/
def column (j myStrIte : Nat) (d : Dump) (i : Nat) : Option Dump :=
  if i + myStrIte < len then do
    let d ← d.print (unsignedField zeroFlag 2 none .x (myStr (i + myStrIte)).toNat ++ [chr ' '])
    pure { d with buf := storeAt d.buf i [myStr (i + myStrIte)] }
  else if j ≠ 0 then do
    let d ← d.print [chr ' ', chr ' ', chr ' ']
    pure { d with buf := storeAt d.buf i [chr ' '] }
  else some d

/-- The outer loop for one `j`, for which `my_str_ite` is `16 * j`. -/
def row (d : Dump) (j : Nat) : Option Dump := do
  let d ← d.print (unsignedField zeroFlag 8 none .x j ++ [chr ' ', chr ' '])
  let d ← (List.range 16).foldlM (column myStr len j (16 * j)) d
  d.print ([chr ' ', chr '|'] ++ (load d.buf 0 17).takeWhile (· ≠ 0) ++ [chr '|', chr '\n'])

end Dump

/-- `line_nbr`. -/
def lineNbr (len : BitVec 64) : BitVec 32 :=
  if len % 16 = 0 then (len / 16).setWidth 32 else (len / 16 + 1).setWidth 32

/-- `_hexdump`, with a `buffer` that is not `NULL`. The inner `none` is the return value -1, with
which `*buffer` is not set. -/
def _hexdump (calloc : Nat → Bool) (addr : Option Mem) (len : BitVec 64) :
    Option (Option (Int × Block)) :=
  match addr with
  | none => some none
  | some myStr =>
      if len = 0 then some none
      else
        let size := ((lineNbr len).signExtend 64).toNat * lineSize
        if size < 2 ^ 64 ∧ calloc size then do
          let start : Dump := ⟨⟨size, fun _ => 0⟩, 0, fun _ => 0⟩
          let d ← (List.range (lineNbr len).toInt.toNat).foldlM (Dump.row myStr len.toNat) start
          let line ← if 1 ≤ d.lineIte then d.line.store (d.lineIte - 1) [0] else none
          if (lineNbr len).toInt * lineSize < 2 ^ 31 then
            pure (some ((lineNbr len).toInt * lineSize, line))
          else none
        else some none

/-- `hexdump`: the texts of the blocks that it prints and frees. The pointer `dump` is only set by a
call that does not return -1, but it is printed and freed after every call. -/
def hexdump (calloc : Nat → Bool) (addr : Option Mem) (len : BitVec 64) :
    Option (List (List Byte)) := do
  let result ← _hexdump calloc addr len
  let dump ← result.map Prod.snd
  let text ← dump.string
  pure [text]

end BazelPro.Utils
