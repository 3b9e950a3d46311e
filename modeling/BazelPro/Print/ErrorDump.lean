import BazelPro.C.Hex
import BazelPro.C.Strings
import BazelPro.Print.Callstack
import BazelPro.Print.Widths

/-!
# The hex dump of an error record

After `translate_to_ascii` and `hexdump_formatter` in `src/lib/zerror.cc`, where `char` is signed.
The formatter prints each byte with a call of its own, and each row of characters with another; it
does not look at what the calls return. The addresses of `data` are offsets into it, as no array
reaches beyond the end of the address space.
-/

namespace BazelPro.Print

open C Positional

/-! ## The formatter -/

/-- `isgraph`, in the C locale. -/
def isgraph (c : Byte) : Bool := 33 ≤ c.toNat && c.toNat ≤ 126

/-- What `translate_to_ascii` stores for `len` bytes. -/
def translateToAscii (data : Mem) : Nat → Nat → List Byte
  | _, 0 => []
  | off, len + 1 =>
      (if isgraph (data off) then data off else chr '.') :: translateToAscii data (off + 1) len

theorem nul_not_mem_cString (cs : List Byte) : 0 ∉ cString cs := zero_not_mem_takeWhile cs

/-- The string in an array of `size` bytes. -/
def stringAt (m : Mem) (size : Nat) : CStr :=
  ⟨cString (load m 0 size), nul_not_mem_cString _⟩

/-- The arguments of some strings. -/
def strings (l : List CStr) : VaList := fun i => ⟨0, l.getD i ⟨[], nul_not_mem_nil⟩⟩

/-- `"error info       :\n\t"`. -/
def headFormat : CStr :=
  cstr ['e', 'r', 'r', 'o', 'r', ' ', 'i', 'n', 'f', 'o', ' ', ' ', ' ', ' ', ' ', ' ', ' ', ':',
    '\n', '\t'] (by decide)

/-- `"%02x "`. -/
def byteFormat : CStr := cstr ['%', '0', '2', 'x', ' '] (by decide)

/-- `"  %s\n\t"`. -/
def rowFormat : CStr := cstr [' ', ' ', '%', 's', '\n', '\t'] (by decide)

/-- `"%s %s\n"`. -/
def lastFormat : CStr := cstr ['%', 's', ' ', '%', 's', '\n'] (by decide)

/-- The locals that the loop of `hexdump_formatter` changes, its calls so far, and the offsets of
the bytes that it has read. -/
structure ErrorDump where
  i : Nat
  asciiBuf : Mem
  calls : List Call
  reads : List Nat

namespace ErrorDump

/-- A call of `bufprintf_asyncsignalsafe`. -/
def print (d : ErrorDump) (format : CStr) (args : VaList) : ErrorDump :=
  { d with calls := d.calls ++ [.bufprintfAsyncsignalsafe format args] }

/-- At the beginning of a line, 16 bytes are translated. -/
def translate (data : Mem) (d : ErrorDump) (off : Nat) : ErrorDump :=
  if d.i = 0 then
    { d with
      asciiBuf := storeAt d.asciiBuf 0 (translateToAscii data off 16)
      reads := d.reads ++ List.range' off 16 }
  else d

/-- The current byte is printed. -/
def printByte (data : Mem) (d : ErrorDump) (off : Nat) : ErrorDump :=
  let d := d.print byteFormat (words [(data off).signExtend 64])
  { d with reads := d.reads ++ [off], i := d.i + 1 }

/-- At the end of a line, the translation is printed. -/
def endLine (d : ErrorDump) : ErrorDump :=
  if 16 ≤ d.i then { d with i := 0 }.print rowFormat (strings [stringAt d.asciiBuf 17]) else d

/-- The loop for the byte at `off`. -/
def byte (data : Mem) (d : ErrorDump) (off : Nat) : ErrorDump :=
  ((d.translate data off).printByte data off).endLine

/-- In the middle of a line, padding and the rest of the translation are printed. -/
def lastLine (d : ErrorDump) : ErrorDump :=
  if 0 < d.i then
    let padding := storeAt (fun _ => chr ' ') (49 - d.i * 3) [0]
    let d := { d with asciiBuf := storeAt d.asciiBuf d.i [0] }
    d.print lastFormat (strings [stringAt padding 50, stringAt d.asciiBuf 17])
  else d

/-- Up to the loop, with what is in `ascii_buf` at first. -/
def start (asciiBuf : Mem) : ErrorDump :=
  ErrorDump.print ⟨0, storeAt asciiBuf 16 [0], [], []⟩ headFormat (words [])

end ErrorDump

/-- `hexdump_formatter`. -/
def hexdumpFormatter (asciiBuf data : Mem) (datalen : Nat) : ErrorDump :=
  ((List.range datalen).foldl (ErrorDump.byte data) (ErrorDump.start asciiBuf)).lastLine

/-! ## What the calls print -/

theorem two_digit : 0 < 2 ∧ 2 < 10 := by decide

/-- `%02x`. -/
def hexByte : Source where
  flags := [.zero]
  width := .ofDigit 2 two_digit
  prec := .none
  length := []
  chain := chain_nil
  conv := chr 'x'
  conversion := x_mem_conversions

/-- `%s`. -/
def plainString : Source where
  flags := []
  width := .none
  prec := .none
  length := []
  chain := chain_nil
  conv := chr 's'
  conversion := s_mem_conversions

theorem hexByte_plain : hexByte.Plain := ⟨Width.noConfusion, trivial, Or.inl rfl⟩

/-- What is printed for a byte: the digits of an `int` that a signed `char` was promoted to. -/
def byteText (b : Byte) : List Byte :=
  unsignedField zeroFlag 2 none .x (b.signExtend 32).toNat ++ [chr ' ']

theorem hexByte_emits (b : Byte) :
    hexByte.Emits (words [b.signExtend 64]) 0
      (unsignedField zeroFlag 2 none .x (b.signExtend 32).toNat) := by
  have hvalue : (words [b.signExtend 64] 0).unsigned hexByte.length = (b.signExtend 32).toNat := by
    have hword : (b.signExtend 64).setWidth 32 = b.signExtend 32 := by
      ext i hi
      simp [BitVec.getElem_signExtend, show i < 64 by omega]
    exact congrArg BitVec.toNat hword
  have hconv : hexByte.conv = UnsignedConv.x.char := rfl
  have hemits := (unsigned_field_iff hexByte_plain hconv (words [b.signExtend 64]) 0).mpr
    fun h => absurd h (by decide)
  rw [hvalue] at hemits
  exact hemits

theorem fullText_byteFormat (b : Byte) :
    fullText byteFormat (words [b.signExtend 64]) = byteText b :=
  ((hexByte_emits b).prints.append (prints_literal _ _ (by decide))).fullText_eq

/-- A short string is printed as it is. -/
theorem plainString_emits (ap : VaList) (arg : Nat)
    (hlength : (ap arg).str.chars.length < 2147483632) :
    plainString.Emits ap arg (ap arg).str.chars := by
  have hemits : plainString.Emits ap arg (codeField 0 0 (ap arg).str.chars).text :=
    emits_string rfl
  obtain ⟨-, -, hint, hcases⟩ := shown_spec 0 (ap arg).str.chars
  have hshown : shown 0 (ap arg).str.chars = (ap arg).str.chars.length := by
    rw [hcases, if_pos rfl, hint (by omega)]
    omega
  have hplen := (plen_codeField 0 0 (ap arg).str.chars).trans hshown
  have hwidth : (codeField 0 0 (ap arg).str.chars).width < 2147483648 := by
    show (0 : Int) < 2147483648
    decide
  have hbody : (codeField 0 0 (ap arg).str.chars).p = (ap arg).str.chars := rfl
  rw [Field.text_eq _ (by omega) hwidth, hplen, Int.toNat_natCast, hbody,
    List.take_length] at hemits
  exact justify_zero false false (ap arg).str.chars ▸ hemits

theorem fullText_rowFormat (ascii : CStr) (hlength : ascii.chars.length < 2147483632) :
    fullText rowFormat (strings [ascii]) =
      [chr ' ', chr ' '] ++ (ascii.chars ++ [chr '\n', chr '\t']) := by
  have hgap := prints_literal (strings [ascii]) 0 (show ∀ c ∈ [' ', ' '].map chr, _ by decide)
  have hend := prints_literal (strings [ascii]) 1 (show ∀ c ∈ ['\n', '\t'].map chr, _ by decide)
  have hascii := (plainString_emits (strings [ascii]) 0 hlength).prints
  exact (hgap.append (hascii.append hend)).fullText_eq

theorem fullText_lastFormat (padding ascii : CStr) (hpadding : padding.chars.length < 2147483632)
    (hlength : ascii.chars.length < 2147483632) :
    fullText lastFormat (strings [padding, ascii]) =
      padding.chars ++ ([chr ' '] ++ (ascii.chars ++ [chr '\n'])) := by
  have hgap := prints_literal (strings [padding, ascii]) 1 (show ∀ c ∈ [' '].map chr, _ by decide)
  have hend := prints_literal (strings [padding, ascii]) 2 (show ∀ c ∈ ['\n'].map chr, _ by decide)
  have hfirst := (plainString_emits (strings [padding, ascii]) 0 hpadding).prints
  have hascii := (plainString_emits (strings [padding, ascii]) 1 hlength).prints
  exact (hfirst.append (hgap.append (hascii.append hend))).fullText_eq

end BazelPro.Print
