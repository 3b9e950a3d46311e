import BazelPro.Print.Printer

/-!
# Printing into a buffer

After `src/lib/bufprintf.h` and `src/lib/bufprintf.cc`. `vsnprintf` of libc is a parameter.
-/

namespace BazelPro.Print

open C

/-- `buffer_t`. -/
structure Buffer where
  data : Nat
  available : BitVec 64

/-- `string_formatter_t`. -/
abbrev StringFormatter := Ram → Nat → BitVec 64 → CStr → VaList → Except Fault (Ram × BitVec 32)

/-- `bufinit`. -/
def bufinit (ram : Ram) (output : Nat) (size : BitVec 64) : Buffer × Ram :=
  (⟨output, size⟩, ram.store output 0)

/-- `__bufprintf`, with its return value. -/
def bufprintfWith (formatter : StringFormatter) (buf : Buffer) (ram : Ram) (format : CStr)
    (args : VaList) : Except Fault ((Buffer × Ram) × Int) := do
  let (ram, nc) ← formatter ram buf.data buf.available format args
  let nc := if nc.setWidth 64 ≥ buf.available then (buf.available - 1).setWidth 32 else nc
  pure ((⟨buf.data + nc.toNat, buf.available - nc.setWidth 64⟩, ram), nc.toInt)

/-- `bufprintf`. -/
def bufprintf (vsnprintf : StringFormatter) (buf : Buffer) (ram : Ram) (format : CStr)
    (args : VaList) : Except Fault ((Buffer × Ram) × Int) :=
  bufprintfWith vsnprintf buf ram format args

/-- `bufprintf_asyncsignalsafe`. -/
def bufprintfAsyncsignalsafe (buf : Buffer) (ram : Ram) (format : CStr) (args : VaList) :
    Except Fault ((Buffer × Ram) × Int) :=
  bufprintfWith vsnprintfAsyncsignalsafe buf ram format args

/-- A call of one of the two. -/
inductive Call where
  | bufprintf (format : CStr) (args : VaList)
  | bufprintfAsyncsignalsafe (format : CStr) (args : VaList)

/-- The state after a call, and what it returns. -/
def Call.run (vsnprintf : StringFormatter) (call : Call) (s : Buffer × Ram) :
    Except Fault ((Buffer × Ram) × Int) :=
  match call with
  | .bufprintf format args => Print.bufprintf vsnprintf s.1 s.2 format args
  | .bufprintfAsyncsignalsafe format args =>
      Print.bufprintfAsyncsignalsafe s.1 s.2 format args

/-- The state after some calls. -/
def runCalls (vsnprintf : StringFormatter) (calls : List Call) (s : Buffer × Ram) :
    Except Fault (Buffer × Ram) :=
  calls.foldlM (fun s call => do
    let (s, _) ← call.run vsnprintf s
    pure s) s

end BazelPro.Print
