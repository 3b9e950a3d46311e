import BazelPro.Print.BufferLaw
import BazelPro.Print.Scratch

/-!
# One text for all sizes

Whatever the size of the array, a call writes the beginning of one text, and returns its length
(`text_law_iff`). Precisions near the least `int` are excepted, which `itoa` decrements below it,
and so are the bytes that `%n` stores its count to.
-/

namespace BazelPro.Print

open C Positional

/-- From `ram` to `ram'`, apart from the bytes `other`, the beginning of `text` and a NUL were
written into the `size` bytes at `buf`, and nothing behind the NUL. -/
structure WroteText (other : List Nat) (ram ram' : Ram) (buf size : Nat) (text : List Byte) :
    Prop where
  content : ∀ i c, i < size - 1 → text[i]? = some c → buf + i ∉ other → ram'.bytes (buf + i) = c
  nul : buf + min text.length (size - 1) ∉ other →
    ram'.bytes (buf + min text.length (size - 1)) = 0
  frame : ∀ i, i < buf ∨ buf + min text.length (size - 1) < i → i ∉ other →
    ram'.bytes i = ram.bytes i

theorem WroteText.of_storeAt {other : List Nat} {ram ram' : Ram} {buf size : Nat}
    {text : List Byte} (hsize : 0 < size)
    (hbytes : ∀ i ∉ other, ram'.bytes i = storeAt ram.bytes buf (truncated size text) i)
    (hstores : ∃ new, ram'.stores = new ++ ram.stores ∧
      ∀ i ∈ new, (buf ≤ i ∧ i < buf + size) ∨ i ∈ other) :
    WroteText other ram ram' buf size text := by
  have hwrote := WroteBut.of_storeAt hsize hbytes hstores
  refine ⟨fun i c hi hc hother => ?_, hwrote.nul, fun i hi hother => ?_⟩
  · have hlt := (List.getElem?_eq_some_iff.mp hc).1
    exact hwrote.char (by omega) hc hother
  · have hlength := length_truncated size text
    rw [hbytes i hother, storeAt_outside _ _ _ _ (by omega)]

/-- Counting the digits down from the precision does not pass the least `int`. -/
def Directive.CountsDown (ap : VaList) (d : Directive) : Prop :=
  d.conv ∈ numberConversions → -2147483648 + (d.digits ap : Int) ≤ d.askedDigits ap

instance (ap : VaList) (d : Directive) : Decidable (d.CountsDown ap) :=
  inferInstanceAs (Decidable (_ → _))

theorem Directive.CountsDown.precisionKept {ap : VaList} {d : Directive} (hints : d.spec.Ints)
    (h : d.CountsDown ap) : d.PrecisionKept ap := by
  intro q hq
  obtain ⟨-, hprec, hdigits⟩ := integerConversion_asks hints hq
  have hconv : d.conv ∈ numberConversions := by
    by_contra hother
    rw [integerConversion_eq_none hother] at hq
    cases hq
  have hcounts := h hconv
  rw [← hprec, ← hdigits] at hcounts
  exact hcounts

/-- For admissible directives, one text is written into arrays of all sizes if and only if no
precision is counted down below the least `int`. -/
theorem text_law_iff {fmt : CStr} {ap : VaList} (hadmissible : fmt.Admissible ap)
    (hint : (fullText fmt ap).length < 2 ^ 31) :
    (∃ text : List Byte, ∀ (ram : Ram) (buf : Nat) (size : BitVec 64), 1 ≤ size.toNat →
        ∃ ram' ret, vsnprintfAsyncsignalsafe ram buf size fmt ap = .ok (ram', ret) ∧
          ret.toInt = text.length ∧
          WroteText (fmt.counted ap) ram ram' buf size.toNat text) ↔
      ∀ d ∈ fmt.directives ap, d.CountsDown ap := by
  constructor
  · rintro ⟨text, htext⟩ d hd
    obtain ⟨ram', ret, hrun, -⟩ := htext ⟨fun _ => 0, []⟩ 0 1 (by decide)
    have hroom : d.HasRoom ap := by
      by_contra hroom
      have hscratch := (vsnprintf_scratch_iff (fun d hd => (hadmissible d hd).1)
        ⟨fun _ => 0, []⟩ 0 1).mpr ⟨d, hd, hroom⟩
      rw [hrun] at hscratch
      cases hscratch
    exact fun hconv => (hroom hconv).1
  · intro h
    have hkept : fmt.PrecisionsKept ap :=
      fun d hd => (h d hd).precisionKept (directives_ints ap _ _ _ d hd)
    refine ⟨fullText fmt ap, fun ram buf size hsize => ?_⟩
    obtain ⟨ram', hrun, hbytes, hstores⟩ :=
      vsnprintf_asyncsignalsafe_eq hadmissible hkept ram buf hsize
    refine ⟨ram', _, hrun, ?_, .of_storeAt hsize hbytes hstores⟩
    rw [BitVec.toInt_eq_toNat_of_lt, BitVec.toNat_ofNat, Nat.mod_eq_of_lt (by omega)]
    rw [BitVec.toNat_ofNat, Nat.mod_eq_of_lt (by omega)]
    omega

theorem nul_not_mem_starDigits : 0 ∉ ['%', '.', '*', 'd'].map chr := by decide

/-- The format `%.*d`. -/
def starDigits : CStr := cstr ['%', '.', '*', 'd'] nul_not_mem_starDigits

/-- The precision 3 is kept. -/
theorem text_law_iff_three :
    ∃ text : List Byte, ∀ (ram : Ram) (buf : Nat) (size : BitVec 64), 1 ≤ size.toNat →
      ∃ ram' ret, vsnprintfAsyncsignalsafe ram buf size starDigits (words [3, 5]) =
          .ok (ram', ret) ∧
        ret.toInt = text.length ∧ WroteText [] ram ram' buf size.toNat text :=
  (text_law_iff (by decide) (by decide)).mpr (by decide)

/-- With the least `int` as a precision there is no text. -/
theorem starDigits_no_text : starDigits.Admissible (words [0x80000000, 5]) ∧
    (fullText starDigits (words [0x80000000, 5])).length < 2 ^ 31 ∧
    ¬ ∃ text : List Byte, ∀ (ram : Ram) (buf : Nat) (size : BitVec 64), 1 ≤ size.toNat →
      ∃ ram' ret, vsnprintfAsyncsignalsafe ram buf size starDigits (words [0x80000000, 5]) =
          .ok (ram', ret) ∧
        ret.toInt = text.length ∧
        WroteText (starDigits.counted (words [0x80000000, 5])) ram ram' buf size.toNat text := by
  refine ⟨by decide, by decide, ?_⟩
  rintro ⟨text, htext⟩
  obtain ⟨ram', ret, hrun, -⟩ := htext ⟨fun _ => 0, []⟩ 0 1 (by decide)
  cases hrun

end BazelPro.Print
