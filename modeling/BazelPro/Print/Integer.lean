import BazelPro.Print.Field

/-!
# What the integer conversions print

The argument of an integer conversion, as a number (`Directive.signed`, `Directive.unsigned`), and
the text that is put out for it (`emits_signed`, `emits_unsigned`). Whatever the width of the
argument, its digits are those of its magnitude modulo `2 ^ 32`, as `itoa` takes an
`unsigned int`.
-/

namespace BazelPro.Print

open C Positional

/-! ## Digits -/

/-- The digits of `itoa` are the usual ones. -/
theorem digitChars_eq (caps : Bool) {ds : List Nat} (h : ∀ d ∈ ds, d < 16) :
    digitChars caps ds = ds.map (digitChar caps) := by
  have hdigit : ∀ caps, ∀ d < 16, (digits caps).getD d 0 = digitChar caps d := by decide
  exact List.map_congr_left fun d hd => hdigit caps d (h d hd)

theorem digitChars_numeral (caps : Bool) {base : Nat} (hbase : 1 < base) (hbase16 : base ≤ 16)
    (n : Nat) : digitChars caps (numeral base n) = (numeral base n).map (digitChar caps) :=
  digitChars_eq caps fun _ hd => (lt_of_mem_numeral hbase hd).trans_le hbase16

/-- `itoa` pads with zeros up to its precision. -/
theorem itoaChars_eq (num base : Nat) (caps : Bool) (prec : Int) :
    itoaChars num base caps prec =
      (digitChars caps (numeral base num)).leftpad prec.toNat (chr '0') := by
  have hlength : (digitChars caps (numeral base num)).length = (numeral base num).length :=
    List.length_map _
  have hcount : (prec - (numeral base num).length).toNat =
      prec.toNat - (numeral base num).length := by omega
  rw [itoaChars, List.leftpad, hlength, hcount]

/-- Without a precision, or with one that is not zero, these are the digits of the standard. -/
theorem itoaChars_eq_digitString (num : Nat) {base : Nat} (caps : Bool) (prec : Option Nat)
    (hbase : 1 < base) (hbase16 : base ≤ 16) (hprec : prec ≠ some 0) :
    itoaChars num base caps (prec.getD 0 : Nat) = digitString caps base prec num := by
  rw [itoaChars_eq, digitChars_numeral caps hbase hbase16, digitString, if_neg (by simp [hprec]),
    Int.toNat_natCast]
  cases prec with
  | some p => rfl
  | none =>
      have hlength := length_numeral_pos base num
      have hpad : 1 - ((numeral base num).map (digitChar caps)).length = 0 := by
        rw [List.length_map]
        omega
      show List.leftpad 0 _ _ = List.leftpad 1 _ _
      rw [List.leftpad, List.leftpad, hpad, Nat.zero_sub]

/-! ## The conversions -/

/-- The conversions that print a number. -/
def numberConversions : List Byte := ['d', 'i', 'u', 'p', 'x', 'X', 'o', 'O'].map chr

/-- No other conversion prints a number. -/
theorem integerConversion_eq_none {ap : VaList} {d : Directive}
    (h : d.conv ∉ numberConversions) :
    integerConversion ap d = none := by
  simp only [numberConversions, List.map_cons, List.map_nil, List.mem_cons, List.not_mem_nil,
    or_false, not_or] at h
  obtain ⟨hd, hi, hu, hp, hx, hX, ho, hO⟩ := h
  dsimp only [integerConversion]
  rw [if_neg (by simp [hd, hi]), if_neg hu, if_neg (by simp [hp, hx, hX]),
    if_neg (by simp [ho, hO])]

/-- Each of them prints a number. -/
theorem integerConversion_eq_some {d : Directive} (ap : VaList) (h : d.conv ∈ numberConversions) :
    ∃ q, integerConversion ap d = some q := by
  simp only [numberConversions, List.map_cons, List.map_nil, List.mem_cons, List.not_mem_nil,
    or_false] at h
  dsimp only [integerConversion]
  by_cases hd : d.conv = chr 'd' ∨ d.conv = chr 'i'
  · exact ⟨_, if_pos hd⟩
  rw [if_neg hd]
  by_cases hu : d.conv = chr 'u'
  · exact ⟨_, if_pos hu⟩
  rw [if_neg hu]
  by_cases hx : d.conv = chr 'p' ∨ d.conv = chr 'x' ∨ d.conv = chr 'X'
  · rw [if_pos hx]
    split <;> exact ⟨_, rfl⟩
  rw [if_neg hx, if_pos (by tauto)]
  split <;> exact ⟨_, rfl⟩

/-! ## Arguments -/

/-- What `d` and `i` print. -/
def Directive.signed (ap : VaList) (d : Directive) : Int :=
  if d.spec.half then ((d.num ap).setWidth 16).toInt else (d.num ap).toInt

/-- What `u`, `x`, `X` and `o` print. -/
def Directive.unsigned (ap : VaList) (d : Directive) : Nat :=
  (d.spec.halveUnsigned (d.num ap)).toNat

/-- The flags of a directive, in the words of the standard. -/
def Spec.flags (spec : Spec) : FieldFlags :=
  ⟨spec.ljust, spec.plus, spec.space, spec.fillz, spec.altform⟩

theorem nul_not_mem_nil : (0 : Byte) ∉ ([] : List Byte) := List.not_mem_nil

/-- The arguments that are this number. -/
def argsOfWord (word : BitVec 64) : VaList := fun _ => ⟨word, [], nul_not_mem_nil⟩

/-- `(short) va_arg(ap, int)`. -/
def VaArg.short (a : VaArg) : Int := (a.word.setWidth 16).toInt

/-- The value of an `int` argument, converted to `short` if there is an `h`. -/
def VaArg.signed (a : VaArg) (length : List Length) : Int :=
  if .h ∈ length then a.short else a.int

/-- The value of an `unsigned int` argument, converted to `unsigned short` if there is an `h`. -/
def VaArg.unsigned (a : VaArg) (length : List Length) : Nat :=
  if .h ∈ length then (a.word.setWidth 16).toNat else (a.word.setWidth 32).toNat

/-- The precisions that are meant for an integer conversion: none, or 1 to 30 in digits. -/
def Precision.Meant : Precision → Prop
  | .none => True
  | .star => False
  | .literal n => 1 ≤ n.value ∧ n.value ≤ 30

theorem slt_zero_iff (x : BitVec 64) : x.slt 0 = true ↔ x.toInt < 0 := by
  rw [BitVec.slt_iff_toInt_lt]
  rfl

/-- The magnitude of a `long`, as far as an `unsigned int` holds it. -/
theorem toNat_magnitude (x : BitVec 64) :
    ((if x.slt 0 then -x else x).setWidth 32).toNat = x.toInt.natAbs % 2 ^ 32 := by
  have hlt : x.toNat < 2 ^ 64 := x.isLt
  have hint := BitVec.toInt_eq_toNat_cond x
  rw [BitVec.toNat_setWidth]
  by_cases hneg : x.slt 0 = true
  · rw [if_pos hneg, BitVec.toNat_neg]
    have := (slt_zero_iff x).mp hneg
    split at hint <;> omega
  · rw [if_neg hneg]
    have := mt (slt_zero_iff x).mpr hneg
    split at hint <;> omega

/-- The directive with the precisions that are meant has room for its digits. -/
theorem fits_of_prec {ap : VaList} {d : Directive} {q : IntegerConversion}
    (hq : integerConversion ap d = some q) (hprec : 0 ≤ d.spec.prec ∧ d.spec.prec ≤ 30) :
    q.Fits := by
  obtain ⟨hbase, -, htmp, hadd⟩ := integerConversion_spec hq
  have hdigits := length_numeral_word (q.num.setWidth 32) hbase
  change q.digits ≤ 11 at hdigits
  have hrange : 0 ≤ q.prec ∧ q.prec ≤ d.spec.prec + q.tmp.length := by
    rcases hadd with hadd | hadd
    · omega
    · rw [hadd, int32_eq] <;> omega
  exact ⟨by omega, by omega⟩

/-- The directives that are meant for an `int`: without a `*`, and with no length modifier but an
`h`. -/
structure Source.Plain (src : Source) : Prop where
  width : src.width ≠ .star
  prec : src.prec.Meant
  length : src.length = [] ∨ src.length = [.h]

/-- A directive with a width and a precision that are meant, in the code and in the standard. -/
theorem Source.directive_eq {src : Source} (hstar : src.width ≠ .star) (hmeant : src.prec.Meant)
    (ap : VaList) (arg : Nat) :
    (src.directive ap arg).arg = arg ∧
      (src.directive ap arg).spec.width < 2147483648 ∧
      (src.directive ap arg).spec.prec = ((src.prec.standard ap arg).getD 0 : Nat) ∧
      src.prec.standard ap arg ≠ some 0 ∧
      0 ≤ (src.directive ap arg).spec.prec ∧ (src.directive ap arg).spec.prec ≤ 30 := by
  have hwidth : src.width.args = 0 ∧ src.width.value ap arg < 2147483648 := by
    cases hsrc : src.width with
    | none => exact ⟨rfl, show (0 : Int) < 2147483648 by decide⟩
    | star => exact absurd hsrc hstar
    | literal n first => exact ⟨rfl, Int.ofNat_lt.mpr n.fits⟩
  have hprec : src.prec.args = 0 ∧
      src.prec.value ap arg = ((src.prec.standard ap arg).getD 0 : Nat) ∧
      src.prec.standard ap arg ≠ some 0 ∧ src.prec.value ap arg ≤ 30 := by
    generalize src.prec = prec at hmeant
    cases prec with
    | none => exact ⟨rfl, rfl, (Option.some_ne_none 0).symm, show (0 : Int) ≤ 30 by decide⟩
    | star => exact hmeant.elim
    | literal n =>
        have hvalue : 1 ≤ n.value ∧ n.value ≤ 30 := hmeant
        refine ⟨rfl, rfl, fun hzero => ?_, Int.ofNat_le.mpr hvalue.2⟩
        have : n.value = 0 := Option.some.inj hzero
        omega
  obtain ⟨hpargs, hvalue, hne, hmax⟩ := hprec
  have hspec : (src.directive ap arg).spec.prec = src.prec.value ap arg := by
    show src.prec.value ap (arg + src.width.args) = _
    rw [hwidth.1, Nat.add_zero]
  have harg : (src.directive ap arg).arg = arg := by
    show arg + src.width.args + src.prec.args = arg
    rw [hwidth.1, hpargs, Nat.add_zero]
  rw [hspec]
  exact ⟨harg, hwidth.2, hvalue, hne, hvalue ▸ Int.natCast_nonneg _, hmax⟩

theorem length_digitString (caps : Bool) (base : Nat) {prec : Option Nat} (hprec : prec ≠ some 0)
    (n : Nat) : (digitString caps base prec n).length =
      max (prec.getD 0) (numeral base n).length := by
  have hpos := length_numeral_pos base n
  rw [digitString, if_neg (fun h => hprec h.2), List.length_leftpad, List.length_map]
  cases prec with
  | none => exact (max_eq_right hpos).trans (max_eq_right (Nat.zero_le _)).symm
  | some p => rfl

/-- The precision that the code takes for none. -/
theorem prec_eq_zero_iff {spec : Spec} {prec : Option Nat}
    (hprec : spec.prec = (prec.getD 0 : Nat)) (hne : prec ≠ some 0) :
    spec.prec = 0 ↔ prec = none := by
  rw [hprec]
  cases prec with
  | none => simp
  | some p => simpa using hne

/-- A numeric field with the digits behind what the code has stored in front of them. -/
theorem justify_eq_numericField (spec : Spec) {prec : Option Nat}
    (hprec : spec.prec = (prec.getD 0 : Nat)) (hne : prec ≠ some 0) {lead : List Byte}
    (hlead : spec.fillz → prec = none → lead = [] ∨ spec.ljust) (digits : List Byte) :
    justify spec.ljust (spec.fillz && decide (spec.prec = 0)) spec.width.toNat (lead ++ digits) =
      numericField spec.flags spec.width.toNat prec lead digits := by
  have hzero := prec_eq_zero_iff hprec hne
  rw [justify, numericField]
  show _ = if spec.ljust then _ else if spec.fillz ∧ prec = none then _ else _
  by_cases hljust : spec.ljust
  · rw [if_pos hljust, if_pos hljust]
  rw [if_neg hljust, if_neg hljust]
  by_cases hfill : spec.fillz ∧ prec = none
  · have hnil : lead = [] := (hlead hfill.1 hfill.2).resolve_right hljust
    rw [if_pos hfill, if_pos (by simp [hfill.1, hzero.mpr hfill.2]), hnil]
    rfl
  · rw [if_neg hfill, if_neg (by simpa [hzero] using hfill)]

/-! ## Signed conversions -/

/-- The sign that is put out ahead of a zero-filled field. -/
def signAhead (spec : Spec) (v : Int) : Byte :=
  if v < 0 then chr '-' else if spec.space then chr ' ' else chr '+'

/-- The value of the argument, halved. -/
def Spec.halveSigned (spec : Spec) (num : BitVec 64) : BitVec 64 :=
  if spec.half then (num.setWidth 16).signExtend 64 else num

theorem Directive.signed_eq (ap : VaList) (d : Directive) :
    (d.spec.halveSigned (d.num ap)).toInt = d.signed ap := by
  unfold Spec.halveSigned signed
  split
  · exact BitVec.toInt_signExtend_of_le (by decide)
  · rfl

theorem sign_eq_nil_iff (fl : FieldFlags) (v : Int) :
    sign fl v = [] ↔ ¬ v < 0 ∧ fl.plus = false ∧ fl.space = false := by
  unfold sign
  by_cases hneg : v < 0
  · simp [hneg]
  · cases fl.plus <;> cases fl.space <;> simp [hneg]

theorem length_sign (fl : FieldFlags) (v : Int) :
    (sign fl v).length = if v < 0 ∨ fl.plus ∨ fl.space then 1 else 0 := by
  unfold sign
  by_cases hneg : v < 0
  · simp [hneg]
  · cases fl.plus <;> cases fl.space <;> simp [hneg]

theorem VaArg.short_range (a : VaArg) : -32768 ≤ a.short ∧ a.short < 32768 := by
  have hlow := BitVec.le_toInt (a.word.setWidth 16)
  have hhigh := BitVec.toInt_lt (x := a.word.setWidth 16)
  unfold short
  omega

/-- The low bits of an `int` that is extended to a `long`. -/
theorem setWidth_signExtend_int (w : BitVec 64) {k : Nat} (hk : k ≤ 32) :
    ((w.setWidth 32).signExtend 64).setWidth k = w.setWidth k := by
  ext i hi
  have h64 : i < 64 := by omega
  have h32 : i < 32 := by omega
  rw [BitVec.getElem_setWidth, BitVec.getElem_setWidth, BitVec.getLsbD_signExtend, if_pos h32,
    BitVec.getLsbD_setWidth, decide_eq_true h64, decide_eq_true h32, Bool.true_and, Bool.true_and]

section Int

variable {src : Source} (ap : VaList) (arg : Nat)
  (hlength : src.length = [] ∨ src.length = [.h])
include hlength

/-- Without an `l`, the argument is an `int`. -/
theorem Source.num_eq : (src.directive ap arg).num ap =
    ((ap (src.directive ap arg).arg).word.setWidth 32).signExtend 64 := by
  have htlong : (src.directive ap arg).spec.tlong = 0 := by
    show (src.length.foldl Length.set {}).tlong = 0
    rcases hlength with h | h <;> rw [h] <;> rfl
  unfold Directive.num
  simp only [htlong]
  rfl

theorem Source.signed_eq : (src.directive ap arg).signed ap =
    (ap (src.directive ap arg).arg).signed src.length := by
  have hhalf : (src.directive ap arg).spec.half = src.length.contains .h := rfl
  rw [Directive.signed, Source.num_eq ap arg hlength, hhalf, VaArg.signed]
  rcases hlength with h | h
  · rw [h]
    exact BitVec.toInt_signExtend_of_le (by decide)
  · rw [h, if_pos (by decide), if_pos (by decide), VaArg.short,
      setWidth_signExtend_int _ (by decide)]

theorem Source.unsigned_eq : (src.directive ap arg).unsigned ap % 2 ^ 32 =
    (ap (src.directive ap arg).arg).unsigned src.length := by
  have hhalf : (src.directive ap arg).spec.half = src.length.contains .h := rfl
  rw [Directive.unsigned, Spec.halveUnsigned, Source.num_eq ap arg hlength, hhalf,
    VaArg.unsigned]
  rcases hlength with h | h
  · rw [h, if_neg (by decide), if_neg (by decide), ← BitVec.toNat_setWidth,
      setWidth_signExtend_int _ (by decide)]
  · rw [h, if_pos (by decide), if_pos (by decide), setWidth_signExtend_int _ (by decide)]
    have hlt := ((ap (src.directive ap arg).arg).word.setWidth 16).isLt
    rw [BitVec.toNat_setWidth_of_le (by decide), Nat.mod_eq_of_lt (by omega)]

end Int

/-- The two paths of the case for `d` and `i`: the sign goes ahead of the field or into its body. -/
theorem signedConversion_eq (spec : Spec) (num : BitVec 64) :
    let x := spec.halveSigned num
    let magnitude := if x.slt 0 then -x else x
    signedConversion spec num =
      if spec.fillz ∧ sign spec.flags x.toInt ≠ [] then
        ⟨[signAhead spec x.toInt], if 0 < spec.width then spec.width - 1 else spec.width, [],
          magnitude, 10, spec.prec⟩
      else ⟨[], spec.width, sign spec.flags x.toInt, magnitude, 10, spec.prec⟩ := by
  intro x magnitude
  have hneg := slt_zero_iff x
  have hdef : signedConversion spec num =
      if spec.fillz ∧ (x.slt 0 ∨ spec.plus ∨ spec.space) then
        ⟨[if x.slt 0 then chr '-' else if spec.space then chr ' ' else chr '+'],
          if 0 < spec.width then spec.width - 1 else spec.width, [], magnitude, 10, spec.prec⟩
      else if ¬ spec.fillz then
        ⟨[], spec.width, if x.slt 0 then [chr '-'] else if spec.plus then [chr '+']
          else if spec.space then [chr ' '] else [], magnitude, 10, spec.prec⟩
      else ⟨[], spec.width, [], x, 10, spec.prec⟩ := rfl
  have hahead : (if x.slt 0 then chr '-' else if spec.space then chr ' ' else chr '+') =
      signAhead spec x.toInt := by
    simp only [signAhead, hneg]
  have hbody : (if x.slt 0 then [chr '-'] else if spec.plus then [chr '+']
      else if spec.space then [chr ' '] else []) = sign spec.flags x.toInt := by
    simp only [sign, hneg]
    rfl
  have hsigned : (x.slt 0 ∨ spec.plus ∨ spec.space) ↔ sign spec.flags x.toInt ≠ [] := by
    rw [Ne, sign_eq_nil_iff, hneg]
    show _ ↔ ¬ (_ ∧ spec.plus = false ∧ spec.space = false)
    cases spec.plus <;> cases spec.space <;> simp
  rw [hdef, hahead, hbody]
  simp only [hsigned]
  by_cases hfillz : spec.fillz
  · by_cases hnil : sign spec.flags x.toInt = []
    · -- without a sign to print, the argument is not negative
      have hpos := ((sign_eq_nil_iff _ _).mp hnil).1
      have hmagnitude : magnitude = x := if_neg (mt hneg.mp hpos)
      simp [hnil, hfillz, hmagnitude]
    · simp [hnil, hfillz]
  · simp [hfillz]

/-- What `d` and `i` put out for the value `v`. -/
def signedText (spec : Spec) (v : Int) : List Byte :=
  let digits := itoaChars (v.natAbs % 2 ^ 32) 10 false spec.prec
  let fillz := spec.fillz && decide (spec.prec = 0)
  if spec.fillz ∧ sign spec.flags v ≠ [] then
    signAhead spec v :: justify spec.ljust fillz (spec.width.toNat - 1) digits
  else justify spec.ljust fillz spec.width.toNat (sign spec.flags v ++ digits)

/-- The condition that leaves zero-filling on. -/
theorem fillz_eq (fillz : Bool) (prec : Int) :
    (if prec ≠ 0 then false else fillz) = (fillz && decide (prec = 0)) := by
  by_cases h : prec = 0 <;> simp [h]

variable {src : Source} {ap : VaList} {arg : Nat}

/-- What a directive with `d` or `i` puts out. -/
theorem emits_signed (hconv : src.conv = chr 'd' ∨ src.conv = chr 'i')
    (hwidth : (src.directive ap arg).spec.width < 2147483648)
    (hprec : 0 ≤ (src.directive ap arg).spec.prec ∧ (src.directive ap arg).spec.prec ≤ 30) :
    src.Emits ap arg
      (signedText (src.directive ap arg).spec ((src.directive ap arg).signed ap)) := by
  have hinteger : integerConversion ap (src.directive ap arg) =
      some (signedConversion (src.directive ap arg).spec ((src.directive ap arg).num ap)) :=
    if_pos hconv
  have hfits := fits_of_prec hinteger hprec
  have hcaps : (decide ((src.directive ap arg).conv = chr 'X')) = false := by
    have : (src.directive ap arg).conv = src.conv := rfl
    rcases hconv with h | h <;> rw [this, h] <;> decide
  have hfield := convert_integer hinteger hfits
  rw [hcaps] at hfield
  have hemits := Source.emits_of_field hfield
  generalize src.directive ap arg = d at *
  rw [fillz_eq] at hemits
  have hq := signedConversion_eq d.spec (d.num ap)
  dsimp only at hq
  rw [d.signed_eq ap] at hq
  rw [signedText]
  generalize signedConversion d.spec (d.num ap) = q at *
  have hdigits := toNat_magnitude (d.spec.halveSigned (d.num ap))
  rw [d.signed_eq ap] at hdigits
  split at hq
  · next hahead =>
    rw [if_pos hahead]
    have hwidth' : q.width < 2147483648 ∧ q.width.toNat = d.spec.width.toNat - 1 := by
      rw [hq]
      dsimp only
      split <;> omega
    rw [text_integer q hfits hwidth'.1, hwidth'.2] at hemits
    subst hq
    rw [IntegerConversion.body, hdigits] at hemits
    exact hemits
  · next hahead =>
    rw [if_neg hahead]
    have hwidth' : q.width < 2147483648 := by rwa [hq]
    rw [text_integer q hfits hwidth'] at hemits
    subst hq
    rw [IntegerConversion.body, hdigits] at hemits
    exact hemits

/-! ## Unsigned conversions -/

/-- What the alternate form stores in front of the digits. -/
def altLead (spec : Spec) (conv : UnsignedConv) : List Byte :=
  if ¬ spec.altform then []
  else match conv with
    | .u => []
    | .x | .X => [chr '0', conv.char]
    | .o => [chr '0']

/-- What `u`, `x`, `X` and `o` put out for the value `n`: the precision counts what the alternate
form has stored as well. -/
def unsignedText (spec : Spec) (conv : UnsignedConv) (n : Nat) : List Byte :=
  let lead := altLead spec conv
  let prec := spec.prec + lead.length
  justify spec.ljust (spec.fillz && decide (prec = 0)) spec.width.toNat
    (lead ++ itoaChars (n % 2 ^ 32) conv.base (conv = .X) prec)

/-- The cases for `u`, `x`, `X` and `o`. -/
theorem unsignedConversion_eq {ap : VaList} {d : Directive} {conv : UnsignedConv}
    (hconv : d.conv = conv.char) (hprec : 0 ≤ d.spec.prec ∧ d.spec.prec ≤ 30) :
    integerConversion ap d = some ⟨[], d.spec.width, altLead d.spec conv,
      d.spec.halveUnsigned (d.num ap), conv.base,
      d.spec.prec + (altLead d.spec conv).length⟩ := by
  have hone : int32 (d.spec.prec + 1) = d.spec.prec + 1 := int32_eq (by omega) (by omega)
  have htwo : int32 (d.spec.prec + 2) = d.spec.prec + 2 := int32_eq (by omega) (by omega)
  have hzero : d.spec.prec = d.spec.prec + (0 : Nat) := (Int.add_zero _).symm
  dsimp only [integerConversion, altLead]
  rw [hconv]
  cases conv with
  | u =>
      rw [if_neg (by decide), if_pos (by decide)]
      split <;> exact congrArg (fun prec => some (IntegerConversion.mk _ _ _ _ _ prec)) hzero
  | x | X =>
      rw [if_neg (by decide), if_neg (by decide), if_pos (by decide)]
      by_cases halt : d.spec.altform
      · rw [if_pos ⟨halt, by decide⟩, if_neg (not_not_intro halt), htwo]
        rfl
      · rw [if_neg (fun h => halt h.1), if_pos halt]
        exact congrArg (fun prec => some (IntegerConversion.mk _ _ _ _ _ prec)) hzero
  | o =>
      rw [if_neg (by decide), if_neg (by decide), if_neg (by decide), if_pos (by decide)]
      by_cases halt : d.spec.altform
      · rw [if_pos halt, if_neg (not_not_intro halt), hone]
        rfl
      · rw [if_neg halt, if_pos halt]
        exact congrArg (fun prec => some (IntegerConversion.mk _ _ _ _ _ prec)) hzero

/-- What a directive with `u`, `x`, `X` or `o` puts out. -/
theorem emits_unsigned {conv : UnsignedConv} (hconv : src.conv = conv.char)
    (hwidth : (src.directive ap arg).spec.width < 2147483648)
    (hprec : 0 ≤ (src.directive ap arg).spec.prec ∧ (src.directive ap arg).spec.prec ≤ 30) :
    src.Emits ap arg (unsignedText (src.directive ap arg).spec conv
      ((src.directive ap arg).unsigned ap)) := by
  have hinteger : integerConversion ap (src.directive ap arg) = _ :=
    unsignedConversion_eq hconv hprec
  have hfits := fits_of_prec hinteger hprec
  have hcaps : decide ((src.directive ap arg).conv = chr 'X') = decide (conv = .X) := by
    show decide (src.conv = chr 'X') = _
    rw [hconv]
    cases conv <;> decide
  have hfield := convert_integer hinteger hfits
  rw [hcaps] at hfield
  have hemits := Source.emits_of_field hfield
  rw [fillz_eq, text_integer _ hfits hwidth, List.nil_append, IntegerConversion.body,
    BitVec.toNat_setWidth] at hemits
  exact hemits

end BazelPro.Print
