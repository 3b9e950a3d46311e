import BazelPro.Lib.Padding
import BazelPro.Print.Integer

/-!
# Unsigned fields

Without the alternate form, the field is the one of the standard. The alternate form adds the
length of its prefix to the precision, and `itoa` writes as many digits behind the prefix: a
number that is shorter gets zeros, zero gets a prefix too, and as the precision is not zero any
more, blanks take the place of the zeros that the flag `0` asks for (`unsigned_field_iff`).
-/

namespace BazelPro.Print

open C Padding Positional

/-! ## The digits -/

section Digits

variable (conv : UnsignedConv) (n : Nat)

theorem UnsignedConv.base_spec : 1 < conv.base ∧ conv.base ≤ 16 := by
  cases conv <;> decide

theorem itoaChars_unsigned (prec : Int) :
    itoaChars n conv.base (conv = .X) prec = (conv.digits n).leftpad prec.toNat (chr '0') := by
  obtain ⟨hbase, hbase16⟩ := UnsignedConv.base_spec conv
  rw [itoaChars_eq, digitChars_numeral _ hbase hbase16, UnsignedConv.digits]

theorem digitString_unsigned {prec : Option Nat} (hne : prec ≠ some 0) :
    digitString (conv = .X) conv.base prec n =
      (conv.digits n).leftpad (prec.getD 0) (chr '0') := by
  obtain ⟨hbase, hbase16⟩ := UnsignedConv.base_spec conv
  rw [← itoaChars_eq_digitString n _ prec hbase hbase16 hne, itoaChars_unsigned,
    Int.toNat_natCast]

theorem length_digits : (conv.digits n).length = (numeral conv.base n).length :=
  List.length_map _

theorem digits_zero : conv.digits 0 = [chr '0'] := by
  rw [UnsignedConv.digits, numeral_zero]
  cases conv <;> rfl

/-- Digits are visible. -/
theorem blank_not_mem_digits : chr ' ' ∉ conv.digits n := by
  intro hmem
  obtain ⟨hbase, hbase16⟩ := UnsignedConv.base_spec conv
  obtain ⟨d, hd, hblank⟩ := List.mem_map.mp hmem
  have hvisible : ∀ caps, ∀ d < 16, digitChar caps d ≠ chr ' ' := by decide
  exact hvisible _ d ((lt_of_mem_numeral hbase hd).trans_le hbase16) hblank

theorem blank_not_mem_leftpad {cs : List Byte} (h : chr ' ' ∉ cs) (m : Nat) :
    chr ' ' ∉ cs.leftpad m (chr '0') := by
  intro hmem
  rcases List.mem_append.mp hmem with hmem | hmem
  · exact absurd (List.eq_of_mem_replicate hmem) (by decide)
  · exact h hmem

/-- Zeros are no letter. -/
theorem eq_zero_of_mem_leftpad {c : Byte} {m : Nat}
    (h : c ∈ (conv.digits 0).leftpad m (chr '0')) : c = chr '0' := by
  rw [digits_zero] at h
  rcases List.mem_append.mp h with h | h
  · exact List.eq_of_mem_replicate h
  · exact List.mem_singleton.mp h

/-- A number other than zero begins with another digit than `0`. -/
theorem head_digits_ne_zero (hn : n ≠ 0) : (conv.digits n).head? ≠ some (chr '0') := by
  obtain ⟨hbase, hbase16⟩ := UnsignedConv.base_spec conv
  obtain ⟨d, ds, hds, hne⟩ := @numeral_eq_cons conv.base n hn
  have hlt : d < 16 :=
    (lt_of_mem_numeral hbase (hds ▸ List.mem_cons_self)).trans_le hbase16
  have hdigit : ∀ caps, ∀ d < 16, d ≠ 0 → digitChar caps d ≠ chr '0' := by decide
  rw [UnsignedConv.digits, hds]
  exact fun h => hdigit _ d hlt hne (Option.some.inj h)

end Digits

/-! ## The alternate form -/

/-- The field is filled with zeros, rather than blanks. -/
def FillsZeros (fl : FieldFlags) (prec : Option Nat) : Prop :=
  fl.zero ∧ ¬ fl.minus ∧ prec = none

instance (fl : FieldFlags) (prec : Option Nat) : Decidable (FillsZeros fl prec) :=
  inferInstanceAs (Decidable (_ ∧ _))

/-- A field that is padded with blanks is the one of the standard, if its characters are. -/
theorem justify_eq_numericField_iff (spec : Spec) (prec : Option Nat)
    {body lead digits : List Byte} (hbody : chr ' ' ∉ body) (hlead : chr ' ' ∉ lead)
    (hdigits : chr ' ' ∉ digits) :
    justify spec.ljust false spec.width.toNat body =
        numericField spec.flags spec.width.toNat prec lead digits ↔
      if FillsZeros spec.flags prec then spec.width.toNat ≤ body.length ∧
        body = lead ++ digits.leftpad (spec.width.toNat - lead.length) (chr '0')
      else body = lead ++ digits := by
  have hjoin : chr ' ' ∉ lead ++ digits := by
    rw [List.mem_append]
    exact not_or.mpr ⟨hlead, hdigits⟩
  rw [justify, numericField]
  show _ = (if spec.ljust then _ else if spec.fillz ∧ prec = none then _ else _) ↔ _
  by_cases hljust : spec.ljust
  · have hfill : ¬ FillsZeros spec.flags prec := fun h => h.2.1 hljust
    rw [if_pos hljust, if_pos hljust, if_neg hfill]
    exact rightpad_inj _ hbody hjoin
  rw [if_neg hljust, if_neg hljust]
  by_cases hzero : spec.fillz ∧ prec = none
  · have hfill : FillsZeros spec.flags prec := ⟨hzero.1, hljust, hzero.2⟩
    rw [if_pos hzero, if_pos hfill]
    refine leftpad_eq_iff_of_notMem ?_
    rw [List.mem_append]
    exact not_or.mpr ⟨hlead, blank_not_mem_leftpad hdigits _⟩
  · have hfill : ¬ FillsZeros spec.flags prec := fun h => hzero ⟨h.1, h.2.2⟩
    rw [if_neg hzero, if_neg hfill]
    exact leftpad_inj _ hbody hjoin

/-- Without the alternate form there is no prefix. -/
theorem altPrefix_of_not_alt {fl : FieldFlags} (halt : ¬ fl.alt) (conv : UnsignedConv) (n : Nat) :
    altPrefix fl conv n = [] :=
  if_neg fun h => halt h.1

theorem unsignedDigits_of_not_alt {fl : FieldFlags} (halt : ¬ fl.alt) {prec : Option Nat}
    (hne : prec ≠ some 0) (conv : UnsignedConv) (n : Nat) :
    unsignedDigits fl prec conv n = (conv.digits n).leftpad (prec.getD 0) (chr '0') := by
  rw [unsignedDigits, digitString_unsigned conv n hne]
  exact if_neg fun h => halt h.1

/-- In the alternate form, the code puts the digits of the standard behind its prefix, and fills
the field with zeros if the standard does. `u` has no alternate form. -/
def AltFormAgrees (fl : FieldFlags) (width : Nat) (prec : Option Nat) (conv : UnsignedConv)
    (n : Nat) : Prop :=
  let digits := (numeral conv.base n).length
  match conv with
  | .u => True
  | .x | .X => n ≠ 0 ∧
      if FillsZeros fl prec then 2 ≤ digits ∧ width ≤ digits + 2 ∨ digits = 1 ∧ width = 4
      else prec.getD 0 + 2 ≤ digits
  | .o =>
      if FillsZeros fl prec then n ≠ 0 ∧ width ≤ digits + 1 ∨ n = 0 ∧ width = 2
      else n ≠ 0 ∧ prec.getD 0 + 1 ≤ digits

theorem altLead_hexadecimal {spec : Spec} (halt : spec.altform) {conv : UnsignedConv}
    (hbase : conv.base = 16) : altLead spec conv = [chr '0', conv.char] := by
  cases conv with
  | x | X => exact if_neg (not_not_intro halt)
  | u | o => exact absurd hbase (by decide)

section AltForm

variable (spec : Spec) {prec : Option Nat} (hne : prec ≠ some 0) (n : Nat)
include hne

omit hne in
/-- The characters of the alternate form of `x` and `X`. -/
theorem hexadecimal_visible {conv : UnsignedConv} (hbase : conv.base = 16) :
    conv.char ≠ chr '0' ∧ conv ≠ .o ∧ chr ' ' ∉ [chr '0', conv.char] ∧
      chr ' ' ∉ [chr '0', conv.char] ++ (conv.digits n).leftpad (prec.getD 0 + 2) (chr '0') := by
  have hletter : conv.char ≠ chr '0' ∧ conv ≠ .o ∧ chr ' ' ∉ [chr '0', conv.char] := by
    cases conv <;> first | decide | exact absurd hbase (by decide)
  refine ⟨hletter.1, hletter.2.1, hletter.2.2, ?_⟩
  rw [List.mem_append]
  exact not_or.mpr ⟨hletter.2.2, blank_not_mem_leftpad (blank_not_mem_digits conv n) _⟩

omit hne in
/-- Zero gets a prefix, which the standard does not put before it. -/
theorem hexadecimal_zero_ne {conv : UnsignedConv} (hbase : conv.base = 16) (m : Nat) :
    [chr '0', conv.char] ++ (conv.digits 0).leftpad (prec.getD 0 + 2) (chr '0') ≠
      (conv.digits 0).leftpad m (chr '0') := by
  intro heq
  have hmem : conv.char ∈ (conv.digits 0).leftpad m (chr '0') := by
    rw [← heq]
    exact List.mem_append_left _ (List.mem_cons_of_mem _ List.mem_cons_self)
  exact (@hexadecimal_visible prec 0 conv hbase).1 (eq_zero_of_mem_leftpad conv hmem)

/-- The alternate form of `x` and `X`: two zeros too many behind the prefix. -/
theorem hexadecimal_eq_iff (halt : spec.altform) {conv : UnsignedConv} (hbase : conv.base = 16) :
    justify spec.ljust false spec.width.toNat
          ([chr '0', conv.char] ++ (conv.digits n).leftpad (prec.getD 0 + 2) (chr '0')) =
        unsignedField spec.flags spec.width.toNat prec conv n ↔
      AltFormAgrees spec.flags spec.width.toNat prec conv n := by
  obtain ⟨hchar, hoctal, hlead, hbody⟩ := @hexadecimal_visible prec n conv hbase
  have hvisible := blank_not_mem_digits conv n
  have hdigits : unsignedDigits spec.flags prec conv n =
      (conv.digits n).leftpad (prec.getD 0) (chr '0') := by
    rw [unsignedDigits, digitString_unsigned conv n hne]
    exact if_neg fun h => hoctal h.2.1
  have hagrees : AltFormAgrees spec.flags spec.width.toNat prec conv n ↔
      n ≠ 0 ∧ if FillsZeros spec.flags prec then
        2 ≤ (conv.digits n).length ∧ spec.width.toNat ≤ (conv.digits n).length + 2 ∨
          (conv.digits n).length = 1 ∧ spec.width.toNat = 4
      else prec.getD 0 + 2 ≤ (conv.digits n).length := by
    rw [length_digits]
    cases conv <;> first | exact Iff.rfl | exact absurd hbase (by decide)
  rw [unsignedField, hdigits, hagrees]
  by_cases hn : n = 0
  · subst hn
    have hstandard : altPrefix spec.flags conv 0 = [] := if_neg fun h => h.2.2 rfl
    rw [hstandard, justify_eq_numericField_iff spec prec hbody List.not_mem_nil
      (blank_not_mem_leftpad hvisible _), List.nil_append, List.nil_append]
    refine iff_of_false (fun h => ?_) (fun h => h.1 rfl)
    split at h
    · rw [leftpad_leftpad] at h
      exact hexadecimal_zero_ne hbase _ h.2
    · exact hexadecimal_zero_ne hbase _ h
  · have hstandard : altPrefix spec.flags conv n = [chr '0', conv.char] := if_pos ⟨halt, hbase, hn⟩
    have hpos := length_numeral_pos conv.base n
    rw [← length_digits] at hpos
    rw [hstandard, justify_eq_numericField_iff spec prec hbody hlead
      (blank_not_mem_leftpad hvisible _)]
    simp only [hn, ne_eq, not_false_eq_true, true_and]
    split
    · next hfill =>
      have hzero : prec.getD 0 = 0 := by rw [hfill.2.2]; rfl
      rw [leftpad_leftpad, List.append_cancel_left_eq, leftpad_eq_leftpad_iff, List.length_append,
        List.length_leftpad, hzero]
      show _ ≤ 2 + _ ∧ max 2 _ = max (max 0 (_ - 2)) _ ↔ _
      omega
    · rw [List.append_cancel_left_eq, leftpad_eq_leftpad_iff]
      omega

/-- The digits of the standard in the alternate form of `o`. -/
theorem octal_digits (halt : spec.altform) :
    unsignedDigits spec.flags prec .o n = (UnsignedConv.o.digits n).leftpad
      (if n = 0 then prec.getD 0 else max (prec.getD 0) ((UnsignedConv.o.digits n).length + 1))
      (chr '0') := by
  have halt' : spec.flags.alt = true := halt
  rw [unsignedDigits]
  show (if _ ∧ _ ∧ List.head? (digitString (UnsignedConv.o = .X) UnsignedConv.o.base prec n) ≠ _
    then _ :: digitString (UnsignedConv.o = .X) UnsignedConv.o.base prec n else _) = _
  rw [digitString_unsigned .o n hne]
  by_cases hn : n = 0
  · subst hn
    have hhead : ((UnsignedConv.o.digits 0).leftpad (prec.getD 0) (chr '0')).head? =
        some (chr '0') := by
      rw [digits_zero, List.leftpad]
      cases prec.getD 0 - [chr '0'].length <;> rfl
    rw [if_neg (fun h => h.2.2 hhead), if_pos rfl]
  rw [if_neg hn]
  have hhead := head_digits_ne_zero .o n hn
  generalize UnsignedConv.o.digits n = digits at hhead
  by_cases hprec : prec.getD 0 ≤ digits.length
  · -- the precision does not bring a zero
    have hone := cons_leftpad_self 0 (chr '0') digits
    rw [leftpad_of_le _ (Nat.zero_le _)] at hone
    rw [leftpad_of_le _ hprec, if_pos ⟨halt', rfl, hhead⟩, hone, leftpad_eq_leftpad_iff]
    omega
  · have hfirst : (digits.leftpad (prec.getD 0) (chr '0')).head? = some (chr '0') := by
      obtain ⟨k, hk⟩ : ∃ k, prec.getD 0 - digits.length = k + 1 :=
        ⟨prec.getD 0 - digits.length - 1, by omega⟩
      rw [List.leftpad, hk]
      rfl
    rw [if_neg (fun h => h.2.2 hfirst), leftpad_eq_leftpad_iff]
    omega

/-- The alternate form of `o`: one zero too many. -/
theorem octal_eq_iff (halt : spec.altform) :
    justify spec.ljust false spec.width.toNat
          (chr '0' :: (UnsignedConv.o.digits n).leftpad (prec.getD 0 + 1) (chr '0')) =
        unsignedField spec.flags spec.width.toNat prec .o n ↔
      AltFormAgrees spec.flags spec.width.toNat prec .o n := by
  have hvisible := blank_not_mem_digits .o n
  have hstandard : altPrefix spec.flags .o n = [] := if_neg fun h => absurd h.2.1 (by decide)
  have hlength := length_digits .o n
  have hzero : n = 0 → (UnsignedConv.o.digits n).length = 1 := by
    rintro rfl
    rw [digits_zero]
    rfl
  have hpos := length_numeral_pos UnsignedConv.o.base n
  rw [unsignedField, hstandard, octal_digits spec hne n halt, AltFormAgrees, ← hlength]
  rw [← hlength] at hpos
  generalize UnsignedConv.o.digits n = digits at hvisible hzero hpos
  rw [cons_leftpad_self, justify_eq_numericField_iff spec prec (blank_not_mem_leftpad hvisible _)
    List.not_mem_nil (blank_not_mem_leftpad hvisible _)]
  split
  · next hfill =>
    have hnone : prec.getD 0 = 0 := by rw [hfill.2.2]; rfl
    rw [List.nil_append, leftpad_leftpad, leftpad_eq_leftpad_iff, List.length_leftpad, hnone,
      List.length_nil]
    split <;> omega
  · rw [List.nil_append, leftpad_eq_leftpad_iff]
    split <;> omega

/-- The field of an unsigned conversion is the one of the standard exactly if the alternate form
agrees. -/
theorem unsignedText_eq_iff (hprec : spec.prec = (prec.getD 0 : Nat)) (conv : UnsignedConv)
    (hn : n < 2 ^ 32) :
    unsignedText spec conv n = unsignedField spec.flags spec.width.toNat prec conv n ↔
      (spec.altform → AltFormAgrees spec.flags spec.width.toNat prec conv n) := by
  have hplain (hlead : altLead spec conv = []) (hstandard : altPrefix spec.flags conv n = [])
      (hdigits : unsignedDigits spec.flags prec conv n =
        (conv.digits n).leftpad (prec.getD 0) (chr '0')) :
      unsignedText spec conv n =
        unsignedField spec.flags spec.width.toNat prec conv n := by
    have hnone : spec.prec + (([] : List Byte).length : Int) = spec.prec := Int.add_zero _
    rw [unsignedText, unsignedField, hlead, hstandard, hdigits, Nat.mod_eq_of_lt hn,
      itoaChars_unsigned, hnone, hprec, Int.toNat_natCast, ← hprec]
    exact justify_eq_numericField spec hprec hne (fun _ _ => Or.inl rfl) _
  have halternate (hlead : altLead spec conv ≠ []) : unsignedText spec conv n =
      justify spec.ljust false spec.width.toNat (altLead spec conv ++
        (conv.digits n).leftpad (prec.getD 0 + (altLead spec conv).length) (chr '0')) := by
    have hpos := List.length_pos_iff.mpr hlead
    have hnot : decide (spec.prec + ((altLead spec conv).length : Int) = 0) = false :=
      decide_eq_false (by omega)
    have htoNat : (spec.prec + ((altLead spec conv).length : Int)).toNat =
        prec.getD 0 + (altLead spec conv).length := by omega
    rw [unsignedText, Nat.mod_eq_of_lt hn, itoaChars_unsigned, hnot, Bool.and_false, htoNat]
  by_cases halt : spec.altform
  · simp only [halt, true_implies]
    by_cases hbase : conv.base = 16
    · have hlead := altLead_hexadecimal halt hbase
      rw [halternate (by rw [hlead]; exact List.cons_ne_nil _ _), hlead]
      exact hexadecimal_eq_iff spec hne n halt hbase
    cases conv with
    | u =>
        have hlead : altLead spec .u = [] := if_neg (not_not_intro halt)
        refine iff_of_true (hplain hlead (if_neg fun h => absurd h.2.1 (by decide)) ?_) trivial
        rw [unsignedDigits, digitString_unsigned .u n hne]
        exact if_neg fun h => absurd h.2.1 (by decide)
    | x | X => exact absurd rfl hbase
    | o =>
        have hlead : altLead spec .o = [chr '0'] := if_neg (not_not_intro halt)
        rw [halternate (hlead ▸ List.cons_ne_nil _ _), hlead]
        exact octal_eq_iff spec hne n halt
  · have hflags : ¬ spec.flags.alt := halt
    exact iff_of_true (hplain (if_pos halt) (altPrefix_of_not_alt hflags conv n)
      (unsignedDigits_of_not_alt hflags hne conv n)) (absurd · halt)

end AltForm

/-! ## The law -/

/-- What a plain directive with `u`, `x`, `X` or `o` puts out. -/
theorem Source.Plain.emits_unsigned {src : Source} (hplain : src.Plain) {conv : UnsignedConv}
    (hconv : src.conv = conv.char) (ap : VaList) (arg : Nat) :
    src.Emits ap arg
      (unsignedText (src.directive ap arg).spec conv ((ap arg).unsigned src.length)) := by
  obtain ⟨harg, hwidth, -, -, hprec⟩ := Source.directive_eq hplain.width hplain.prec ap arg
  have hemits := Print.emits_unsigned hconv hwidth hprec
  have hvalue := Source.unsigned_eq ap arg hplain.length
  rw [harg] at hvalue
  rwa [unsignedText, ← Nat.mod_mod, hvalue] at hemits

/-- Without a `*`, the field for `u`, `x`, `X` and `o` is the one that the standard prescribes if
and only if the alternate form agrees, where it is asked for. -/
theorem unsigned_field_iff {src : Source} (hplain : src.Plain) {conv : UnsignedConv}
    (hconv : src.conv = conv.char) (ap : VaList) (arg : Nat) :
    src.Emits ap arg (unsignedField src.flagSet (src.width.value ap arg).toNat
        (src.prec.standard ap arg) conv ((ap arg).unsigned src.length)) ↔
      (.alt ∈ src.flags → AltFormAgrees src.flagSet (src.width.value ap arg).toNat
        (src.prec.standard ap arg) conv ((ap arg).unsigned src.length)) := by
  obtain ⟨-, -, hvalue, hne, -⟩ := Source.directive_eq hplain.width hplain.prec ap arg
  have halt : (src.directive ap arg).spec.altform ↔ .alt ∈ src.flags := List.contains_iff_mem
  have hv : (ap arg).unsigned src.length < 2 ^ 32 := by
    have hint := ((ap arg).word.setWidth 32).isLt
    have hshort := ((ap arg).word.setWidth 16).isLt
    unfold VaArg.unsigned
    split <;> omega
  rw [(hplain.emits_unsigned hconv ap arg).iff_eq, ← halt]
  exact unsignedText_eq_iff _ hne _ hvalue conv hv

/-- The directive `%#x`. -/
def alternateHex : Source where
  flags := [.alt]
  width := .none
  prec := .none
  length := []
  chain := chain_nil
  conv := chr 'x'
  conversion := x_mem_conversions

theorem alternateHex_plain : alternateHex.Plain := ⟨Width.noConfusion, trivial, Or.inl rfl⟩

/-- 31 is printed as the standard says, by `%#x`. -/
theorem unsigned_field_iff_alternateHex :
    alternateHex.Emits (argsOfWord 31) 0 (unsignedField alternateHex.flagSet 0 none .x 31) :=
  (unsigned_field_iff alternateHex_plain rfl (argsOfWord 31) 0).mpr
    fun _ => ⟨by decide, by decide⟩

/-- 5 is not printed as the standard says, by `%#x`: the precision that the prefix is added to
brings a zero. -/
theorem alternateHex_field : alternateHex.Plain ∧
    alternateHex.Emits (argsOfWord 5) 0 ([chr '0', chr 'x'] ++ [chr '0', chr '5']) ∧
    ¬ alternateHex.Emits (argsOfWord 5) 0
      (unsignedField alternateHex.flagSet 0 none .x 5) := by
  have hemits : alternateHex.Emits (argsOfWord 5) 0
      ([chr '0', chr 'x'] ++ [chr '0', chr '5']) :=
    @Source.Plain.emits_unsigned _ alternateHex_plain .x rfl (argsOfWord 5) 0
  refine ⟨alternateHex_plain, hemits, fun hstandard => ?_⟩
  have : [chr '0', chr '5'] = [chr '5'] := List.append_cancel_left (hemits.unique hstandard)
  exact absurd this (by decide)

end BazelPro.Print
