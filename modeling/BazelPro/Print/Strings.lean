import BazelPro.Lib.Padding
import BazelPro.Print.Integer

/-!
# Strings with a width and a precision from the arguments

Neither a width nor a precision that is fetched is looked at for its sign. A negative width pads
nothing, a negative precision makes `plen` negative, so that blanks come in the place of the
string, and the precision zero means none. `%*.*s` prints what the standard prescribes only where
these do not matter (`star_string_iff`).
-/

namespace BazelPro.Print

open C Padding

/-! ## The part after the switch, without a body -/

/-- The blanks for a pad that has left the range of `int`, or not. At `2 ^ 31` the pad is
`INT_MIN`, and `pad--` takes it to the top. -/
def blanks (pad : Int) : Nat :=
  if pad < 2147483648 then pad.toNat else if pad = 2147483648 then 2147483647 else 0

/-- A field without a body consists of padding. -/
theorem Field.text_of_neg {f : Field} (hplen : f.plen < 0) (hlow : -2147483648 ≤ f.plen)
    (hwidth : f.width < 2147483648) :
    f.text = if f.ljust then
        List.replicate (int32 (max f.width f.plen - f.plen)).toNat (chr ' ')
      else List.replicate (blanks (max f.width f.plen - f.plen))
        (if max f.width f.plen - f.plen < 2147483648 ∧ f.fillz then chr '0' else chr ' ') := by
  have hbody : f.bodyWidth = max f.width f.plen := by
    unfold bodyWidth
    split <;> omega
  have htake : f.plen.toNat = 0 := by omega
  have hrange : 0 ≤ max f.width f.plen - f.plen ∧ max f.width f.plen - f.plen < 4294967296 := by
    omega
  rw [text, hbody, htake, List.take_zero, List.append_nil]
  generalize max f.width f.plen - f.plen = x at hrange
  by_cases hljust : f.ljust
  · rw [if_pos hljust, if_pos hljust, if_pos hljust, List.nil_append]
  rw [if_neg hljust, if_neg hljust, if_neg hljust]
  unfold blanks
  by_cases hfits : x < 2147483648
  · -- the padding goes in front
    have hint : int32 x = x := int32_eq (by omega) hfits
    rw [if_pos hfits, hint, toNat_left hrange.1 hfits, List.replicate_zero, List.append_nil]
    simp only [hfits, true_and]
  -- the padding in front is skipped, and what is left of it is decremented
  have hint : int32 x = x - 4294967296 := int32_overflow (by omega) hrange.2
  have hfront : (x - 4294967296).toNat = 0 := by omega
  have hnegative : ¬ 0 < x - 4294967296 := by omega
  have hblank : (if x < 2147483648 ∧ f.fillz = true then chr '0' else chr ' ') = chr ' ' :=
    if_neg fun h => hfits h.1
  rw [if_neg hfits, hblank, hint, if_neg hnegative, hfront, List.replicate_zero, List.nil_append]
  by_cases htop : x = 2147483648
  · have hwrapped : int32 (x - 4294967296 - 1) = 2147483647 := by
      rw [int32_underflow] <;> omega
    have htoNat : (2147483647 : Int).toNat = 2147483647 := Int.toNat_natCast 2147483647
    rw [if_pos htop, hwrapped, htoNat]
  · have hleft : (int32 (x - 4294967296 - 1)).toNat = 0 := by
      rw [int32_eq] <;> omega
    rw [if_neg htop, hleft]

/-! ## The conversion -/

/-- The field of a string. -/
def stringConversion (ap : VaList) (d : Directive) : Field :=
  ⟨d.spec.ljust, d.spec.fillz, d.spec.width, if d.spec.prec = 0 then xInf else d.spec.prec,
    (ap d.arg).str.chars⟩

variable {src : Source} {ap : VaList} {arg : Nat}

/-- What a directive with `s` puts out. -/
theorem emits_string (hconv : src.conv = chr 's') :
    src.Emits ap arg (stringConversion ap (src.directive ap arg)).text := by
  have hd : (src.directive ap arg).conv = chr 's' := hconv
  have hconvert : convert ap (src.directive ap arg) =
      .ok (.field [] (stringConversion ap (src.directive ap arg))) := by
    rw [convert, integerConversion_eq_none (by rw [hd]; decide)]
    show (if _ then _ else if _ then _ else _) = _
    rw [hd, if_neg (by decide), if_pos rfl]
    rfl
  exact Source.emits_of_field hconvert

/-! ## Against the standard -/

/-- The string is cut where the standard cuts it, and is not padded on the wrong side. -/
def CutAgrees (w p : Int) (s : List Byte) : Prop :=
  0 < p ∧ (p ≤ int32 s.length ∨ s.length < 2147483648) ∧
    (0 ≤ w ∨ w.natAbs ≤ (s.take p.toNat).length)

/-- What the loops show of a string: no more than the precision and its length as an `int`. -/
def shown (p : Int) (s : List Byte) : Int := min (int32 s.length) (if p = 0 then xInf else p)

/-- Only blanks are printed, and as many as the standard prescribes. -/
def BlanksAgree (w p : Int) (s : List Byte) : Prop :=
  (∀ c ∈ stringBody (starPrecision p) s, c = chr ' ') ∧
    (∀ c ∈ s.take (shown p s).toNat, c = chr ' ') ∧
    max w.natAbs (stringBody (starPrecision p) s).length =
      if 0 ≤ shown p s then (max w (shown p s)).toNat else blanks (max w (shown p s) - shown p s)

/-- The field of the standard, with the values of two arguments. -/
def starField (w p : Int) (s : List Byte) : List Byte :=
  let (fl, width) := starWidth ⟨false, false, false, false, false⟩ w
  stringField fl width (starPrecision p) s

/-- The characters that the standard prints are a beginning of the string. -/
theorem stringBody_eq_take (p : Int) (s : List Byte) :
    stringBody (starPrecision p) s =
      s.take (if p < 0 then s.length else min p.toNat s.length) := by
  unfold starPrecision
  split
  · exact (List.take_length).symm
  · exact List.take_eq_take_min

theorem starField_eq (w p : Int) (s : List Byte) : starField w p s =
    if w < 0 then (stringBody (starPrecision p) s).rightpad w.natAbs (chr ' ')
    else (stringBody (starPrecision p) s).leftpad w.natAbs (chr ' ') := by
  unfold starField starWidth stringField
  simp

/-- The field of the code. -/
def codeField (w p : Int) (s : List Byte) : Field :=
  ⟨false, false, w, if p = 0 then xInf else p, s⟩

theorem plen_codeField (w p : Int) (s : List Byte) : (codeField w p s).plen = shown p s := by
  unfold Field.plen shown codeField
  dsimp only
  split <;> omega

/-- What is known about the number of characters that are shown. -/
theorem shown_spec (p : Int) (s : List Byte) :
    shown p s ≤ s.length ∧ -2147483648 ≤ int32 s.length ∧
      (s.length < 2147483648 → int32 s.length = s.length) ∧
      shown p s = if p = 0 then min (int32 s.length) 2147483632 else min (int32 s.length) p := by
  have hle := int32_le_natCast s.length
  refine ⟨?_, (int32_range s.length).1, fun h => int32_eq (by omega) (by omega), ?_⟩
  · unfold shown
    omega
  · unfold shown
    split <;> rfl

theorem or_iff_or_of_cases {e f p b : Prop} (hf : f → e) (he : e → p → f) (hb : e → ¬ p → b) :
    e ∨ b ↔ f ∨ b := by
  constructor
  · intro h
    rcases h with h | h
    · by_cases hp : p
      · exact Or.inl (he h hp)
      · exact Or.inr (hb h hp)
    · exact Or.inr h
  · exact Or.imp_left hf

section Against

variable {w p : Int} (hw : -2147483648 ≤ w ∧ w < 2147483648)
  (hp : -2147483648 ≤ p ∧ p < 2147483648) (s : List Byte)
include hw hp

/-- Where nothing is shown, blanks are put out. -/
theorem text_eq_starField_of_neg (hshown : shown p s < 0) :
    (codeField w p s).text = starField w p s ↔ BlanksAgree w p s := by
  obtain ⟨-, hlow, -, hcases⟩ := shown_spec p s
  have hplen := plen_codeField w p s
  have htext : (codeField w p s).text =
      List.replicate (blanks (max w (shown p s) - shown p s)) (chr ' ') := by
    rw [← hplen]
    have hlow : -2147483648 ≤ (codeField w p s).plen := by
      rw [hplen, hcases]
      split <;> omega
    have hljust : ¬ (codeField w p s).ljust := Bool.false_ne_true
    have hfillz : ¬ (codeField w p s).fillz := Bool.false_ne_true
    have hwidth : (codeField w p s).width = w := rfl
    rw [Field.text_of_neg (hplen ▸ hshown) hlow hw.2, if_neg hljust, if_neg fun h => hfillz h.2,
      hwidth]
  have hnone : (shown p s).toNat = 0 := by omega
  rw [htext, starField_eq, BlanksAgree, if_neg (by omega : ¬ 0 ≤ shown p s), hnone, eq_comm]
  by_cases hneg : w < 0
  · rw [if_pos hneg, rightpad_eq_replicate_iff]
    simp
  · rw [if_neg hneg, leftpad_eq_replicate_iff]
    simp

omit hw in
/-- The standard cuts the string where the code does, for a precision other than zero. -/
theorem cutAgrees_iff (w : Int) (hshown : 0 ≤ shown p s) : CutAgrees w p s ↔
    0 < p ∧ (shown p s).toNat = min p.toNat s.length ∧
      (0 ≤ w ∨ w.natAbs ≤ min p.toNat s.length) := by
  obtain ⟨-, -, hfits, hcases⟩ := shown_spec p s
  have hlen := int32_le_natCast s.length
  rw [CutAgrees, List.length_take]
  refine and_congr_right fun hpos => and_congr_left fun _ => ?_
  rw [if_neg (by omega)] at hcases
  omega

/-- Where something may be shown, the field is the one of the standard, or it is all blanks. -/
theorem text_eq_starField_of_nonneg (hshown : 0 ≤ shown p s) :
    (codeField w p s).text = starField w p s ↔ CutAgrees w p s ∨ BlanksAgree w p s := by
  obtain ⟨hle, -, -, hcases⟩ := shown_spec p s
  have hplen := plen_codeField w p s
  have hpos : ¬ p < 0 := by
    split at hcases <;> omega
  have htext : (codeField w p s).text =
      (s.take (shown p s).toNat).leftpad w.toNat (chr ' ') := by
    rw [Field.text_eq _ (hplen ▸ hshown) hw.2, hplen]
    exact if_neg Bool.false_ne_true
  have hbody : stringBody (starPrecision p) s = s.take (min p.toNat s.length) := by
    rw [stringBody_eq_take, if_neg hpos]
  have hwidth : (if 0 ≤ shown p s then (max w (shown p s)).toNat
      else blanks (max w (shown p s) - shown p s)) = max w.toNat (shown p s).toNat := by
    rw [if_pos hshown]
    omega
  rw [htext, starField_eq, cutAgrees_iff hp s w hshown, BlanksAgree, hbody, hwidth]
  have hprec : 0 < p → shown p s ≤ p := by
    intro hp
    rw [hcases, if_neg (by omega)]
    exact min_le_right _ _
  have hcut : (shown p s).toNat ≤ s.length ∧
      (0 < p → (shown p s).toNat ≤ min p.toNat s.length) := by omega
  have hbegin : (s.take (min p.toNat s.length)).length = min p.toNat s.length :=
    List.length_take_of_le (min_le_right _ _)
  rw [hbegin]
  generalize (shown p s).toNat = i at hcut
  generalize hj : min p.toNat s.length = j at hcut
  -- with the precision zero, the standard prints nothing
  have hempty : ¬ 0 < p → j = 0 := by omega
  by_cases hneg : w < 0
  · have hzero : w.toNat = 0 := by omega
    rw [if_pos hneg, hzero, leftpad_of_le _ (Nat.zero_le _), take_eq_rightpad_take_iff hcut.1
      (by omega) (by omega), Nat.zero_max]
    refine or_iff_or_of_cases (p := 0 < p) ?_ ?_ ?_
    · intro h
      exact ⟨h.2.1, by omega⟩
    · intro h hp
      exact ⟨hp, h.1, Or.inr h.2⟩
    · intro h hp
      obtain ⟨hij, hw⟩ := h
      obtain rfl : j = 0 := hempty hp
      obtain rfl : i = 0 := hij
      exact ⟨by simp, by simp, by omega⟩
  · have hnat : w.toNat = w.natAbs := by omega
    rw [if_neg hneg, hnat, leftpad_take_eq_iff hcut.1 (by omega)]
    refine or_iff_or_of_cases (p := 0 < p) ?_ ?_ ?_
    · intro h
      exact h.2.1
    · intro hij hp
      exact ⟨hp, hij, Or.inl (by omega)⟩
    · intro hij hp
      obtain rfl : j = 0 := hempty hp
      obtain rfl : i = 0 := hij
      exact ⟨by simp, by simp, rfl⟩

/-- The field of the code, with the values of two arguments. -/
theorem text_eq_starField_iff :
    (codeField w p s).text = starField w p s ↔ CutAgrees w p s ∨ BlanksAgree w p s := by
  by_cases hshown : 0 ≤ shown p s
  · exact text_eq_starField_of_nonneg hw hp s hshown
  · have hcut : ¬ CutAgrees w p s := by
      obtain ⟨-, -, hfits, hcases⟩ := shown_spec p s
      rintro ⟨hpos, hlen, -⟩
      rw [if_neg (by omega)] at hcases
      omega
    rw [text_eq_starField_of_neg hw hp s (by omega), or_iff_right hcut]

end Against

/-! ## The law -/

/-- The directive `%*.*s`. -/
def starString : Source where
  flags := []
  width := .star
  prec := .star
  length := []
  chain := chain_nil
  conv := chr 's'
  conversion := s_mem_conversions

/-- The directive, with its values from the arguments or written as digits. -/
structure WithValues (src : Source) (ap : VaList) (arg : Nat) (w p : Int) (s : CStr) : Prop where
  flags : src.flags = []
  conv : src.conv = chr 's'
  width : src.width.value ap arg = w
  given : src.prec ≠ .none
  prec : src.prec.value ap (arg + src.width.args) = p
  str : (ap (src.directive ap arg).arg).str = s

theorem starString_withValues (ap : VaList) (arg : Nat) :
    WithValues starString ap arg (ap arg).int (ap (arg + 1)).int (ap (arg + 2)).str :=
  ⟨rfl, rfl, rfl, Precision.noConfusion, rfl, rfl⟩

/-- Where the values come from makes no difference. -/
theorem WithValues.emits {src : Source} {ap : VaList} {arg : Nat} {w p : Int} {s : CStr}
    (h : WithValues src ap arg w p s) : src.Emits ap arg (codeField w p s.chars).text := by
  have hfield : stringConversion ap (src.directive ap arg) = codeField w p s.chars := by
    have hminus : (src.directive ap arg).spec.ljust = src.flags.contains .minus := rfl
    have hzero : (src.directive ap arg).spec.fillz = src.flags.contains .zero := rfl
    have hwidth : (src.directive ap arg).spec.width = w := h.width
    have hprec : (src.directive ap arg).spec.prec = p := h.prec
    rw [stringConversion, hminus, hzero, hwidth, hprec, h.str, h.flags]
    rfl
  rw [← hfield]
  exact emits_string h.conv

/-- `%*.*s`, and the same directive with literal values, put out the field that the standard
prescribes if and only if the string is cut and padded as the standard has it, or nothing but
blanks is printed. -/
theorem star_string_iff (ap : VaList) (arg : Nat) :
    (starString.Emits ap arg
        (starField (ap arg).int (ap (arg + 1)).int (ap (arg + 2)).str.chars) ∧
      ∀ (src : Source) (ap' : VaList) (arg' : Nat),
        WithValues src ap' arg' (ap arg).int (ap (arg + 1)).int (ap (arg + 2)).str →
          src.Emits ap' arg'
            (starField (ap arg).int (ap (arg + 1)).int (ap (arg + 2)).str.chars)) ↔
      CutAgrees (ap arg).int (ap (arg + 1)).int (ap (arg + 2)).str.chars ∨
        BlanksAgree (ap arg).int (ap (arg + 1)).int (ap (arg + 2)).str.chars := by
  have hstar := (starString_withValues ap arg).emits
  rw [← text_eq_starField_iff (ap arg).int_range (ap (arg + 1)).int_range, ← hstar.iff_eq]
  refine ⟨fun h => h.1, fun h => ⟨h, fun src ap' arg' hvalues => ?_⟩⟩
  rw [← hstar.unique h]
  exact hvalues.emits

theorem nul_not_mem_ab : 0 ∉ ['a', 'b'].map chr := by decide

/-- The arguments 0, -1 and the string `ab`. -/
def precisionMinusOne : VaList
  | 0 => ⟨0, [], nul_not_mem_nil⟩
  | 1 => ⟨-1, [], nul_not_mem_nil⟩
  | _ => ⟨0, ['a', 'b'].map chr, nul_not_mem_ab⟩

/-- With the precision -1, `%*.*s` prints a blank in the place of the string. -/
theorem starString_precisionMinusOne :
    starString.Emits precisionMinusOne 0 [chr ' '] ∧
      ¬ starString.Emits precisionMinusOne 0 (starField 0 (-1) (['a', 'b'].map chr)) := by
  have hemits : starString.Emits precisionMinusOne 0 [chr ' '] :=
    (starString_withValues precisionMinusOne 0).emits
  exact ⟨hemits, fun hstandard => absurd (hemits.unique hstandard) (by decide)⟩

end BazelPro.Print
