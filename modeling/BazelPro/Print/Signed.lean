import BazelPro.Lib.Padding
import BazelPro.Print.Integer

/-!
# Signed fields

With the flag `0` and a sign to print, the case for `d` and `i` puts the sign out ahead of the
padding. So the field is the one of the standard unless the two orders differ: the sign that is
put out ahead prefers the blank to the `+`, and blanks that a precision has put in the place of
the zeros come behind the sign (`signed_field_iff`).
-/

namespace BazelPro.Print

open C Padding Positional

/-! ## A sign ahead of the padding -/

/-- The sign of the standard, if there is one. -/
def signChar (fl : FieldFlags) (v : Int) : Byte :=
  if v < 0 then chr '-' else if fl.plus then chr '+' else chr ' '

theorem sign_eq_singleton {fl : FieldFlags} {v : Int} (h : sign fl v ≠ []) :
    sign fl v = [signChar fl v] := by
  rw [Ne, sign_eq_nil_iff] at h
  unfold sign signChar
  split
  · rfl
  split
  · rfl
  · rw [if_pos (by simp_all)]

/-- The sign that is put out ahead is another one if both flags are given. -/
theorem signAhead_eq_iff {spec : Spec} {v : Int} (h : sign spec.flags v ≠ []) :
    signAhead spec v = signChar spec.flags v ↔ (spec.plus → spec.space → v < 0) := by
  rw [Ne, sign_eq_nil_iff] at h
  change ¬ (_ ∧ spec.plus = false ∧ spec.space = false) at h
  have hchars : chr ' ' ≠ chr '+' := by decide
  unfold signAhead signChar
  show (if v < 0 then _ else _) = (if v < 0 then _ else if spec.plus then _ else _) ↔ _
  by_cases hneg : v < 0
  · rw [if_pos hneg, if_pos hneg]
    simp [hneg]
  · rw [if_neg hneg, if_neg hneg]
    cases hplus : spec.plus <;> cases hspace : spec.space <;> simp_all

/-- The blank is the sign only for the flag of that name. -/
theorem signChar_eq_blank_iff (fl : FieldFlags) (v : Int) :
    signChar fl v = chr ' ' ↔ ¬ (v < 0 ∨ fl.plus) := by
  have hminus : chr '-' ≠ chr ' ' := by decide
  have hplus : chr '+' ≠ chr ' ' := by decide
  unfold signChar
  by_cases hneg : v < 0
  · simp [hneg, hminus]
  · cases fl.plus <;> simp [hneg, hplus]

/-- A sign ahead of the padding, and the sign of the standard in its place. -/
theorem ahead_eq_iff {spec : Spec} (hfillz : spec.fillz) {prec : Option Nat}
    (hprec : spec.prec = (prec.getD 0 : Nat)) (hne : prec ≠ some 0) (ahead standard : Byte)
    (digits : List Byte) :
    ahead :: justify spec.ljust (spec.fillz && decide (spec.prec = 0)) (spec.width.toNat - 1)
          digits =
        numericField spec.flags spec.width.toNat prec [standard] digits ↔
      ahead = standard ∧ (¬ spec.ljust → prec ≠ none →
        standard = chr ' ' ∨ spec.width.toNat ≤ 1 + digits.length) := by
  have hzero := prec_eq_zero_iff hprec hne
  rw [justify, numericField]
  show _ = (if spec.ljust then _ else if spec.fillz ∧ prec = none then _ else _) ↔ _
  by_cases hljust : spec.ljust
  · rw [if_pos hljust, if_pos hljust, List.singleton_append, cons_rightpad, List.cons.injEq]
    simp [hljust]
  rw [if_neg hljust, if_neg hljust]
  by_cases hnone : prec = none
  · rw [if_pos (by simp [hfillz, hzero.mpr hnone]), if_pos ⟨hfillz, hnone⟩,
      List.singleton_append, List.cons.injEq]
    simp [hnone]
  · rw [if_neg (by simp [hzero, hnone]), if_neg (fun h => hnone h.2), List.singleton_append,
      cons_leftpad_eq_iff]
    simp [hljust, hnone]

/-- The two paths of the case for `d` and `i` agree on the sign and on the place of the padding. -/
structure SignPathsAgree (fl : FieldFlags) (width : Nat) (prec : Option Nat) (v : Int) : Prop where
  sign : fl.zero → fl.plus → fl.space → v < 0
  place : fl.zero → ¬ fl.minus → prec ≠ none → v < 0 ∨ fl.plus →
    width ≤ 1 + max (prec.getD 0) (numeral 10 v.natAbs).length

/-- The field of a signed conversion is the one of the standard exactly if the paths agree. -/
theorem signedText_eq_iff (spec : Spec) {prec : Option Nat} {v : Int}
    (hprec : spec.prec = (prec.getD 0 : Nat)) (hne : prec ≠ some 0) (hv : v.natAbs < 2 ^ 32) :
    signedText spec v = signedField spec.flags spec.width.toNat prec v ↔
      SignPathsAgree spec.flags spec.width.toNat prec v := by
  have hdigits : itoaChars (v.natAbs % 2 ^ 32) 10 false spec.prec =
      digitString false 10 prec v.natAbs := by
    rw [Nat.mod_eq_of_lt hv, hprec]
    exact itoaChars_eq_digitString _ false prec (by decide) (by decide) hne
  have hlength := length_digitString false 10 hne v.natAbs
  rw [signedText, signedField, hdigits]
  generalize digitString false 10 prec v.natAbs = digits at hlength
  by_cases hahead : spec.fillz ∧ sign spec.flags v ≠ []
  · -- the sign is put out ahead
    obtain ⟨hfillz, hsign⟩ := hahead
    have hsame := signAhead_eq_iff hsign
    have hblank := signChar_eq_blank_iff spec.flags v
    rw [if_pos ⟨hfillz, hsign⟩, sign_eq_singleton hsign]
    generalize signAhead spec v = ahead at hsame
    generalize signChar spec.flags v = standard at hsame hblank
    have hagree : SignPathsAgree spec.flags spec.width.toNat prec v ↔
        ahead = standard ∧ (¬ spec.ljust → prec ≠ none →
          standard = chr ' ' ∨ spec.width.toNat ≤ 1 + digits.length) := by
      rw [hsame, hblank, hlength]
      constructor
      · intro h
        exact ⟨h.sign hfillz, fun hljust hgiven =>
          or_iff_not_imp_left.mpr fun hshown => h.place hfillz hljust hgiven (not_not.mp hshown)⟩
      · rintro ⟨hchar, hplace⟩
        exact ⟨fun _ => hchar, fun _ hljust hgiven hshown =>
          (hplace hljust hgiven).resolve_left (not_not_intro hshown)⟩
    rw [hagree]
    exact ahead_eq_iff hfillz hprec hne ahead standard digits
  · -- the sign goes into the body
    rw [if_neg hahead]
    refine iff_of_true (justify_eq_numericField spec hprec hne (fun hfillz _ => Or.inl ?_) _)
      ⟨fun hfillz hplus _ => ?_, fun hfillz _ _ hshown => ?_⟩
    · by_contra hsign
      exact hahead ⟨hfillz, hsign⟩
    · refine absurd ⟨hfillz, fun hnil => ?_⟩ hahead
      simp [((sign_eq_nil_iff _ _).mp hnil).2.1] at hplus
    · refine absurd ⟨hfillz, fun hnil => ?_⟩ hahead
      obtain ⟨hpos, hplus, -⟩ := (sign_eq_nil_iff _ _).mp hnil
      simp [hpos, hplus] at hshown

/-! ## The law -/

/-- What a plain directive with `d` or `i` puts out. -/
theorem Source.Plain.emits_signed {src : Source} (hplain : src.Plain)
    (hconv : src.conv = chr 'd' ∨ src.conv = chr 'i') (ap : VaList) (arg : Nat) :
    src.Emits ap arg
      (signedText (src.directive ap arg).spec ((ap arg).signed src.length)) := by
  obtain ⟨harg, hwidth, -, -, hprec⟩ := Source.directive_eq hplain.width hplain.prec ap arg
  have hemits := Print.emits_signed hconv hwidth hprec
  rwa [Source.signed_eq ap arg hplain.length, harg] at hemits

theorem VaArg.natAbs_signed (a : VaArg) (length : List Length) :
    (a.signed length).natAbs < 2 ^ 32 := by
  have hint := a.int_range
  have hshort := a.short_range
  unfold signed
  split <;> omega

/-- Without a `*`, the field for `d` and `i` is the one that the standard prescribes if and only if
the two paths agree. -/
theorem signed_field_iff {src : Source} (hplain : src.Plain)
    (hconv : src.conv = chr 'd' ∨ src.conv = chr 'i') (ap : VaList) (arg : Nat) :
    src.Emits ap arg (signedField src.flagSet (src.width.value ap arg).toNat
        (src.prec.standard ap arg) ((ap arg).signed src.length)) ↔
      SignPathsAgree src.flagSet (src.width.value ap arg).toNat (src.prec.standard ap arg)
        ((ap arg).signed src.length) := by
  obtain ⟨-, -, hvalue, hne, -⟩ := Source.directive_eq hplain.width hplain.prec ap arg
  rw [(hplain.emits_signed hconv ap arg).iff_eq]
  exact signedText_eq_iff _ hvalue hne (VaArg.natAbs_signed _ _)

/-- The width 8. -/
def eight : Width := .ofDigit 8 (by decide)

/-- The directive `%08d`. -/
def zeroFilled : Source where
  flags := [.zero]
  width := eight
  prec := .none
  length := []
  chain := chain_nil
  conv := chr 'd'
  conversion := d_mem_conversions

/-- -5 is printed as the standard says, by `%08d`. -/
theorem signed_field_iff_zeroFilled :
    zeroFilled.Emits (argsOfWord (-5)) 0 (signedField zeroFilled.flagSet 8 none (-5)) := by
  have hplain : zeroFilled.Plain := ⟨Width.noConfusion, trivial, Or.inl rfl⟩
  exact (signed_field_iff hplain (Or.inl rfl) (argsOfWord (-5)) 0).mpr
    ⟨fun _ _ _ => by decide, fun _ _ h => absurd rfl h⟩

/-- The directive `%0+ d`. -/
def zeroPlusSpace : Source where
  flags := [.zero, .plus, .space]
  width := .none
  prec := .none
  length := []
  chain := chain_nil
  conv := chr 'd'
  conversion := d_mem_conversions

/-- 5 is not printed as the standard says, by `%0+ d`: the sign that is put out ahead is the
blank. -/
theorem zeroPlusSpace_field : zeroPlusSpace.Plain ∧
    zeroPlusSpace.Emits (argsOfWord 5) 0 [chr ' ', chr '5'] ∧
    ¬ zeroPlusSpace.Emits (argsOfWord 5) 0 (signedField zeroPlusSpace.flagSet 0 none 5) := by
  have hplain : zeroPlusSpace.Plain := ⟨Width.noConfusion, trivial, Or.inl rfl⟩
  have hemits : zeroPlusSpace.Emits (argsOfWord 5) 0 [chr ' ', chr '5'] :=
    hplain.emits_signed (Or.inl rfl) (argsOfWord 5) 0
  refine ⟨hplain, hemits, fun hstandard => ?_⟩
  have : chr ' ' = chr '+' := List.head_eq_of_cons_eq (hemits.unique hstandard)
  exact absurd this (by decide)

end BazelPro.Print
