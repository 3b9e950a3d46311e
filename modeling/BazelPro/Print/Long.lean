import BazelPro.Print.Signed
import BazelPro.Print.Unsigned

/-!
# Arguments of 64 bits

With an `l` or an `ll` the argument is fetched as 64 bits, but `itoa` takes an `unsigned int`. So
the digits that are put out are read back as the magnitude of the argument modulo `2 ^ 32`
(`emits_unsignedLong`, `emits_signedLong`).
-/

namespace BazelPro.Print

open C Padding Positional

/-! ## Reading a number back -/

/-- The value of a digit. -/
def digitValue (c : Byte) : Option Nat :=
  if chr '0' ≤ c ∧ c ≤ chr '9' then some (c.toNat - 48)
  else if chr 'a' ≤ c ∧ c ≤ chr 'f' then some (c.toNat - 87)
  else if chr 'A' ≤ c ∧ c ≤ chr 'F' then some (c.toNat - 55)
  else none

/-- The number that the digits of a text stand for. -/
def readNumber (base : Nat) (text : List Byte) : Nat := value base (text.filterMap digitValue)

/-- The number that a decimal text stands for, with its sign. -/
def readSigned (text : List Byte) : Int :=
  if text.contains (chr '-') then -readNumber 10 text else readNumber 10 text

theorem filterMap_digitValue (caps : Bool) {ds : List Nat} (h : ∀ d ∈ ds, d < 16) :
    (ds.map (digitChar caps)).filterMap digitValue = ds := by
  have hdigit : ∀ caps, ∀ d < 16, digitValue (digitChar caps d) = some d := by decide
  induction ds with
  | nil => rfl
  | cons d ds ih =>
      rw [List.forall_mem_cons] at h
      rw [List.map_cons, List.filterMap_cons_some (hdigit caps d h.1), ih h.2]

/-- The digits of a number are read back. -/
theorem readNumber_numeral (caps : Bool) {base : Nat} (hbase : 1 < base) (hbase16 : base ≤ 16)
    (n : Nat) : readNumber base ((numeral base n).map (digitChar caps)) = n := by
  have hdigits : ∀ d ∈ numeral base n, d < 16 :=
    fun _ hd => (lt_of_mem_numeral hbase hd).trans_le hbase16
  rw [readNumber, filterMap_digitValue caps hdigits, value_numeral]

/-- Neither a zero nor a character that is no digit counts in front of a number. -/
theorem readNumber_append (base : Nat) {lead : List Byte}
    (h : ∀ c ∈ lead, c = chr '0' ∨ digitValue c = none) (text : List Byte) :
    readNumber base (lead ++ text) = readNumber base text := by
  rw [readNumber, List.filterMap_append, readNumber]
  refine value_append_of_zeros base (fun z hz => ?_) _
  obtain ⟨c, hc, hvalue⟩ := List.mem_filterMap.mp hz
  rcases h c hc with rfl | hnone
  · exact (Option.some.inj hvalue).symm
  · rw [hnone] at hvalue
    cases hvalue

/-- Padding does not change the number. -/
theorem readNumber_justify (base : Nat) (ljust fillz : Bool) (width : Nat) (body : List Byte) :
    readNumber base (justify ljust fillz width body) = readNumber base body := by
  unfold justify
  split
  · have hblanks : ∀ n, (List.replicate n (chr ' ')).filterMap digitValue = [] := by
      intro n
      refine List.filterMap_eq_nil_iff.mpr fun c hc => ?_
      rw [List.eq_of_mem_replicate hc]
      rfl
    rw [readNumber, List.rightpad, List.filterMap_append, hblanks, List.append_nil, readNumber]
  · refine readNumber_append base (fun c hc => ?_) body
    rw [List.eq_of_mem_replicate hc]
    cases fillz
    · exact Or.inr rfl
    · exact Or.inl rfl

/-- What `itoa` writes is read back. -/
theorem readNumber_itoaChars (n : Nat) {base : Nat} (hbase : 1 < base) (hbase16 : base ≤ 16)
    (caps : Bool) (prec : Int) : readNumber base (itoaChars n base caps prec) = n := by
  rw [itoaChars_eq, digitChars_numeral caps hbase hbase16]
  refine (readNumber_append base (fun c hc => ?_) _).trans
    (readNumber_numeral caps hbase hbase16 n)
  exact Or.inl (List.eq_of_mem_replicate hc)

/-! ## Unsigned conversions -/

theorem readNumber_unsignedText (spec : Spec) (conv : UnsignedConv) (n : Nat) :
    readNumber conv.base (unsignedText spec conv n) = n % 2 ^ 32 := by
  obtain ⟨hbase, hbase16⟩ := UnsignedConv.base_spec conv
  have hlead : ∀ c ∈ altLead spec conv, c = chr '0' ∨ digitValue c = none := by
    unfold altLead
    split
    · exact fun c hc => absurd hc List.not_mem_nil
    · cases conv <;> decide
  rw [unsignedText, readNumber_justify, readNumber_append _ hlead,
    readNumber_itoaChars _ hbase hbase16]

/-- The field of the standard is read back, whatever its padding. -/
theorem readNumber_unsignedField {spec : Spec} {prec : Option Nat}
    (hprec : spec.prec = (prec.getD 0 : Nat)) (hne : prec ≠ some 0) (halt : ¬ spec.altform)
    (conv : UnsignedConv) (n : Nat) :
    readNumber conv.base (unsignedField spec.flags spec.width.toNat prec conv n) = n := by
  have hflags : ¬ spec.flags.alt := halt
  obtain ⟨hbase, hbase16⟩ := UnsignedConv.base_spec conv
  rw [unsignedField, altPrefix_of_not_alt hflags, unsignedDigits_of_not_alt hflags hne,
    ← justify_eq_numericField spec hprec hne (fun _ _ => Or.inl rfl), readNumber_justify,
    List.nil_append]
  refine (readNumber_append conv.base (fun c hc => ?_) _).trans
    (readNumber_numeral _ hbase hbase16 n)
  exact Or.inl (List.eq_of_mem_replicate hc)

/-- Without the alternate form, the field is the one of the standard exactly for the numbers that
`itoa` takes. -/
theorem unsignedText_eq_unsignedField_iff {spec : Spec} {prec : Option Nat}
    (hprec : spec.prec = (prec.getD 0 : Nat)) (hne : prec ≠ some 0) (halt : ¬ spec.altform)
    (conv : UnsignedConv) (n : Nat) :
    unsignedText spec conv n = unsignedField spec.flags spec.width.toNat prec conv n ↔
      n < 2 ^ 32 := by
  constructor
  · intro heq
    have hread := congrArg (readNumber conv.base) heq
    rw [readNumber_unsignedText, readNumber_unsignedField hprec hne halt] at hread
    omega
  · intro hn
    exact (unsignedText_eq_iff spec hne n hprec conv hn).mpr (absurd · halt)

/-! ## Signed conversions -/

theorem minus_mem_justify_iff (ljust fillz : Bool) (width : Nat) (body : List Byte) :
    chr '-' ∈ justify ljust fillz width body ↔ chr '-' ∈ body := by
  have hpad : ∀ n, chr '-' ∉ List.replicate n (if fillz then chr '0' else chr ' ') := by
    intro n hmem
    have := List.eq_of_mem_replicate hmem
    cases fillz <;> exact absurd this (by decide)
  have hblank : ∀ n, chr '-' ∉ List.replicate n (chr ' ') :=
    fun n hmem => absurd (List.eq_of_mem_replicate hmem) (by decide)
  unfold justify
  split
  · rw [List.rightpad, List.mem_append, or_iff_left (hblank _)]
  · rw [List.leftpad, List.mem_append, or_iff_right (hpad _)]

theorem minus_not_mem_itoaChars (n : Nat) (prec : Int) :
    chr '-' ∉ itoaChars n 10 false prec := by
  rw [itoaChars_eq, digitChars_numeral false (by decide) (by decide), List.leftpad,
    List.mem_append]
  rintro (hmem | hmem)
  · exact absurd (List.eq_of_mem_replicate hmem) (by decide)
  · obtain ⟨d, hd, hminus⟩ := List.mem_map.mp hmem
    have hdigit : ∀ d < 10, digitChar false d ≠ chr '-' := by decide
    exact hdigit d (lt_of_mem_numeral (by decide) hd) hminus

theorem minus_mem_sign_iff (fl : FieldFlags) (v : Int) : chr '-' ∈ sign fl v ↔ v < 0 := by
  unfold sign
  by_cases hneg : v < 0
  · simp [hneg]
  · cases fl.plus <;> cases fl.space <;> simp [hneg] <;> decide

theorem signAhead_eq_minus_iff (spec : Spec) (v : Int) : signAhead spec v = chr '-' ↔ v < 0 := by
  unfold signAhead
  by_cases hneg : v < 0
  · simp [hneg]
  · cases spec.space <;> simp [hneg] <;> decide

theorem readSigned_signedText (spec : Spec) (v : Int) :
    readSigned (signedText spec v) =
      if v < 0 then -((v.natAbs % 2 ^ 32 : Nat) : Int) else (v.natAbs % 2 ^ 32 : Nat) := by
  have hdigits := readNumber_itoaChars (v.natAbs % 2 ^ 32) (by decide : 1 < 10)
    (by decide : 10 ≤ 16) false spec.prec
  have hplain := minus_not_mem_itoaChars (v.natAbs % 2 ^ 32) spec.prec
  have hnumber : readNumber 10 (signedText spec v) = v.natAbs % 2 ^ 32 := by
    have hsign : ∀ c ∈ sign spec.flags v, c = chr '0' ∨ digitValue c = none := by
      unfold sign
      split_ifs <;> decide
    have hahead : ∀ c ∈ [signAhead spec v], c = chr '0' ∨ digitValue c = none := by
      unfold signAhead
      split_ifs <;> decide
    rw [signedText]
    split
    · rw [← List.singleton_append, readNumber_append 10 hahead, readNumber_justify, hdigits]
    · rw [readNumber_justify, readNumber_append 10 hsign, hdigits]
  have hminus : chr '-' ∈ signedText spec v ↔ v < 0 := by
    rw [signedText]
    split
    · rw [List.mem_cons, minus_mem_justify_iff, or_iff_left hplain, eq_comm,
        signAhead_eq_minus_iff]
    · rw [minus_mem_justify_iff, List.mem_append, or_iff_left hplain, minus_mem_sign_iff]
  rw [readSigned, hnumber]
  simp only [List.contains_iff_mem, hminus]

/-! ## Long directives -/

/-- The directives that are meant for a `long` or a `long long`: without a `*`. -/
structure Source.Long (src : Source) : Prop where
  width : src.width ≠ .star
  prec : src.prec.Meant
  length : src.length = [.l] ∨ src.length = [.ll]

section Long

variable {src : Source} (hlong : src.Long) (ap : VaList) (arg : Nat)
include hlong

/-- The whole word is fetched. -/
theorem Source.Long.num_eq : (src.directive ap arg).num ap = (ap arg).word := by
  obtain ⟨harg, -⟩ := Source.directive_eq hlong.width hlong.prec ap arg
  have htlong : (src.directive ap arg).spec.tlong = 1 ∨ (src.directive ap arg).spec.tlong = 2 := by
    show (src.length.foldl Length.set {}).tlong = 1 ∨ (src.length.foldl Length.set {}).tlong = 2
    rcases hlong.length with h | h <;> rw [h]
    · exact Or.inl rfl
    · exact Or.inr rfl
  rw [Directive.num, harg]
  rcases htlong with h | h <;> simp [h]

theorem Source.Long.half_eq : (src.directive ap arg).spec.half = false := by
  show src.length.contains .h = false
  rcases hlong.length with h | h <;> rw [h] <;> rfl

theorem Source.Long.unsigned_eq : (src.directive ap arg).unsigned ap = (ap arg).word.toNat := by
  rw [Directive.unsigned, hlong.num_eq, Spec.halveUnsigned, hlong.half_eq]
  rfl

theorem Source.Long.signed_eq : (src.directive ap arg).signed ap = (ap arg).word.toInt := by
  rw [Directive.signed, hlong.num_eq, hlong.half_eq]
  rfl

/-- An unsigned conversion puts out the argument modulo `2 ^ 32`. -/
theorem emits_unsignedLong {conv : UnsignedConv} (hconv : src.conv = conv.char) :
    ∃ text, src.Emits ap arg text ∧
      readNumber conv.base text = (ap arg).word.toNat % 2 ^ 32 := by
  obtain ⟨-, hwidth, -, -, hprec⟩ := Source.directive_eq hlong.width hlong.prec ap arg
  refine ⟨_, emits_unsigned hconv hwidth hprec, ?_⟩
  rw [readNumber_unsignedText, hlong.unsigned_eq]

/-- A signed conversion puts out the magnitude of the argument modulo `2 ^ 32`, and the sign of the
argument. -/
theorem emits_signedLong (hconv : src.conv = chr 'd' ∨ src.conv = chr 'i') :
    ∃ text, src.Emits ap arg text ∧ readSigned text =
      if (ap arg).word.toInt < 0 then -(((ap arg).word.toInt.natAbs % 2 ^ 32 : Nat) : Int)
      else ((ap arg).word.toInt.natAbs % 2 ^ 32 : Nat) := by
  obtain ⟨-, hwidth, -, -, hprec⟩ := Source.directive_eq hlong.width hlong.prec ap arg
  refine ⟨_, emits_signed hconv hwidth hprec, ?_⟩
  rw [readSigned_signedText, hlong.signed_eq]

end Long

end BazelPro.Print
