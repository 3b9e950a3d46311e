import BazelPro.Print.Integer

/-!
# The arrays of 36 bytes

A call stores outside of one of the arrays `tmp` if and only if one of its directives asks for
more digits than there is room for (`scratch_iff`). Nothing in the code limits the precision.
-/

namespace BazelPro.Print

open C Positional

/-! ## Widths and precisions are ints -/

/-- A value of type `int`. -/
def IsInt (x : Int) : Prop := -2147483648 ≤ x ∧ x < 2147483648

instance (x : Int) : Decidable (IsInt x) := inferInstanceAs (Decidable (_ ∧ _))

/-- The width and the precision of a directive are of type `int`. -/
structure Spec.Ints (spec : Spec) : Prop where
  width : IsInt spec.width
  prec : IsInt spec.prec

theorem digitRun_isInt {fmt fmt' : List Byte} {n n' : Int} (hn : IsInt n)
    (h : digitRun n fmt = .ok (n', fmt')) : IsInt n' := by
  induction fmt generalizing n with
  | nil => cases h
  | cons c fmt ih =>
      rw [digitRun] at h
      split at h
      · exact ih (int32_range _) h
      · cases h
        exact hn

theorem isInt_zero : IsInt 0 := by decide

/-- What is stored for a character of a directive, if the scanner goes on behind it. -/
structure StoresInts (step : Except Fault (Option (Spec × List Byte))) : Prop where
  ints : ∀ spec fmt, step = .ok (some (spec, fmt)) → spec.Ints

theorem storesInts_some {spec : Spec} {fmt : List Byte} (h : spec.Ints) :
    StoresInts (.ok (some (spec, fmt))) := by
  refine ⟨fun spec' fmt' heq => ?_⟩
  cases heq
  exact h

theorem storesInts_digitRun (fmt : List Byte) (store : Int → Spec)
    (hstore : ∀ n, IsInt n → (store n).Ints) :
    StoresInts (digitRun 0 fmt >>= fun read => .ok (some (store read.1, read.2))) := by
  cases hrun : digitRun 0 fmt with
  | error fault => exact ⟨fun _ _ heq => nomatch heq⟩
  | ok read => exact storesInts_some (hstore _ (digitRun_isInt isInt_zero hrun))

theorem scanChar_ints {spec : Spec} (hspec : spec.Ints) (c : Byte) (fmt : List Byte) :
    StoresInts (scanChar spec c fmt) := by
  have hmark : IsInt (-1) := by decide
  unfold scanChar
  refine iteInduction (fun _ => ?_) fun _ => iteInduction (fun _ => ?_) fun _ => ?_
  · exact storesInts_some ⟨hspec.width, hspec.prec⟩
  · cases fmt with
    | nil => exact ⟨fun _ _ heq => nomatch heq⟩
    | cons c' fmt =>
        refine iteInduction (motive := StoresInts) (fun _ => ?_) fun _ => ?_
        · exact storesInts_some ⟨hspec.width, hspec.prec⟩
        · exact storesInts_some ⟨hspec.width, hspec.prec⟩
  iterate 5
    refine iteInduction (fun _ => ?_) fun _ => ?_
    · exact storesInts_some ⟨hspec.width, hspec.prec⟩
  refine iteInduction (fun _ => ?_) fun _ => iteInduction (fun _ => ?_) fun _ =>
    iteInduction (fun _ => ?_) fun _ => ?_
  · exact storesInts_some ⟨hmark, hspec.prec⟩
  · cases fmt with
    | nil => exact ⟨fun _ _ heq => nomatch heq⟩
    | cons c' fmt =>
        refine iteInduction (motive := StoresInts) (fun _ => ?_) fun _ => ?_
        · exact storesInts_some ⟨hspec.width, hmark⟩
        · exact storesInts_digitRun (c' :: fmt)
            (fun prec => { spec with prec := prec, precGiven := true })
            fun _ hn => ⟨hspec.width, hn⟩
  · exact storesInts_digitRun (c :: fmt) (fun width => { spec with width := width })
      fun _ hn => ⟨hn, hspec.prec⟩
  · exact ⟨fun _ _ heq => nomatch heq⟩

theorem scan_ints {fuel : Nat} {spec spec' : Spec} {c : Byte} {fmt fmt' : List Byte}
    (hspec : spec.Ints) (h : scan fuel spec fmt = .ok (spec', c, fmt')) : spec'.Ints := by
  induction fuel generalizing spec fmt with
  | zero => cases h
  | succ fuel ih =>
      cases fmt with
      | nil => cases h
      | cons c' fmt =>
          change (scanChar spec c' fmt >>= _) = _ at h
          cases hchar : scanChar spec c' fmt with
          | error fault =>
              rw [hchar] at h
              cases h
          | ok stored =>
              rw [hchar] at h
              cases stored with
              | none =>
                  cases h
                  exact hspec
              | some goOn => exact ih ((scanChar_ints hspec c' fmt).ints goOn.1 goOn.2 hchar) h

/-- The width and the precision of a directive are of type `int`, wherever they come from. -/
theorem directive_ints {ap : VaList} {fmt fmt' : List Byte} {arg : Nat} {d : Directive}
    (h : directive ap fmt arg = .ok (d, fmt')) : d.spec.Ints := by
  cases hscan : scan fmt.length {} fmt with
  | error fault =>
      rw [directive, hscan] at h
      cases h
  | ok read =>
      have hspec : read.1.Ints := scan_ints ⟨isInt_zero, isInt_zero⟩ hscan
      have hstar : ∀ (x : Int) (n : Nat), IsInt x →
          IsInt (if x = -1 then ((ap n).int, n + 1) else (x, n)).1 := by
        intro x n hx
        split
        · exact (ap n).int_range
        · exact hx
      rw [directive, hscan] at h
      cases h
      exact ⟨hstar _ _ hspec.width, hstar _ _ hspec.prec⟩

theorem directives_ints (ap : VaList) (fuel : Nat) (fmt : List Byte) (arg : Nat) :
    ∀ d ∈ directives ap fuel fmt arg, d.spec.Ints := by
  induction fuel generalizing fmt arg with
  | zero => exact fun d hd => absurd hd List.not_mem_nil
  | succ fuel ih =>
      cases fmt with
      | nil => exact fun d hd => absurd hd List.not_mem_nil
      | cons c fmt =>
          by_cases hnul : c = 0
          · subst hnul
            exact fun d hd => absurd hd List.not_mem_nil
          by_cases hpercent : c = chr '%'
          · subst hpercent
            rw [directives_percent]
            split
            · exact fun d hd => absurd hd List.not_mem_nil
            · next d fmt' hdirective =>
              split
              · exact fun d hd => absurd hd List.not_mem_nil
              · exact List.forall_mem_cons.mpr ⟨directive_ints hdirective, ih _ _⟩
          · rw [directives_char ap fuel hnul hpercent]
            exact ih fmt arg

/-! ## What a directive asks for -/

/-- The number of characters in front of the digits: a sign that is not put out ahead, or the
prefix of the alternate form. -/
def Directive.lead (ap : VaList) (d : Directive) : Nat :=
  if d.conv = chr 'd' ∨ d.conv = chr 'i' then
    if ¬ d.spec.fillz ∧ (d.signed ap < 0 ∨ d.spec.plus ∨ d.spec.space) then 1 else 0
  else if ¬ d.spec.altform then 0
  else if d.conv = chr 'x' ∨ d.conv = chr 'X' then 2
  else if d.conv = chr 'o' ∨ d.conv = chr 'O' then 1
  else 0

/-- The number of digits that are asked for: the alternate form counts its prefix. -/
def Directive.askedDigits (ap : VaList) (d : Directive) : Int :=
  if d.conv = chr 'd' ∨ d.conv = chr 'i' then d.spec.prec else int32 (d.spec.prec + d.lead ap)

/-- The number of digits of the argument. -/
def Directive.digits (ap : VaList) (d : Directive) : Nat :=
  if d.conv = chr 'd' ∨ d.conv = chr 'i' then
    (numeral 10 ((d.signed ap).natAbs % 2 ^ 32)).length
  else if d.conv = chr 'u' then (numeral 10 (d.unsigned ap % 2 ^ 32)).length
  else if d.conv = chr 'o' ∨ d.conv = chr 'O' then (numeral 8 (d.unsigned ap % 2 ^ 32)).length
  else (numeral 16 (d.unsigned ap % 2 ^ 32)).length

/-- There is room in the arrays for what the directive asks for and a NUL, and counting the digits
down from the precision does not pass the least `int`. -/
def Directive.HasRoom (ap : VaList) (d : Directive) : Prop :=
  d.conv ∈ numberConversions →
    -2147483648 + (d.digits ap : Int) ≤ d.askedDigits ap ∧
      d.lead ap + max (d.askedDigits ap) (d.digits ap) ≤ 35

instance (ap : VaList) (d : Directive) : Decidable (d.HasRoom ap) :=
  inferInstanceAs (Decidable (_ → _ ∧ _))

/-- What the case for `d` and `i` hands to `itoa`. -/
theorem signedConversion_asks (ap : VaList) {d : Directive}
    (hconv : d.conv = chr 'd' ∨ d.conv = chr 'i') :
    (signedConversion d.spec (d.num ap)).tmp.length = d.lead ap ∧
      (signedConversion d.spec (d.num ap)).prec = d.askedDigits ap ∧
      (signedConversion d.spec (d.num ap)).digits = d.digits ap := by
  have hconversion := signedConversion_eq d.spec (d.num ap)
  have hmagnitude := toNat_magnitude (d.spec.halveSigned (d.num ap))
  dsimp only at hconversion
  rw [d.signed_eq ap] at hconversion hmagnitude
  unfold Directive.askedDigits Directive.digits Directive.lead IntegerConversion.digits
  rw [hconversion, if_pos hconv, if_pos hconv, if_pos hconv]
  by_cases hahead : d.spec.fillz ∧ sign d.spec.flags (d.signed ap) ≠ []
  · rw [if_pos hahead]
    exact ⟨(if_neg fun h => h.1 hahead.1).symm, rfl,
      congrArg (fun n => (numeral 10 n).length) hmagnitude⟩
  · have hsign : d.spec.fillz → ¬ (d.signed ap < 0 ∨ d.spec.plus ∨ d.spec.space) := by
      intro hfillz hshown
      refine hahead ⟨hfillz, fun hnil => ?_⟩
      have hlength := (length_sign d.spec.flags (d.signed ap)).trans (if_pos hshown)
      rw [hnil] at hlength
      cases hlength
    rw [if_neg hahead]
    refine ⟨(length_sign _ _).trans ?_, rfl,
      congrArg (fun n => (numeral 10 n).length) hmagnitude⟩
    exact if_congr ⟨fun h => ⟨fun hfillz => hsign hfillz h, h⟩, fun h => h.2⟩ rfl rfl

/-- The digits of an unsigned conversion, by its base. -/
theorem Directive.digits_unsigned (ap : VaList) {d : Directive} {base : Nat}
    (hconv : d.conv = chr 'u' ∧ base = 10 ∨
      (d.conv = chr 'p' ∨ d.conv = chr 'x' ∨ d.conv = chr 'X') ∧ base = 16 ∨
      (d.conv = chr 'o' ∨ d.conv = chr 'O') ∧ base = 8) :
    ¬ (d.conv = chr 'd' ∨ d.conv = chr 'i') ∧
      d.digits ap = (numeral base (d.unsigned ap % 2 ^ 32)).length := by
  unfold digits
  rcases hconv with ⟨h, rfl⟩ | ⟨h | h | h, rfl⟩ | ⟨h | h, rfl⟩ <;> rw [h] <;>
    exact ⟨by decide, rfl⟩

/-- What the cases for the integer conversions hand to `itoa`. -/
theorem integerConversion_asks {ap : VaList} {d : Directive} {q : IntegerConversion}
    (hints : d.spec.Ints) (hq : integerConversion ap d = some q) :
    q.tmp.length = d.lead ap ∧ q.prec = d.askedDigits ap ∧ q.digits = d.digits ap := by
  have hdigits : ∀ base, (numeral base ((d.spec.halveUnsigned (d.num ap)).setWidth 32).toNat) =
      numeral base (d.unsigned ap % 2 ^ 32) :=
    fun base => congrArg (numeral base) (BitVec.toNat_setWidth 32 _)
  cases integerConversion_case hq with
  | signed hconv => exact signedConversion_asks ap hconv
  | unsigned base hconv =>
      obtain ⟨hsigned, hlength⟩ := @Directive.digits_unsigned ap d base (by tauto)
      have hlead : d.lead ap = 0 := by
        rw [Directive.lead, if_neg hsigned]
        rcases hconv with ⟨h, -⟩ | ⟨h, -⟩ | ⟨-, -, halt⟩ | ⟨-, -, halt⟩
        · rw [h]
          exact ite_self 0
        · rw [h]
          exact ite_self 0
        · exact if_pos halt
        · exact if_pos halt
      have hprec : d.askedDigits ap = d.spec.prec := by
        rw [Directive.askedDigits, if_neg hsigned, hlead, Nat.cast_zero, Int.add_zero]
        exact int32_eq hints.prec.1 hints.prec.2
      exact ⟨hlead.symm, hprec.symm, (congrArg List.length (hdigits base)).trans hlength.symm⟩
  | alternate lead base halt hconv =>
      obtain ⟨hsigned, hlength⟩ := @Directive.digits_unsigned ap d base (by tauto)
      have hlead : d.lead ap = lead.length := by
        rw [Directive.lead, if_neg hsigned, if_neg (not_not_intro halt)]
        rcases hconv with ⟨h, -, rfl⟩ | ⟨h | h, -, rfl⟩
        · exact if_pos h
        · rw [h]
          rfl
        · rw [h]
          rfl
      have hprec : d.askedDigits ap = int32 (d.spec.prec + lead.length) := by
        rw [Directive.askedDigits, if_neg hsigned, hlead]
      exact ⟨hlead.symm, hprec.symm, (congrArg List.length (hdigits base)).trans hlength.symm⟩

/-! ## Conversions -/

/-- There is room for what is handed to `itoa` if and only if there is for what is asked for. -/
theorem fits_iff_hasRoom {ap : VaList} {d : Directive} {q : IntegerConversion}
    (hints : d.spec.Ints) (hq : integerConversion ap d = some q) :
    q.Fits ↔ d.HasRoom ap := by
  obtain ⟨hlead, hprec, hdigits⟩ := integerConversion_asks hints hq
  have hconv : d.conv ∈ numberConversions := by
    by_contra hother
    rw [integerConversion_eq_none hother] at hq
    cases hq
  unfold IntegerConversion.Fits Directive.HasRoom
  rw [hlead, hprec, hdigits]
  exact ⟨fun h _ => h, fun h => h hconv⟩

/-- A directive converts its argument if it has room, and leaves an array if it has not. -/
theorem convert_cases {ap : VaList} {d : Directive} (hints : d.spec.Ints)
    (hfloat : d.conv ≠ chr 'f') :
    (d.HasRoom ap → ∃ conversion, convert ap d = .ok conversion) ∧
      (¬ d.HasRoom ap → convert ap d = .error .scratch) := by
  cases hq : integerConversion ap d with
  | none =>
      refine ⟨fun _ => ?_, fun hroom => absurd (fun hconv => ?_) hroom⟩
      · unfold convert
        simp only [hq, hfloat, if_false]
        split_ifs <;> exact ⟨_, rfl⟩
      · obtain ⟨q, hsome⟩ := integerConversion_eq_some ap hconv
        rw [hq] at hsome
        cases hsome
  | some q =>
      rw [← fits_iff_hasRoom hints hq]
      refine ⟨fun hfits => ⟨_, convert_integer hq hfits⟩, fun hfits => ?_⟩
      obtain ⟨hbase, hbase16, htmp, -⟩ := integerConversion_spec hq
      have hprec : IsInt q.prec := by
        obtain ⟨-, hprec, -⟩ := integerConversion_asks hints hq
        rw [hprec, Directive.askedDigits]
        split
        · exact hints.prec
        · exact int32_range _
      rw [convert, hq]
      show (itoa q.tmp _ q.base (d.conv = chr 'X') q.prec >>= _) = _
      rw [itoa_overrun q.tmp _ _ q.prec hbase hbase16 htmp hprec hfits]
      rfl

/-! ## The law -/

variable {σ : Type} [Sink Event σ]

/-- The outer loop stops at the first directive that leaves an array. -/
theorem fmtLoop_scratch_iff (ap : VaList) (fuel : Nat) {fmt : List Byte} (h : Terminated fmt)
    (hfuel : fmt.length ≤ fuel) (arg : Nat) (s : σ)
    (hconvert : ∀ d ∈ directives ap fuel fmt arg,
      (d.HasRoom ap → ∃ conversion, convert ap d = .ok conversion) ∧
        (¬ d.HasRoom ap → convert ap d = .error .scratch)) :
    fmtLoop ap fuel fmt arg s = .error .scratch ↔
      ∃ d ∈ directives ap fuel fmt arg, ¬ d.HasRoom ap := by
  induction fuel generalizing fmt arg s with
  | zero => cases h <;> simp at hfuel
  | succ fuel ih =>
      cases h with
      | nul =>
          exact iff_of_false (fun h => nomatch h) (fun ⟨_, hd, _⟩ => absurd hd List.not_mem_nil)
      | cons c fmt hc h =>
          rw [List.length_cons] at hfuel
          by_cases hpercent : c = chr '%'
          · subst hpercent
            obtain ⟨d, fmt', hdirective, hlength, hrest⟩ := directive_ok h ap arg
            rw [fmtLoop_directive ap fuel hdirective]
            by_cases hconv : d.conv = 0
            · rw [if_pos hconv, directives_nul ap fuel hdirective hconv]
              exact iff_of_false (fun h => nomatch h) (fun ⟨_, hd, _⟩ => absurd hd List.not_mem_nil)
            · rw [directives_directive ap fuel hdirective hconv] at hconvert ⊢
              rw [List.forall_mem_cons] at hconvert
              rw [if_neg hconv, List.exists_mem_cons_iff]
              by_cases hroom : d.HasRoom ap
              · obtain ⟨conversion, heq⟩ := hconvert.1.1 hroom
                obtain ⟨s', hemit⟩ := emit_ok conversion s
                rw [heq, or_iff_right (not_not_intro hroom)]
                show (emit conversion s >>= _) = _ ↔ _
                rw [hemit]
                exact ih (hrest hconv) (by omega) _ s' hconvert.2
              · rw [hconvert.1.2 hroom]
                exact iff_of_true rfl (Or.inl hroom)
          · rw [directives_char ap fuel hc hpercent] at hconvert ⊢
            rw [fmtLoop_char ap fuel hc hpercent]
            exact ih h (by omega) arg _ hconvert

/-- A call leaves one of the arrays if a directive of its format has no room. -/
theorem vsnprintf_scratch_iff {fmt : CStr} {ap : VaList}
    (hfloat : ∀ d ∈ fmt.directives ap, d.conv ≠ chr 'f') (ram : Ram) (buf : Nat)
    (size : BitVec 64) :
    vsnprintfAsyncsignalsafe ram buf size fmt ap = .error .scratch ↔
      ∃ d ∈ fmt.directives ap, ¬ d.HasRoom ap := by
  have hints := directives_ints ap (fmt.chars.length + 1) (fmt.chars ++ [0]) 0
  have hloop := fmtLoop_scratch_iff ap (fmt.chars.length + 1) fmt.terminated (by simp) 0
    (⟨ram, buf, buf + size.toNat - 1, buf, 0⟩ : Printer)
    fun d hd => convert_cases (hints d hd) (hfloat d hd)
  refine Iff.trans ?_ hloop
  show (fmtLoop _ _ _ _ _ >>= _) = _ ↔ _
  generalize fmtLoop (σ := Printer) ap _ _ 0 _ = printed
  cases printed with
  | error fault =>
      show (Except.error fault : Except Fault (Ram × BitVec 32)) = .error .scratch ↔ _
      rw [Except.error.injEq, Except.error.injEq]
  | ok p => exact iff_of_false (fun h => nomatch h) (fun h => nomatch h)

/-- Without `%f`, no call with this format and these arguments stores outside of the arrays of 36
bytes if and only if every directive has room in them. -/
theorem scratch_iff {fmt : CStr} {ap : VaList}
    (hfloat : ∀ d ∈ fmt.directives ap, d.conv ≠ chr 'f') :
    (∀ (ram : Ram) (buf : Nat) (size : BitVec 64),
        vsnprintfAsyncsignalsafe ram buf size fmt ap ≠ .error .scratch) ↔
      ∀ d ∈ fmt.directives ap, d.HasRoom ap := by
  constructor
  · intro h d hd
    by_contra hroom
    exact h ⟨fun _ => 0, []⟩ 0 1 ((vsnprintf_scratch_iff hfloat _ _ _).mpr ⟨d, hd, hroom⟩)
  · intro h ram buf size hscratch
    obtain ⟨d, hd, hroom⟩ := (vsnprintf_scratch_iff hfloat ram buf size).mp hscratch
    exact hroom (h d hd)

/-- The format `%.35d`. -/
def thirtyFiveDigits : CStr := ⟨['%', '.', '3', '5', 'd'].map chr, by decide⟩

/-- 35 digits fit. -/
theorem scratch_iff_thirtyFiveDigits :
    vsnprintfAsyncsignalsafe ⟨fun _ => 0, []⟩ 0 64 thirtyFiveDigits (argsOfWord 5) ≠
      .error .scratch :=
  (scratch_iff (by decide)).mpr (by decide) _ _ _

/-- The format `%.36d`. -/
def thirtySixDigits : CStr := ⟨['%', '.', '3', '6', 'd'].map chr, by decide⟩

/-- 36 digits do not. -/
theorem thirtySixDigits_scratch :
    (∀ d ∈ thirtySixDigits.directives (argsOfWord 5), d.conv ≠ chr 'f') ∧
      vsnprintfAsyncsignalsafe ⟨fun _ => 0, []⟩ 0 64 thirtySixDigits (argsOfWord 5) =
        .error .scratch :=
  ⟨by decide, (vsnprintf_scratch_iff (by decide) _ _ _).mpr (by decide)⟩

end BazelPro.Print
