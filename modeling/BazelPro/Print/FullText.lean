import BazelPro.Print.Directives
import BazelPro.Print.Itoa

/-!
# The full text of a call

The formatter puts the same characters into every sink (`format_hom`). Those that it puts into a
list are the full text of a format and its arguments, which no array has truncated (`fullText`).
There is one whenever the directives are admissible and `itoa` does not wrap a precision
(`format_ok`).
-/

namespace BazelPro.Print

open C Positional Sink

variable {σ τ : Type} [Sink Event σ] [Sink Event τ]

/-! ## The outer loop -/

theorem fmtLoop_char (ap : VaList) (fuel : Nat) {c : Byte} {fmt : List Byte} (hnul : c ≠ 0)
    (hpercent : c ≠ chr '%') (arg : Nat) (s : σ) :
    fmtLoop ap (fuel + 1) (c :: fmt) arg s = fmtLoop ap fuel fmt arg (putChar s c) :=
  (if_neg hnul).trans (if_pos hpercent)

theorem fmtLoop_percent (ap : VaList) (fuel : Nat) (fmt : List Byte) (arg : Nat) (s : σ) :
    fmtLoop ap (fuel + 1) (chr '%' :: fmt) arg s =
      (directive ap fmt arg >>= fun read =>
        if read.1.conv = 0 then pure s
        else convert ap read.1 >>= fun conversion => emit conversion s >>= fun s =>
          fmtLoop ap fuel read.2 (read.1.arg + argsOf read.1.conv) s) := rfl

theorem fmtLoop_directive (ap : VaList) (fuel : Nat) {fmt fmt' : List Byte} {arg : Nat}
    {d : Directive} (hdirective : directive ap fmt arg = .ok (d, fmt')) (s : σ) :
    fmtLoop ap (fuel + 1) (chr '%' :: fmt) arg s =
      if d.conv = 0 then .ok s
      else convert ap d >>= fun conversion => emit conversion s >>= fun s =>
        fmtLoop ap fuel fmt' (d.arg + argsOf d.conv) s := by
  rw [fmtLoop_percent, hdirective]
  rfl

/-! ## All sinks get the same -/

section Hom

variable {h : σ → τ} (hh : Hom h)
include hh

theorem putChar_hom (s : σ) (c : Byte) : putChar (h s) c = h (putChar s c) := (hh s (.char c)).symm

theorem foldl_putChar_hom (s : σ) (cs : List Byte) :
    cs.foldl putChar (h s) = h (cs.foldl putChar s) := by
  induction cs generalizing s with
  | nil => rfl
  | cons c cs ih => rw [List.foldl_cons, List.foldl_cons, putChar_hom hh, ih]

theorem padding_hom (pad : Int) (c : Byte) (s : σ) :
    padding pad c (h s) = ((padding pad c s).1, h (padding pad c s).2) := by
  have hiterate : ∀ n (s : σ), (putChar · c)^[n] (h s) = h ((putChar · c)^[n] s) := by
    intro n
    induction n with
    | zero => exact fun _ => rfl
    | succ n ih =>
        intro s
        rw [Function.iterate_succ_apply, Function.iterate_succ_apply, putChar_hom hh, ih]
  rw [padding, hiterate]
  rfl

theorem bodyLoop_hom (plen width : Int) (p : List Byte) (s : σ) :
    bodyLoop plen width p (h s) = (bodyLoop plen width p s).map h := by
  induction p generalizing plen width s with
  | nil =>
      rw [bodyLoop, bodyLoop]
      split <;> rfl
  | cons c p ih =>
      rw [bodyLoop, bodyLoop]
      split
      · rw [putChar_hom hh, ih]
      · rfl

theorem emitField_hom (f : Field) (s : σ) : emitField f (h s) = (emitField f s).map h := by
  have hbody : ∀ (plen width pad : Int) (s : σ),
      (bodyLoop plen width (f.p ++ [0]) (h s) >>= fun s => pure (padding pad (chr ' ') s).2) =
        (bodyLoop plen width (f.p ++ [0]) s >>= fun s =>
          pure (padding pad (chr ' ') s).2).map h := by
    intro plen width pad s
    rw [bodyLoop_hom hh]
    cases bodyLoop plen width (f.p ++ [0]) s with
    | error fault => rfl
    | ok s =>
        show Except.ok (padding pad (chr ' ') (h s)).2 = _
        rw [padding_hom hh]
        rfl
  rw [emitField, emitField]
  generalize int32 (f.bodyWidth - f.plen) = pad
  by_cases hljust : f.ljust
  · rw [if_pos hljust, if_pos hljust]
    exact hbody _ _ pad s
  · rw [if_neg hljust, if_neg hljust, padding_hom hh]
    exact hbody _ _ (padding pad _ s).1 (padding pad _ s).2

theorem emit_hom (conversion : Conversion) (s : σ) :
    emit conversion (h s) = (emit conversion s).map h := by
  cases conversion with
  | field ahead f =>
      show emitField f _ = (emitField f _).map h
      rw [foldl_putChar_hom hh, emitField_hom hh]
  | count address f =>
      show emitField f _ = (emitField f _).map h
      rw [← hh, emitField_hom hh]
  | literal c => exact congrArg Except.ok (putChar_hom hh s c)

theorem fmtLoop_hom (ap : VaList) (fuel : Nat) (fmt : List Byte) (arg : Nat) (s : σ) :
    fmtLoop ap fuel fmt arg (h s) = (fmtLoop ap fuel fmt arg s).map h := by
  induction fuel generalizing fmt arg s with
  | zero => rfl
  | succ fuel ih =>
      cases fmt with
      | nil => rfl
      | cons c fmt =>
          by_cases hnul : c = 0
          · subst hnul
            rfl
          by_cases hpercent : c = chr '%'
          · subst hpercent
            cases hdirective : directive ap fmt arg with
            | error fault => simp only [fmtLoop_percent, hdirective]; rfl
            | ok read =>
                obtain ⟨d, fmt'⟩ := read
                rw [fmtLoop_directive ap fuel hdirective, fmtLoop_directive ap fuel hdirective]
                split
                · rfl
                cases convert ap d with
                | error fault => rfl
                | ok conversion =>
                    show (emit conversion (h s) >>= _) = (emit conversion s >>= _).map h
                    rw [emit_hom hh]
                    cases emit conversion s with
                    | error fault => rfl
                    | ok s => exact ih ..
          · rw [fmtLoop_char ap fuel hnul hpercent, fmtLoop_char ap fuel hnul hpercent,
              putChar_hom hh, ih]

/-- The formatter puts the same into every sink. -/
theorem format_hom (fmt : CStr) (ap : VaList) (s : σ) :
    format fmt ap (h s) = (format fmt ap s).map h := fmtLoop_hom hh ..

end Hom

/-! ## No fault -/

/-- The conversions and precisions that the formatter is meant for: no `%f`, and at most 30 digits
asked for. -/
def Directive.Admissible (ap : VaList) (d : Directive) : Prop :=
  d.conv ≠ chr 'f' ∧
    ((integerConversion ap d).isSome → -2147483648 ≤ d.spec.prec ∧ d.spec.prec ≤ 30)

instance (ap : VaList) (d : Directive) : Decidable (d.Admissible ap) :=
  inferInstanceAs (Decidable (_ ∧ _))

/-- `prec--` in `itoa`, once for each digit, does not pass `INT_MIN`. -/
def Directive.PrecisionKept (ap : VaList) (d : Directive) : Prop :=
  ∀ q, integerConversion ap d = some q →
    -2147483648 + ((numeral q.base (q.num.setWidth 32).toNat).length : Int) ≤ q.prec

theorem signedConversion_spec (spec : Spec) (num : BitVec 64) :
    (signedConversion spec num).base = 10 ∧ (signedConversion spec num).tmp.length ≤ 1 ∧
      (signedConversion spec num).prec = spec.prec := by
  have hsign : ∀ negative plus space : Bool, (if negative then [chr '-'] else if plus then [chr '+']
      else if space then [chr ' '] else []).length ≤ 1 := by decide
  refine iteInduction (motive := fun q : IntegerConversion =>
      q.base = 10 ∧ q.tmp.length ≤ 1 ∧ q.prec = spec.prec) (fun _ => ⟨rfl, Nat.zero_le _, rfl⟩)
    fun _ => iteInduction (motive := fun q : IntegerConversion =>
      q.base = 10 ∧ q.tmp.length ≤ 1 ∧ q.prec = spec.prec) (fun _ => ⟨rfl, hsign _ _ _, rfl⟩)
    fun _ => ⟨rfl, Nat.zero_le _, rfl⟩

/-- The cases for the integer conversions: a signed one, an unsigned one, and the alternate form of
one, which stores a prefix and adds its length to the precision. -/
inductive IntegerCase (ap : VaList) (d : Directive) : IntegerConversion → Prop where
  | signed (hconv : d.conv = chr 'd' ∨ d.conv = chr 'i') :
      IntegerCase ap d (signedConversion d.spec (d.num ap))
  | unsigned (base : Nat)
      (hconv : d.conv = chr 'u' ∧ base = 10 ∨ d.conv = chr 'p' ∧ base = 16 ∨
        (d.conv = chr 'x' ∨ d.conv = chr 'X') ∧ base = 16 ∧ ¬ d.spec.altform ∨
        (d.conv = chr 'o' ∨ d.conv = chr 'O') ∧ base = 8 ∧ ¬ d.spec.altform) :
      IntegerCase ap d
        ⟨[], d.spec.width, [], d.spec.halveUnsigned (d.num ap), base, d.spec.prec⟩
  | alternate (lead : List Byte) (base : Nat) (halt : d.spec.altform)
      (hconv : (d.conv = chr 'x' ∨ d.conv = chr 'X') ∧ base = 16 ∧ lead = [chr '0', d.conv] ∨
        (d.conv = chr 'o' ∨ d.conv = chr 'O') ∧ base = 8 ∧ lead = [chr '0']) :
      IntegerCase ap d ⟨[], d.spec.width, lead, d.spec.halveUnsigned (d.num ap), base,
        int32 (d.spec.prec + lead.length)⟩

theorem integerConversion_case {ap : VaList} {d : Directive} {q : IntegerConversion}
    (h : integerConversion ap d = some q) : IntegerCase ap d q := by
  dsimp only [integerConversion] at h
  split at h
  · next hconv =>
    cases h
    exact .signed hconv
  split at h
  · next hconv =>
    cases h
    exact .unsigned 10 (Or.inl ⟨hconv, rfl⟩)
  split at h
  · next hconv =>
    split at h
    · next halt =>
      cases h
      exact .alternate [chr '0', d.conv] 16 halt.1
        (Or.inl ⟨hconv.resolve_left halt.2, rfl, rfl⟩)
    · next halt =>
      cases h
      rcases hconv with hp | hx
      · exact .unsigned 16 (Or.inr (Or.inl ⟨hp, rfl⟩))
      · have hne : d.conv ≠ chr 'p' := by rcases hx with hx | hx <;> rw [hx] <;> decide
        exact .unsigned 16 (Or.inr (Or.inr (Or.inl ⟨hx, rfl, fun hform => halt ⟨hform, hne⟩⟩)))
  split at h
  · next hconv =>
    split at h
    · next halt =>
      cases h
      exact .alternate [chr '0'] 8 halt (Or.inr ⟨hconv, rfl, rfl⟩)
    · next halt =>
      cases h
      exact .unsigned 8 (Or.inr (Or.inr (Or.inr ⟨hconv, rfl, halt⟩)))
  · cases h

/-- The base of an integer conversion, and what it has stored in `tmp` and added to the
precision. -/
theorem integerConversion_spec {ap : VaList} {d : Directive} {q : IntegerConversion}
    (h : integerConversion ap d = some q) :
    8 ≤ q.base ∧ q.base ≤ 16 ∧ q.tmp.length ≤ 2 ∧
      (q.prec = d.spec.prec ∨ q.prec = int32 (d.spec.prec + q.tmp.length)) := by
  cases integerConversion_case h with
  | signed =>
      obtain ⟨hbase, htmp, hprec⟩ := signedConversion_spec d.spec (d.num ap)
      exact ⟨by omega, by omega, by omega, Or.inl hprec⟩
  | unsigned base hconv =>
      have hbase : 8 ≤ base ∧ base ≤ 16 := by omega
      exact ⟨hbase.1, hbase.2, Nat.zero_le 2, Or.inl rfl⟩
  | alternate lead base halt hconv =>
      have hspec : 8 ≤ base ∧ base ≤ 16 ∧ lead.length ≤ 2 := by
        rcases hconv with ⟨-, rfl, rfl⟩ | ⟨-, rfl, rfl⟩ <;> simp
      exact ⟨hspec.1, hspec.2.1, hspec.2.2, Or.inr rfl⟩

/-- The precision that an admissible directive hands to `itoa`. -/
theorem Directive.Admissible.prec_range {ap : VaList} {d : Directive} {q : IntegerConversion}
    (h : d.Admissible ap) (hq : integerConversion ap d = some q) :
    -2147483648 ≤ q.prec ∧ q.prec ≤ 32 := by
  obtain ⟨-, -, htmp, hprec⟩ := integerConversion_spec hq
  obtain ⟨hmin, hmax⟩ := h.2 (by rw [hq]; rfl)
  rcases hprec with hprec | hprec
  · omega
  · rw [hprec, int32_eq] <;> omega

/-- An admissible directive converts its argument. -/
theorem convert_ok {ap : VaList} {d : Directive} (hadmissible : d.Admissible ap)
    (hkept : d.PrecisionKept ap) : ∃ conversion, convert ap d = .ok conversion := by
  unfold convert
  cases hq : integerConversion ap d with
  | none =>
      simp only [hadmissible.1, if_false]
      split_ifs <;> exact ⟨_, rfl⟩
  | some q =>
      obtain ⟨hbase, hbase16, htmp, -⟩ := integerConversion_spec hq
      have hprec := hadmissible.prec_range hq
      have hdigits := length_numeral_word (q.num.setWidth 32) hbase
      have hlength := length_itoaChars (q.num.setWidth 32).toNat q.base (d.conv = chr 'X') q.prec
      show ∃ _, (itoa q.tmp _ q.base (d.conv = chr 'X') q.prec >>= _) = _
      rw [itoa_eq q.tmp _ _ _ (by omega) hbase16 (hkept q hq) (by omega)]
      exact ⟨_, rfl⟩

/-- The loop over the body does not pass the end of its string. -/
theorem bodyLoop_ok (plen width : Int) (p : List Byte) (s : σ) (h : plen ≤ p.length) :
    ∃ s', bodyLoop plen width (p ++ [0]) s = .ok s' := by
  induction p generalizing plen width s with
  | nil =>
      have hplen : ¬ (0 < plen ∧ 0 < width) := by simp at h; omega
      exact ⟨s, if_neg hplen⟩
  | cons c p ih =>
      rw [List.cons_append, bodyLoop]
      split
      · exact ih _ _ _ (by simp at h; omega)
      · exact ⟨s, rfl⟩

theorem int32_le_natCast (n : Nat) : int32 n ≤ n := by
  unfold int32 Int.bmod
  dsimp only
  split <;> omega

theorem Field.plen_le (f : Field) : f.plen ≤ f.p.length := by
  have := int32_le_natCast f.p.length
  unfold plen
  dsimp only
  split <;> omega

theorem emitField_ok (f : Field) (s : σ) : ∃ s', emitField f s = .ok s' := by
  rw [emitField]
  generalize (if f.ljust = true then _ else _ : Int × σ) = padded
  obtain ⟨s', hs'⟩ := bodyLoop_ok f.plen f.bodyWidth f.p padded.2 f.plen_le
  refine ⟨(padding padded.1 (chr ' ') s').2, ?_⟩
  show (bodyLoop _ _ _ padded.2 >>= _) = _
  rw [hs']
  rfl

/-- Every conversion can be put out. -/
theorem emit_ok (conversion : Conversion) (s : σ) : ∃ s', emit conversion s = .ok s' := by
  cases conversion with
  | field ahead f => exact emitField_ok f _
  | count address f => exact emitField_ok f _
  | literal c => exact ⟨_, rfl⟩

/-- The outer loop ends at the end of the format, if each directive converts its argument. -/
theorem fmtLoop_ok (ap : VaList) (fuel : Nat) {fmt : List Byte} (h : Terminated fmt)
    (hfuel : fmt.length ≤ fuel) (arg : Nat) (s : σ)
    (hconvert : ∀ d ∈ directives ap fuel fmt arg, ∃ conversion, convert ap d = .ok conversion) :
    ∃ s', fmtLoop ap fuel fmt arg s = .ok s' := by
  induction fuel generalizing fmt arg s with
  | zero => cases h <;> simp at hfuel
  | succ fuel ih =>
      cases h with
      | nul => exact ⟨s, rfl⟩
      | cons c fmt hc h =>
          rw [List.length_cons] at hfuel
          by_cases hpercent : c = chr '%'
          · subst hpercent
            obtain ⟨d, fmt', hdirective, hlength, hrest⟩ := directive_ok h ap arg
            rw [fmtLoop_directive ap fuel hdirective]
            by_cases hconv : d.conv = 0
            · exact ⟨s, if_pos hconv⟩
            · rw [directives_directive ap fuel hdirective hconv] at hconvert
              obtain ⟨conversion, heq⟩ := hconvert d List.mem_cons_self
              obtain ⟨s', hemit⟩ := emit_ok conversion s
              rw [if_neg hconv, heq]
              show ∃ _, (emit conversion s >>= _) = _
              rw [hemit]
              exact ih (hrest hconv) (by omega) _ s'
                fun d' hd' => hconvert d' (List.mem_cons_of_mem _ hd')
          · rw [directives_char ap fuel hc hpercent] at hconvert
            rw [fmtLoop_char ap fuel hc hpercent]
            exact ih h (by omega) arg _ hconvert

/-- The conversions and precisions of all the directives of a format are meant. -/
def CStr.Admissible (fmt : CStr) (ap : VaList) : Prop := ∀ d ∈ fmt.directives ap, d.Admissible ap

instance (fmt : CStr) (ap : VaList) : Decidable (fmt.Admissible ap) :=
  inferInstanceAs (Decidable (∀ d ∈ _, _))

/-- No precision of the format makes `prec--` pass `INT_MIN`. -/
def CStr.PrecisionsKept (fmt : CStr) (ap : VaList) : Prop :=
  ∀ d ∈ fmt.directives ap, d.PrecisionKept ap

/-- The formatter ends. -/
theorem format_ok {fmt : CStr} {ap : VaList} (hadmissible : fmt.Admissible ap)
    (hkept : fmt.PrecisionsKept ap) (s : σ) : ∃ s', format fmt ap s = .ok s' :=
  fmtLoop_ok ap _ fmt.terminated (by simp) 0 s
    fun d hd => convert_ok (hadmissible d hd) (hkept d hd)

/-! ## The text -/

/-- The characters among some events. -/
def chars (es : List Event) : List Byte := es.filterMap fun
  | .char c => some c
  | .count _ => none

/-- The full text: the characters that go into a list. -/
def fullText (fmt : CStr) (ap : VaList) : List Byte :=
  match format fmt ap ([] : List Event) with
  | .ok es => chars es
  | .error _ => []

/-! ## The counts -/

/-- The bytes that the counts among some events are stored to. -/
def counted (es : List Event) : List Nat := es.flatMap fun
  | .char _ => []
  | .count address => intBytes address

/-- The bytes that a directive stores a count to. -/
def Directive.counted (ap : VaList) (d : Directive) : List Nat :=
  if d.conv = chr 'n' then intBytes (ap d.arg).word.toNat else []

/-- The bytes that the `%n` of a format store to. -/
def CStr.counted (fmt : CStr) (ap : VaList) : List Nat :=
  (fmt.directives ap).flatMap (Directive.counted ap)

theorem CStr.counted_eq_nil {fmt : CStr} {ap : VaList}
    (h : ∀ d ∈ fmt.directives ap, d.conv ≠ chr 'n') : fmt.counted ap = [] :=
  List.flatMap_eq_nil_iff.mpr fun d hd => if_neg (h d hd)

section Counted

variable {es es' : List Event}

theorem counted_append (es es' : List Event) : counted (es ++ es') = counted es ++ counted es' :=
  List.flatMap_append

@[simp] theorem counted_putChar (es : List Event) (c : Byte) :
    counted (putChar es c) = counted es :=
  (counted_append es [.char c]).trans (List.append_nil _)

theorem counted_foldl_putChar (cs : List Byte) (es : List Event) :
    counted (cs.foldl putChar es) = counted es := by
  induction cs generalizing es with
  | nil => rfl
  | cons c cs ih => rw [List.foldl_cons, ih, counted_putChar]

theorem counted_padding (pad : Int) (c : Byte) (es : List Event) :
    counted (padding pad c es).2 = counted es := by
  show counted ((putChar · c)^[pad.toNat] es) = _
  induction pad.toNat generalizing es with
  | zero => rfl
  | succ n ih => rw [Function.iterate_succ_apply, ih, counted_putChar]

theorem counted_bodyLoop {plen width : Int} {p : List Byte}
    (h : bodyLoop plen width p es = .ok es') : counted es' = counted es := by
  induction p generalizing plen width es with
  | nil =>
      rw [bodyLoop] at h
      split at h
      · cases h
      · cases h
        rfl
  | cons c p ih =>
      rw [bodyLoop] at h
      split at h
      · exact (ih h).trans (counted_putChar es c)
      · cases h
        rfl

/-- A field has no counts in it. -/
theorem counted_emitField {f : Field} (h : emitField f es = .ok es') :
    counted es' = counted es := by
  have hbody : ∀ {pad : Int} {es₁ : List Event},
      (bodyLoop f.plen f.bodyWidth (f.p ++ [0]) es₁ >>= fun s =>
        pure (padding pad (chr ' ') s).2) = .ok es' → counted es' = counted es₁ := by
    intro pad es₁ h
    cases hloop : bodyLoop f.plen f.bodyWidth (f.p ++ [0]) es₁ with
    | error fault =>
        rw [hloop] at h
        cases h
    | ok es₂ =>
        rw [hloop] at h
        cases h
        exact (counted_padding _ _ es₂).trans (counted_bodyLoop hloop)
  rw [emitField] at h
  generalize int32 (f.bodyWidth - f.plen) = pad at h
  by_cases hljust : f.ljust
  · rw [if_pos hljust] at h
    exact hbody h
  · rw [if_neg hljust] at h
    have hpadded := counted_padding pad (if f.fillz then chr '0' else chr ' ') es
    generalize padding pad (if f.fillz then chr '0' else chr ' ') es = padded at h hpadded
    exact (hbody h).trans hpadded

/-- The counts of a directive are those of its conversion. -/
theorem counted_emit {ap : VaList} {d : Directive} {conversion : Conversion}
    (hconvert : convert ap d = .ok conversion) (h : emit conversion es = .ok es') :
    counted es' = counted es ++ d.counted ap := by
  unfold convert at hconvert
  unfold Directive.counted
  cases hq : integerConversion ap d with
  | some q =>
      have hconv : d.conv ≠ chr 'n' := by
        intro hn
        simp only [integerConversion, hn] at hq
        exact absurd hq (by simp [chr])
      simp only [hq] at hconvert
      cases hitoa : itoa q.tmp (q.num.setWidth 32) q.base (d.conv = chr 'X') q.prec with
      | error fault =>
          rw [hitoa] at hconvert
          cases hconvert
      | ok tmp =>
          rw [hitoa] at hconvert
          cases hconvert
          rw [if_neg hconv, List.append_nil, counted_emitField h, counted_foldl_putChar]
  | none =>
      simp only [hq] at hconvert
      by_cases hn : d.conv = chr 'n'
      · rw [hn, if_neg (by decide), if_neg (by decide), if_neg (by decide), if_pos rfl] at hconvert
        cases hconvert
        rw [if_pos hn, counted_emitField h]
        exact (counted_append es [.count _]).trans (congrArg (counted es ++ ·) (List.append_nil _))
      rw [if_neg hn, List.append_nil]
      split at hconvert
      · cases hconvert
      split at hconvert
      · cases hconvert
        exact counted_emitField h
      split at hconvert
      · cases hconvert
        exact counted_emitField h
      split at hconvert
      · cases hconvert
        exact counted_emitField h
      · cases hconvert
        cases h
        exact counted_putChar es _

theorem counted_fmtLoop {ap : VaList} {fuel : Nat} {fmt : List Byte} {arg : Nat}
    (h : fmtLoop ap fuel fmt arg es = .ok es') :
    counted es' = counted es ++ (directives ap fuel fmt arg).flatMap (Directive.counted ap) := by
  induction fuel generalizing fmt arg es with
  | zero => cases h
  | succ fuel ih =>
      cases fmt with
      | nil => cases h
      | cons c fmt =>
          by_cases hnul : c = 0
          · subst hnul
            cases h
            exact (List.append_nil _).symm
          by_cases hpercent : c = chr '%'
          · subst hpercent
            cases hdirective : directive ap fmt arg with
            | error fault =>
                rw [fmtLoop_percent, hdirective] at h
                cases h
            | ok read =>
                obtain ⟨d, fmt'⟩ := read
                rw [fmtLoop_directive ap fuel hdirective] at h
                by_cases hconv : d.conv = 0
                · rw [if_pos hconv] at h
                  cases h
                  rw [directives_nul ap fuel hdirective hconv]
                  exact (List.append_nil _).symm
                rw [if_neg hconv] at h
                rw [directives_directive ap fuel hdirective hconv, List.flatMap_cons]
                cases hconvert : convert ap d with
                | error fault =>
                    rw [hconvert] at h
                    cases h
                | ok conversion =>
                    rw [hconvert] at h
                    cases hemit : emit conversion es with
                    | error fault =>
                        simp only [hemit, bind, Except.bind] at h
                        cases h
                    | ok es₁ =>
                        simp only [hemit, bind, Except.bind] at h
                        rw [ih h, counted_emit hconvert hemit, List.append_assoc]
          · rw [fmtLoop_char ap fuel hnul hpercent] at h
            rw [directives_char ap fuel hnul hpercent, ih h, counted_putChar]

/-- The counts that are put out are those of the `%n` of the format. -/
theorem counted_format {fmt : CStr} {ap : VaList}
    (h : format fmt ap ([] : List Event) = .ok es) : counted es = fmt.counted ap :=
  counted_fmtLoop h

end Counted

end BazelPro.Print
