import Mathlib

/-!
# Shift registers that divide polynomials over GF(2)

A word is a polynomial, bit `i` for the power `i` (`poly`). A linear feedback shift register with
the lower coefficients of a generator as its taps multiplies by `X` modulo that generator
(`poly_step`), so that what it holds in the end is a remainder (`poly_eq_mod`).
-/

namespace ShiftRegister

open Polynomial

variable {w : Nat}

/-- A bit as a coefficient. -/
def coefficient (b : Bool) : ZMod 2 := if b then 1 else 0

theorem coefficient_xor (a b : Bool) : coefficient (a ^^ b) = coefficient a + coefficient b := by
  cases a <;> cases b <;> decide

theorem two_eq_zero : (2 : (ZMod 2)[X]) = 0 := by
  rw [← C_ofNat, show (2 : ZMod 2) = 0 from rfl, C_0]

/-- The polynomial of a word. -/
noncomputable def poly (x : BitVec w) : (ZMod 2)[X] :=
  ∑ i ∈ Finset.range w, C (coefficient (x.getLsbD i)) * X ^ i

theorem coeff_poly (x : BitVec w) (k : Nat) : (poly x).coeff k = coefficient (x.getLsbD k) := by
  simp only [poly, finsetSum_coeff, coeff_C_mul, coeff_X_pow, mul_ite, mul_one, mul_zero,
    Finset.sum_ite_eq, Finset.mem_range]
  by_cases h : k < w
  · exact if_pos h
  · rw [if_neg h, BitVec.getLsbD_of_ge x k (by omega)]
    rfl

theorem poly_xor (x y : BitVec w) : poly (x ^^^ y) = poly x + poly y := by
  ext k
  rw [coeff_add, coeff_poly, coeff_poly, coeff_poly, BitVec.getLsbD_xor, coefficient_xor]

theorem degree_poly_lt (x : BitVec w) : (poly x).degree < w := by
  rw [degree_lt_iff_coeff_zero]
  intro k hk
  rw [coeff_poly, BitVec.getLsbD_of_ge x k hk]
  rfl

/-- The word of the lower coefficients of a polynomial. -/
def word (w : Nat) (p : (ZMod 2)[X]) : BitVec w :=
  (BitVec.ofBoolListLE ((List.range w).map fun i => p.coeff i = 1)).cast (by simp)

theorem word_poly (x : BitVec w) : word w (poly x) = x := by
  refine BitVec.eq_of_getLsbD_eq fun i hi => ?_
  have hbit : (word w (poly x)).getLsbD i = decide ((poly x).coeff i = 1) := by
    rw [word, BitVec.getLsbD_cast, BitVec.getLsbD_ofBoolListLE]
    simp [List.getD, hi]
  rw [hbit, coeff_poly]
  cases x.getLsbD i <;> decide

/-! ## Bits in the order of transmission -/

/-- The polynomial of some bits, the first one for the highest power. -/
noncomputable def ofBits (bits : List Bool) : (ZMod 2)[X] :=
  bits.foldl (fun p b => X * p + C (coefficient b)) 0

theorem ofBits_concat (bits : List Bool) (b : Bool) :
    ofBits (bits ++ [b]) = X * ofBits bits + C (coefficient b) := by
  rw [ofBits, List.foldl_append]
  rfl

theorem ofBits_append (bits bits' : List Bool) :
    ofBits (bits ++ bits') = X ^ bits'.length * ofBits bits + ofBits bits' := by
  induction bits' using List.reverseRecOn with
  | nil => simp [ofBits]
  | append_singleton bits' b ih =>
      rw [← List.append_assoc, ofBits_concat, ofBits_concat, ih, List.length_append,
        List.length_singleton, pow_succ]
      ring

theorem coeff_ofBits (bits : List Bool) (k : Nat) :
    (ofBits bits).coeff k = coefficient (bits.reverse.getD k false) := by
  induction bits using List.reverseRecOn generalizing k with
  | nil => simp [ofBits, coefficient]
  | append_singleton bits b ih =>
      rw [ofBits_concat, List.reverse_append, coeff_add]
      cases k with
      | zero => simp
      | succ k => simp [coeff_X_mul, ih]

/-! ## The register -/

/-- The register after one clock: shifted, and the taps are added if a bit has left it. -/
def step (taps x : BitVec w) : BitVec w := (x <<< 1) ^^^ if x.msb then taps else 0

/-- The generator with these lower coefficients. -/
noncomputable def generator (taps : BitVec w) : (ZMod 2)[X] := X ^ w + poly taps

theorem monic_generator (taps : BitVec w) : (generator taps).Monic :=
  monic_X_pow_add (degree_poly_lt taps)

theorem degree_generator (taps : BitVec w) : (generator taps).degree = w := by
  have hpow : ((X : (ZMod 2)[X]) ^ w).degree = w := degree_X_pow w
  rw [generator, degree_add_eq_left_of_degree_lt, hpow]
  rw [hpow]
  exact degree_poly_lt taps

/-- What a shift takes out at the top is missing from the product by `X`. -/
theorem poly_shiftLeft_one (hw : 0 < w) (x : BitVec w) :
    poly (x <<< 1) + C (coefficient x.msb) * X ^ w = X * poly x := by
  ext k
  have htop : x.msb = x.getLsbD (w - 1) := BitVec.msb_eq_getLsbD_last x
  cases k with
  | zero =>
      rw [coeff_add, coeff_poly, coeff_C_mul, coeff_X_pow, if_neg (by omega), coeff_X_mul_zero,
        BitVec.getLsbD_shiftLeft]
      simp [coefficient]
  | succ k =>
      rw [coeff_add, coeff_poly, coeff_C_mul, coeff_X_pow, coeff_X_mul, coeff_poly,
        BitVec.getLsbD_shiftLeft]
      rcases Nat.lt_trichotomy (k + 1) w with hlt | heq | hgt
      · rw [if_neg (by omega)]
        simp [hlt]
      · subst heq
        rw [if_pos rfl, htop]
        simp [coefficient]
      · rw [if_neg (by omega), BitVec.getLsbD_of_ge x k (by omega)]
        simp [coefficient, show ¬ k + 1 < w by omega]

/-- A clock multiplies by `X` modulo the generator. -/
theorem poly_step (hw : 0 < w) (taps x : BitVec w) :
    poly (step taps x) = X * poly x + C (coefficient x.msb) * generator taps := by
  have hshift := poly_shiftLeft_one hw x
  have htaps : poly (if x.msb then taps else 0) = C (coefficient x.msb) * poly taps := by
    cases x.msb with
    | false => ext k; simp [coeff_poly, coefficient]
    | true => simp [coefficient]
  rw [step, poly_xor, htaps, generator]
  linear_combination hshift - C (coefficient x.msb) * X ^ w * two_eq_zero

/-- Some clocks multiply by a power of `X`. -/
theorem poly_iterate_step (hw : 0 < w) (taps x : BitVec w) (n : Nat) :
    ∃ q, poly ((step taps)^[n] x) = X ^ n * poly x + generator taps * q := by
  induction n with
  | zero => exact ⟨0, by simp⟩
  | succ n ih =>
      obtain ⟨q, hq⟩ := ih
      refine ⟨X * q + C (coefficient ((step taps)^[n] x).msb), ?_⟩
      rw [Function.iterate_succ_apply', poly_step hw, hq]
      ring

/-- A word that is congruent to a polynomial is its remainder. -/
theorem poly_eq_mod {taps x : BitVec w} {p q : (ZMod 2)[X]}
    (h : poly x = p + generator taps * q) : poly x = p %ₘ generator taps := by
  refine (div_modByMonic_unique (-q) (poly x) (monic_generator taps) ⟨?_, ?_⟩).2.symm
  · rw [h]
    ring
  · rw [degree_generator]
    exact degree_poly_lt x

/-! ## Bursts -/

/-- All places where the bits differ lie within `w` consecutive ones. -/
def Burst (w : Nat) (bits bits' : List Bool) : Prop :=
  ∃ k, ∀ i, bits[i]? ≠ bits'[i]? → k ≤ i ∧ i < k + w

theorem add_eq_zero_iff {p q : (ZMod 2)[X]} : p + q = 0 ↔ p = q := by
  constructor <;> intro h
  · linear_combination h - q * two_eq_zero
  · linear_combination h + q * two_eq_zero

theorem coefficient_injective : Function.Injective coefficient := by decide

theorem ofBits_injective {bits bits' : List Bool} (hlen : bits.length = bits'.length)
    (h : ofBits bits = ofBits bits') : bits = bits' := by
  refine List.reverse_injective (List.ext_getElem (by simpa using hlen) fun k hk hk' => ?_)
  have hcoeff := congrArg (coeff · k) h
  simp only [coeff_ofBits] at hcoeff
  have := coefficient_injective hcoeff
  rwa [List.getD_eq_getElem _ _ hk, List.getD_eq_getElem _ _ hk'] at this

/-- The bits of a burst are a polynomial of low degree, shifted. -/
theorem Burst.exists_shift {bits bits' : List Bool} (h : Burst w bits bits')
    (hlen : bits.length = bits'.length) :
    ∃ m e, ofBits bits + ofBits bits' = X ^ m * e ∧ e.degree < (w : WithBot ℕ) := by
  obtain ⟨k, hk⟩ := h
  have hzero : ∀ j, ¬ (bits.length - (k + w) ≤ j ∧ j < bits.length - (k + w) + w) →
      (ofBits bits + ofBits bits').coeff j = 0 := by
    intro j hj
    rw [coeff_add, coeff_ofBits, coeff_ofBits, ← coefficient_xor]
    have hsame : bits.reverse[j]? = bits'.reverse[j]? := by
      by_cases hlt : j < bits.length
      · rw [List.getElem?_reverse hlt, List.getElem?_reverse (hlen ▸ hlt), ← hlen]
        by_contra hne
        have := hk _ hne
        omega
      · rw [List.getElem?_eq_none (by simpa using hlt),
          List.getElem?_eq_none (by simpa [← hlen] using hlt)]
    rw [List.getD_eq_getElem?_getD, List.getD_eq_getElem?_getD, hsame, Bool.xor_self]
    rfl
  obtain ⟨e, he⟩ := X_pow_dvd_iff.mpr fun j (hj : j < bits.length - (k + w)) =>
    hzero j (fun h => by omega)
  refine ⟨_, e, he, (degree_lt_iff_coeff_zero _ _).mpr fun j hj => ?_⟩
  have := hzero (j + (bits.length - (k + w))) (fun h => by omega)
  rwa [he, coeff_X_pow_mul] at this

/-- A generator with a constant term has no factor `X`. -/
theorem isCoprime_generator_X_pow (hw : 0 < w) {taps : BitVec w} (h : taps.getLsbD 0 = true)
    (n : Nat) : IsCoprime (generator taps) (X ^ n) := by
  have hconst : (generator taps).coeff 0 = 1 := by
    rw [generator, coeff_add, coeff_X_pow, if_neg (by omega), coeff_poly, h]
    rfl
  have hmod : generator taps = X * divX (generator taps) + 1 := by
    rw [← C_1, ← hconst, X_mul_divX_add]
  refine IsCoprime.pow_right ⟨1, -divX (generator taps), ?_⟩
  linear_combination hmod

/-- A burst no longer than the register is no multiple of the generator. -/
theorem Burst.eq_of_dvd (hw : 0 < w) {taps : BitVec w} (htaps : taps.getLsbD 0 = true)
    {bits bits' : List Bool} (h : Burst w bits bits') (hlen : bits.length = bits'.length) {n : Nat}
    (hdvd : generator taps ∣ (ofBits bits + ofBits bits') * X ^ n) : bits = bits' := by
  obtain ⟨m, e, he, hdegree⟩ := h.exists_shift hlen
  have hcoprime := isCoprime_generator_X_pow hw htaps
  have hdvd : generator taps ∣ e := by
    refine (hcoprime m).dvd_of_dvd_mul_left ?_
    rw [← he]
    exact (hcoprime n).dvd_of_dvd_mul_right hdvd
  have hzero : e = 0 := eq_zero_of_dvd_of_degree_lt hdvd (by rwa [degree_generator])
  rw [hzero, mul_zero] at he
  exact ofBits_injective hlen (add_eq_zero_iff.mp he)

end ShiftRegister
