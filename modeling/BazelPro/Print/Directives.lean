import BazelPro.Print.Formatter

/-!
# The directives of a format

Every loop over the format ends, at the NUL at the latest (`scan_ok`), so a format and its
arguments have a list of directives (`CStr.directives`), each with the width and the precision it
takes from the arguments. The restrictions that the results about the output need are predicates
of these.
-/

namespace BazelPro.Print

open C

/-! ## Scanning -/

/-- What is left of a string, its NUL included. -/
inductive Terminated : List Byte → Prop where
  | nul : Terminated [0]
  | cons (c : Byte) (fmt : List Byte) (hc : c ≠ 0) (h : Terminated fmt) : Terminated (c :: fmt)

theorem CStr.terminated (s : CStr) : Terminated (s.chars ++ [0]) := by
  obtain ⟨chars, hnul⟩ := s
  induction chars with
  | nil => exact .nul
  | cons c chars ih =>
      rw [List.mem_cons, not_or] at hnul
      exact .cons c _ (Ne.symm hnul.1) (ih hnul.2)

/-- A run of digits ends before the NUL. -/
theorem digitRun_ok {fmt : List Byte} (h : Terminated fmt) (n : Int) :
    ∃ n' fmt', digitRun n fmt = .ok (n', fmt') ∧ Terminated fmt' ∧
      fmt'.length ≤ fmt.length := by
  induction h generalizing n with
  | nul => exact ⟨n, [0], rfl, .nul, le_refl _⟩
  | cons c fmt hc h ih =>
      rw [digitRun]
      by_cases hdigit : isDigit c
      · rw [if_pos hdigit]
        obtain ⟨n', fmt', hrun, hterminated, hlength⟩ := ih _
        exact ⟨n', fmt', hrun, hterminated, hlength.trans (Nat.le_succ _)⟩
      · rw [if_neg hdigit]
        exact ⟨n, c :: fmt, rfl, .cons c fmt hc h, le_refl _⟩

/-- What one turn of the scanning loop does: it goes on behind what it has read, or it stops. -/
inductive ScanStep (fmt : List Byte) : Except Fault (Option (Spec × List Byte)) → Prop where
  | goOn (spec : Spec) (fmt' : List Byte) (h : Terminated fmt')
      (hlength : fmt'.length ≤ fmt.length) : ScanStep fmt (.ok (some (spec, fmt')))
  | stop : ScanStep fmt (.ok none)

theorem scanChar_ok {fmt : List Byte} (h : Terminated fmt) (spec : Spec) (c : Byte) :
    ScanStep fmt (scanChar spec c fmt) := by
  have hflag : ∀ spec', ScanStep fmt (.ok (some (spec', fmt))) :=
    fun spec' => .goOn spec' fmt h (le_refl _)
  unfold scanChar
  refine iteInduction (fun _ => hflag _) fun _ => ?_
  refine iteInduction (fun _ => ?_) fun _ => ?_
  · cases h with
    | nul => exact .goOn _ [0] .nul (le_refl _)
    | cons c' fmt' hc h =>
        exact iteInduction (motive := ScanStep (c' :: fmt'))
          (fun _ => .goOn _ fmt' h (Nat.le_succ _))
          (fun _ => .goOn _ (c' :: fmt') (.cons c' fmt' hc h) (le_refl _))
  iterate 6 refine iteInduction (fun _ => hflag _) fun _ => ?_
  refine iteInduction (fun _ => ?_) fun _ => iteInduction (fun hdigit => ?_) fun _ => .stop
  · obtain ⟨prec, rest, hrun, hterminated, hlength⟩ := digitRun_ok h 0
    cases h with
    | nul => exact .goOn _ [0] .nul (le_refl _)
    | cons c' fmt' hc h =>
        refine iteInduction (motive := ScanStep (c' :: fmt'))
          (fun _ => .goOn _ fmt' h (Nat.le_succ _)) fun _ => ?_
        rw [hrun]
        exact .goOn _ rest hterminated hlength
  · obtain ⟨width, rest, hrun, hterminated, hlength⟩ :=
      digitRun_ok h (int32 (0 * 10 + (c.toNat - (chr '0').toNat)))
    rw [digitRun, if_pos hdigit, hrun]
    exact .goOn _ rest hterminated hlength

/-- The scanning loop ends, at the NUL or behind a conversion. -/
theorem scan_ok {fmt : List Byte} (h : Terminated fmt) (fuel : Nat) (hfuel : fmt.length ≤ fuel)
    (spec : Spec) :
    ∃ spec' c fmt', scan fuel spec fmt = .ok (spec', c, fmt') ∧ fmt'.length < fmt.length ∧
      (c ≠ 0 → Terminated fmt') := by
  induction fuel generalizing fmt spec with
  | zero => cases h <;> simp at hfuel
  | succ fuel ih =>
      rw [scan]
      cases h with
      | nul => exact ⟨spec, 0, [], rfl, Nat.one_pos, fun h => absurd rfl h⟩
      | cons c fmt hc h =>
          rw [List.length_cons] at hfuel ⊢
          have hstep := scanChar_ok h spec c
          show ∃ _ _ _, (scanChar spec c fmt >>= _) = _ ∧ _
          generalize scanChar spec c fmt = step at hstep
          cases hstep with
          | goOn spec' fmt' hterminated hlength =>
              obtain ⟨spec'', c', fmt'', hscan, hless, hrest⟩ := ih hterminated (by omega) spec'
              exact ⟨spec'', c', fmt'', hscan, by omega, hrest⟩
          | stop => exact ⟨spec, c, fmt, rfl, Nat.lt_succ_self _, fun _ => h⟩

/-- Behind a `%` there is a directive, or the NUL. -/
theorem directive_ok {fmt : List Byte} (h : Terminated fmt) (ap : VaList) (arg : Nat) :
    ∃ d fmt', directive ap fmt arg = .ok (d, fmt') ∧ fmt'.length < fmt.length ∧
      (d.conv ≠ 0 → Terminated fmt') := by
  obtain ⟨spec, c, fmt', hscan, hlength, hrest⟩ := scan_ok h fmt.length (le_refl _) {}
  rw [directive, hscan]
  exact ⟨_, fmt', rfl, hlength, hrest⟩

/-! ## The list of directives -/

/-- The directives in what is left of a format. -/
def directives (ap : VaList) : Nat → List Byte → Nat → List Directive
  | 0, _, _ => []
  | fuel + 1, fmt, arg =>
      match next fmt with
      | .error _ => []
      | .ok (c, fmt) =>
          if c = 0 then []
          else if c ≠ chr '%' then directives ap fuel fmt arg
          else
            match directive ap fmt arg with
            | .error _ => []
            | .ok (d, fmt) =>
                if d.conv = 0 then []
                else d :: directives ap fuel fmt (d.arg + argsOf d.conv)

/-- The directives of a format, with these arguments. -/
def CStr.directives (fmt : CStr) (ap : VaList) : List Directive :=
  Print.directives ap (fmt.chars.length + 1) (fmt.chars ++ [0]) 0

theorem directives_char (ap : VaList) (fuel : Nat) {c : Byte} {fmt : List Byte} (hnul : c ≠ 0)
    (hpercent : c ≠ chr '%') (arg : Nat) :
    Print.directives ap (fuel + 1) (c :: fmt) arg = Print.directives ap fuel fmt arg :=
  (if_neg hnul).trans (if_pos hpercent)

theorem directives_percent (ap : VaList) (fuel : Nat) (fmt : List Byte) (arg : Nat) :
    Print.directives ap (fuel + 1) (chr '%' :: fmt) arg =
      match directive ap fmt arg with
      | .error _ => []
      | .ok (d, fmt) =>
          if d.conv = 0 then []
          else d :: Print.directives ap fuel fmt (d.arg + argsOf d.conv) := rfl

theorem directives_directive (ap : VaList) (fuel : Nat) {fmt fmt' : List Byte} {arg : Nat}
    {d : Directive} (hdirective : directive ap fmt arg = .ok (d, fmt')) (hconv : d.conv ≠ 0) :
    Print.directives ap (fuel + 1) (chr '%' :: fmt) arg =
      d :: Print.directives ap fuel fmt' (d.arg + argsOf d.conv) := by
  rw [directives_percent, hdirective]
  exact if_neg hconv

/-- The format ends in the middle of a directive. -/
theorem directives_nul (ap : VaList) (fuel : Nat) {fmt fmt' : List Byte} {arg : Nat}
    {d : Directive} (hdirective : directive ap fmt arg = .ok (d, fmt')) (hconv : d.conv = 0) :
    Print.directives ap (fuel + 1) (chr '%' :: fmt) arg = [] := by
  rw [directives_percent, hdirective]
  exact if_pos hconv

end BazelPro.Print
