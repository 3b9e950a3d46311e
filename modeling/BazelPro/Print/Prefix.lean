import BazelPro.Print.Scanning

/-!
# One format behind another

What the scanning loops have read of a format they read in the same way whatever stands behind it,
unless it ends inside a directive. So a format with another one behind it prints what the two print
one after the other, the second with the arguments that the first has left (`format_append`).
-/

namespace BazelPro.Print

open C

/-! ## The scanning loops -/

/-- A run of digits that ends before the NUL ends there whatever follows. -/
theorem digitRun_prefix (fmt : List Byte) (n : Int) :
    ∃ n' fmt', digitRun n (fmt ++ [0]) = .ok (n', fmt' ++ [0]) ∧ fmt'.length ≤ fmt.length ∧
      (fmt' ≠ [] → ∀ rest, digitRun n (fmt ++ rest) = .ok (n', fmt' ++ rest)) := by
  induction fmt generalizing n with
  | nil => exact ⟨n, [], rfl, le_refl _, fun h => absurd rfl h⟩
  | cons c fmt ih =>
      by_cases hdigit : isDigit c
      · obtain ⟨n', fmt', hrun, hlength, hrest⟩ := ih (int32 (n * 10 + (c.toNat - (chr '0').toNat)))
        refine ⟨n', fmt', ?_, hlength.trans (Nat.le_succ _), fun hne rest => ?_⟩
        · rw [List.cons_append, digitRun, if_pos hdigit, hrun]
        · rw [List.cons_append, digitRun, if_pos hdigit, hrest hne]
      · have hstop : ∀ rest, digitRun n (c :: fmt ++ rest) = .ok (n, c :: fmt ++ rest) := by
          intro rest
          rw [List.cons_append, digitRun, if_neg hdigit]
        exact ⟨n, c :: fmt, hstop [0], le_refl _, fun _ => hstop⟩

/-- A turn of the scanning loop on `fmt` does the same whatever follows: it stops, or it goes on
behind what it has read, if it has not read up to the NUL. -/
inductive Stable (fmt : List Byte)
    (turn : List Byte → Except Fault (Option (Spec × List Byte))) : Prop where
  | goOn (spec : Spec) (fmt' : List Byte) (hlength : fmt'.length ≤ fmt.length)
      (hnul : turn (fmt ++ [0]) = .ok (some (spec, fmt' ++ [0])))
      (hrest : fmt' ≠ [] → ∀ rest, turn (fmt ++ rest) = .ok (some (spec, fmt' ++ rest)))
  | stop (h : ∀ rest, turn (fmt ++ rest) = .ok none)

section

variable {fmt : List Byte} {turn turn' : List Byte → Except Fault (Option (Spec × List Byte))}

theorem Stable.ite {p : Prop} [Decidable p] (h : p → Stable fmt turn)
    (h' : ¬ p → Stable fmt turn') : Stable fmt fun fmt => if p then turn fmt else turn' fmt := by
  by_cases hp : p
  · simpa only [if_pos hp] using h hp
  · simpa only [if_neg hp] using h' hp

/-- What does not look ahead. -/
theorem Stable.read (spec : Spec) (fmt' : List Byte) (hlength : fmt'.length ≤ fmt.length)
    (h : ∀ rest, turn (fmt ++ rest) = .ok (some (spec, fmt' ++ rest))) : Stable fmt turn :=
  .goOn spec fmt' hlength (h [0]) fun _ => h

theorem Stable.flag (fmt : List Byte) (spec : Spec) :
    Stable fmt fun fmt => .ok (some (spec, fmt)) := .read spec fmt (le_refl _) fun _ => rfl

end

theorem scanChar_stable (fmt : List Byte) (spec : Spec) (c : Byte) :
    Stable fmt fun fmt => scanChar spec c fmt := by
  unfold scanChar
  refine .ite (fun _ => .flag ..) fun _ => ?_
  refine .ite (fun _ => ?_) fun _ => ?_
  · cases fmt with
    | nil => exact .goOn _ [] (le_refl _) rfl fun h => absurd rfl h
    | cons c' fmt =>
        by_cases hlong : c' = chr 'l'
        · exact .read _ fmt (Nat.le_succ _) fun _ => if_pos hlong
        · exact .read _ (c' :: fmt) (le_refl _) fun _ => if_neg hlong
  iterate 6 refine .ite (fun _ => .flag ..) fun _ => ?_
  refine .ite (fun _ => ?_) fun _ => .ite (fun hdigit => ?_) fun _ => .stop fun _ => rfl
  · cases fmt with
    | nil => exact .goOn _ [] (le_refl _) rfl fun h => absurd rfl h
    | cons c' fmt =>
        by_cases hstar : c' = chr '*'
        · exact .read _ fmt (Nat.le_succ _) fun _ => if_pos hstar
        · obtain ⟨prec, fmt', hrun, hlength, hrest⟩ := digitRun_prefix (c' :: fmt) 0
          refine .goOn { spec with prec := prec, precGiven := true } fmt' hlength ?_
            fun hne rest => ?_
          · refine (if_neg hstar).trans ?_
            rw [hrun]
            rfl
          · refine (if_neg hstar).trans ?_
            rw [hrest hne rest]
            rfl
  · obtain ⟨width, fmt', hrun, hlength, hrest⟩ :=
      digitRun_prefix fmt (int32 (0 * 10 + (c.toNat - (chr '0').toNat)))
    refine .goOn { spec with width := width } fmt' hlength ?_ fun hne rest => ?_
    · rw [digitRun, if_pos hdigit, hrun]
      rfl
    · rw [digitRun, if_pos hdigit, hrest hne rest]
      rfl

theorem scan_goOn (fuel : Nat) {spec spec' : Spec} {c : Byte} {fmt fmt' : List Byte}
    (h : scanChar spec c fmt = .ok (some (spec', fmt'))) :
    scan (fuel + 1) spec (c :: fmt) = scan fuel spec' fmt' := by
  show (scanChar spec c fmt >>= _) = _
  rw [h]
  rfl

theorem scan_stop (fuel : Nat) {spec : Spec} {c : Byte} {fmt : List Byte}
    (h : scanChar spec c fmt = .ok none) :
    scan (fuel + 1) spec (c :: fmt) = .ok (spec, c, fmt) := by
  show (scanChar spec c fmt >>= _) = _
  rw [h]
  rfl

/-- A scan that has come to its conversion before the NUL. -/
theorem scan_prefix {fuel : Nat} {spec spec' : Spec} {fmt y : List Byte} {c : Byte}
    (h : scan fuel spec (fmt ++ [0]) = .ok (spec', c, y)) (hc : c ≠ 0) :
    ∃ fmt', y = fmt' ++ [0] ∧ fmt'.length < fmt.length ∧
      ∀ extra rest, scan (fuel + extra) spec (fmt ++ rest) = .ok (spec', c, fmt' ++ rest) := by
  -- at the NUL the scan stops with it
  have hnul : ∀ fuel spec, scan fuel spec [0] ≠ .ok (spec', c, y) := by
    intro fuel spec h
    cases fuel with
    | zero => cases h
    | succ fuel =>
        rw [scan_stop fuel rfl] at h
        cases h
        exact hc rfl
  induction fuel generalizing spec fmt with
  | zero => cases h
  | succ fuel ih =>
      cases fmt with
      | nil => exact absurd h (hnul _ _)
      | cons c₀ fmt =>
          cases scanChar_stable fmt spec c₀ with
          | stop hstop =>
              rw [List.cons_append, scan_stop fuel (hstop [0])] at h
              cases h
              refine ⟨fmt, rfl, Nat.lt_succ_self _, fun extra rest => ?_⟩
              rw [Nat.add_right_comm]
              exact scan_stop _ (hstop rest)
          | goOn spec₁ fmt₁ hlength hgoOn hrest =>
              rw [List.cons_append, scan_goOn fuel hgoOn] at h
              have hne : fmt₁ ≠ [] := by
                rintro rfl
                exact hnul _ _ h
              obtain ⟨fmt', hy, hless, hscan⟩ := ih h
              have hlengths : fmt'.length < (c₀ :: fmt).length :=
                hless.trans_le (hlength.trans (Nat.le_succ _))
              refine ⟨fmt', hy, hlengths, fun extra rest => ?_⟩
              rw [Nat.add_right_comm, List.cons_append, scan_goOn _ (hrest hne rest)]
              exact hscan extra rest

/-- A directive that has its conversion is read in the same way whatever follows. -/
theorem directive_prefix {ap : VaList} {fmt y : List Byte} {arg : Nat} {d : Directive}
    (h : directive ap (fmt ++ [0]) arg = .ok (d, y)) (hconv : d.conv ≠ 0) :
    ∃ fmt', y = fmt' ++ [0] ∧ fmt'.length < fmt.length ∧ ∀ rest, 0 < rest.length →
      directive ap (fmt ++ rest) arg = .ok (d, fmt' ++ rest) := by
  rw [directive] at h
  cases hscan : scan (fmt ++ [0]).length {} (fmt ++ [0]) with
  | error fault =>
      rw [hscan] at h
      cases h
  | ok r =>
      obtain ⟨spec, c, y'⟩ := r
      rw [hscan] at h
      cases h
      obtain ⟨fmt', hy, hless, hprefix⟩ := scan_prefix hscan hconv
      refine ⟨fmt', hy, hless, fun rest hrest => ?_⟩
      have hread := hprefix (rest.length - 1) rest
      rw [List.length_append, List.length_singleton, Nat.add_assoc, Nat.add_sub_cancel' hrest,
        ← List.length_append] at hread
      rw [directive, hread]
      rfl

/-! ## The outer loop -/

/-- The arguments that are gone behind what is left of a format, if it does not end inside a
directive. -/
def argsBehind (ap : VaList) : Nat → List Byte → Nat → Option Nat
  | 0, _, _ => none
  | fuel + 1, fmt, arg =>
      match next fmt with
      | .error _ => none
      | .ok (c, fmt) =>
          if c = 0 then some arg
          else if c ≠ chr '%' then argsBehind ap fuel fmt arg
          else
            match directive ap fmt arg with
            | .error _ => none
            | .ok (d, fmt) =>
                if d.conv = 0 then none
                else argsBehind ap fuel fmt (d.arg + argsOf d.conv)

/-- The number of arguments that a format takes, if it does not end inside a directive. -/
def CStr.args (fmt : CStr) (ap : VaList) : Option Nat :=
  argsBehind ap (fmt.chars.length + 1) (fmt.chars ++ [0]) 0

/-- The pieces of a part of a format, whatever follows. -/
inductive Whole (ap : VaList) : List Byte → Nat → List Piece → Nat → Prop where
  | nil (arg : Nat) : Whole ap [] arg [] arg
  | char {c : Byte} {fmt : List Byte} {arg arg' : Nat} {pieces : List Piece} (hnul : c ≠ 0)
      (hpercent : c ≠ chr '%') (h : Whole ap fmt arg pieces arg') :
      Whole ap (c :: fmt) arg (.char c :: pieces) arg'
  | directive {d : Directive} {fmt fmt' : List Byte} {arg arg' : Nat} {pieces : List Piece}
      (hlength : fmt'.length ≤ fmt.length)
      (hdirective : ∀ rest, 0 < rest.length →
        Print.directive ap (fmt ++ rest) arg = .ok (d, fmt' ++ rest))
      (hconv : d.conv ≠ 0) (h : Whole ap fmt' (d.arg + argsOf d.conv) pieces arg') :
      Whole ap (chr '%' :: fmt) arg (.directive d :: pieces) arg'

section

variable {ap : VaList} {fmt rest : List Byte} {arg arg' n : Nat} {pieces pieces' : List Piece}

theorem Terminated.of_cons {c : Byte} (h : Terminated (c :: fmt)) (hne : fmt ≠ []) :
    c ≠ 0 ∧ Terminated fmt := by
  cases h with
  | nul => exact absurd rfl hne
  | cons _ _ hc h => exact ⟨hc, h⟩

/-- A format that does not end inside a directive. -/
theorem whole_of_argsBehind {fuel : Nat} (hterminated : Terminated (fmt ++ [0]))
    (h : argsBehind ap fuel (fmt ++ [0]) arg = some arg') :
    ∃ pieces, Whole ap fmt arg pieces arg' := by
  induction fuel generalizing fmt arg with
  | zero => cases h
  | succ fuel ih =>
      cases fmt with
      | nil =>
          obtain rfl := Option.some.inj h
          exact ⟨[], .nil arg⟩
      | cons c fmt =>
          obtain ⟨hc, htail⟩ : c ≠ 0 ∧ Terminated (fmt ++ [0]) := hterminated.of_cons (by simp)
          have h : (if c = 0 then some arg
            else if c ≠ chr '%' then argsBehind ap fuel (fmt ++ [0]) arg
            else match directive ap (fmt ++ [0]) arg with
              | .error _ => none
              | .ok (d, fmt) =>
                  if d.conv = 0 then none
                  else argsBehind ap fuel fmt (d.arg + argsOf d.conv)) = some arg' := h
          rw [if_neg hc] at h
          by_cases hpercent : c = chr '%'
          · subst hpercent
            rw [if_neg (not_not.mpr rfl)] at h
            obtain ⟨d, y, hdirective, -, hrest⟩ := directive_ok htail ap arg
            rw [hdirective] at h
            dsimp only at h
            split at h
            · cases h
            · next hconv =>
              obtain ⟨fmt', rfl, hless, hprefix⟩ := directive_prefix hdirective hconv
              obtain ⟨pieces, hpieces⟩ := ih (hrest hconv) h
              exact ⟨_, .directive hless.le hprefix hconv hpieces⟩
          · rw [if_pos hpercent] at h
            obtain ⟨pieces, hpieces⟩ := ih htail h
            exact ⟨_, .char hc hpercent hpieces⟩

/-- The outer loop finds what it would have found of the two parts. -/
theorem Whole.finds (h : Whole ap fmt arg pieces arg') (hpos : 0 < rest.length)
    (hrest : ∀ extra, Finds ap (rest.length + extra) rest arg' pieces') (extra : Nat) :
    Finds ap ((fmt ++ rest).length + extra) (fmt ++ rest) arg (pieces ++ pieces') := by
  induction h generalizing extra with
  | nil => exact hrest extra
  | char hnul hpercent _ ih =>
      rw [List.cons_append, List.length_cons, Nat.add_right_comm]
      exact (ih hrest extra).of_char hnul hpercent
  | @directive d fmt fmt' _ _ _ hlength hdirective hconv _ ih =>
      have hspare := ih hrest (fmt.length - fmt'.length + extra)
      have hfuel : (fmt' ++ rest).length + (fmt.length - fmt'.length + extra) =
          (fmt ++ rest).length + extra := by
        rw [List.length_append, List.length_append]
        omega
      rw [hfuel] at hspare
      rw [List.cons_append, List.length_cons, Nat.add_right_comm]
      exact Finds.of_directive (hdirective rest hpos) hconv hspare

end

/-! ## The arguments that are left -/

/-- The arguments behind the first `n`. -/
def behind (ap : VaList) (n : Nat) : VaList := fun i => ap (n + i)

theorem directive_behind (ap : VaList) (n : Nat) (fmt : List Byte) (arg : Nat) :
    directive ap fmt (n + arg) = (directive (behind ap n) fmt arg).map fun read =>
      ({ read.1 with arg := n + read.1.arg }, read.2) := by
  rw [directive, directive]
  cases scan fmt.length {} fmt with
  | error fault => rfl
  | ok read =>
      obtain ⟨spec, c, fmt'⟩ := read
      by_cases hwidth : spec.width = -1
      all_goals by_cases hprec : spec.prec = -1
      all_goals
        simp only [bind, Except.bind, hwidth, hprec, if_true, if_false]
        rfl

theorem convert_behind (ap : VaList) (n : Nat) (d : Directive) :
    convert (behind ap n) d = convert ap { d with arg := n + d.arg } := rfl

theorem fmtLoop_behind {σ : Type} [Sink Event σ] (ap : VaList) (n fuel : Nat) (fmt : List Byte)
    (arg : Nat) (s : σ) :
    fmtLoop ap fuel fmt (n + arg) s = fmtLoop (behind ap n) fuel fmt arg s := by
  induction fuel generalizing fmt arg s with
  | zero => rfl
  | succ fuel ih =>
      cases fmt with
      | nil => rfl
      | cons c fmt =>
          by_cases hnul : c = 0
          · subst hnul
            rfl
          by_cases hpercent : c = chr '%'
          · subst hpercent
            have hbehind := directive_behind ap n fmt arg
            cases hdirective : directive (behind ap n) fmt arg with
            | error fault =>
                rw [hdirective] at hbehind
                rw [fmtLoop_percent, fmtLoop_percent, hbehind, hdirective]
                rfl
            | ok read =>
                obtain ⟨d, fmt'⟩ := read
                rw [hdirective] at hbehind
                rw [fmtLoop_directive ap fuel hbehind, fmtLoop_directive _ fuel hdirective,
                  convert_behind]
                split
                · rfl
                cases convert ap { d with arg := n + d.arg } with
                | error fault => rfl
                | ok conversion =>
                    show (emit conversion s >>= _) = (emit conversion s >>= _)
                    cases emit conversion s with
                    | error fault => rfl
                    | ok s =>
                        show fmtLoop ap fuel fmt' (n + d.arg + argsOf d.conv) s = _
                        rw [Nat.add_assoc]
                        exact ih ..
          · rw [fmtLoop_char ap fuel hnul hpercent, fmtLoop_char _ fuel hnul hpercent, ih]

/-- One string behind another. -/
def CStr.append (a b : CStr) : CStr :=
  ⟨a.chars ++ b.chars, fun h => (List.mem_append.mp h).elim a.no_nul b.no_nul⟩

/-- A format with another one behind it: the same happens, faults included, when they are printed
one after the other. -/
theorem format_append {σ : Type} [Sink Event σ] {a : CStr} {ap : VaList} {n : Nat}
    (h : a.args ap = some n) (b : CStr) (s : σ) :
    format (a.append b) ap s = format a ap s >>= fun s => format b (behind ap n) s := by
  obtain ⟨pieces, hwhole⟩ := whole_of_argsBehind a.terminated h
  obtain ⟨pieces', hb⟩ := finds_of_terminated ap b.terminated n
  have hboth := (hwhole.finds (by simp) hb 0).2 σ s
  have hnul : ∀ extra, Finds ap (([0] : List Byte).length + extra) [0] n [] := by
    intro extra
    rw [List.length_singleton, Nat.add_comm]
    exact Finds.of_nul ap extra [] n
  have hfound : Finds ap ((a.chars ++ [0]).length + 0) (a.chars ++ [0]) 0 (pieces ++ []) :=
    hwhole.finds (by simp) hnul 0
  have hfirst := hfound.2 σ s
  have hsecond : ∀ s' : σ, format b (behind ap n) s' = pieces'.foldlM (Piece.emit ap) s' := by
    intro s'
    have hfound := (hb 0).2 σ s'
    rw [List.length_append, List.length_singleton] at hfound
    rw [format, ← fmtLoop_behind]
    exact hfound
  rw [List.append_nil, List.length_append, List.length_singleton] at hfirst
  rw [← List.append_assoc, List.length_append, List.length_singleton, List.foldlM_append] at hboth
  rw [format, format]
  refine hboth.trans ?_
  rw [← hfirst]
  exact bind_congr fun s' => (hsecond s').symm

end BazelPro.Print
