import BazelPro.Print.FullText

/-!
# The scan of a format

The loops of `vsnprintf_asyncsignalsafe` over the format alone, without what they do for the
characters and the directives they find (`scanFormat`). The scan of a NUL-terminated string ends at
its NUL, wherever that cuts a directive short, and the formatter does for one piece after the other
what the source says, in the order of the scan (`scan_terminates`).
-/

namespace BazelPro.Print

open C

/-- What the outer loop finds in the format. -/
inductive Piece where
  | char (c : Byte)
  | directive (d : Directive)
  deriving DecidableEq

/-- The outer loop and the scanning loops inside it. -/
def scanFormat (ap : VaList) : Nat → List Byte → Nat → Except Fault (List Piece)
  | 0, _, _ => .error .fuel
  | fuel + 1, fmt, arg => do
      let (c, fmt) ← next fmt
      if c = 0 then pure []
      else if c ≠ chr '%' then do
        let pieces ← scanFormat ap fuel fmt arg
        pure (.char c :: pieces)
      else do
        let (d, fmt) ← directive ap fmt arg
        -- the format ends in the middle of a directive
        if d.conv = 0 then pure []
        else do
          let pieces ← scanFormat ap fuel fmt (d.arg + argsOf d.conv)
          pure (.directive d :: pieces)

/-- What the outer loop does for a piece. -/
def Piece.emit {σ : Type} [Sink Event σ] (ap : VaList) (s : σ) : Piece → Except Fault σ
  | .char c => .ok (putChar s c)
  | .directive d => do
      let conversion ← convert ap d
      Print.emit conversion s

/-- The scan finds these pieces, and they are what the formatter puts out. -/
def Finds (ap : VaList) (fuel : Nat) (fmt : List Byte) (arg : Nat) (pieces : List Piece) : Prop :=
  scanFormat ap fuel fmt arg = .ok pieces ∧
    ∀ (σ : Type) [Sink Event σ] (s : σ),
      fmtLoop ap fuel fmt arg s = pieces.foldlM (Piece.emit ap) s

theorem Finds.of_nul (ap : VaList) (fuel : Nat) (fmt : List Byte) (arg : Nat) :
    Finds ap (fuel + 1) (0 :: fmt) arg [] := ⟨rfl, fun _ _ _ => rfl⟩

theorem Finds.of_char {ap : VaList} {fuel : Nat} {fmt : List Byte} {arg : Nat}
    {pieces : List Piece} (h : Finds ap fuel fmt arg pieces) {c : Byte} (hnul : c ≠ 0)
    (hpercent : c ≠ chr '%') : Finds ap (fuel + 1) (c :: fmt) arg (.char c :: pieces) := by
  obtain ⟨hscan, hemit⟩ := h
  refine ⟨?_, fun σ _ s => ?_⟩
  · show (if c = 0 then _ else if c ≠ chr '%' then scanFormat ap fuel fmt arg >>= _ else _) = _
    rw [if_neg hnul, if_pos hpercent, hscan]
    rfl
  · rw [fmtLoop_char ap fuel hnul hpercent, hemit, List.foldlM_cons]
    rfl

theorem Finds.of_directive {ap : VaList} {fuel : Nat} {fmt fmt' : List Byte} {arg : Nat}
    {d : Directive} {pieces : List Piece} (hdirective : directive ap fmt arg = .ok (d, fmt'))
    (hconv : d.conv ≠ 0) (h : Finds ap fuel fmt' (d.arg + argsOf d.conv) pieces) :
    Finds ap (fuel + 1) (chr '%' :: fmt) arg (.directive d :: pieces) := by
  obtain ⟨hscan, hemit⟩ := h
  refine ⟨?_, fun σ _ s => ?_⟩
  · show (Print.directive ap fmt arg >>= _) = _
    rw [hdirective]
    show (if d.conv = 0 then _ else scanFormat ap fuel fmt' _ >>= _) = _
    rw [if_neg hconv, hscan]
    rfl
  · rw [fmtLoop_directive ap fuel hdirective, if_neg hconv, List.foldlM_cons]
    show _ = (convert ap d >>= fun conversion => Print.emit conversion s) >>= _
    cases convert ap d with
    | error fault => rfl
    | ok conversion =>
        show (Print.emit conversion s >>= _) = (Print.emit conversion s >>= _)
        cases Print.emit conversion s with
        | error fault => rfl
        | ok s' => exact hemit σ s'

/-- The NUL cuts a directive short. -/
theorem Finds.of_cut {ap : VaList} {fuel : Nat} {fmt fmt' : List Byte} {arg : Nat} {d : Directive}
    (hdirective : directive ap fmt arg = .ok (d, fmt')) (hconv : d.conv = 0) :
    Finds ap (fuel + 1) (chr '%' :: fmt) arg [] := by
  refine ⟨?_, fun σ _ s => ?_⟩
  · show (Print.directive ap fmt arg >>= _) = _
    rw [hdirective]
    exact if_pos hconv
  · rw [fmtLoop_directive ap fuel hdirective, if_pos hconv]
    rfl

/-- Each turn of the outer loop leaves less of the format, so that the scan ends. -/
theorem finds_of_terminated (ap : VaList) {fmt : List Byte} (h : Terminated fmt) (arg : Nat) :
    ∃ pieces, ∀ extra, Finds ap (fmt.length + extra) fmt arg pieces := by
  induction hn : fmt.length using Nat.strong_induction_on generalizing fmt arg with
  | _ n ih =>
      subst hn
      cases h with
      | nul => exact ⟨[], fun extra => by
          rw [List.length_singleton, Nat.add_comm]
          exact Finds.of_nul ap extra [] arg⟩
      | cons c fmt hc h =>
          rw [List.length_cons] at ih ⊢
          by_cases hpercent : c = chr '%'
          · subst hpercent
            obtain ⟨d, fmt', hdirective, hlength, hrest⟩ := directive_ok h ap arg
            by_cases hconv : d.conv = 0
            · refine ⟨[], fun extra => ?_⟩
              rw [Nat.add_right_comm]
              exact Finds.of_cut hdirective hconv
            · obtain ⟨pieces, hpieces⟩ := ih fmt'.length (by omega) (hrest hconv)
                (d.arg + argsOf d.conv) rfl
              refine ⟨.directive d :: pieces, fun extra => ?_⟩
              -- what the directive has read beyond its `%` is fuel to spare
              have hspare := hpieces (fmt.length - fmt'.length + extra)
              rw [← Nat.add_assoc, Nat.add_sub_cancel' hlength.le] at hspare
              rw [Nat.add_right_comm]
              exact Finds.of_directive hdirective hconv hspare
          · obtain ⟨pieces, hpieces⟩ := ih fmt.length (Nat.lt_succ_self _) h arg rfl
            refine ⟨.char c :: pieces, fun extra => ?_⟩
            rw [Nat.add_right_comm]
            exact (hpieces extra).of_char hc hpercent

/-- For every NUL-terminated format and all arguments: the scanning loops end without a read beyond
the NUL, with the same pieces however long they might go on, and the formatter puts these out one
after the other. -/
theorem scan_terminates (fmt : CStr) (ap : VaList) :
    ∃ pieces, ∀ extra,
      scanFormat ap (fmt.chars.length + 1 + extra) (fmt.chars ++ [0]) 0 = .ok pieces ∧
      ∀ (σ : Type) [Sink Event σ] (s : σ),
        fmtLoop ap (fmt.chars.length + 1 + extra) (fmt.chars ++ [0]) 0 s =
          pieces.foldlM (Piece.emit ap) s := by
  obtain ⟨pieces, hpieces⟩ := finds_of_terminated ap fmt.terminated 0
  refine ⟨pieces, fun extra => ?_⟩
  have hfinds := hpieces extra
  rwa [List.length_append, List.length_singleton] at hfinds

end BazelPro.Print
