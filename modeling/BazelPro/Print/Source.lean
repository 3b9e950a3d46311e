import BazelPro.C.Printf
import BazelPro.Print.Directives
import BazelPro.Print.Itoa
import Mathlib.Tactic.FinCases

/-!
# How a directive is written

Flags, a width, a precision, length modifiers and a conversion, in this order, as the C standard
has them; the widths and precisions are literal, or a `*` that takes them from the arguments. The
scanner reads every such text as the directive it is meant to be (`directive_render`), whatever
follows it in the format.
-/

namespace BazelPro.Print

open C Positional

/-! ## The text -/

/-- A flag. -/
inductive Flag where
  | minus | plus | space | zero | alt
  deriving DecidableEq

/-- The character of a flag. -/
def Flag.char : Flag → Byte
  | .minus => chr '-'
  | .plus => chr '+'
  | .space => chr ' '
  | .zero => chr '0'
  | .alt => chr '#'

/-- A length modifier. -/
inductive Length where
  | h | l | ll
  deriving DecidableEq

/-- The characters of a length modifier. -/
def Length.chars : Length → List Byte
  | .h => [chr 'h']
  | .l => [chr 'l']
  | .ll => [chr 'l', chr 'l']

/-- A number that is written in a format, and fits an `int`. -/
structure Literal where
  digits : List (Fin 10)
  fits : value 10 (digits.map Fin.val) < 2 ^ 31

/-- The number. -/
def Literal.value (n : Literal) : Nat := Positional.value 10 (n.digits.map Fin.val)

/-- The characters of the number. -/
def Literal.chars (n : Literal) : List Byte := digitChars false (n.digits.map Fin.val)

/-- A width; a literal one does not begin with the flag `0`. -/
inductive Width where
  | none
  | star
  | literal (n : Literal) (first : ∃ d ∈ n.digits.head?, d ≠ 0)

/-- The width of one digit. -/
def Width.ofDigit (d : Nat) (h : 0 < d ∧ d < 10) : Width :=
  .literal
    { digits := [⟨d, h.2⟩]
      fits := by
        show 0 * 10 + d < 2 ^ 31
        omega }
    ⟨⟨d, h.2⟩, rfl, Fin.ne_of_val_ne (Nat.pos_iff_ne_zero.mp h.1)⟩

/-- The characters of a width. -/
def Width.chars : Width → List Byte
  | .none => []
  | .star => [chr '*']
  | .literal n _ => n.chars

/-- A precision; a literal one may have no digits. -/
inductive Precision where
  | none
  | star
  | literal (n : Literal)

/-- The characters of a precision. -/
def Precision.chars : Precision → List Byte
  | .none => []
  | .star => [chr '.', chr '*']
  | .literal n => chr '.' :: n.chars

/-- The conversions. -/
def conversions : List Byte :=
  ['d', 'i', 'u', 'p', 'x', 'X', 'o', 'O', 'f', 's', 'c', 'n', '%'].map chr

/-- The text of a directive, without its `%`. An `l` is followed by no other, as the two would be
an `ll`. -/
structure Source where
  flags : List Flag
  width : Width
  prec : Precision
  length : List Length
  chain : length.IsChain fun m m' => m = .l → m' = .h
  conv : Byte
  conversion : conv ∈ conversions

theorem d_mem_conversions : chr 'd' ∈ conversions := by decide

theorem x_mem_conversions : chr 'x' ∈ conversions := by decide

theorem s_mem_conversions : chr 's' ∈ conversions := by decide

theorem chain_nil : [].IsChain fun m m' : Length => m = .l → m' = .h := .nil

theorem chain_l : [.l].IsChain fun m m' : Length => m = .l → m' = .h := .singleton _

/-- The characters of a directive. -/
def Source.render (src : Source) : List Byte :=
  src.flags.map Flag.char ++ (src.width.chars ++ (src.prec.chars ++
    (src.length.flatMap Length.chars ++ [src.conv])))

/-! ## What it says -/

/-- What the scanner stores for a flag. -/
def Flag.set (spec : Spec) : Flag → Spec
  | .minus => { spec with ljust := true }
  | .plus => { spec with plus := true }
  | .space => { spec with space := true }
  | .zero => { spec with fillz := true }
  | .alt => { spec with altform := true }

/-- What the scanner stores for a length modifier. -/
def Length.set (spec : Spec) : Length → Spec
  | .h => { spec with half := true }
  | .l => { spec with tlong := 1 }
  | .ll => { spec with tlong := 2 }

/-- What the scanner stores for a width; -1 is the mark of a `*`. -/
def Width.set (spec : Spec) : Width → Spec
  | .none => spec
  | .star => { spec with width := -1 }
  | .literal n _ => { spec with width := n.value }

/-- What the scanner stores for a precision. -/
def Precision.set (spec : Spec) : Precision → Spec
  | .none => spec
  | .star => { spec with prec := -1, precGiven := true }
  | .literal n => { spec with prec := n.value, precGiven := true }

/-- What the scanner stores for a directive. -/
def Source.scanned (src : Source) : Spec :=
  src.length.foldl Length.set (src.prec.set (src.width.set (src.flags.foldl Flag.set {})))

/-- The width with these arguments. -/
def Width.value (ap : VaList) (arg : Nat) : Width → Int
  | .none => 0
  | .star => (ap arg).int
  | .literal n _ => n.value

/-- The number of arguments that the width takes. -/
def Width.args : Width → Nat
  | .star => 1
  | _ => 0

/-- The precision with these arguments. -/
def Precision.value (ap : VaList) (arg : Nat) : Precision → Int
  | .none => 0
  | .star => (ap arg).int
  | .literal n => n.value

/-- The number of arguments that the precision takes. -/
def Precision.args : Precision → Nat
  | .star => 1
  | _ => 0

/-- The flags and length modifiers of a directive, with this width and precision. -/
def Source.spec (src : Source) (width prec : Int) : Spec where
  width := width
  ljust := src.flags.contains .minus
  plus := src.flags.contains .plus
  space := src.flags.contains .space
  altform := src.flags.contains .alt
  prec := prec
  half := src.length.contains .h
  tlong := (src.length.foldl Length.set {}).tlong
  fillz := src.flags.contains .zero
  precGiven := match src.prec with
    | .none => false
    | _ => true

/-- The directive. -/
def Source.directive (src : Source) (ap : VaList) (arg : Nat) : Directive where
  spec := src.spec (src.width.value ap arg) (src.prec.value ap (arg + src.width.args))
  conv := src.conv
  arg := arg + src.width.args + src.prec.args

/-! ## The directive in the words of the standard -/

/-- The flags. -/
def Source.flagSet (src : Source) : FieldFlags where
  minus := src.flags.contains .minus
  plus := src.flags.contains .plus
  space := src.flags.contains .space
  zero := src.flags.contains .zero
  alt := src.flags.contains .alt

/-- The precision with these arguments. -/
def Precision.standard (ap : VaList) (arg : Nat) : Precision → Option Nat
  | .none => Option.none
  | .star => starPrecision (ap arg).int
  | .literal n => some n.value

/-! ## The scanner reads it -/

/-- The scanner stops with `r`, whatever fuel it has for the text. -/
def Scans (spec : Spec) (fmt : List Byte) (r : Spec × Byte × List Byte) : Prop :=
  ∀ fuel, fmt.length ≤ fuel → scan fuel spec fmt = .ok r

variable {spec spec' : Spec} {c : Byte} {fmt fmt' : List Byte} {r : Spec × Byte × List Byte}

theorem Scans.stop (h : scanChar spec c fmt = .ok none) : Scans spec (c :: fmt) (spec, c, fmt) := by
  intro fuel hfuel
  obtain ⟨fuel, rfl⟩ : ∃ k, fuel = k + 1 := ⟨fuel - 1, by simp at hfuel; omega⟩
  show (scanChar spec c fmt >>= _) = _
  rw [h]
  rfl

theorem Scans.goOn (h : scanChar spec c fmt = .ok (some (spec', fmt')))
    (hlength : fmt'.length ≤ fmt.length) (hscans : Scans spec' fmt' r) :
    Scans spec (c :: fmt) r := by
  intro fuel hfuel
  rw [List.length_cons] at hfuel
  obtain ⟨fuel, rfl⟩ : ∃ k, fuel = k + 1 := ⟨fuel - 1, by omega⟩
  show (scanChar spec c fmt >>= _) = _
  rw [h]
  exact hscans fuel (by omega)

theorem scans_flags (flags : List Flag) (h : Scans (flags.foldl Flag.set spec) fmt r) :
    Scans spec (flags.map Flag.char ++ fmt) r := by
  induction flags generalizing spec with
  | nil => exact h
  | cons flag flags ih =>
      have hset : scanChar spec flag.char (flags.map Flag.char ++ fmt) =
          .ok (some (flag.set spec, flags.map Flag.char ++ fmt)) := by cases flag <;> rfl
      exact .goOn hset (Nat.le_refl _) (ih h)

/-- A conversion ends the directive. -/
theorem scanChar_conversion (hc : c ∈ conversions) (spec : Spec) (fmt : List Byte) :
    scanChar spec c fmt = .ok none := by
  obtain ⟨ch, hch, rfl⟩ := List.mem_map.mp hc
  fin_cases hch <;> rfl

/-- An `l` that no other follows. -/
theorem scanChar_l (hc : c ≠ chr 'l') (spec : Spec) (fmt : List Byte) :
    scanChar spec (chr 'l') (c :: fmt) = .ok (some ({ spec with tlong := 1 }, c :: fmt)) := by
  show (if c = chr 'l' then _ else _) = _
  rw [if_neg hc]

/-- Length modifiers and the conversion. -/
theorem scans_length (length : List Length)
    (hchain : length.IsChain fun m m' => m = .l → m' = .h) (hc : c ∈ conversions) :
    Scans spec (length.flatMap Length.chars ++ c :: fmt)
      (length.foldl Length.set spec, c, fmt) := by
  induction length generalizing spec with
  | nil => exact .stop (scanChar_conversion hc spec fmt)
  | cons m length ih =>
      have hrest : Scans (m.set spec) (length.flatMap Length.chars ++ c :: fmt)
          (length.foldl Length.set (m.set spec), c, fmt) := ih hchain.tail
      cases m with
      | h => exact .goOn rfl (Nat.le_refl _) hrest
      | ll => exact .goOn rfl (Nat.le_succ _) hrest
      | l =>
          -- what follows is not another `l`
          obtain ⟨c', fmt', hnext, hl⟩ : ∃ c' fmt',
              length.flatMap Length.chars ++ c :: fmt = c' :: fmt' ∧ c' ≠ chr 'l' := by
            cases length with
            | nil =>
                refine ⟨c, fmt, rfl, ?_⟩
                rintro rfl
                exact absurd hc (by decide)
            | cons m' length =>
                obtain rfl := (List.isChain_cons_cons.mp hchain).1 rfl
                exact ⟨chr 'h', _, rfl, by decide⟩
          rw [hnext] at hrest
          rw [List.flatMap_cons, List.append_assoc, hnext]
          exact .goOn (scanChar_l hl spec fmt') (Nat.le_refl _) hrest

/-- The digit characters are those that the scanner takes for digits. -/
theorem digitChar_spec {d : Nat} (h : d < 10) :
    isDigit ((digits false).getD d 0) = true ∧
      (((digits false).getD d 0).toNat : Int) - (chr '0').toNat = d := by
  have : ∀ d < 10, isDigit ((digits false).getD d 0) = true ∧
      (((digits false).getD d 0).toNat : Int) - (chr '0').toNat = d := by decide
  exact this d h

/-- A run of digits is read as the number that it stands for. -/
theorem digitRun_eq (ds : List Nat) (n : Nat) (hds : ∀ d ∈ ds, d < 10)
    (hfits : valueFrom 10 n ds < 2 ^ 31) (hc : isDigit c = false) :
    digitRun n (digitChars false ds ++ c :: fmt) = .ok ((valueFrom 10 n ds : Nat), c :: fmt) := by
  induction ds generalizing n with
  | nil =>
      show digitRun n (c :: fmt) = _
      rw [digitRun, hc]
      rfl
  | cons d ds ih =>
      rw [List.forall_mem_cons] at hds
      obtain ⟨hdigit, hvalue⟩ := digitChar_spec hds.1
      rw [valueFrom_cons] at hfits ⊢
      have hle := le_valueFrom (by decide : 0 < 10) (n * 10 + d) ds
      have hstep : int32 ((n : Int) * 10 + ((((digits false).getD d 0).toNat : Int) -
          (chr '0').toNat)) = (n * 10 + d : Nat) := by
        rw [hvalue, int32_eq] <;> push_cast <;> omega
      show digitRun n ((digits false).getD d 0 :: (digitChars false ds ++ c :: fmt)) = _
      rw [digitRun, if_pos hdigit, hstep]
      exact ih _ hds.2 hfits

theorem Literal.digitRun_eq (n : Literal) (hc : isDigit c = false) (fmt : List Byte) :
    digitRun 0 (n.chars ++ c :: fmt) = .ok ((n.value : Int), c :: fmt) := by
  refine Print.digitRun_eq (n.digits.map Fin.val) 0 (fun d hd => ?_) n.fits hc
  obtain ⟨d, -, rfl⟩ := List.mem_map.mp hd
  exact d.isLt

/-- A width, before something that is no digit. -/
theorem scans_width (width : Width) (hc : isDigit c = false)
    (h : Scans (width.set spec) (c :: fmt) r) : Scans spec (width.chars ++ c :: fmt) r := by
  cases width with
  | none => exact h
  | star => exact .goOn rfl (Nat.le_refl _) h
  | literal n first =>
      obtain ⟨d, hhead, hne⟩ := first
      obtain ⟨ds, hds⟩ : ∃ ds, n.digits = d :: ds := List.head?_eq_some_iff.mp hhead
      have hchars : n.chars ++ c :: fmt =
          (digits false).getD d 0 :: (digitChars false (ds.map Fin.val) ++ c :: fmt) := by
        rw [Literal.chars, hds]
        rfl
      have hrun := n.digitRun_eq hc fmt
      show Scans spec (n.chars ++ c :: fmt) r
      rw [hchars] at hrun ⊢
      refine .goOn ?_ (by simp) h
      have hfirst : ∀ d : Fin 10, d ≠ 0 → ∀ fmt, scanChar spec ((digits false).getD d 0) fmt =
          (digitRun 0 ((digits false).getD d 0 :: fmt) >>= fun read =>
            .ok (some ({ spec with width := read.1 }, read.2))) := by
        intro d hd fmt
        fin_cases d <;> first | rfl | exact absurd rfl hd
      rw [hfirst d hne, hrun]
      rfl

/-- A `.` that no `*` follows. -/
theorem scanChar_dot (hc : c ≠ chr '*') (spec : Spec) (fmt : List Byte) :
    scanChar spec (chr '.') (c :: fmt) = (digitRun 0 (c :: fmt) >>= fun read =>
      .ok (some ({ spec with prec := read.1, precGiven := true }, read.2))) := by
  show (if c = chr '*' then _ else _) = _
  rw [if_neg hc]

/-- A precision, before something that is neither a digit nor a `*`. -/
theorem scans_prec (prec : Precision) (hc : isDigit c = false) (hstar : c ≠ chr '*')
    (h : Scans (prec.set spec) (c :: fmt) r) : Scans spec (prec.chars ++ c :: fmt) r := by
  cases prec with
  | none => exact h
  | star => exact .goOn rfl (Nat.le_succ _) h
  | literal n =>
      -- its first character is a digit, or `c` if it has none
      obtain ⟨c', fmt', hfirst, hstar'⟩ : ∃ c' fmt',
          n.chars ++ c :: fmt = c' :: fmt' ∧ c' ≠ chr '*' := by
        rw [Literal.chars]
        cases n.digits with
        | nil => exact ⟨c, fmt, rfl, hstar⟩
        | cons d ds =>
            have hdigit : ∀ d : Fin 10, (digits false).getD d 0 ≠ chr '*' := by decide
            exact ⟨_, _, rfl, hdigit d⟩
      have hrun := n.digitRun_eq hc fmt
      show Scans spec (chr '.' :: (n.chars ++ c :: fmt)) r
      rw [hfirst] at hrun ⊢
      refine .goOn ?_ ?_ h
      · rw [scanChar_dot hstar', hrun]
        rfl
      · rw [← hfirst]
        simp

/-- The scanner reads a directive up to its end. -/
theorem Source.scans (src : Source) (rest : List Byte) :
    Scans {} (src.render ++ rest) (src.scanned, src.conv, rest) := by
  have hlength : Scans (src.prec.set (src.width.set (src.flags.foldl Flag.set {})))
      (src.length.flatMap Length.chars ++ src.conv :: rest) (src.scanned, src.conv, rest) :=
    scans_length src.length src.chain src.conversion
  -- what follows the precision is no digit and no `*`
  have htail : ∃ c fmt, src.length.flatMap Length.chars ++ src.conv :: rest = c :: fmt ∧
      isDigit c = false ∧ c ≠ chr '*' := by
    cases src.length with
    | nil =>
        have hconv : ∀ c ∈ conversions, isDigit c = false ∧ c ≠ chr '*' := by decide
        exact ⟨src.conv, rest, rfl, hconv _ src.conversion⟩
    | cons m length => cases m <;> exact ⟨_, _, rfl, by decide⟩
  obtain ⟨c, fmt, htail, hdigit, hstar⟩ := htail
  rw [htail] at hlength
  have hprec := scans_prec src.prec hdigit hstar hlength
  -- what follows the width is the `.` of the precision, or the same
  have hdot : ∃ c' fmt', src.prec.chars ++ c :: fmt = c' :: fmt' ∧ isDigit c' = false := by
    cases src.prec with
    | none => exact ⟨c, fmt, rfl, hdigit⟩
    | star => exact ⟨_, _, rfl, by decide⟩
    | literal n => exact ⟨_, _, rfl, by decide⟩
  obtain ⟨c', fmt', hdot, hdigit'⟩ := hdot
  rw [hdot] at hprec
  have hwidth := scans_width src.width hdigit' hprec
  have hflags := scans_flags src.flags hwidth
  rw [← hdot, ← htail] at hflags
  rw [render]
  simpa using hflags

/-! ## The directive that is read -/

theorem foldl_flag_set (flags : List Flag) (spec : Spec) :
    flags.foldl Flag.set spec = { spec with
      ljust := spec.ljust || flags.contains .minus
      plus := spec.plus || flags.contains .plus
      space := spec.space || flags.contains .space
      altform := spec.altform || flags.contains .alt
      fillz := spec.fillz || flags.contains .zero } := by
  induction flags generalizing spec with
  | nil => simp
  | cons flag flags ih =>
      rw [List.foldl_cons, ih]
      cases flag <;> simp [Flag.set]

theorem foldl_length_set (length : List Length) (spec : Spec) (htlong : spec.tlong = 0) :
    length.foldl Length.set spec = { spec with
      half := spec.half || length.contains .h
      tlong := (length.foldl Length.set {}).tlong } := by
  -- only the last `l` or `ll` counts, so the earlier value of `tlong` is kept by `h` alone
  have hgeneral : ∀ (length : List Length) (spec spec' : Spec), spec.tlong = spec'.tlong →
      length.foldl Length.set spec = { spec with
        half := spec.half || length.contains .h
        tlong := (length.foldl Length.set spec').tlong } := by
    intro length
    induction length with
    | nil => intro spec spec' h; simp [← h]
    | cons m length ih =>
        intro spec spec' h
        rw [List.foldl_cons, List.foldl_cons, ih (m.set spec) (m.set spec')
          (by cases m <;> simp [Length.set, h])]
        cases m <;> simp [Length.set]
  exact hgeneral length spec {} htlong

/-- The mark that is stored for a width. -/
def Width.mark : Width → Int
  | .none => 0
  | .star => -1
  | .literal n _ => n.value

/-- The mark that is stored for a precision. -/
def Precision.mark : Precision → Int
  | .none => 0
  | .star => -1
  | .literal n => n.value

/-- What is stored for a directive are its flags and length modifiers, next to the marks of the
width and the precision. -/
theorem Source.scanned_eq (src : Source) :
    src.scanned = src.spec src.width.mark src.prec.mark := by
  rw [scanned, foldl_flag_set, foldl_length_set]
  · rw [spec]
    cases src.width <;> cases src.prec <;>
      simp [Width.set, Precision.set, Width.mark, Precision.mark]
  · cases src.width <;> cases src.prec <;> rfl

/-- Only the mark of a `*` is -1. -/
theorem Width.fetch (width : Width) (ap : VaList) (arg : Nat) :
    (if width.mark = -1 then ((ap arg).int, arg + 1) else (width.mark, arg)) =
      (width.value ap arg, arg + width.args) := by
  cases width with
  | none => rfl
  | star => rfl
  | literal n first => exact if_neg (show (n.value : Int) ≠ -1 by omega)

theorem Precision.fetch (prec : Precision) (ap : VaList) (arg : Nat) :
    (if prec.mark = -1 then ((ap arg).int, arg + 1) else (prec.mark, arg)) =
      (prec.value ap arg, arg + prec.args) := by
  cases prec with
  | none => rfl
  | star => rfl
  | literal n => exact if_neg (show (n.value : Int) ≠ -1 by omega)

/-- The directive that is read, with the width and the precision taken from the arguments. -/
theorem Source.directive_render (src : Source) (ap : VaList) (rest : List Byte) (arg : Nat) :
    Print.directive ap (src.render ++ rest) arg = .ok (src.directive ap arg, rest) := by
  have hscan := src.scans rest (src.render ++ rest).length (Nat.le_refl _)
  rw [scanned_eq] at hscan
  have hwidth : (src.spec src.width.mark src.prec.mark).width = src.width.mark := rfl
  have hprec : (src.spec src.width.mark src.prec.mark).prec = src.prec.mark := rfl
  simp only [Print.directive, hscan, bind, Except.bind, hwidth, hprec, Width.fetch,
    Precision.fetch]
  rfl

end BazelPro.Print
