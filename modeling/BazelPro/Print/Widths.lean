import BazelPro.Print.Integer
import BazelPro.Print.Strings

/-!
# Widths

What a directive prints with a width is what it prints without one, padded to the width
(`width_law_iff`). The exceptions are strings whose length is negative as an `int`.
-/

namespace BazelPro.Print

open C Padding

/-! ## Without a width -/

/-- The same directive without a width. -/
def Source.bare (src : Source) : Source := { src with width := .none }

/-- The same directive without a width. -/
def Directive.bare (d : Directive) : Directive := { d with spec := { d.spec with width := 0 } }

/-- `text` is `body` padded to the width: with blanks on its right under the flag `-`, with blanks
on its left if there is no flag `0` either. -/
structure Padded (minus zero : Bool) (width : Nat) (body text : List Byte) : Prop where
  length : text.length = max width body.length
  right : minus → text = body ++ List.replicate (width - body.length) (chr ' ')
  left : ¬ minus → ¬ zero → text = List.replicate (width - body.length) (chr ' ') ++ body

theorem justify_zero (ljust fillz : Bool) (body : List Byte) :
    justify ljust fillz 0 body = body := by
  unfold justify
  split
  · exact rightpad_of_le _ (Nat.zero_le _)
  · exact leftpad_of_le _ (Nat.zero_le _)

theorem length_justify (ljust fillz : Bool) (width : Nat) (body : List Byte) :
    (justify ljust fillz width body).length = max width body.length := by
  unfold justify
  split
  · rw [List.rightpad, List.length_append, List.length_replicate]
    omega
  · exact List.length_leftpad

/-- A body that is padded at once. -/
theorem padded_justify {ljust fillz zero : Bool} (hfillz : fillz → zero) (width : Nat)
    (body : List Byte) :
    Padded ljust zero width (justify ljust fillz 0 body) (justify ljust fillz width body) := by
  rw [justify_zero]
  refine ⟨length_justify .., fun hljust => if_pos hljust, fun hljust hzero => ?_⟩
  have hblank : ¬ fillz := fun h => hzero (hfillz h)
  rw [justify, if_neg hljust, if_neg hblank, List.leftpad]

/-- A sign ahead of a body that is padded. -/
theorem padded_cons {ljust fillz zero : Bool} (hzero : zero) (width : Nat) (c : Byte)
    (body : List Byte) :
    Padded ljust zero width (c :: justify ljust fillz (0 - 1) body)
      (c :: justify ljust fillz (width - 1) body) := by
  rw [Nat.zero_sub, justify_zero]
  refine ⟨?_, fun hljust => ?_, fun _ h => absurd hzero h⟩
  · rw [List.length_cons, length_justify, List.length_cons]
    omega
  · rw [justify, if_pos hljust, ← cons_rightpad, List.rightpad]

/-- What `d` and `i` put out. -/
theorem padded_signedText (spec : Spec) (v : Int) :
    Padded spec.ljust spec.fillz spec.width.toNat (signedText { spec with width := 0 } v)
      (signedText spec v) := by
  have hfillz : (spec.fillz && decide (spec.prec = 0)) → spec.fillz :=
    fun h => (Bool.and_eq_true_iff.mp h).1
  have htext (width : Int) : signedText { spec with width := width } v =
      if spec.fillz ∧ sign spec.flags v ≠ [] then
        signAhead spec v :: justify spec.ljust (spec.fillz && decide (spec.prec = 0))
          (width.toNat - 1) (itoaChars (v.natAbs % 2 ^ 32) 10 false spec.prec)
      else justify spec.ljust (spec.fillz && decide (spec.prec = 0)) width.toNat
        (sign spec.flags v ++ itoaChars (v.natAbs % 2 ^ 32) 10 false spec.prec) := rfl
  have hwidth : signedText spec v = signedText { spec with width := spec.width } v := rfl
  rw [hwidth, htext, htext]
  by_cases hahead : spec.fillz ∧ sign spec.flags v ≠ []
  · rw [if_pos hahead, if_pos hahead]
    exact padded_cons hahead.1 _ _ _
  · rw [if_neg hahead, if_neg hahead]
    exact padded_justify hfillz _ _

/-- What `u`, `x`, `X` and `o` put out. -/
theorem padded_unsignedText (spec : Spec) (conv : UnsignedConv) (n : Nat) :
    Padded spec.ljust spec.fillz spec.width.toNat (unsignedText { spec with width := 0 } conv n)
      (unsignedText spec conv n) :=
  padded_justify (fun h => (Bool.and_eq_true_iff.mp h).1) _ _

/-! ## Characters and strings -/

/-- A field of one character at most. -/
theorem text_of_short {f : Field} (hprec : f.prec = 1) (hlength : f.p.length ≤ 1)
    (hwidth : f.width < 2147483648) :
    f.text = justify f.ljust f.fillz f.width.toNat f.p := by
  have hplen : f.plen = f.p.length := by
    unfold Field.plen
    dsimp only
    rw [hprec, int32_eq (by omega) (by omega)]
    exact if_neg (by omega)
  rw [Field.text_eq f (by omega) hwidth, hplen, Int.toNat_natCast, List.take_length]

variable {src : Source} {ap : VaList} {arg : Nat}

/-- The string that the cases for `c` and `%` leave in `tmp`. -/
def charBody (ap : VaList) (d : Directive) : List Byte :=
  if d.conv = chr 'c' then cString [(ap d.arg).word.setWidth 8, 0] else [chr '%']

theorem length_charBody_le (ap : VaList) (d : Directive) : (charBody ap d).length ≤ 1 := by
  have hchar : ∀ c : Byte, (cString [c, 0]).length ≤ 1 := by decide
  unfold charBody
  split
  · exact hchar _
  · exact Nat.le_refl 1

/-- What a directive with `c` or `%` puts out. -/
theorem emits_char (hconv : src.conv = chr 'c' ∨ src.conv = chr '%')
    (hwidth : (src.directive ap arg).spec.width < 2147483648) :
    src.Emits ap arg (justify (src.directive ap arg).spec.ljust (src.directive ap arg).spec.fillz
      (src.directive ap arg).spec.width.toNat (charBody ap (src.directive ap arg))) := by
  have hd : (src.directive ap arg).conv = src.conv := rfl
  have hbody := length_charBody_le ap (src.directive ap arg)
  have hconvert : convert ap (src.directive ap arg) = .ok (.field []
      ⟨(src.directive ap arg).spec.ljust, (src.directive ap arg).spec.fillz,
        (src.directive ap arg).spec.width, 1, charBody ap (src.directive ap arg)⟩) := by
    unfold charBody
    rcases hconv with hconv | hconv
    · rw [convert, integerConversion_eq_none (by rw [hd, hconv]; decide)]
      show (if _ then _ else if _ then _ else if _ then _ else _) = _
      rw [hd, hconv, if_neg (by decide), if_neg (by decide), if_pos rfl, if_pos rfl]
    · rw [convert, integerConversion_eq_none (by rw [hd, hconv]; decide)]
      show (if _ then _ else if _ then _ else if _ then _ else if _ then _ else if _ then _
        else _) = _
      rw [hd, hconv, if_neg (by decide), if_neg (by decide), if_neg (by decide),
        if_neg (by decide), if_pos rfl, if_neg (by decide)]
  have hemits := Source.emits_of_field hconvert
  rwa [text_of_short rfl hbody hwidth] at hemits

/-- The string has no length that is negative as an `int`, or the blanks that are printed in its
place happen to be as many as the width asks for. -/
def LengthAgrees (minus : Bool) (width len : Int) : Prop :=
  width = 0 ∨ 0 ≤ len ∨
    ¬ minus ∧ (len = -1 ∧ width = 2147483647 ∨ len = -2147483647 ∧ width = 1)

theorem padded_self (minus zero : Bool) (body : List Byte) : Padded minus zero 0 body body := by
  have hnone : List.replicate (0 - body.length) (chr ' ') = [] := by
    rw [Nat.zero_sub]
    rfl
  exact ⟨(Nat.zero_max _).symm, fun _ => by rw [hnone, List.append_nil],
    fun _ _ => by rw [hnone, List.nil_append]⟩

section Blanks

variable {width len : Int} (hwidth : 0 ≤ width ∧ width < 2147483648)
  (hlen : -2147483648 ≤ len ∧ len < 0)
include hwidth hlen

/-- On the right, the blanks in the place of a negative length are more than the width, or none. -/
theorem right_blanks_ne (hzero : width ≠ 0) :
    (int32 (width - len)).toNat ≠ max width.toNat (int32 (0 - len)).toNat := by
  by_cases hfits : width - len < 2147483648
  · rw [int32_eq (by omega) hfits, int32_eq (by omega) (by omega)]
    omega
  · rw [int32_overflow (by omega) (by omega)]
    omega

omit hwidth in
theorem blanks_bare : blanks (0 - len) = min (-len).toNat 2147483647 := by
  unfold blanks
  split
  · omega
  · rw [if_pos (by omega)]
    omega

/-- On the left, they are as many as the width at the two ends of the range. -/
theorem left_blanks_eq_iff (hzero : width ≠ 0) :
    blanks (width - len) = max width.toNat (blanks (0 - len)) ↔
      len = -1 ∧ width = 2147483647 ∨ len = -2147483647 ∧ width = 1 := by
  rw [blanks_bare hlen]
  unfold blanks
  split
  · omega
  split <;> omega

/-- The paddings that are printed in the place of a string whose length is negative. -/
theorem padded_blanks_iff (ljust fillz : Bool) :
    Padded ljust fillz width.toNat
        (if ljust then List.replicate (int32 (0 - len)).toNat (chr ' ')
          else List.replicate (blanks (0 - len))
            (if 0 - len < 2147483648 ∧ fillz then chr '0' else chr ' '))
        (if ljust then List.replicate (int32 (width - len)).toNat (chr ' ')
          else List.replicate (blanks (width - len))
            (if width - len < 2147483648 ∧ fillz then chr '0' else chr ' ')) ↔
      LengthAgrees ljust width len := by
  unfold LengthAgrees
  by_cases hzero : width = 0
  · rw [hzero]
    exact iff_of_true (padded_self _ _ _) (Or.inl rfl)
  by_cases hljust : ljust
  · rw [if_pos hljust, if_pos hljust]
    refine iff_of_false (fun h => right_blanks_ne hwidth hlen hzero ?_) (by simp [hljust]; omega)
    have hlength := h.length
    rwa [List.length_replicate, List.length_replicate] at hlength
  rw [if_neg hljust, if_neg hljust]
  constructor
  · intro h
    have hlength := h.length
    rw [List.length_replicate, List.length_replicate] at hlength
    exact Or.inr (Or.inr ⟨hljust, (left_blanks_eq_iff hwidth hlen hzero).mp hlength⟩)
  · rintro (h | h | ⟨-, h⟩)
    · exact absurd h hzero
    · omega
    · have htop : width - len = 2147483648 := by omega
      have hfull : blanks (width - len) = 2147483647 := by
        unfold blanks
        rw [htop, if_neg (lt_irrefl _), if_pos rfl]
      have hbare : blanks (0 - len) = (-len).toNat := by
        rw [blanks_bare hlen]
        omega
      have hblank : (if width - len < 2147483648 ∧ fillz = true then chr '0' else chr ' ') =
          chr ' ' := if_neg fun h => absurd h.1 (htop ▸ lt_irrefl _)
      rw [hfull, hbare, hblank]
      obtain ⟨n, hn⟩ : ∃ n, n = 2147483647 := ⟨_, rfl⟩
      rw [← hn]
      refine ⟨?_, fun hright => absurd hright hljust, fun _ hfillz => ?_⟩
      · rw [List.length_replicate, List.length_replicate]
        omega
      · have hcount : width.toNat - (-len).toNat + (-len).toNat = n := by omega
        rw [if_neg fun h => hfillz h.2, List.length_replicate, List.replicate_append_replicate,
          hcount]

end Blanks

/-- What `s` puts out, for a precision that is not negative. -/
theorem padded_string_iff {d : Directive} (hwidth : 0 ≤ d.spec.width ∧ d.spec.width < 2147483648)
    (hprec : 0 ≤ d.spec.prec) :
    Padded d.spec.ljust d.spec.fillz d.spec.width.toNat (stringConversion ap d.bare).text
        (stringConversion ap d).text ↔
      LengthAgrees d.spec.ljust d.spec.width (int32 (ap d.arg).str.chars.length) := by
  have hrange := int32_range (ap d.arg).str.chars.length
  have hplen : (stringConversion ap d).plen = min (int32 (ap d.arg).str.chars.length)
      (if d.spec.prec = 0 then xInf else d.spec.prec) := by
    unfold Field.plen stringConversion
    dsimp only
    split <;> omega
  have hbare : (stringConversion ap d.bare).plen = (stringConversion ap d).plen := rfl
  have hmost : 0 ≤ (if d.spec.prec = 0 then xInf else d.spec.prec) := by
    split
    · decide
    · exact hprec
  have hzero : (stringConversion ap d.bare).width = 0 := rfl
  generalize int32 (ap d.arg).str.chars.length = len at hrange hplen
  by_cases hlen : 0 ≤ len
  · have hpos : 0 ≤ (stringConversion ap d).plen := by omega
    rw [Field.text_eq _ hpos hwidth.2, Field.text_eq _ (hbare ▸ hpos) (by omega), hbare]
    exact iff_of_true (padded_justify id _ _) (Or.inr (Or.inl hlen))
  · have hneg : (stringConversion ap d).plen = len := by omega
    have hwide : (stringConversion ap d).width = d.spec.width := rfl
    rw [Field.text_of_neg (by omega) (by omega) (by omega),
      Field.text_of_neg (by omega) (by omega) (by omega), hbare, hneg, hzero, hwide,
      max_eq_left (by omega), max_eq_left (by omega)]
    exact padded_blanks_iff hwidth (by omega) _ _

/-! ## The law -/

/-- The integer conversions that are meant. -/
def integerConversions : List Byte := ['d', 'i', 'u', 'x', 'X', 'o'].map chr

/-- The conversions that a width is meant for. -/
def paddedConversions : List Byte := integerConversions ++ ['s', 'c', '%'].map chr

/-- A width fits an `int`. -/
theorem Width.value_lt (width : Width) (ap : VaList) (arg : Nat) :
    width.value ap arg < 2147483648 := by
  cases width with
  | none => exact (by decide : (0 : Int) < 2147483648)
  | star => exact (ap arg).int_range.2
  | literal n first => exact Int.ofNat_lt.mpr n.fits

/-- An integer conversion pads what it prints without a width. -/
theorem padded_integer (hconv : src.conv ∈ integerConversions)
    (hprec : 0 ≤ (src.directive ap arg).spec.prec ∧ (src.directive ap arg).spec.prec ≤ 30) :
    ∃ body text, src.bare.Emits ap (arg + src.width.args) body ∧ src.Emits ap arg text ∧
      Padded (src.directive ap arg).spec.ljust (src.directive ap arg).spec.fillz
        (src.directive ap arg).spec.width.toNat body text := by
  have hwidth : (src.directive ap arg).spec.width < 2147483648 := src.width.value_lt ap arg
  have hzero : (src.bare.directive ap (arg + src.width.args)).spec.width < 2147483648 :=
    src.bare.width.value_lt ap (arg + src.width.args)
  have hcases : (src.conv = chr 'd' ∨ src.conv = chr 'i') ∨
      ∃ conv : UnsignedConv, src.conv = conv.char := by
    obtain ⟨c, hc, hchar⟩ := List.mem_map.mp hconv
    rw [← hchar]
    simp only [List.mem_cons, List.not_mem_nil, or_false] at hc
    rcases hc with rfl | rfl | rfl | rfl | rfl | rfl
    · exact Or.inl (Or.inl rfl)
    · exact Or.inl (Or.inr rfl)
    · exact Or.inr ⟨.u, rfl⟩
    · exact Or.inr ⟨.x, rfl⟩
    · exact Or.inr ⟨.X, rfl⟩
    · exact Or.inr ⟨.o, rfl⟩
  rcases hcases with hsigned | ⟨conv, hunsigned⟩
  · have hbody : src.bare.Emits ap (arg + src.width.args) _ := emits_signed hsigned hzero hprec
    exact ⟨_, _, hbody, emits_signed hsigned hwidth hprec, padded_signedText _ _⟩
  · have hbody : src.bare.Emits ap (arg + src.width.args) _ :=
      emits_unsigned hunsigned hzero hprec
    exact ⟨_, _, hbody, emits_unsigned hunsigned hwidth hprec, padded_unsignedText _ _ _⟩

/-- A directive prints what it prints without its width, padded to the width, if and only if it is
not for a string whose length is negative as an `int`. -/
theorem width_law_iff (hconv : src.conv ∈ paddedConversions)
    (hwidth : 0 ≤ src.width.value ap arg)
    (hprec : 0 ≤ src.prec.value ap (arg + src.width.args))
    (hdigits : src.conv ∈ integerConversions → src.prec.value ap (arg + src.width.args) ≤ 30) :
    (∃ body text, src.bare.Emits ap (arg + src.width.args) body ∧ src.Emits ap arg text ∧
        Padded (src.flags.contains .minus) (src.flags.contains .zero)
          (src.width.value ap arg).toNat body text) ↔
      (src.conv = chr 's' → LengthAgrees (src.flags.contains .minus) (src.width.value ap arg)
        (int32 (ap (src.directive ap arg).arg).str.chars.length)) := by
  have hrange := src.width.value_lt ap arg
  rcases List.mem_append.mp hconv with hinteger | hother
  · refine iff_of_true (padded_integer hinteger ⟨hprec, hdigits hinteger⟩) fun hs => ?_
    rw [hs] at hinteger
    exact absurd hinteger (by decide)
  by_cases hs : src.conv = chr 's'
  · have hbody : src.bare.Emits ap (arg + src.width.args)
        (stringConversion ap (src.directive ap arg).bare).text := emits_string hs
    have htext : src.Emits ap arg (stringConversion ap (src.directive ap arg)).text :=
      emits_string hs
    have hpadded := @padded_string_iff ap (src.directive ap arg) ⟨hwidth, hrange⟩ hprec
    rw [forall_prop_of_true hs]
    refine ⟨?_, fun hagrees => ⟨_, _, hbody, htext, hpadded.mpr hagrees⟩⟩
    rintro ⟨body, text, hbody', htext', h⟩
    rw [hbody'.unique hbody, htext'.unique htext] at h
    exact hpadded.mp h
  · have hchar : src.conv = chr 'c' ∨ src.conv = chr '%' := by
      simpa [hs] using hother
    have hbody : src.bare.Emits ap (arg + src.width.args) _ :=
      emits_char hchar (src.bare.width.value_lt ap (arg + src.width.args))
    refine iff_of_true ⟨_, _, hbody, emits_char hchar hrange, ?_⟩ fun h => absurd h hs
    exact padded_justify id _ _

/-- The directive `%1s`. -/
def narrowString : Source where
  flags := []
  width := .ofDigit 1 (by decide)
  prec := .none
  length := []
  chain := chain_nil
  conv := chr 's'
  conversion := s_mem_conversions

/-- A string of this length for every argument. -/
def stringOfLength (n : Nat) : VaList := fun _ =>
  ⟨0, List.replicate n (chr 'a'), fun h => absurd (List.eq_of_mem_replicate h) (by decide)⟩

/-- Two characters are printed with the width one as the law says. -/
theorem width_law_iff_narrowString :
    ∃ body text, narrowString.bare.Emits (stringOfLength 2) 0 body ∧
      narrowString.Emits (stringOfLength 2) 0 text ∧ Padded false false 1 body text :=
  (@width_law_iff narrowString (stringOfLength 2) 0 (by decide) (by decide) (by decide)
    (by decide)).mpr fun _ => Or.inr (Or.inl (by decide))

/-- Where the length of the string is the least `int`, a width leaves nothing of it. -/
theorem text_of_overlong {s : List Byte} (hlength : (s.length : Int) = 2147483648) :
    (codeField 1 0 s).text = [] := by
  have hplen : (codeField 1 0 s).plen = -2147483648 := by
    obtain ⟨-, -, -, hshown⟩ := shown_spec 0 s
    rw [plen_codeField, hshown, if_pos rfl, hlength, int32_overflow (by decide) (by decide)]
    decide
  have hljust : ¬ (codeField 1 0 s).ljust := Bool.false_ne_true
  have hwidth : (codeField 1 0 s).width = 1 := rfl
  rw [Field.text_of_neg (by omega) (by omega) (by omega), if_neg hljust, hwidth, hplen]
  rfl

/-- Of `2 ^ 31` characters nothing is printed with the width one. -/
theorem narrowString_empty : narrowString.Emits (stringOfLength 2147483648) 0 [] ∧
    ¬ ∃ body text, narrowString.bare.Emits (stringOfLength 2147483648) 0 body ∧
      narrowString.Emits (stringOfLength 2147483648) 0 text ∧ Padded false false 1 body text := by
  have hemits : narrowString.Emits (stringOfLength 2147483648) 0 [] := by
    have hlength : ((List.replicate 2147483648 (chr 'a')).length : Int) = 2147483648 := by
      rw [List.length_replicate]
      rfl
    rw [← text_of_overlong hlength]
    exact emits_string rfl
  refine ⟨hemits, ?_⟩
  rintro ⟨body, text, -, htext, hpadded⟩
  have hlength := hpadded.length
  rw [htext.unique hemits, List.length_nil] at hlength
  omega

end BazelPro.Print
