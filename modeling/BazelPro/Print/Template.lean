import BazelPro.Print.ErrorDump

/-!
# Formats in parts

A format is characters that are printed as they are, and directives (`Part`). What it prints is
said part by part (`Lays`), and a call with it is then one that is meant (`Lays.meant`). Calls that
are meant print their texts one behind the other, whichever of the two formatters they use.
-/

namespace BazelPro.Print

open C Positional

/-! ## Strings and arguments -/

/-- The characters of a string literal. -/
def ascii (s : String) : List Byte := s.toList.map chr

/-- A string literal of the source. -/
def CStr.ofString (s : String) : CStr := ⟨cString (ascii s), nul_not_mem_cString _⟩

/-- An argument of an integer type. -/
def VaArg.ofWord (word : BitVec 64) : VaArg := ⟨word, [], nul_not_mem_nil⟩

/-- An argument of the type `int`, which is promoted with its sign. -/
def VaArg.ofInt (n : BitVec 32) : VaArg := .ofWord (n.signExtend 64)

/-- An argument of the type `char *`. -/
def VaArg.ofStr (s : CStr) : VaArg := ⟨0, s⟩

/-- Some arguments. -/
def vaList (l : List VaArg) : VaList := fun i => l.getD i (.ofWord 0)

theorem setWidth_signExtend (n : BitVec 32) : (n.signExtend 64).setWidth 32 = n := by
  ext i hi
  simp [BitVec.getElem_signExtend, hi, show i < 64 by omega]

theorem VaArg.int_ofInt (n : BitVec 32) : (VaArg.ofInt n).int = n.toInt :=
  congrArg BitVec.toInt (setWidth_signExtend n)

/-! ## Calls that are meant -/

/-- Calls that the formatters are meant for, and what they print, with a libc that prints `text`:
no terminator among it. -/
structure Meant (text : CStr → VaList → List Byte) (calls : List Call) (out : List Byte) :
    Prop where
  admissible : ∀ call ∈ calls, call.Admissible text
  kept : ∀ call ∈ calls, call.PrecisionsKept
  counts : ∀ call ∈ calls, call.CountsNothing
  text_eq : calls.flatMap (Call.text text) = out
  no_nul : 0 ∉ out

namespace Meant

variable {text : CStr → VaList → List Byte} {calls calls' : List Call} {out out' : List Byte}

theorem nil : Meant text [] [] :=
  ⟨List.forall_mem_nil _, List.forall_mem_nil _, List.forall_mem_nil _, rfl, List.not_mem_nil⟩

theorem append (h : Meant text calls out) (h' : Meant text calls' out') :
    Meant text (calls ++ calls') (out ++ out') := by
  refine ⟨List.forall_mem_append.mpr ⟨h.admissible, h'.admissible⟩,
    List.forall_mem_append.mpr ⟨h.kept, h'.kept⟩,
    List.forall_mem_append.mpr ⟨h.counts, h'.counts⟩, ?_, ?_⟩
  · rw [List.flatMap_append, h.text_eq, h'.text_eq]
  · rw [List.mem_append, not_or]
    exact ⟨h.no_nul, h'.no_nul⟩

/-- A call, and those behind it. -/
theorem cons {call : Call} (h : Meant text [call] out) (h' : Meant text calls out') :
    Meant text (call :: calls) (out ++ out') :=
  h.append h'

/-- A call that depends on a condition. -/
theorem ite {p : Prop} [Decidable p] (h : p → Meant text calls out)
    (h' : ¬ p → Meant text calls' out') :
    Meant text (if p then calls else calls') (if p then out else out') := by
  split
  · next hp => exact h hp
  · next hp => exact h' hp

/-- What the calls leave in the array. -/
theorem filled {vsnprintf : StringFormatter} (h : Meant text calls out)
    (hconforms : Conforms vsnprintf text) (ram : Ram) (output : Nat) {size : BitVec 64}
    (hsize : 0 < size.toNat) :
    ∃ s, runCalls vsnprintf calls (bufinit ram output size) = .ok s ∧
      Filled ram output size.toNat out s := by
  obtain ⟨s, hruns, hs⟩ := (filled_bufinit ram output hsize).runCalls hconforms hsize calls
    h.admissible h.kept h.counts
  rw [List.nil_append, h.text_eq] at hs
  exact ⟨s, hruns, hs⟩

end Meant

/-- The string in the array. -/
theorem Filled.cString_eq {ram : Ram} {output size : Nat} {out : List Byte} {s : Buffer × Ram}
    (h : Filled ram output size out s) (hsize : 0 < size) (hnul : 0 ∉ out) :
    cString (load s.2.bytes output size) = out.take (size - 1) := by
  have hend := h.wrote.nul List.not_mem_nil
  have hchars := h.wrote.load_take
  generalize hn : min out.length (size - 1) = n at hend hchars
  have hone : load s.2.bytes (output + n) 1 = [0] := congrArg (fun c => [c]) hend
  rw [load_split _ _ (by omega : n ≤ size), load_split _ _ (by omega : 1 ≤ size - n), hchars, hone]
  exact cString_append (fun hmem => hnul (List.mem_of_mem_take hmem)) _

/-- The string in an array of `size` bytes at `output`, behind some calls. -/
def printed (vsnprintf : StringFormatter) (ram : Ram) (output : Nat) (size : BitVec 64)
    (calls : List Call) : Except Fault (List Byte) := do
  let s ← runCalls vsnprintf calls (bufinit ram output size)
  pure (cString (load s.2.bytes output size.toNat))

/-- Calls that are meant leave as much of their text as there is room for. -/
theorem Meant.printed_eq {vsnprintf : StringFormatter} {text : CStr → VaList → List Byte}
    {calls : List Call} {out : List Byte} (h : Meant text calls out)
    (hconforms : Conforms vsnprintf text) (ram : Ram) (output : Nat) {size : BitVec 64}
    (hsize : 0 < size.toNat) :
    printed vsnprintf ram output size calls = .ok (out.take (size.toNat - 1)) := by
  obtain ⟨s, hruns, hs⟩ := h.filled hconforms ram output hsize
  rw [printed, hruns, ← hs.cString_eq hsize h.no_nul]
  rfl

/-! ## Parts -/

/-- A part of a format. -/
inductive Part where
  | literal (cs : List Byte)
  | item (src : Source)

/-- The characters of a part. -/
def Part.chars : Part → List Byte
  | .literal cs => cs
  | .item src => chr '%' :: src.render

/-- What the parts of a format print, from the argument `arg` on. -/
inductive Lays (ap : VaList) : Nat → List Part → List Byte → Prop where
  | nil (arg : Nat) : Lays ap arg [] []
  | literal {arg : Nat} {parts : List Part} {rest : List Byte} (cs : List Byte)
      (hplain : ∀ c ∈ cs, c ≠ 0 ∧ c ≠ chr '%') (hrest : Lays ap arg parts rest) :
      Lays ap arg (.literal cs :: parts) (cs ++ rest)
  | item {arg : Nat} {parts : List Part} {rest out : List Byte} (src : Source)
      (hemits : src.Emits ap arg out) (hconv : src.conv ≠ chr 'f' ∧ src.conv ≠ chr 'n')
      (hprec : src.prec = .none)
      (hnul : 0 ∉ out) (hrest : Lays ap (src.next arg) parts rest) :
      Lays ap arg (.item src :: parts) (out ++ rest)

section Lays

variable {ap : VaList} {arg : Nat} {parts : List Part} {out : List Byte}

theorem Lays.prints (h : Lays ap arg parts out) :
    ∃ arg', Prints ap (parts.flatMap Part.chars) arg out arg' := by
  induction h with
  | nil arg => exact ⟨arg, prints_literal ap arg (List.forall_mem_nil _)⟩
  | literal cs hplain hrest ih =>
      obtain ⟨arg', hprints⟩ := ih
      exact ⟨arg', (prints_literal ap _ hplain).append hprints⟩
  | item src hemits hconv hprec hnul hrest ih =>
      obtain ⟨arg', hprints⟩ := ih
      exact ⟨arg', hemits.prints.append hprints⟩

theorem Lays.no_nul (h : Lays ap arg parts out) : 0 ∉ out := by
  induction h with
  | nil arg => exact List.not_mem_nil
  | literal cs hplain hrest ih =>
      rw [List.mem_append, not_or]
      exact ⟨fun hmem => (hplain 0 hmem).1 rfl, ih⟩
  | item src hemits hconv hprec hnul hrest ih =>
      rw [List.mem_append, not_or]
      exact ⟨hnul, ih⟩

/-- Characters other than `%` are no directives. -/
theorem directives_literal (ap : VaList) (fuel : Nat) {cs : List Byte}
    (h : ∀ c ∈ cs, c ≠ 0 ∧ c ≠ chr '%') (rest : List Byte) (arg : Nat) :
    directives ap (fuel + cs.length) (cs ++ rest) arg = directives ap fuel rest arg := by
  induction cs with
  | nil => rfl
  | cons c cs ih =>
      rw [List.forall_mem_cons] at h
      rw [List.length_cons, ← Nat.add_assoc, List.cons_append,
        directives_char ap _ h.1.1 h.1.2, ih h.2]

/-- The directives of the parts have no precision, and are no `%f` and no `%n`. -/
theorem Lays.directives (h : Lays ap arg parts out) (fuel : Nat)
    (hfuel : (parts.flatMap Part.chars).length < fuel) :
    ∀ d ∈ Print.directives ap fuel (parts.flatMap Part.chars ++ [0]) arg,
      (d.conv ≠ chr 'f' ∧ d.conv ≠ chr 'n') ∧ d.spec.prec = 0 := by
  induction h generalizing fuel with
  | nil arg =>
      obtain ⟨fuel, rfl⟩ := Nat.exists_eq_add_of_lt hfuel
      exact List.forall_mem_nil _
  | @literal arg parts rest cs hplain hrest ih =>
      rw [List.flatMap_cons, Part.chars, List.length_append] at hfuel
      obtain ⟨more, rfl⟩ : ∃ more, fuel = more + cs.length := ⟨fuel - cs.length, by omega⟩
      rw [List.flatMap_cons, Part.chars, List.append_assoc, directives_literal ap more hplain]
      exact ih more (by omega)
  | @item arg parts rest out src hemits hconv hprec hnul hrest ih =>
      rw [List.flatMap_cons, Part.chars, List.length_append, List.length_cons] at hfuel
      obtain ⟨more, rfl⟩ : ∃ more, fuel = more + 1 := ⟨fuel - 1, by omega⟩
      rw [List.flatMap_cons, Part.chars, List.append_assoc, List.cons_append,
        directives_directive ap more (src.directive_render ap _ arg) src.conv_ne_zero,
        List.forall_mem_cons]
      refine ⟨⟨hconv, ?_⟩, ih more (by omega)⟩
      show src.prec.value ap _ = 0
      rw [hprec]
      rfl

/-- A call with a format that consists of these parts. -/
theorem Lays.meant {fmt : CStr} (h : Lays ap 0 parts out)
    (hfmt : fmt.chars = parts.flatMap Part.chars) (hint : out.length < 2 ^ 31)
    (text : CStr → VaList → List Byte) :
    Meant text [.bufprintfAsyncsignalsafe fmt ap] out := by
  obtain ⟨arg', hprints⟩ := h.prints
  rw [← hfmt] at hprints
  have htext := hprints.fullText_eq
  have hdirectives := h.directives (fmt.chars.length + 1) (by rw [hfmt]; exact Nat.lt_succ_self _)
  rw [← hfmt] at hdirectives
  obtain ⟨hadmissible, hkept, hcounts⟩ := admissible_of_directives fmt ap hdirectives
  refine ⟨List.forall_mem_singleton.mpr ⟨?_, hadmissible⟩, List.forall_mem_singleton.mpr hkept,
    List.forall_mem_singleton.mpr (Call.countsNothing_asyncsignalsafe hcounts), ?_, h.no_nul⟩
  · show (fullText fmt ap).length < 2 ^ 31
    rw [htext]
    exact hint
  · exact (List.append_nil _).trans htext

end Lays

/-! ## Numbers -/

/-- No flags. -/
def noFlag : FieldFlags := ⟨false, false, false, false, false⟩

/-- `%d`. -/
def plainDecimal : Source where
  flags := []
  width := .none
  prec := .none
  length := []
  chain := chain_nil
  conv := chr 'd'
  conversion := d_mem_conversions

/-- `%08x`. -/
def eightHex : Source where
  flags := [.zero]
  width := eight
  prec := .none
  length := []
  chain := chain_nil
  conv := chr 'x'
  conversion := x_mem_conversions

theorem u_mem_conversions : chr 'u' ∈ conversions := by decide

/-- `%lu`. -/
def longUnsigned : Source where
  flags := []
  width := .none
  prec := .none
  length := [.l]
  chain := chain_l
  conv := chr 'u'
  conversion := u_mem_conversions

theorem plainDecimal_plain : plainDecimal.Plain := ⟨Width.noConfusion, trivial, Or.inl rfl⟩

theorem eightHex_plain : eightHex.Plain := ⟨Width.noConfusion, trivial, Or.inl rfl⟩

theorem longUnsigned_long : longUnsigned.Long := ⟨Width.noConfusion, trivial, Or.inl rfl⟩

section Emits

variable (ap : VaList) (arg : Nat)

theorem plainDecimal_emits :
    plainDecimal.Emits ap arg (signedField noFlag 0 none (ap arg).int) := by
  refine (signed_field_iff plainDecimal_plain (Or.inl rfl) ap arg).mpr ⟨fun hzero => ?_, ?_⟩
  · cases hzero
  · exact fun _ _ hgiven => absurd rfl hgiven

theorem eightHex_emits : eightHex.Emits ap arg
    (unsignedField zeroFlag 8 none .x ((ap arg).word.setWidth 32).toNat) := by
  have hconv : eightHex.conv = UnsignedConv.x.char := rfl
  exact (unsigned_field_iff eightHex_plain hconv ap arg).mpr fun h => absurd h (by decide)

/-- Of a `long`, the lower half is printed as the standard prescribes. -/
theorem Source.Long.emits_unsignedField {src : Source} (hlong : src.Long) {conv : UnsignedConv}
    (hconv : src.conv = conv.char) (halt : .alt ∉ src.flags) :
    src.Emits ap arg (unsignedField src.flagSet (src.width.value ap arg).toNat
      (src.prec.standard ap arg) conv ((ap arg).word.toNat % 2 ^ 32)) := by
  obtain ⟨-, hwidth, hvalue, hne, hprec⟩ := Source.directive_eq hlong.width hlong.prec ap arg
  have hform : ¬ (src.directive ap arg).spec.altform :=
    fun h => halt (List.contains_iff_mem.mp h)
  have hemits := @emits_unsigned src ap arg conv hconv hwidth hprec
  rw [hlong.unsigned_eq, unsignedText, ← Nat.mod_mod] at hemits
  have hstandard := (unsignedText_eq_unsignedField_iff hvalue hne hform conv
    ((ap arg).word.toNat % 2 ^ 32)).mpr (Nat.mod_lt _ (by decide))
  rw [unsignedText] at hstandard
  rwa [hstandard] at hemits

theorem longUnsigned_emits : longUnsigned.Emits ap arg
    (unsignedField noFlag 0 none .u ((ap arg).word.toNat % 2 ^ 32)) :=
  longUnsigned_long.emits_unsignedField ap arg rfl List.not_mem_nil

theorem longHex_emits : longHex.Emits ap arg
    (unsignedField noFlag 0 none .x ((ap arg).word.toNat % 2 ^ 32)) :=
  longHex_long.emits_unsignedField ap arg rfl List.not_mem_nil

theorem returnAddress_emits_arg : returnAddress.Emits ap arg
    (unsignedField zeroFlag 8 none .x ((ap arg).word.toNat % 2 ^ 32)) :=
  returnAddress_long.emits_unsignedField ap arg rfl (by decide)

end Emits

/-- The characters of numbers. -/
def numberChars : List Byte := ascii "-0123456789abcdefABCDEF"

theorem digitChar_mem_numberChars (caps : Bool) {d : Nat} (h : d < 16) :
    digitChar caps d ∈ numberChars := by
  have : ∀ caps, ∀ d < 16, digitChar caps d ∈ numberChars := by decide
  exact this caps d h

theorem mem_numberChars_of_mem_digits {conv : UnsignedConv} {n : Nat} {c : Byte}
    (h : c ∈ conv.digits n) : c ∈ numberChars := by
  obtain ⟨d, hd, rfl⟩ := List.mem_map.mp h
  obtain ⟨hbase, hbase16⟩ := UnsignedConv.base_spec conv
  exact digitChar_mem_numberChars _ ((lt_of_mem_numeral hbase hd).trans_le hbase16)

theorem unsignedField_noFlag (conv : UnsignedConv) (n : Nat) :
    unsignedField noFlag 0 none conv n = conv.digits n := by
  rw [unsignedField, altPrefix_of_not_alt Bool.false_ne_true,
    unsignedDigits_of_not_alt Bool.false_ne_true (Option.some_ne_none 0).symm]
  show ([] ++ (conv.digits n).leftpad 0 (chr '0')).leftpad 0 (chr ' ') = _
  rw [List.nil_append, Padding.leftpad_of_le _ (Nat.zero_le _),
    Padding.leftpad_of_le _ (Nat.zero_le _)]

theorem signedField_noFlag (v : Int) :
    signedField noFlag 0 none v = sign noFlag v ++ UnsignedConv.u.digits v.natAbs := by
  have hpos : 1 ≤ (UnsignedConv.u.digits v.natAbs).length := by
    rw [length_digits]
    exact length_numeral_pos _ _
  have hdigits : digitString false 10 none v.natAbs = UnsignedConv.u.digits v.natAbs := by
    rw [digitString, if_neg (by simp)]
    exact Padding.leftpad_of_le _ hpos
  rw [signedField, hdigits]
  exact Padding.leftpad_of_le _ (Nat.zero_le _)

theorem mem_numberChars_of_mem_signedField {v : Int} {c : Byte}
    (h : c ∈ signedField noFlag 0 none v) : c ∈ numberChars := by
  rw [signedField_noFlag, List.mem_append] at h
  rcases h with hsign | hdigit
  · rw [sign] at hsign
    split at hsign
    · rw [List.mem_singleton.mp hsign]
      decide
    · cases hsign
  · exact mem_numberChars_of_mem_digits hdigit

theorem mem_numberChars_of_mem_zeroFlag {width n : Nat} {c : Byte}
    (h : c ∈ unsignedField zeroFlag width none .x n) : c ∈ numberChars := by
  rw [unsignedField_zeroFlag, List.leftpad, List.mem_append] at h
  rcases h with hzero | hdigit
  · rw [List.eq_of_mem_replicate hzero]
    decide
  · exact @mem_numberChars_of_mem_digits .x n c hdigit

theorem length_signedField_le (n : BitVec 32) :
    (signedField noFlag 0 none n.toInt).length ≤ 11 := by
  have hrange := n.isLt
  have hle : n.toInt.natAbs < 10 ^ 10 := by
    rw [BitVec.toInt_eq_toNat_cond]
    split <;> omega
  have hdigits := length_numeral_le (by decide : 1 < 10) (by decide : 0 < 10) hle
  rw [signedField_noFlag, List.length_append, length_sign, length_digits]
  show _ + (numeral 10 _).length ≤ 11
  split <;> omega

theorem length_unsignedField_le (conv : UnsignedConv) {k n : Nat} (hk : 0 < k)
    (h : n < conv.base ^ k) : (unsignedField noFlag 0 none conv n).length ≤ k := by
  rw [unsignedField_noFlag, length_digits]
  exact length_numeral_le (UnsignedConv.base_spec conv).1 hk h

/-- Digits are the digits of one number. -/
theorem digits_inj (conv : UnsignedConv) {n n' : Nat} :
    conv.digits n = conv.digits n' ↔ n = n' := by
  obtain ⟨hbase, hbase16⟩ := UnsignedConv.base_spec conv
  have hread : ∀ n, readNumber conv.base (conv.digits n) = n :=
    readNumber_numeral _ hbase hbase16
  refine ⟨fun heq => ?_, fun heq => heq ▸ rfl⟩
  rw [← hread n, heq, hread]

theorem signedField_inj {v v' : Int} :
    signedField noFlag 0 none v = signedField noFlag 0 none v' ↔ v = v' := by
  have hminus : ∀ n, chr '-' ∉ UnsignedConv.u.digits n := by
    intro n hmem
    obtain ⟨d, hd, heq⟩ := List.mem_map.mp hmem
    have hdigit : ∀ d < 10, digitChar false d ≠ chr '-' := by decide
    exact hdigit d (lt_of_mem_numeral (by decide) hd) heq
  have hsign : ∀ v : Int, chr '-' ∈ signedField noFlag 0 none v ↔ v < 0 := by
    intro v
    rw [signedField_noFlag, List.mem_append, or_iff_left (hminus _), minus_mem_sign_iff]
  refine ⟨fun heq => ?_, fun heq => heq ▸ rfl⟩
  have hboth : v < 0 ↔ v' < 0 := by rw [← hsign, heq, hsign]
  have hsame : sign noFlag v = sign noFlag v' := by
    simp only [sign, hboth]
  rw [signedField_noFlag, signedField_noFlag, hsame, List.append_cancel_left_eq, digits_inj] at heq
  omega

end BazelPro.Print
