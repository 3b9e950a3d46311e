import BazelPro.Print.FullText
import BazelPro.Print.Source

/-!
# What a directive puts out

The part after the `switch` has a closed form: padding, the beginning of the string, padding
(`Field.text`). So has every directive that the conversion has room for, and the outer loop puts
it out wherever the directive stands (`Source.Emits`).
-/

namespace BazelPro.Print

open C Positional Sink

variable {σ : Type} [Sink Event σ]

/-! ## The part after the switch -/

/-- The characters of a field. Behind the body there is room for padding only if there was none in
front of it, or if `pad--` has passed `INT_MIN`. -/
def Field.text (f : Field) : List Byte :=
  let pad := int32 (f.bodyWidth - f.plen)
  let front := if f.ljust then [] else
    List.replicate pad.toNat (if f.fillz then chr '0' else chr ' ')
  let left := if f.ljust then pad else if 0 < pad then -1 else int32 (pad - 1)
  front ++ f.p.take f.plen.toNat ++ List.replicate left.toNat (chr ' ')

theorem iterate_putChar (c : Byte) (n : Nat) (s : σ) :
    (putChar · c)^[n] s = (List.replicate n c).foldl putChar s := by
  induction n generalizing s with
  | zero => rfl
  | succ n ih =>
      rw [Function.iterate_succ_apply, ih]
      rfl

theorem padding_snd (pad : Int) (c : Byte) (s : σ) :
    (padding pad c s).2 = (List.replicate pad.toNat c).foldl putChar s :=
  iterate_putChar c pad.toNat s

/-- The loop over the body puts out the beginning of the string. -/
theorem bodyLoop_eq (plen width : Int) (p : List Byte) (s : σ) (hp : plen ≤ p.length)
    (hwidth : plen ≤ width) :
    bodyLoop plen width (p ++ [0]) s = .ok ((p.take plen.toNat).foldl putChar s) := by
  induction p generalizing plen width s with
  | nil =>
      have hplen : ¬ (0 < plen ∧ 0 < width) := by simp at hp; omega
      rw [List.take_nil]
      exact if_neg hplen
  | cons c p ih =>
      rw [List.cons_append, bodyLoop]
      by_cases hpos : 0 < plen
      · have htake : plen.toNat = (plen - 1).toNat + 1 := by omega
        rw [if_pos (by omega), ih _ _ _ (by simp at hp; omega) (by omega), htake,
          List.take_succ_cons]
        rfl
      · have htake : plen.toNat = 0 := by omega
        rw [if_neg (by omega), htake]
        rfl

theorem Field.plen_le_bodyWidth (f : Field) : f.plen ≤ f.bodyWidth := by
  unfold bodyWidth
  split <;> omega

theorem emitField_eq (f : Field) (s : σ) : emitField f s = .ok (f.text.foldl putChar s) := by
  have hbody := fun s : σ => bodyLoop_eq f.plen f.bodyWidth f.p s f.plen_le f.plen_le_bodyWidth
  rw [emitField, Field.text]
  generalize int32 (f.bodyWidth - f.plen) = pad
  by_cases hljust : f.ljust
  · rw [if_pos hljust, if_pos hljust, if_pos hljust, List.nil_append, List.foldl_append]
    show (bodyLoop f.plen f.bodyWidth (f.p ++ [0]) s >>= _) = _
    rw [hbody]
    exact congrArg Except.ok (padding_snd pad (chr ' ') _)
  · rw [if_neg hljust, if_neg hljust, if_neg hljust, List.foldl_append, List.foldl_append]
    show (bodyLoop f.plen f.bodyWidth (f.p ++ [0]) (padding pad _ s).2 >>= _) = _
    rw [hbody]
    show Except.ok (padding _ (chr ' ') _).2 = _
    rw [padding_snd, padding_snd]

/-- A body in a field: blanks behind it if it is left-justified, else blanks or zeros before it. -/
def justify (ljust fillz : Bool) (width : Nat) (body : List Byte) : List Byte :=
  if ljust then body.rightpad width (chr ' ')
  else body.leftpad width (if fillz then chr '0' else chr ' ')

/-- Behind padding that fits an `int` there is none left. -/
theorem toNat_left {pad : Int} (hlow : 0 ≤ pad) (hhigh : pad < 2147483648) :
    (if 0 < pad then -1 else int32 (pad - 1)).toNat = 0 := by
  by_cases hpos : 0 < pad
  · rw [if_pos hpos]
    rfl
  · rw [if_neg hpos, int32_eq] <;> omega

/-- Where nothing overflows, the field is the justified beginning of the string. -/
theorem Field.text_eq (f : Field) (hplen : 0 ≤ f.plen) (hwidth : f.width < 2147483648) :
    f.text = justify f.ljust f.fillz f.width.toNat (f.p.take f.plen.toNat) := by
  have hlength : (f.p.take f.plen.toNat).length = f.plen.toNat := by
    have := f.plen_le
    rw [List.length_take]
    omega
  have hbound : f.plen < 2147483648 := by
    have := (int32_range f.p.length).2
    unfold plen
    dsimp only
    split <;> omega
  have hpad : int32 (f.bodyWidth - f.plen) = (f.width.toNat - f.plen.toNat : Nat) := by
    unfold bodyWidth
    rw [int32_eq] <;> split <;> omega
  have hleft := toNat_left (Int.natCast_nonneg _) (hpad ▸ (int32_range _).2)
  rw [text, hpad]
  generalize f.p.take f.plen.toNat = body at hlength
  rw [← hlength] at hleft ⊢
  unfold justify
  by_cases hljust : f.ljust
  · rw [if_pos hljust, if_pos hljust, if_pos hljust, List.nil_append, List.rightpad,
      Int.toNat_natCast]
  · rw [if_neg hljust, if_neg hljust, if_neg hljust, hleft, List.replicate_zero,
      List.append_nil, List.leftpad, Int.toNat_natCast]

/-! ## Conversions -/

/-- The number of digits of the converted value. -/
def IntegerConversion.digits (q : IntegerConversion) : Nat :=
  (numeral q.base (q.num.setWidth 32).toNat).length

/-- There is room for the conversion: `prec--` does not pass `INT_MIN`, and the sign or prefix, the
digits that the precision asks for, and the NUL fit into 36 bytes. -/
def IntegerConversion.Fits (q : IntegerConversion) : Prop :=
  -2147483648 + (q.digits : Int) ≤ q.prec ∧ q.tmp.length + max q.prec q.digits ≤ 35

/-- The string that an integer conversion leaves in `tmp`. -/
def IntegerConversion.body (q : IntegerConversion) (caps : Bool) : List Byte :=
  q.tmp ++ itoaChars (q.num.setWidth 32).toNat q.base caps q.prec

theorem IntegerConversion.length_body (q : IntegerConversion) (caps : Bool) :
    ((q.body caps).length : Int) = q.tmp.length + max q.prec q.digits := by
  have := length_itoaChars (q.num.setWidth 32).toNat q.base caps q.prec
  rw [body, List.length_append, this]
  show _ = _ + max q.prec ((numeral q.base (q.num.setWidth 32).toNat).length : Int)
  omega

/-- A string ends at its NUL, whatever is behind it. -/
theorem cString_append {cs : List Byte} (h : 0 ∉ cs) (rest : List Byte) :
    cString (cs ++ 0 :: rest) = cs := by
  have hall : ∀ c ∈ cs, decide (c ≠ 0) = true := by
    intro c hc
    exact decide_eq_true fun hzero => h (hzero ▸ hc)
  rw [cString, List.takeWhile_append_of_pos hall]
  exact List.append_nil cs

theorem cString_concat {cs : List Byte} (h : 0 ∉ cs) : cString (cs ++ [0]) = cs :=
  cString_append h []

/-- Neither a sign nor a prefix contains the NUL. -/
theorem zero_not_mem_tmp {ap : VaList} {d : Directive} {q : IntegerConversion}
    (h : integerConversion ap d = some q) : 0 ∉ q.tmp := by
  cases integerConversion_case h with
  | signed =>
      have hsign : ∀ negative plus space : Bool, (0 : Byte) ∉ (if negative then [chr '-']
          else if plus then [chr '+'] else if space then [chr ' '] else []) := by decide
      refine iteInduction (motive := fun q : IntegerConversion => 0 ∉ q.tmp)
        (fun _ => List.not_mem_nil) fun _ => ?_
      exact iteInduction (motive := fun q : IntegerConversion => 0 ∉ q.tmp)
        (fun _ => hsign _ _ _) fun _ => List.not_mem_nil
  | unsigned => exact List.not_mem_nil
  | alternate lead base halt hconv =>
      show 0 ∉ lead
      rcases hconv with ⟨hconv | hconv, -, rfl⟩ | ⟨-, -, rfl⟩
      · rw [hconv]
        decide
      · rw [hconv]
        decide
      · decide

/-- The field of an integer conversion that there is room for. -/
theorem convert_integer {ap : VaList} {d : Directive} {q : IntegerConversion}
    (hq : integerConversion ap d = some q) (hfits : q.Fits) :
    convert ap d = .ok (.field q.ahead ⟨d.spec.ljust, if q.prec ≠ 0 then false else d.spec.fillz,
      q.width, xInf, q.body (d.conv = chr 'X')⟩) := by
  obtain ⟨hbase, hbase16, -, -⟩ := integerConversion_spec hq
  have hlength := q.length_body (d.conv = chr 'X')
  have hroom := hfits.2
  have hnul : 0 ∉ q.body (d.conv = chr 'X') := by
    intro hmem
    rcases List.mem_append.mp hmem with hmem | hmem
    · exact zero_not_mem_tmp hq hmem
    · exact zero_not_mem_itoaChars _ _ _ (by omega) hbase16 hmem
  have hitoa := itoa_eq q.tmp (q.num.setWidth 32) (d.conv = chr 'X') q.prec
    (by omega : 1 < q.base) hbase16 hfits.1 (by
      rw [← List.length_append]
      show (q.body (d.conv = chr 'X')).length < 36
      omega)
  rw [convert, hq]
  show (itoa q.tmp _ q.base (d.conv = chr 'X') q.prec >>= _) = _
  rw [hitoa]
  show Except.ok (Conversion.field _ ⟨_, _, _, _, cString (q.body (d.conv = chr 'X') ++ [0])⟩) = _
  rw [cString_concat hnul]

/-- What an integer conversion puts out. -/
theorem text_integer (q : IntegerConversion) (hfits : q.Fits) (hwidth : q.width < 2147483648)
    (caps ljust fillz : Bool) :
    (⟨ljust, fillz, q.width, xInf, q.body caps⟩ : Field).text =
      justify ljust fillz q.width.toNat (q.body caps) := by
  have hlength := q.length_body caps
  have hroom := hfits.2
  have hplen : (⟨ljust, fillz, q.width, xInf, q.body caps⟩ : Field).plen =
      (q.body caps).length := by
    unfold Field.plen xInf
    dsimp only
    rw [int32_eq (by omega) (by omega)]
    exact if_neg (by omega)
  rw [Field.text_eq _ (by rw [hplen]; omega) hwidth, hplen, Int.toNat_natCast, List.take_length]

/-! ## The outer loop -/

/-- The number of the next argument behind a directive. -/
def Source.next (src : Source) (arg : Nat) : Nat :=
  arg + src.width.args + src.prec.args + argsOf src.conv

/-- With these arguments, the outer loop puts out `text` for the directive, wherever it stands in a
format, and goes on behind it. -/
def Source.Emits (src : Source) (ap : VaList) (arg : Nat) (text : List Byte) : Prop :=
  ∀ (σ : Type) [Sink Event σ] (fuel : Nat) (rest : List Byte) (s : σ),
    fmtLoop ap (fuel + 1) (chr '%' :: (src.render ++ rest)) arg s =
      fmtLoop ap fuel rest (src.next arg) (text.foldl putChar s)

variable {src : Source} {ap : VaList} {arg : Nat} {text text' : List Byte}

theorem Source.conv_ne_zero (src : Source) : src.conv ≠ 0 := by
  have : ∀ c ∈ conversions, c ≠ 0 := by decide
  exact this _ src.conversion

/-- A conversion to a field is put out. -/
theorem Source.emits_of_field {ahead : List Byte} {f : Field}
    (h : convert ap (src.directive ap arg) = .ok (.field ahead f)) :
    src.Emits ap arg (ahead ++ f.text) := by
  intro σ _ fuel rest s
  have hconv : (src.directive ap arg).conv ≠ 0 := src.conv_ne_zero
  rw [fmtLoop_directive ap fuel (src.directive_render ap rest arg), if_neg hconv, h]
  show (emitField f (ahead.foldl putChar s) >>= _) = _
  rw [emitField_eq, List.foldl_append]
  rfl

/-- Into a list, some characters go one behind the other. -/
theorem foldl_putChar_list (cs : List Byte) (es : List Event) :
    cs.foldl putChar es = es ++ cs.map Event.char := by
  induction cs generalizing es with
  | nil => simp
  | cons c cs ih =>
      rw [List.foldl_cons, ih]
      show es ++ [Event.char c] ++ _ = _
      simp

/-- A directive has one text. -/
theorem Source.Emits.unique (h : src.Emits ap arg text) (h' : src.Emits ap arg text') :
    text = text' := by
  have heq := (h (List Event) 1 [0] []).symm.trans (h' (List Event) 1 [0] [])
  rw [foldl_putChar_list, foldl_putChar_list] at heq
  have hmap : text.map Event.char = text'.map Event.char := Except.ok.inj heq
  exact List.map_injective_iff.mpr (fun _ _ h => Event.char.inj h) hmap

/-- Whether a directive emits a text is a question about the text that it does emit. -/
theorem Source.Emits.iff_eq (h : src.Emits ap arg text) :
    src.Emits ap arg text' ↔ text = text' :=
  ⟨h.unique, fun heq => heq ▸ h⟩

/-! ## A format in parts -/

/-- With these arguments, the outer loop puts out `text` for a part of a format, from the argument
`arg` on, and goes on behind it with `arg'`. -/
def Prints (ap : VaList) (fmt : List Byte) (arg : Nat) (text : List Byte) (arg' : Nat) : Prop :=
  ∃ steps, steps ≤ fmt.length ∧
    ∀ (σ : Type) [Sink Event σ] (fuel : Nat) (rest : List Byte) (s : σ),
      fmtLoop ap (fuel + steps) (fmt ++ rest) arg s =
        fmtLoop ap fuel rest arg' (text.foldl putChar s)

variable {fmt fmt' : List Byte} {arg' arg'' : Nat}

theorem Prints.append (h : Prints ap fmt arg text arg') (h' : Prints ap fmt' arg' text' arg'') :
    Prints ap (fmt ++ fmt') arg (text ++ text') arg'' := by
  obtain ⟨steps, hsteps, hloop⟩ := h
  obtain ⟨steps', hsteps', hloop'⟩ := h'
  refine ⟨steps' + steps, by rw [List.length_append]; omega, fun σ _ fuel rest s => ?_⟩
  rw [← Nat.add_assoc, List.append_assoc, hloop, hloop', List.foldl_append]

/-- Other characters than `%` are put out as they are. -/
theorem prints_literal (ap : VaList) (arg : Nat) {cs : List Byte}
    (h : ∀ c ∈ cs, c ≠ 0 ∧ c ≠ chr '%') : Prints ap cs arg cs arg := by
  refine ⟨cs.length, Nat.le_refl _, fun σ _ fuel rest s => ?_⟩
  induction cs generalizing s with
  | nil => rfl
  | cons c cs ih =>
      rw [List.forall_mem_cons] at h
      rw [List.length_cons, ← Nat.add_assoc, List.cons_append,
        fmtLoop_char ap _ h.1.1 h.1.2, ih h.2, List.foldl_cons]

theorem Source.Emits.prints (h : src.Emits ap arg text) :
    Prints ap (chr '%' :: src.render) arg text (src.next arg) :=
  ⟨1, Nat.succ_pos _, fun σ _ fuel rest s => h σ fuel rest s⟩

/-- The text of a whole format. -/
theorem Prints.fullText_eq {fmt : CStr} (h : Prints ap fmt.chars 0 text arg') :
    fullText fmt ap = text := by
  obtain ⟨steps, hsteps, hloop⟩ := h
  obtain ⟨fuel, hfuel⟩ : ∃ fuel, fmt.chars.length + 1 = fuel + 1 + steps :=
    ⟨fmt.chars.length - steps, by omega⟩
  have hformat : format fmt ap ([] : List Event) = .ok (text.map Event.char) := by
    rw [format, hfuel, hloop, foldl_putChar_list]
    rfl
  rw [fullText, hformat]
  show List.filterMap _ (text.map Event.char) = text
  rw [List.filterMap_map]
  exact List.filterMap_some

end BazelPro.Print
