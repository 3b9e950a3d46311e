import BazelPro.Print.Bufprintf

/-!
# Every character up to the end of the array

Whatever the calls and wherever the text is cut: the buffer holds the beginning of the texts of
all the calls, as much as there is room for, and each call returns what it has appended. One call
writes a truncated text into what is left of the array (`WroteBut`), and two such writes, one behind
the other, are the write of both texts (`WroteBut.append`). The bytes that a `%n` stores its count
to are excepted; they may be anywhere, the array included.
-/

namespace BazelPro.Print

open C Positional

/-! ## Truncated writes -/

/-- From `ram` to `ram'`, apart from the bytes `other`, only the `size` bytes at `dst` were written,
and they begin with the truncated `text`. -/
structure WroteBut (other : List Nat) (ram ram' : Ram) (dst size : Nat) (text : List Byte) :
    Prop where
  content : ∀ i c, (truncated size text)[i]? = some c → dst + i ∉ other →
    ram'.bytes (dst + i) = c
  frame : ∀ i, ¬ (dst ≤ i ∧ i < dst + size) → i ∉ other → ram'.bytes i = ram.bytes i
  stores : ∃ new, ram'.stores = new ++ ram.stores ∧
    ∀ i ∈ new, (dst ≤ i ∧ i < dst + size) ∨ i ∈ other

/-- From `ram` to `ram'`, only the `size` bytes at `dst` were written, and they begin with the
truncated `text`. -/
abbrev Wrote : Ram → Ram → Nat → Nat → List Byte → Prop := WroteBut []

/-- Where the first text ends, the second begins. -/
theorem truncated_append {size : Nat} (hsize : 0 < size) (text text' : List Byte) :
    truncated size (text ++ text') =
      text.take (size - 1) ++ truncated (size - min text.length (size - 1)) text' := by
  have hroom : size - min text.length (size - 1) - 1 = size - 1 - text.length := by omega
  rw [truncated, truncated, List.take_append, hroom, List.append_assoc]

namespace WroteBut

variable {other other' : List Nat} {ram ram' ram'' : Ram} {dst size : Nat} {text text' : List Byte}

/-- A store of the truncated text is one. -/
theorem of_storeAt (hsize : 0 < size)
    (hbytes : ∀ i ∉ other, ram'.bytes i = storeAt ram.bytes dst (truncated size text) i)
    (hstores : ∃ new, ram'.stores = new ++ ram.stores ∧
      ∀ i ∈ new, (dst ≤ i ∧ i < dst + size) ∨ i ∈ other) :
    WroteBut other ram ram' dst size text := by
  refine ⟨fun i c hc hi => ?_, fun i hi hother => ?_, hstores⟩
  · obtain ⟨hlt, hget⟩ := List.getElem?_eq_some_iff.mp hc
    rw [hbytes _ hi, storeAt_inside _ _ _ _ hlt, hget]
  · have hlength := length_truncated size text
    rw [hbytes i hother, storeAt_outside _ _ _ _ (by omega)]

/-- The NUL of a write. -/
theorem nul (h : WroteBut other ram ram' dst size text)
    (hother : dst + min text.length (size - 1) ∉ other) :
    ram'.bytes (dst + min text.length (size - 1)) = 0 := by
  refine h.content _ 0 ?_ hother
  have hlength : (text.take (size - 1)).length = min text.length (size - 1) := by
    rw [List.length_take, Nat.min_comm]
  rw [truncated, ← hlength, List.getElem?_append_right (le_refl _), Nat.sub_self]
  rfl

/-- The characters of a write. -/
theorem char (h : WroteBut other ram ram' dst size text) {i : Nat} {c : Byte}
    (hi : i < min text.length (size - 1)) (hc : text[i]? = some c) (hother : dst + i ∉ other) :
    ram'.bytes (dst + i) = c := by
  refine h.content i c ?_ hother
  rw [truncated, List.getElem?_append_left (by rw [List.length_take]; omega),
    List.getElem?_take_of_lt (by omega), hc]

/-- A write into what the first one has left is a write of both texts. -/
theorem append (hsize : 0 < size) (h : WroteBut other ram ram' dst size text)
    (h' : WroteBut other' ram' ram'' (dst + min text.length (size - 1))
      (size - min text.length (size - 1)) text') :
    WroteBut (other ++ other') ram ram'' dst size (text ++ text') := by
  have hlength : (text.take (size - 1)).length = min text.length (size - 1) := by
    rw [List.length_take, Nat.min_comm]
  refine ⟨fun i c hc hi => ?_, fun i hi hother => ?_, ?_⟩
  · rw [List.mem_append, not_or] at hi
    rw [truncated_append hsize] at hc
    by_cases hfirst : i < min text.length (size - 1)
    · -- the second write leaves the characters of the first
      rw [List.getElem?_append_left (by omega), List.getElem?_take_of_lt (by omega)] at hc
      rw [h'.frame _ (by omega) hi.2, h.char hfirst hc hi.1]
    · -- it overwrites the NUL of the first
      obtain ⟨j, rfl⟩ := Nat.exists_eq_add_of_le (Nat.le_of_not_lt hfirst)
      rw [List.getElem?_append_right (by omega), hlength, Nat.add_sub_cancel_left] at hc
      rw [← Nat.add_assoc] at hi ⊢
      exact h'.content j c hc hi.2
  · rw [List.mem_append, not_or] at hother
    rw [h'.frame i (by omega) hother.2, h.frame i hi hother.1]
  · obtain ⟨new, hnew, hrange⟩ := h.stores
    obtain ⟨new', hnew', hrange'⟩ := h'.stores
    refine ⟨new' ++ new, by rw [hnew', hnew, List.append_assoc], fun i hi => ?_⟩
    rw [List.mem_append]
    rcases List.mem_append.mp hi with hi | hi
    · rcases hrange' i hi with hin | hin
      · exact Or.inl (by omega)
      · exact Or.inr (Or.inr hin)
    · exact (hrange i hi).imp_right Or.inl

/-- The characters of a write without exceptions. -/
theorem load_take (h : WroteBut [] ram ram' dst size text) :
    load ram'.bytes dst (min text.length (size - 1)) = text.take (size - 1) := by
  refine List.ext_getElem? fun i => ?_
  by_cases hi : i < min text.length (size - 1)
  · have hc := List.getElem?_eq_getElem (show i < text.length by omega)
    rw [getElem?_load _ _ _ _ hi, List.getElem?_take_of_lt (by omega), hc,
      h.char hi hc List.not_mem_nil]
  · rw [List.getElem?_eq_none (by rw [length_load]; omega),
      List.getElem?_eq_none (by rw [List.length_take]; omega)]

end WroteBut

/-! ## One call -/

/-- The characters that may stand between a `%` and its conversion. -/
def modifiers : List Byte := "-+ #0123456789.*hlLqjzt$'I".toList.map chr

/-- The format may have a `%n` in it. -/
def mayCount : List Byte → Bool
  | [] => false
  | c :: rest =>
      (c = chr '%' && (rest.dropWhile (· ∈ modifiers)).head? = some (chr 'n')) || mayCount rest

/-- A `vsnprintf` that conforms for some formats: it writes the text of the format and the
arguments, as much as there is room for and a NUL, and returns the length of the whole text, if
that is an `int`. Its `%n` store to the bytes `counted`. -/
def ConformsOn (formats : CStr → Prop) (counted : CStr → VaList → List Nat)
    (vsnprintf : StringFormatter) (text : CStr → VaList → List Byte) : Prop :=
  ∀ ram buf (size : BitVec 64) format args, formats format → 0 < size.toNat →
    (text format args).length < 2 ^ 31 →
    ∃ ram' nc, vsnprintf ram buf size format args = .ok (ram', nc) ∧
      nc.toNat = (text format args).length ∧
      WroteBut (counted format args) ram ram' buf size.toNat (text format args)

/-- A `vsnprintf` that conforms. -/
abbrev ConformsBut (counted : CStr → VaList → List Nat) : StringFormatter →
    (CStr → VaList → List Byte) → Prop := ConformsOn (fun _ => True) counted

/-- A `vsnprintf` that conforms, for the formats without a `%n`. -/
abbrev Conforms : StringFormatter → (CStr → VaList → List Byte) → Prop :=
  ConformsOn (fun format => mayCount format.chars = false) fun _ _ => []

/-- The text of a call. -/
def Call.text (text : CStr → VaList → List Byte) : Call → List Byte
  | .bufprintf format args => text format args
  | .bufprintfAsyncsignalsafe format args => fullText format args

/-- The bytes that the `%n` of a call store to. -/
def Call.counted (counted : CStr → VaList → List Nat) : Call → List Nat
  | .bufprintf format args => counted format args
  | .bufprintfAsyncsignalsafe format args => format.counted args

/-- The calls that are meant: a text whose length is an `int`, and for
`bufprintf_asyncsignalsafe` only admissible directives. -/
def Call.Admissible (text : CStr → VaList → List Byte) (call : Call) : Prop :=
  (call.text text).length < 2 ^ 31 ∧
    match call with
    | .bufprintf _ _ => True
    | .bufprintfAsyncsignalsafe format args => format.Admissible args

/-- No precision of the call makes `prec--` in `itoa` pass `INT_MIN`. -/
def Call.PrecisionsKept : Call → Prop
  | .bufprintf _ _ => True
  | .bufprintfAsyncsignalsafe format args => format.PrecisionsKept args

/-- The format of a call of libc is one of these. -/
def Call.FormatIn (formats : CStr → Prop) : Call → Prop
  | .bufprintf format _ => formats format
  | .bufprintfAsyncsignalsafe _ _ => True

/-- The call stores no count. -/
def Call.CountsNothing (call : Call) : Prop :=
  call.FormatIn (fun format => mayCount format.chars = false) ∧ call.counted (fun _ _ => []) = []

theorem Call.countsNothing_bufprintf {format : CStr} (h : mayCount format.chars = false)
    (args : VaList) : (Call.bufprintf format args).CountsNothing := ⟨h, rfl⟩

theorem Call.countsNothing_asyncsignalsafe {format : CStr} {args : VaList}
    (h : format.counted args = []) :
    (Call.bufprintfAsyncsignalsafe format args).CountsNothing := ⟨trivial, h⟩

/-- The buffer and the memory after `text` was appended since `bufinit`, apart from the bytes
`other`. -/
structure FilledBut (other : List Nat) (ram : Ram) (output size : Nat) (text : List Byte)
    (s : Buffer × Ram) : Prop where
  data : s.1.data = output + min text.length (size - 1)
  available : s.1.available.toNat = size - min text.length (size - 1)
  wrote : WroteBut other ram s.2 output size text

/-- The buffer and the memory after `text` was appended since `bufinit`. -/
abbrev Filled : Ram → Nat → Nat → List Byte → Buffer × Ram → Prop := FilledBut []

theorem filled_bufinit (ram : Ram) (output : Nat) {size : BitVec 64} (hsize : 0 < size.toNat) :
    Filled ram output size.toNat [] (bufinit ram output size) := by
  have hbytes : (bufinit ram output size).2.bytes =
      storeAt ram.bytes output (truncated size.toNat []) := by
    rw [truncated, List.take_nil]
    rfl
  refine ⟨?_, ?_, .of_storeAt hsize (fun i _ => congrFun hbytes i) ⟨[output], rfl, ?_⟩⟩
  · rw [List.length_nil, Nat.zero_min]
    rfl
  · rw [List.length_nil, Nat.zero_min]
    rfl
  · exact List.forall_mem_singleton.mpr (Or.inl (by omega))

/-- The number of characters that `__bufprintf` counts. -/
theorem toNat_nc (nc : BitVec 32) (available : BitVec 64) (hnc : nc.toNat < 2 ^ 31)
    (havailable : 0 < available.toNat) :
    (if nc.setWidth 64 ≥ available then (available - 1).setWidth 32 else nc).toNat =
      min nc.toNat (available.toNat - 1) := by
  have hwide : (nc.setWidth 64).toNat = nc.toNat := by
    rw [BitVec.toNat_setWidth]
    omega
  have hle : nc.setWidth 64 ≥ available ↔ available.toNat ≤ nc.toNat := by
    rw [ge_iff_le, BitVec.le_def, hwide]
  split
  · have := hle.mp ‹_›
    have hone : (1 : BitVec 64).toNat = 1 := rfl
    rw [BitVec.toNat_setWidth, BitVec.toNat_sub_of_le (by rw [BitVec.le_def]; omega)]
    omega
  · have := mt hle.mpr ‹_›
    omega

theorem toNat_sub_count {count : BitVec 32} {available : BitVec 64}
    (h : count.toNat ≤ available.toNat) :
    (available - count.setWidth 64).toNat = available.toNat - count.toNat := by
  have hwide : (count.setWidth 64).toNat = count.toNat := by
    rw [BitVec.toNat_setWidth]
    omega
  rw [BitVec.toNat_sub_of_le (by rw [BitVec.le_def]; omega), hwide]

/-- How far one call moves the buffer, whichever formatter it uses. -/
theorem bufprintfWith_eq {s : Buffer × Ram} {text : List Byte} {formatter : StringFormatter}
    {format : CStr} {args : VaList} {ram' : Ram} {nc : BitVec 32}
    (havailable : 0 < s.1.available.toNat)
    (hformat : formatter s.2 s.1.data s.1.available format args = .ok (ram', nc))
    (hnc : nc.toNat = text.length) (hint : text.length < 2 ^ 31) :
    ∃ buf ret, Print.bufprintfWith formatter s.1 s.2 format args = .ok ((buf, ram'), ret) ∧
      buf.data = s.1.data + min text.length (s.1.available.toNat - 1) ∧
      buf.available.toNat =
        s.1.available.toNat - min text.length (s.1.available.toNat - 1) ∧
      ret = (buf.data : Int) - s.1.data := by
  have hcount := toNat_nc nc s.1.available (by omega) havailable
  rw [hnc] at hcount
  rw [Print.bufprintfWith, hformat]
  refine ⟨_, _, rfl, congrArg (s.1.data + ·) hcount, ?_, ?_⟩
  · show (s.1.available - BitVec.setWidth 64 _).toNat = _
    rw [toNat_sub_count (by omega), hcount]
  · show BitVec.toInt _ = (s.1.data + BitVec.toNat _ : Nat) - (s.1.data : Int)
    rw [BitVec.toInt_eq_toNat_of_lt (by omega)]
    omega

/-- What one call does, whichever formatter it uses. -/
theorem FilledBut.bufprintfWith {other other' : List Nat} {ram : Ram} {output size : Nat}
    {text text' : List Byte} {s : Buffer × Ram} (hsize : 0 < size)
    (h : FilledBut other ram output size text s) {formatter : StringFormatter} {format : CStr}
    {args : VaList} {ram' : Ram} {nc : BitVec 32}
    (hformat : formatter s.2 s.1.data s.1.available format args = .ok (ram', nc))
    (hnc : nc.toNat = text'.length) (hint : text'.length < 2 ^ 31)
    (hwrote : WroteBut other' s.2 ram' s.1.data s.1.available.toNat text') :
    ∃ s' ret, Print.bufprintfWith formatter s.1 s.2 format args = .ok (s', ret) ∧
      FilledBut (other ++ other') ram output size (text ++ text') s' ∧
      ret = (s'.1.data : Int) - s.1.data := by
  have havailable := h.available
  obtain ⟨buf, ret, hrun, hbuf, hleft, hret⟩ :=
    bufprintfWith_eq (by omega) hformat hnc hint
  refine ⟨(buf, ram'), ret, hrun, ⟨?_, ?_, ?_⟩, hret⟩
  · show buf.data = _
    rw [hbuf, h.data, List.length_append]
    omega
  · show buf.available.toNat = _
    rw [hleft, havailable, List.length_append]
    omega
  · rw [h.data, h.available] at hwrote
    exact h.wrote.append hsize hwrote

section Law

variable {formats : CStr → Prop} {counted : CStr → VaList → List Nat}
  {vsnprintf : StringFormatter} {text : CStr → VaList → List Byte}

/-- What a call does. -/
theorem FilledBut.run {other : List Nat} {ram : Ram} {output size : Nat} {texts : List Byte}
    {s : Buffer × Ram} (hconforms : ConformsOn formats counted vsnprintf text) (hsize : 0 < size)
    (h : FilledBut other ram output size texts s) {call : Call}
    (hadmissible : call.Admissible text) (hkept : call.PrecisionsKept)
    (hin : call.FormatIn formats) :
    ∃ s' ret, call.run vsnprintf s = .ok (s', ret) ∧
      FilledBut (other ++ call.counted counted) ram output size (texts ++ call.text text) s' ∧
      ret = (s'.1.data : Int) - s.1.data := by
  have hpos : 0 < s.1.available.toNat := by
    rw [h.available]
    omega
  cases call with
  | bufprintf format args =>
      have hint : (text format args).length < 2 ^ 31 := hadmissible.1
      obtain ⟨ram', nc, hformat, hnc, hwrote⟩ :=
        hconforms s.2 s.1.data s.1.available format args hin hpos hint
      exact h.bufprintfWith hsize hformat hnc hint hwrote
  | bufprintfAsyncsignalsafe format args =>
      have hint : (fullText format args).length < 2 ^ 31 := hadmissible.1
      obtain ⟨ram', hformat, hbytes, hstores⟩ :=
        vsnprintf_asyncsignalsafe_eq hadmissible.2 hkept s.2 s.1.data hpos
      have hnc : (BitVec.ofNat 32 (fullText format args).length).toNat =
          (fullText format args).length := by
        rw [BitVec.toNat_ofNat, Nat.mod_eq_of_lt (by omega)]
      exact h.bufprintfWith hsize hformat hnc hint (.of_storeAt hpos hbytes hstores)

/-- What a sequence of calls does. -/
theorem FilledBut.runCalls {other : List Nat} {ram : Ram} {output size : Nat} {texts : List Byte}
    {s : Buffer × Ram} (hconforms : ConformsOn formats counted vsnprintf text) (hsize : 0 < size)
    (h : FilledBut other ram output size texts s) (calls : List Call)
    (hadmissible : ∀ call ∈ calls, call.Admissible text)
    (hkept : ∀ call ∈ calls, call.PrecisionsKept)
    (hin : ∀ call ∈ calls, call.FormatIn formats) :
    ∃ s', Print.runCalls vsnprintf calls s = .ok s' ∧
      FilledBut (other ++ calls.flatMap (Call.counted counted)) ram output size
        (texts ++ calls.flatMap (Call.text text)) s' := by
  induction calls generalizing other texts s with
  | nil => exact ⟨s, rfl, by simpa using h⟩
  | cons call calls ih =>
      rw [List.forall_mem_cons] at hadmissible hkept hin
      obtain ⟨t, ret, hrun, ht, -⟩ := h.run hconforms hsize hadmissible.1 hkept.1 hin.1
      obtain ⟨s', hruns, hs'⟩ := ih ht hadmissible.2 hkept.2 hin.2
      refine ⟨s', ?_, by simpa [List.append_assoc] using hs'⟩
      show ((call.run vsnprintf s >>= _) >>= _) = _
      rw [hrun]
      exact hruns

variable {ram : Ram} {output size : Nat} {texts : List Byte} {s : Buffer × Ram}

/-- What a call without `%n` does. -/
theorem Filled.run (hconforms : Conforms vsnprintf text) (hsize : 0 < size)
    (h : Filled ram output size texts s) {call : Call} (hadmissible : call.Admissible text)
    (hkept : call.PrecisionsKept) (hcounts : call.CountsNothing) :
    ∃ s' ret, call.run vsnprintf s = .ok (s', ret) ∧
      Filled ram output size (texts ++ call.text text) s' ∧
      ret = (s'.1.data : Int) - s.1.data := by
  obtain ⟨s', ret, hrun, hs', hret⟩ := FilledBut.run hconforms hsize h hadmissible hkept hcounts.1
  rw [hcounts.2] at hs'
  exact ⟨s', ret, hrun, hs', hret⟩

/-- What a sequence of calls without `%n` does. -/
theorem Filled.runCalls (hconforms : Conforms vsnprintf text) (hsize : 0 < size)
    (h : Filled ram output size texts s) (calls : List Call)
    (hadmissible : ∀ call ∈ calls, call.Admissible text)
    (hkept : ∀ call ∈ calls, call.PrecisionsKept)
    (hcounts : ∀ call ∈ calls, call.CountsNothing) :
    ∃ s', Print.runCalls vsnprintf calls s = .ok s' ∧
      Filled ram output size (texts ++ calls.flatMap (Call.text text)) s' := by
  obtain ⟨s', hruns, hs'⟩ := FilledBut.runCalls hconforms hsize h calls hadmissible hkept
    fun call hcall => (hcounts call hcall).1
  rw [List.flatMap_eq_nil_iff.mpr fun call hcall => (hcounts call hcall).2] at hs'
  exact ⟨s', hruns, hs'⟩

end Law

/-! ## Any sequence of calls -/

/-- The state of the buffer after calls with the texts `text`, in an array of `size` bytes at
`output`, apart from the bytes `other`. -/
structure AppendedBut (other : List Nat) (ram : Ram) (output size : Nat) (text : List Byte)
    (s : Buffer × Ram) : Prop where
  total : s.1.data - output + s.1.available.toNat = size
  available : 1 ≤ s.1.available.toNat
  nul : s.1.data ∉ other → s.2.bytes s.1.data = 0
  length : output ≤ s.1.data ∧ s.1.data - output = min (size - 1) text.length
  content : ∀ i c, i < s.1.data - output → text[i]? = some c → output + i ∉ other →
    s.2.bytes (output + i) = c
  stores : ∃ new, s.2.stores = new ++ ram.stores ∧
    ∀ i ∈ new, (output ≤ i ∧ i < output + size) ∨ i ∈ other

/-- The state of the buffer after calls with the texts `text`, in an array of `size` bytes at
`output`. -/
abbrev Appended : Ram → Nat → Nat → List Byte → Buffer × Ram → Prop := AppendedBut []

theorem FilledBut.appended {other : List Nat} {ram : Ram} {output size : Nat} {text : List Byte}
    {s : Buffer × Ram} (hsize : 0 < size) (h : FilledBut other ram output size text s) :
    AppendedBut other ram output size text s := by
  have hdata := h.data
  have havailable := h.available
  refine ⟨by omega, by omega, fun hother => ?_, by omega, fun i c hi hc hother => ?_,
    h.wrote.stores⟩
  · rw [hdata] at hother ⊢
    exact h.wrote.nul hother
  · exact h.wrote.char (by omega) hc hother

/-- After `bufinit` and any calls whose precisions are kept, of a libc that conforms: the buffer
holds as much of all their texts as fits into the array with a NUL, and each call has returned the
number of characters it appended. What the bytes hold that a `%n` has stored to is left open. -/
theorem buffer_law (vsnprintf : StringFormatter) (counted : CStr → VaList → List Nat)
    (text : CStr → VaList → List Byte) (hconforms : ConformsBut counted vsnprintf text) (ram : Ram)
    (output : Nat) (size : BitVec 64) (hsize : 1 ≤ size.toNat) (calls : List Call) (call : Call)
    (hadmissible : ∀ c ∈ calls ++ [call], c.Admissible text)
    (hkept : ∀ c ∈ calls ++ [call], c.PrecisionsKept) :
    ∃ s s' ret, runCalls vsnprintf calls (bufinit ram output size) = .ok s ∧
      call.run vsnprintf s = .ok (s', ret) ∧
      AppendedBut (calls.flatMap (Call.counted counted)) ram output size.toNat
        (calls.flatMap (Call.text text)) s ∧
      AppendedBut ((calls ++ [call]).flatMap (Call.counted counted)) ram output size.toNat
        ((calls ++ [call]).flatMap (Call.text text)) s' ∧
      ret = (s'.1.data : Int) - s.1.data := by
  have hin : ∀ c : Call, c.FormatIn fun _ => True := fun c => by cases c <;> trivial
  rw [List.forall_mem_append, List.forall_mem_singleton] at hadmissible hkept
  obtain ⟨s, hruns, hs⟩ := FilledBut.runCalls hconforms hsize (filled_bufinit ram output hsize)
    calls hadmissible.1 hkept.1 fun c _ => hin c
  rw [List.nil_append, List.nil_append] at hs
  obtain ⟨s', ret, hrun, hs', hret⟩ := hs.run hconforms hsize hadmissible.2 hkept.2 (hin call)
  have hconcat : ∀ {α : Type} (f : Call → List α),
      (calls ++ [call]).flatMap f = calls.flatMap f ++ f call := by simp
  rw [← hconcat, ← hconcat] at hs'
  exact ⟨s, s', ret, hruns, hrun, hs.appended hsize, hs'.appended hsize, hret⟩

/-- A `vsnprintf` that prints `text`. -/
def textVsnprintf (text : CStr → VaList → List Byte) : StringFormatter :=
  fun ram buf size format args =>
    let stored := truncated size.toNat (text format args)
    .ok (⟨storeAt ram.bytes buf stored, (List.range stored.length).map (buf + ·) ++ ram.stores⟩,
      BitVec.ofNat 32 (text format args).length)

theorem conformsOn_textVsnprintf (formats : CStr → Prop) (text : CStr → VaList → List Byte) :
    ConformsOn formats (fun _ _ => []) (textVsnprintf text) text := by
  intro ram buf size format args _ hsize hint
  refine ⟨_, _, rfl, ?_, .of_storeAt hsize (fun _ _ => rfl) ⟨_, rfl, fun i hi => ?_⟩⟩
  · exact Nat.mod_eq_of_lt (hint.trans (by decide))
  · obtain ⟨j, hj, rfl⟩ := List.mem_map.mp hi
    rw [List.mem_range, length_truncated] at hj
    omega

theorem conforms_textVsnprintf (text : CStr → VaList → List Byte) :
    Conforms (textVsnprintf text) text := conformsOn_textVsnprintf _ text

/-- `vsnprintf` on formats without directives. -/
def plainVsnprintf : StringFormatter := textVsnprintf fun format _ => format.chars

theorem conforms_plainVsnprintf : Conforms plainVsnprintf fun format _ => format.chars :=
  conforms_textVsnprintf _

theorem conformsBut_plainVsnprintf :
    ConformsBut (fun _ _ => []) plainVsnprintf fun format _ => format.chars :=
  conformsOn_textVsnprintf _ _

/-- The string of some characters. -/
def cstr (s : List Char) (h : 0 ∉ s.map chr) : CStr := ⟨s.map chr, h⟩

/-- The arguments of some words, without strings. -/
def words (l : List (BitVec 64)) : VaList := fun i => ⟨l.getD i 0, ⟨[], List.not_mem_nil⟩⟩

/-- `bufprintf(buf, "ab")`. -/
def printAb : Call := .bufprintf (cstr ['a', 'b'] (by decide)) (words [])

/-- `bufprintf_asyncsignalsafe(buf, "%.3d", 5)`. -/
def printFive : Call :=
  .bufprintfAsyncsignalsafe (cstr ['%', '.', '3', 'd'] (by decide)) (words [5])

theorem printFive_kept : printFive.PrecisionsKept := by
  intro d hd q hq
  obtain rfl : d = ⟨{ prec := 3, precGiven := true }, chr 'd', 0⟩ := List.mem_singleton.mp hd
  obtain rfl := Option.some.inj hq
  have : (numeral 10 5).length ≤ 1 := length_numeral_le (by decide) (by decide) (by decide)
  show -2147483648 + ((numeral 10 5).length : Int) ≤ 3
  omega

theorem printFive_admissible (text : CStr → VaList → List Byte) : printFive.Admissible text := by
  show (fullText (cstr ['%', '.', '3', 'd'] (by decide)) (words [5])).length < 2 ^ 31 ∧
    CStr.Admissible (cstr ['%', '.', '3', 'd'] (by decide)) (words [5])
  decide

/-- The two calls in an array of four bytes: the second text is cut. -/
theorem buffer_law_cut :
    ∃ s s' ret, runCalls plainVsnprintf [printAb] (bufinit ⟨fun _ => 0, []⟩ 100 4) = .ok s ∧
      printFive.run plainVsnprintf s = .ok (s', ret) ∧
      Appended ⟨fun _ => 0, []⟩ 100 4 (['a', 'b', '0', '0', '5'].map chr) s' := by
  obtain ⟨s, s', ret, hruns, hrun, -, happended, -⟩ :=
    buffer_law plainVsnprintf _ _ conformsBut_plainVsnprintf _ 100 4 (by decide) [printAb]
      printFive
      (List.forall_mem_append.mpr ⟨List.forall_mem_singleton.mpr ⟨by decide, trivial⟩,
        List.forall_mem_singleton.mpr (printFive_admissible _)⟩)
      (List.forall_mem_append.mpr ⟨List.forall_mem_singleton.mpr trivial,
        List.forall_mem_singleton.mpr printFive_kept⟩)
  exact ⟨s, s', ret, hruns, hrun, happended⟩

/-- `bufprintf_asyncsignalsafe(buf, "a%n", (int *) 104)`. -/
def printCount : Call :=
  .bufprintfAsyncsignalsafe (cstr ['a', '%', 'n'] (by decide)) (words [104])

theorem printCount_admissible (text : CStr → VaList → List Byte) : printCount.Admissible text := by
  show (fullText (cstr ['a', '%', 'n'] (by decide)) (words [104])).length < 2 ^ 31 ∧
    CStr.Admissible (cstr ['a', '%', 'n'] (by decide)) (words [104])
  decide

/-- With an `int` behind the array, `%n` stores behind the array. -/
theorem count_stores_behind :
    ¬ ∀ (vsnprintf : StringFormatter) (counted : CStr → VaList → List Nat)
      (text : CStr → VaList → List Byte), ConformsBut counted vsnprintf text →
      ∀ (ram : Ram) (output : Nat) (size : BitVec 64), 1 ≤ size.toNat →
      ∀ (calls : List Call) (call : Call), (∀ c ∈ calls ++ [call], c.Admissible text) →
      ∃ s s' ret, runCalls vsnprintf calls (bufinit ram output size) = .ok s ∧
        call.run vsnprintf s = .ok (s', ret) ∧
        Appended ram output size.toNat (calls.flatMap (Call.text text)) s ∧
        Appended ram output size.toNat ((calls ++ [call]).flatMap (Call.text text)) s' ∧
        ret = (s'.1.data : Int) - s.1.data := by
  intro hall
  obtain ⟨s, s', ret, hruns, hrun, -, happended, -⟩ := hall plainVsnprintf _ _
    conformsBut_plainVsnprintf ⟨fun _ => 0, []⟩ 100 4 (by decide) [] printCount
    (List.forall_mem_singleton.mpr (printCount_admissible _))
  cases hruns
  cases hrun
  obtain ⟨new, hnew, hrange⟩ := happended.stores
  rw [List.append_nil] at hnew
  subst hnew
  exact absurd (hrange 104 (by decide)) (by decide)

end BazelPro.Print
