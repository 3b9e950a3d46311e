import BazelPro.Print.FullText

/-!
# What the formatter leaves in the array

`X_STORE_PRT` keeps counting when the array is full, and stores a NUL into its last byte then
(`Printed`). So the array receives the beginning of the full text and a NUL, nothing else, and the
count is that of the full text (`vsnprintf_asyncsignalsafe_eq`). Where a `%n` stores its count,
which may be anywhere, is left out of this.
-/

namespace BazelPro.Print

open C Sink

/-- The beginning of a text that fits into `size` bytes with its NUL, and the NUL. -/
def truncated (size : Nat) (text : List Byte) : List Byte := text.take (size - 1) ++ [0]

theorem length_truncated (size : Nat) (text : List Byte) :
    (truncated size text).length = min text.length (size - 1) + 1 := by
  rw [truncated, List.length_append, List.length_take, Nat.min_comm]
  rfl

/-- The printer has taken `text` since it began at `dst` with `size` bytes; what the bytes `other`
hold is left open. -/
structure Printed (other : List Nat) (ram : Ram) (dst size : Nat) (text : List Byte)
    (p : Printer) : Prop where
  buf : p.buf = dst
  be : p.be = dst + size - 1
  bp : p.bp = dst + min text.length (size - 1)
  n : p.n = BitVec.ofNat 32 text.length
  bytes : ∀ i ∉ other, p.ram.bytes i =
    storeAt ram.bytes dst (if text.length < size then text else truncated size text) i
  stores : ∃ new, p.ram.stores = new ++ ram.stores ∧
    ∀ i ∈ new, (dst ≤ i ∧ i < dst + size) ∨ i ∈ other

variable {other : List Nat} {ram : Ram} {dst size : Nat} {text : List Byte} {p : Printer}

theorem Printed.refl (other : List Nat) (ram : Ram) (dst size : Nat) (h : 0 < size) :
    Printed other ram dst size [] ⟨ram, dst, dst + size - 1, dst, 0⟩ :=
  ⟨rfl, rfl, (Nat.zero_min _).symm ▸ rfl, rfl, by simp [h], [], rfl, by simp⟩

/-- More stores, after those that were made already. -/
theorem Printed.store (h : Printed other ram dst size text p) {ram' : Ram} (more : List Nat)
    (hmore : ram'.stores = more ++ p.ram.stores)
    (hrange : ∀ i ∈ more, (dst ≤ i ∧ i < dst + size) ∨ i ∈ other) :
    ∃ new, ram'.stores = new ++ ram.stores ∧
      ∀ i ∈ new, (dst ≤ i ∧ i < dst + size) ∨ i ∈ other := by
  obtain ⟨new, hnew, hrange'⟩ := h.stores
  refine ⟨more ++ new, by rw [hmore, hnew, List.append_assoc], ?_⟩
  exact List.forall_mem_append.mpr ⟨hrange, hrange'⟩

/-- `X_STORE_PRT` appends a character to the text. -/
theorem Printed.put (h : Printed other ram dst size text p) (hsize : 0 < size) (c : Byte) :
    Printed other ram dst size (text ++ [c]) (p.xStorePrt c) := by
  have hn : p.n + 1 = BitVec.ofNat 32 (text ++ [c]).length := by
    rw [h.n, List.length_append, List.length_singleton, BitVec.ofNat_add]
    rfl
  have hbp := h.bp
  have hbe := h.be
  unfold Printer.xStorePrt
  by_cases hroom : p.bp < p.be
  · -- the character is stored
    have hlength : text.length + 1 < size := by omega
    rw [if_pos hroom]
    refine ⟨h.buf, h.be, ?_, hn, fun i hi => ?_,
      h.store [p.bp] rfl (List.forall_mem_singleton.mpr (Or.inl (by omega)))⟩
    · show p.bp + 1 = _
      rw [List.length_append, List.length_singleton]
      omega
    · show storeAt p.ram.bytes p.bp [c] i = _
      rw [storeAt_congr (h.bytes i hi), if_pos (by omega), if_pos (by simpa using hlength), hbp,
        Nat.min_eq_left (by omega), storeAt_append]
  · -- the array is full: the last byte gets the NUL
    have hfull : size - 1 ≤ text.length := by omega
    rw [if_neg hroom, if_pos (by omega)]
    refine ⟨h.buf, h.be, ?_, hn, fun i hi => ?_,
      h.store [p.be] rfl (List.forall_mem_singleton.mpr (Or.inl (by omega)))⟩
    · show p.bp = _
      rw [List.length_append, List.length_singleton]
      omega
    · show storeAt p.ram.bytes p.be [0] i = _
      have htake : (text ++ [c]).take (size - 1) = text.take (size - 1) :=
        List.take_append_of_le_length hfull
      have hend : p.be = dst + (text.take (size - 1)).length := by
        rw [List.length_take]
        omega
      have hover : ¬ (text ++ [c]).length < size := by
        rw [List.length_append, List.length_singleton]
        omega
      rw [storeAt_congr (h.bytes i hi), hend, if_neg hover, truncated, truncated, htake]
      by_cases hlength : text.length < size
      · -- the text has just filled the array
        have hall : text.take (size - 1) = text := List.take_of_length_le (by omega)
        rw [if_pos hlength, hall, storeAt_append]
      · rw [if_neg hlength, storeAt_over _ _ _ _ _ (le_refl _)]

/-- `%n` stores to bytes that are left open. -/
theorem Printed.count (h : Printed other ram dst size text p) {address : Nat} (n : Int)
    (hother : ∀ i ∈ intBytes address, i ∈ other) :
    Printed other ram dst size text { p with ram := p.ram.storeInt address n } := by
  refine ⟨h.buf, h.be, h.bp, h.n, fun i hi => ?_,
    h.store (intBytes address) rfl fun i hi => Or.inr (hother i hi)⟩
  rw [← h.bytes i hi]
  have houtside : i < address ∨ address + 4 ≤ i := by
    by_contra hinside
    exact hi (hother i (by simp only [intBytes, List.mem_cons, List.not_mem_nil]; omega))
  exact storeAt_outside _ _ _ i houtside

/-- Any events append their characters. -/
theorem Printed.putAll (h : Printed other ram dst size text p) (hsize : 0 < size)
    (es : List Event) (hother : ∀ i ∈ counted es, i ∈ other) :
    Printed other ram dst size (text ++ chars es) (Sink.putAll p es) := by
  induction es generalizing text p with
  | nil => exact (List.append_nil text).symm ▸ h
  | cons e es ih =>
      rw [counted, List.flatMap_cons, List.forall_mem_append] at hother
      cases e with
      | char c =>
          have := ih (h.put hsize c) hother.2
          rw [List.append_assoc] at this
          exact this
      | count address => exact ih (h.count _ hother.1) hother.2

/-- The NUL at the end. -/
theorem Printed.finish (h : Printed other ram dst size text p) (hsize : 0 < size) {i : Nat}
    (hi : i ∉ other) :
    (p.ram.store (if p.bp < p.be then p.bp else p.be) 0).bytes i =
      storeAt ram.bytes dst (truncated size text) i := by
  have hbp := h.bp
  have hbe := h.be
  have hend : (if p.bp < p.be then p.bp else p.be) = dst + (text.take (size - 1)).length := by
    rw [List.length_take]
    split <;> omega
  rw [hend]
  show storeAt p.ram.bytes _ [0] i = _
  rw [storeAt_congr (h.bytes i hi)]
  split
  · have hall : text.take (size - 1) = text := List.take_of_length_le (by omega)
    rw [truncated, hall, storeAt_append]
  · rw [truncated, storeAt_over _ _ _ _ _ (le_refl _)]

/-- The array receives what a list would have. -/
theorem vsnprintf_asyncsignalsafe_events (ram : Ram) (buf : Nat) (size : BitVec 64) (fmt : CStr)
    (ap : VaList) : vsnprintfAsyncsignalsafe ram buf size fmt ap =
      (format fmt ap ([] : List Event)).map fun es =>
        let p := putAll (⟨ram, buf, buf + size.toNat - 1, buf, 0⟩ : Printer) es
        (p.ram.store (if p.bp < p.be then p.bp else p.be) 0, p.n) := by
  have hhom := format_hom (Hom.putAll (⟨ram, buf, buf + size.toNat - 1, buf, 0⟩ : Printer)) fmt ap
    ([] : List Event)
  rw [putAll_nil] at hhom
  rw [vsnprintfAsyncsignalsafe, hhom]
  cases format fmt ap ([] : List Event) <;> rfl

/-- What `vsnprintf_asyncsignalsafe` leaves in the array, and what it returns, when the formatter
has put out these events. The bytes that `%n` stores to are excepted. -/
theorem vsnprintf_asyncsignalsafe_of_events {fmt : CStr} {ap : VaList} {es : List Event}
    (hformat : format fmt ap ([] : List Event) = .ok es) {other : List Nat}
    (hother : ∀ i ∈ counted es, i ∈ other) (ram : Ram) (buf : Nat) {size : BitVec 64}
    (hsize : 0 < size.toNat) :
    ∃ ram', vsnprintfAsyncsignalsafe ram buf size fmt ap =
        .ok (ram', BitVec.ofNat 32 (chars es).length) ∧
      (∀ i ∉ other,
        ram'.bytes i = storeAt ram.bytes buf (truncated size.toNat (chars es)) i) ∧
      ∃ new, ram'.stores = new ++ ram.stores ∧
        ∀ i ∈ new, (buf ≤ i ∧ i < buf + size.toNat) ∨ i ∈ other := by
  have h := (Printed.refl other ram buf size.toNat hsize).putAll hsize es hother
  rw [List.nil_append] at h
  rw [vsnprintf_asyncsignalsafe_events, hformat]
  dsimp only [Except.map]
  generalize Sink.putAll (_ : Printer) es = p at h
  have hbp := h.bp
  have hbe := h.be
  refine ⟨_, congrArg (fun n => Except.ok (_, n)) h.n, fun i hi => h.finish hsize hi,
    h.store [_] rfl (List.forall_mem_singleton.mpr (Or.inl ?_))⟩
  split <;> omega

/-- What `vsnprintf_asyncsignalsafe` leaves in the array, and what it returns. -/
theorem vsnprintf_asyncsignalsafe_eq {fmt : CStr} {ap : VaList}
    (hadmissible : fmt.Admissible ap) (hkept : fmt.PrecisionsKept ap) (ram : Ram) (buf : Nat)
    {size : BitVec 64} (hsize : 0 < size.toNat) :
    ∃ ram', vsnprintfAsyncsignalsafe ram buf size fmt ap =
        .ok (ram', BitVec.ofNat 32 (fullText fmt ap).length) ∧
      (∀ i ∉ fmt.counted ap,
        ram'.bytes i = storeAt ram.bytes buf (truncated size.toNat (fullText fmt ap)) i) ∧
      ∃ new, ram'.stores = new ++ ram.stores ∧
        ∀ i ∈ new, (buf ≤ i ∧ i < buf + size.toNat) ∨ i ∈ fmt.counted ap := by
  obtain ⟨es, hes⟩ := format_ok hadmissible hkept ([] : List Event)
  have hchars : fullText fmt ap = chars es := by rw [fullText, hes]
  rw [hchars]
  refine vsnprintf_asyncsignalsafe_of_events hes (fun i hi => ?_) ram buf hsize
  rwa [counted_format hes] at hi

end BazelPro.Print
