import BazelPro.Utils.DumpText

/-!
# Dumps of what was received

The receive loop dumps its buffer after every call of `recvfrom`, with the length that this call
returned. `hexdump` is right for the lengths of datagrams that are not empty
(`hexdump_reported_iff`): for an empty datagram `_hexdump` returns -1, and after a failed receive
the length is `SIZE_MAX` and the number of lines, as an `int`, is zero.
-/

namespace BazelPro.Utils

open C

/-- Every store of `_hexdump` is inside its block, and exactly the blocks that it returns are
printed and freed, each of which holds a string. -/
def Reported (calloc : Nat → Bool) (addr : Option Mem) (len : BitVec 64) : Prop :=
  ∃ result texts, _hexdump calloc addr len = some result ∧
    result.toList.mapM (fun r => r.2.string) = some texts ∧
    hexdump calloc addr len = some texts

/-- Without a block there is nothing that may be printed, but `hexdump` prints. -/
theorem not_reported_of_failure {calloc : Nat → Bool} {addr : Option Mem} {len : BitVec 64}
    (h : _hexdump calloc addr len = some none) : ¬ Reported calloc addr len := by
  intro hreported
  obtain ⟨result, texts, -, -, htexts⟩ := hreported
  rw [hexdump, h] at htexts
  cases htexts

/-- The number of lines for the length that a failed receive leaves. -/
theorem lineNbr_failed : lineNbr (BitVec.ofInt 64 (-1)) = 0 := by decide

theorem hexdump_failed (calloc : Nat → Bool) (addr : Option Mem) :
    _hexdump calloc addr (BitVec.ofInt 64 (-1)) = some none ∨
      _hexdump calloc addr (BitVec.ofInt 64 (-1)) = none := by
  cases addr with
  | none => exact Or.inl rfl
  | some myStr =>
      simp only [_hexdump, lineNbr_failed]
      rw [if_neg (by decide)]
      split
      · exact Or.inr rfl
      · exact Or.inl rfl

/-- The block is printed, with the whole dump in it. -/
theorem hexdump_prints {calloc : Nat → Bool} {len : Nat} (myStr : Mem) (hlen : 0 < len)
    (hsize : rowCount len * 128 < 2 ^ 31) (halloc : calloc (rowCount len * 128) = true) :
    Reported calloc (some myStr) (BitVec.ofNat 64 len) ∧
      hexdump calloc (some myStr) (BitVec.ofNat 64 len) = some [dumpText (load myStr 0 len)] := by
  have heq := (hexdump_eq calloc myStr hlen hsize).trans (if_pos halloc)
  have hstring : (dumpBlock (load myStr 0 len)).string = some (dumpText (load myStr 0 len)) :=
    string_dumpBlock (load_ne_nil myStr 0 hlen) (by rwa [length_load])
  have hprint : hexdump calloc (some myStr) (BitVec.ofNat 64 len) =
      some [dumpText (load myStr 0 len)] := by
    rw [hexdump, heq]
    refine Option.bind_eq_some_iff.mpr ⟨_, rfl, Option.bind_eq_some_iff.mpr ⟨_, rfl, ?_⟩⟩
    exact Option.bind_eq_some_iff.mpr ⟨_, hstring, rfl⟩
  refine ⟨⟨_, _, heq, ?_, hprint⟩, hprint⟩
  simp [hstring]

/-- Nothing is right about the dump of an empty datagram, or of a failed receive. -/
theorem not_reported_of_nonpos (calloc : Nat → Bool) (addr : Option Mem) {recvLen : Int}
    (hlow : -1 ≤ recvLen) (h : recvLen ≤ 0) :
    ¬ Reported calloc addr (BitVec.ofInt 64 recvLen) := by
  obtain rfl | rfl : recvLen = -1 ∨ recvLen = 0 := by omega
  · rcases hexdump_failed calloc addr with hres | hres
    · exact not_reported_of_failure hres
    · intro hreported
      obtain ⟨result, texts, hresult, -, -⟩ := hreported
      rw [hres] at hresult
      cases hresult
  · apply not_reported_of_failure
    cases addr <;> rfl

/-- A datagram fills at most 64 rows. -/
theorem rowCount_le {len : Nat} (h : len ≤ 1024) : rowCount len ≤ 64 := by
  rw [rowCount]
  omega

/-- For the lengths that the receive loop passes, the dump is right exactly if something was
received and the block could be allocated, and then the whole dump is printed. -/
theorem hexdump_reported_iff (calloc : Nat → Bool) (addr : Option Mem) (recvLen : Int)
    (hlow : -1 ≤ recvLen) (hhigh : recvLen ≤ 1024) :
    (Reported calloc addr (BitVec.ofInt 64 recvLen) ↔
      addr ≠ none ∧ 1 ≤ recvLen ∧ calloc (rowCount recvLen.toNat * 128) = true) ∧
    ∀ myStr, addr = some myStr → Reported calloc addr (BitVec.ofInt 64 recvLen) →
      hexdump calloc addr (BitVec.ofInt 64 recvLen) =
        some [dumpText (load myStr 0 recvLen.toNat)] := by
  rcases le_or_gt recvLen 0 with hneg | hpos
  · have hnot := not_reported_of_nonpos calloc addr hlow hneg
    exact ⟨⟨fun h => absurd h hnot, fun h => absurd h.2.1 (by omega)⟩,
      fun _ _ h => absurd h hnot⟩
  · obtain ⟨len, rfl⟩ := Int.eq_ofNat_of_zero_le hpos.le
    have hrows : rowCount len ≤ 64 := rowCount_le (by omega)
    rw [BitVec.ofInt_natCast, Int.toNat_natCast]
    cases addr with
    | none =>
        have hnot : ¬ Reported calloc none (BitVec.ofNat 64 len) := not_reported_of_failure rfl
        exact ⟨⟨fun h => absurd h hnot, fun h => absurd rfl h.1⟩, fun _ h => nomatch h⟩
    | some myStr =>
        have hlen : 0 < len := by omega
        have hsize : rowCount len * 128 < 2 ^ 31 := by omega
        have halloc : Reported calloc (some myStr) (BitVec.ofNat 64 len) →
            calloc (rowCount len * 128) = true := fun h => by
          by_contra hfail
          exact not_reported_of_failure ((hexdump_eq calloc myStr hlen hsize).trans
            (if_neg hfail)) h
        refine ⟨⟨fun h => ⟨nofun, hpos, halloc h⟩,
          fun h => (hexdump_prints myStr hlen hsize h.2.2).1⟩, ?_⟩
        intro myStr' hmyStr h
        cases hmyStr
        exact (hexdump_prints myStr hlen hsize (halloc h)).2

/-- A datagram of 40 bytes: two full rows, and a third one. -/
theorem hexdump_reported_three_rows :
    Reported (fun _ => true) (some fun i => BitVec.ofNat 8 i) (BitVec.ofInt 64 40) ∧
      hexdump (fun _ => true) (some fun i => BitVec.ofNat 8 i) (BitVec.ofInt 64 40) =
        some [dumpText (load (fun i => BitVec.ofNat 8 i) 0 40)] := by
  obtain ⟨hiff, hprinted⟩ := hexdump_reported_iff (fun _ => true)
    (some fun i => BitVec.ofNat 8 i) 40 (by decide) (by decide)
  have hreported := hiff.mpr ⟨nofun, by decide, rfl⟩
  exact ⟨hreported, hprinted _ rfl hreported⟩

/-- An empty datagram, and a failed receive. -/
theorem hexdump_not_reported :
    hexdump (fun _ => true) (some fun _ => 0) (BitVec.ofInt 64 0) = none ∧
      _hexdump (fun _ => true) (some fun _ => 0) (BitVec.ofInt 64 (-1)) = none ∧
      ¬ Reported (fun _ => true) (some fun _ => 0) (BitVec.ofInt 64 0) ∧
      ¬ Reported (fun _ => true) (some fun _ => 0) (BitVec.ofInt 64 (-1)) :=
  ⟨rfl, rfl, not_reported_of_nonpos _ _ (by decide) (by decide),
    not_reported_of_nonpos _ _ (by decide) (by decide)⟩

end BazelPro.Utils
