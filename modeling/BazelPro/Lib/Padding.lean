import Mathlib.Data.List.Basic

/-!
# Padding of lists

A list is padded to a width on its left or its right. How much padding there is decides about the
length alone (`leftpad_eq_leftpad_iff`), padding with what a list does not contain can be told from
the list (`leftpad_inj`, `rightpad_inj`), and an element can be put ahead of the padding or behind
it (`cons_leftpad_eq_iff`).
-/

namespace Padding

open List

variable {α : Type*} {as as' : List α} {b : α}

theorem leftpad_of_le {n : Nat} (b : α) (h : n ≤ as.length) : as.leftpad n b = as := by
  rw [leftpad, Nat.sub_eq_zero_of_le h]
  rfl

theorem rightpad_of_le {n : Nat} (b : α) (h : n ≤ as.length) : as.rightpad n b = as := by
  rw [rightpad, Nat.sub_eq_zero_of_le h]
  exact append_nil as

theorem leftpad_leftpad (m n : Nat) (b : α) (as : List α) :
    (as.leftpad m b).leftpad n b = as.leftpad (max m n) b := by
  rw [leftpad, length_leftpad, leftpad, leftpad, ← append_assoc, replicate_append_replicate]
  congr 2
  omega

/-- One more of the padding. -/
theorem cons_leftpad_self (n : Nat) (b : α) (as : List α) :
    b :: as.leftpad n b = as.leftpad (max n as.length + 1) b := by
  have hcount : max n as.length + 1 - as.length = n - as.length + 1 := by omega
  rw [leftpad, leftpad, hcount]
  rfl

/-- Two paddings differ if their lengths do. -/
theorem leftpad_eq_leftpad_iff (m n : Nat) (b : α) (as : List α) :
    as.leftpad m b = as.leftpad n b ↔ max m as.length = max n as.length := by
  constructor
  · intro h
    have := congrArg length h
    rwa [length_leftpad, length_leftpad] at this
  · intro h
    have hcount : m - as.length = n - as.length := by omega
    rw [leftpad, leftpad, hcount]

section Inj

variable [DecidableEq α]

theorem filter_ne_of_notMem (h : b ∉ as) : as.filter (· ≠ b) = as :=
  filter_eq_self.mpr fun _ ha => decide_eq_true fun heq => h (heq ▸ ha)

theorem filter_ne_replicate (n : Nat) (b : α) : (replicate n b).filter (· ≠ b) = [] :=
  filter_eq_nil_iff.mpr fun _ ha => by simp [eq_of_mem_replicate ha]

/-- What the padding does not occur in can be read off. -/
theorem leftpad_inj (n : Nat) (h : b ∉ as) (h' : b ∉ as') :
    as.leftpad n b = as'.leftpad n b ↔ as = as' := by
  refine ⟨fun heq => ?_, fun heq => heq ▸ rfl⟩
  have hfilter := congrArg (filter (· ≠ b)) heq
  rwa [leftpad, leftpad, filter_append, filter_append, filter_ne_replicate, filter_ne_replicate,
    filter_ne_of_notMem h, filter_ne_of_notMem h'] at hfilter

theorem rightpad_inj (n : Nat) (h : b ∉ as) (h' : b ∉ as') :
    as.rightpad n b = as'.rightpad n b ↔ as = as' := by
  refine ⟨fun heq => ?_, fun heq => heq ▸ rfl⟩
  have hfilter := congrArg (filter (· ≠ b)) heq
  rwa [rightpad, rightpad, filter_append, filter_append, filter_ne_replicate,
    filter_ne_replicate, append_nil, append_nil, filter_ne_of_notMem h,
    filter_ne_of_notMem h'] at hfilter

end Inj

/-- A list that does not contain the padding has none. -/
theorem leftpad_eq_iff_of_notMem {n : Nat} (h : b ∉ as') :
    as.leftpad n b = as' ↔ n ≤ as.length ∧ as = as' := by
  constructor
  · intro heq
    have hle : n ≤ as.length := by
      by_contra hlt
      refine h (heq ▸ mem_append_left _ (mem_replicate.mpr ⟨?_, rfl⟩))
      omega
    exact ⟨hle, leftpad_of_le b hle ▸ heq⟩
  · rintro ⟨hle, rfl⟩
    exact leftpad_of_le b hle

/-! ## Nothing but padding -/

/-- A list has all its elements equal to the padding, and then the padded list has. -/
theorem leftpad_eq_replicate_iff {n k : Nat} :
    as.leftpad n b = replicate k b ↔ (∀ a ∈ as, a = b) ∧ max n as.length = k := by
  rw [eq_replicate_iff, length_leftpad, and_comm]
  refine and_congr_left fun _ => ⟨fun h a ha => h a (mem_append_right _ ha), fun h a ha => ?_⟩
  rcases mem_append.mp ha with ha | ha
  · exact eq_of_mem_replicate ha
  · exact h a ha

theorem rightpad_eq_replicate_iff {n k : Nat} :
    as.rightpad n b = replicate k b ↔ (∀ a ∈ as, a = b) ∧ max n as.length = k := by
  have hlength : (as.rightpad n b).length = max n as.length := by
    rw [rightpad, length_append, length_replicate]
    omega
  rw [eq_replicate_iff, hlength, and_comm]
  refine and_congr_left fun _ => ⟨fun h a ha => h a (mem_append_left _ ha), fun h a ha => ?_⟩
  rcases mem_append.mp ha with ha | ha
  · exact h a ha
  · exact eq_of_mem_replicate ha

/-- A beginning that is the same behind some padding consists of padding. -/
theorem eq_of_mem_take {i k : Nat} (hk : 0 < k) (hle : i + k ≤ as.length)
    (h : replicate k b ++ as.take i = as.take (i + k)) : ∀ a ∈ as.take (i + k), a = b := by
  have hget : ∀ m, m < i + k → as[m]? = some b := by
    intro m
    induction m using Nat.strongRecOn with
    | ind m ih =>
        intro hm
        have hat := congrArg (fun l => l[m]?) h
        rw [getElem?_take_of_lt hm] at hat
        rw [← hat]
        by_cases hfront : m < k
        · rw [getElem?_append_left (by simpa using hfront), getElem?_replicate_of_lt hfront]
        · rw [getElem?_append_right (by simp; omega), length_replicate,
            getElem?_take_of_lt (by omega)]
          exact ih (m - k) (by omega) (by omega)
  intro a ha
  obtain ⟨m, hm, hma⟩ := mem_iff_getElem.mp ha
  rw [length_take, Nat.min_eq_left hle] at hm
  have := hget m hm
  rw [← getElem?_take_of_lt hm, getElem?_eq_getElem (by rw [length_take]; omega), hma] at this
  exact Option.some.inj this

/-- Two beginnings of a list that are padded to the same list have the same length, or they
consist of padding. -/
theorem leftpad_take_inj {i j n : Nat} (hi : i ≤ as.length) (hj : j ≤ as.length)
    (h : (as.take i).leftpad n b = (as.take j).leftpad n b) :
    i = j ∨ (∀ a ∈ as.take i, a = b) ∧ ∀ a ∈ as.take j, a = b := by
  have hshort : ∀ {i j : Nat}, i < j → j ≤ as.length →
      (as.take i).leftpad n b = (as.take j).leftpad n b →
      (∀ a ∈ as.take i, a = b) ∧ ∀ a ∈ as.take j, a = b := by
    intro i j hij hj h
    obtain ⟨k, rfl⟩ := Nat.exists_eq_add_of_le (Nat.le_of_lt hij)
    have hlength := congrArg length h
    rw [length_leftpad, length_leftpad, length_take, length_take, Nat.min_eq_left hj,
      Nat.min_eq_left (by omega)] at hlength
    -- the padding of the shorter one begins with that of the longer one
    have hcount : n - i = n - (i + k) + k := by omega
    rw [leftpad, leftpad, length_take, length_take, Nat.min_eq_left hj, Nat.min_eq_left (by omega),
      hcount, ← replicate_append_replicate, append_assoc, append_cancel_left_eq] at h
    have hall := eq_of_mem_take (by omega) hj h
    exact ⟨fun a ha => hall a (take_subset_take_left _ (Nat.le_of_lt hij) ha), hall⟩
  rcases Nat.lt_trichotomy i j with hij | hij | hij
  · exact Or.inr (hshort hij hj h)
  · exact Or.inl hij
  · exact Or.inr (hshort hij hi h.symm).symm

/-- Two beginnings of a list are padded on the left to the same list. -/
theorem leftpad_take_eq_iff {i j n : Nat} (hi : i ≤ as.length) (hj : j ≤ as.length) :
    (as.take i).leftpad n b = (as.take j).leftpad n b ↔
      i = j ∨ (∀ a ∈ as.take j, a = b) ∧ (∀ a ∈ as.take i, a = b) ∧ max n j = max n i := by
  have hilen : (as.take i).length = i := length_take_of_le hi
  have hjlen : (as.take j).length = j := length_take_of_le hj
  constructor
  · intro h
    rcases leftpad_take_inj hi hj h with hij | ⟨hblank, hblank'⟩
    · exact Or.inl hij
    · have hlength := congrArg length h
      rw [length_leftpad, length_leftpad, hilen, hjlen] at hlength
      exact Or.inr ⟨hblank', hblank, hlength.symm⟩
  · rintro (rfl | ⟨hblank, hblank', hmax⟩)
    · rfl
    · rw [leftpad_eq_replicate_iff.mpr ⟨hblank, rfl⟩, leftpad_eq_replicate_iff.mpr ⟨hblank', rfl⟩,
        hilen, hjlen, hmax]

/-- A beginning of a list is another one that is padded on the right. -/
theorem take_eq_rightpad_take_iff {i j n : Nat} (hi : i ≤ as.length) (hj : j ≤ as.length)
    (hle : i ≤ j ∨ j = 0) :
    as.take i = (as.take j).rightpad n b ↔
      i = j ∧ n ≤ j ∨ (∀ a ∈ as.take j, a = b) ∧ (∀ a ∈ as.take i, a = b) ∧ max n j = i := by
  have hilen : (as.take i).length = i := length_take_of_le hi
  have hjlen : (as.take j).length = j := length_take_of_le hj
  constructor
  · intro h
    have hlength := congrArg length h
    rw [hilen, rightpad, length_append, length_replicate, hjlen] at hlength
    rcases hle with hle | rfl
    · exact Or.inl ⟨by omega, by omega⟩
    · -- there is nothing but padding
      have hblank : ∀ a ∈ as.take i, a = b := by
        rw [h]
        exact fun a ha => eq_of_mem_replicate ha
      exact Or.inr ⟨fun a ha => absurd ha not_mem_nil, hblank, by omega⟩
  · rintro (⟨rfl, hn⟩ | ⟨hblank, hblank', hmax⟩)
    · rw [rightpad_of_le _ (by omega)]
    · rw [rightpad_eq_replicate_iff.mpr ⟨hblank, rfl⟩, hjlen, hmax]
      exact eq_replicate_iff.mpr ⟨hilen, hblank'⟩

/-! ## An element ahead -/

theorem cons_rightpad (a b : α) (as : List α) (n : Nat) :
    (a :: as).rightpad n b = a :: as.rightpad (n - 1) b := by
  rw [rightpad, rightpad, length_cons, Nat.sub_sub, Nat.add_comm 1]
  rfl

/-- An element ahead of the padding, and the same behind it. -/
theorem cons_leftpad_eq_iff (a a' b : α) (as : List α) (n : Nat) :
    a' :: as.leftpad (n - 1) b = (a :: as).leftpad n b ↔
      a' = a ∧ (a = b ∨ n ≤ 1 + as.length) := by
  rw [leftpad, leftpad, length_cons]
  by_cases hn : n ≤ 1 + as.length
  · -- there is no padding at all
    have hleft : n - 1 - as.length = 0 := by omega
    have hright : n - (as.length + 1) = 0 := by omega
    rw [hleft, hright]
    simp [hn]
  · obtain ⟨k, hk⟩ : ∃ k, n = as.length + 2 + k := ⟨n - (as.length + 2), by omega⟩
    have hleft : n - 1 - as.length = k + 1 := by omega
    have hright : n - (as.length + 1) = k + 1 := by omega
    have hfront : replicate (k + 1) b ++ as = replicate k b ++ b :: as := by
      rw [replicate_succ', append_assoc]
      rfl
    have hback : replicate (k + 1) b ++ a :: as = b :: (replicate k b ++ a :: as) := rfl
    rw [hleft, hright, hfront, hback, cons.injEq, append_cancel_left_eq, cons.injEq]
    constructor
    · rintro ⟨rfl, rfl, -⟩
      exact ⟨rfl, Or.inl rfl⟩
    · rintro ⟨rfl, rfl | h⟩
      · exact ⟨rfl, rfl, rfl⟩
      · exact absurd h hn

end Padding
