import Mathlib.Data.List.Basic

/-!
# Computations that access an array

A computation with the indices of its accesses, in order. It has no result when an access was
undefined; the accesses up to that one are kept.
-/

/-- A computation that accesses an array by indices of the type `ι`. -/
structure Accessing (ι α : Type) where
  accesses : List ι
  result : Option α

namespace Accessing

variable {ι α β : Type}

instance : Monad (Accessing ι) where
  pure a := ⟨[], some a⟩
  bind x f :=
    match x.result with
    | none => ⟨x.accesses, none⟩
    | some a => ⟨x.accesses ++ (f a).accesses, (f a).result⟩

/-- One access, with the element that is there. -/
def access (i : ι) (element : Option α) : Accessing ι α := ⟨[i], element⟩

@[simp] theorem pure_accesses (a : α) : (pure a : Accessing ι α).accesses = [] := rfl

@[simp] theorem pure_result (a : α) : (pure a : Accessing ι α).result = some a := rfl

@[simp] theorem access_accesses (i : ι) (e : Option α) : (access i e).accesses = [i] := rfl

@[simp] theorem access_result (i : ι) (e : Option α) : (access i e).result = e := rfl

theorem bind_of_none {x : Accessing ι α} (h : x.result = none) (f : α → Accessing ι β) :
    x >>= f = ⟨x.accesses, none⟩ := by
  show (match x.result with | none => _ | some a => _) = _
  rw [h]

theorem bind_of_some {x : Accessing ι α} {a : α} (h : x.result = some a)
    (f : α → Accessing ι β) : x >>= f = ⟨x.accesses ++ (f a).accesses, (f a).result⟩ := by
  show (match x.result with | none => _ | some a => _) = _
  rw [h]

/-- The result of a sequence is that of its parts. -/
@[simp] theorem bind_result (x : Accessing ι α) (f : α → Accessing ι β) :
    (x >>= f).result = x.result.bind fun a => (f a).result := by
  cases h : x.result with
  | none => rw [bind_of_none h, Option.bind_none]
  | some a => rw [bind_of_some h, Option.bind_some]

/-- All the accesses are at indices with this property. -/
def Within (P : ι → Prop) (x : Accessing ι α) : Prop := ∀ i ∈ x.accesses, P i

variable {P : ι → Prop}

theorem within_pure (a : α) : Within P (pure a : Accessing ι α) := by
  intro i hi
  exact absurd hi List.not_mem_nil

theorem within_access {i : ι} {e : Option α} : Within P (access i e) ↔ P i :=
  List.forall_mem_singleton

/-- A sequence is within a range if its first part is, and also what follows. -/
theorem within_bind {x : Accessing ι α} {f : α → Accessing ι β} :
    Within P (x >>= f) ↔ Within P x ∧ ∀ a, x.result = some a → Within P (f a) := by
  cases h : x.result with
  | none =>
      rw [bind_of_none h]
      simp [Within]
  | some a =>
      rw [bind_of_some h]
      simp [Within, or_imp, forall_and]

/-- The computation has a result exactly if its accesses are at indices with this property. -/
def Exact (P : ι → Prop) (x : Accessing ι α) : Prop := (∃ a, x.result = some a) ↔ Within P x

theorem exact_pure (a : α) : Exact P (pure a : Accessing ι α) :=
  iff_of_true ⟨a, rfl⟩ (within_pure a)

theorem exact_access {i : ι} {e : Option α} (h : (∃ a, e = some a) ↔ P i) :
    Exact P (access i e) :=
  h.trans within_access.symm

/-- What is undefined in a sequence is undefined in one of its parts. -/
theorem Exact.bind {x : Accessing ι α} {f : α → Accessing ι β} (h : Exact P x)
    (hf : ∀ a, x.result = some a → Exact P (f a)) : Exact P (x >>= f) := by
  unfold Exact at h ⊢
  rw [within_bind, ← h, bind_result]
  constructor
  · rintro ⟨b, hb⟩
    obtain ⟨a, ha, hb⟩ := Option.bind_eq_some_iff.mp hb
    refine ⟨⟨a, ha⟩, fun a' ha' => (hf a' ha').mp ⟨b, ?_⟩⟩
    rw [Option.some.inj (ha'.symm.trans ha)]
    exact hb
  · rintro ⟨⟨a, ha⟩, hrest⟩
    obtain ⟨b, hb⟩ := (hf a ha).mpr (hrest a ha)
    exact ⟨b, Option.bind_eq_some_iff.mpr ⟨a, ha, hb⟩⟩

end Accessing
