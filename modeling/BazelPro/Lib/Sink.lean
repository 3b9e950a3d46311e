import Mathlib.Data.List.Basic

/-!
# Sinks of a producer

A sink consumes the items that a producer puts into it, one at a time. A list that grows at its
end is a sink, the free one: what a producer puts into a list says what it puts into any sink
(`Hom.putAll`).
-/

/-- `σ` consumes items of type `ε`. -/
class Sink (ε : outParam (Type*)) (σ : Type*) where
  /-- The state after one more item. -/
  put : σ → ε → σ

namespace Sink

variable {ε : Type*} {σ τ : Type*}

instance : Sink ε (List ε) where
  put es e := es ++ [e]

variable [Sink ε σ] [Sink ε τ]

/-- The state after some more items. -/
def putAll (s : σ) (es : List ε) : σ := es.foldl put s

@[simp] theorem putAll_nil (s : σ) : putAll s ([] : List ε) = s := rfl

theorem putAll_concat (s : σ) (es : List ε) (e : ε) :
    putAll s (es ++ [e]) = put (putAll s es) e := by
  simp [putAll]

/-- A list gets them behind what it has. -/
theorem putAll_list (es es' : List ε) : putAll es es' = es ++ es' := by
  induction es' generalizing es with
  | nil => exact (List.append_nil es).symm
  | cons e es' ih =>
      have hrest : putAll (es ++ [e]) es' = es ++ [e] ++ es' := ih (es ++ [e])
      rwa [List.append_assoc] at hrest

/-- `h` takes the states of one sink to those of another, item by item. -/
def Hom (h : σ → τ) : Prop := ∀ s (e : ε), h (put s e) = put (h s) e

/-- From any state, the list of the items tells the state that they lead to. -/
theorem Hom.putAll (s : σ) : Hom (Sink.putAll s : List ε → σ) := fun es e => putAll_concat s es e

end Sink
