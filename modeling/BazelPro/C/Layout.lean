import Mathlib.Data.Nat.Init

/-!
# Object layout

`sizeof` and member offsets of C structures under the usual ABI rule: a member is placed at
the next offset that its alignment divides, and the size of a structure is rounded up to its
own alignment. A scalar is aligned at its size.
-/

namespace BazelPro.C

/-- The shape of a C object type. -/
inductive CType where
  | scalar (size : Nat)
  | array (count : Nat) (elem : CType)
  | struct (members : List CType)

namespace CType

/-- The least multiple of `align` that is at least `offset`. -/
def roundUp (offset align : Nat) : Nat := (offset + (align - 1)) / align * align

mutual
/-- `alignof`. -/
def align : CType → Nat
  | .scalar size => size
  | .array _ elem => align elem
  | .struct members => alignMembers members

/-- The strictest alignment among the members. -/
def alignMembers : List CType → Nat
  | [] => 1
  | t :: ts => max (align t) (alignMembers ts)
end

mutual
/-- `sizeof`. -/
def sizeof : CType → Nat
  | .scalar size => size
  | .array count elem => count * sizeof elem
  | .struct members => roundUp (endOffset 0 members) (alignMembers members)

/-- The offset just after the last of the members placed from `offset` on. -/
def endOffset : Nat → List CType → Nat
  | offset, [] => offset
  | offset, t :: ts => endOffset (roundUp offset (align t) + sizeof t) ts
end

/-- The offsets of the members placed from `offset` on. -/
def memberOffsets : Nat → List CType → List Nat
  | _, [] => []
  | offset, t :: ts =>
      roundUp offset (align t) :: memberOffsets (roundUp offset (align t) + sizeof t) ts

/-- `offsetof` of the member with this position. -/
def offsetof : CType → Nat → Nat
  | .struct members, i => (memberOffsets 0 members).getD i 0
  | _, _ => 0

/-! ## The types the wire formats are made of -/

def char : CType := .scalar 1
def uint8_t : CType := .scalar 1
def int16_t : CType := .scalar 2
def uint16_t : CType := .scalar 2
def int32_t : CType := .scalar 4

end CType

end BazelPro.C
