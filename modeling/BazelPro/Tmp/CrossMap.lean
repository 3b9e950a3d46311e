import BazelPro.Jw.Json

/-!
# The way across the maps

After `load_point` and `test_cross_map` in `src/tmp/tmp.cc`. The files are an argument, by path;
the JSON library is the one of the JW server. A failed assertion of the library makes the call
`none`. Neither function closes a file that it has opened, so how many descriptors are free is an
argument too. Positions are `SizeType` numbers that are kept in `int` variables and compared both
ways; an array has fewer than `2^32` elements. Console output is left out, but for the list that is
printed in the end.
-/

namespace BazelPro.Tmp

open C Jw

/-- The files that can be opened, by path. -/
abbrev Files := List Byte → Option (List Byte)

/-- The path of the crossing table of a map. -/
def crossPath (id : List Byte) : List Byte := str "./map_cross/" ++ id ++ str "/cross.json"

/-- The path of the rules. -/
def rulePath : List Byte := str "./map_cross/cross_rule.json"

/-- `fopen` for reading, when `free` descriptors are free: the text of the file, and how many are
left. Without one, no file can be opened. -/
def fopen (files : Files) (free : Nat) (path : List Byte) : Option (List Byte × Nat) :=
  match free with
  | 0 => none
  | left + 1 => (files path).map fun text => (text, left)

/-- The loop of `load_point` over the entries of a table. -/
def findNeighbor (neighbor : List Byte) : List Json → Option (Bool × List Byte)
  | [] => some (false, [])
  | e :: rest => do
      let n ← (← e.member (str "neighbor")).getString
      if n = neighbor then do
        let info ← (← (← e.member (str "point")).member (str "info")).getString
        pure (true, info)
      else findNeighbor neighbor rest

/-- The loop of `test_cross_map` over a rule: `from_index` and `to_index` in the end. -/
def findIndices (fromId toId : List Byte) :
    List Json → BitVec 32 → BitVec 32 × BitVec 32 → Option (BitVec 32 × BitVec 32)
  | [], _, indices => some indices
  | v :: rest, j, (fromIndex, toIndex) => do
      let id ← v.getString
      findIndices fromId toId rest (j + 1)
        (if id = fromId then j else fromIndex, if id = toId then j else toIndex)

variable (files : Files) (json : Rapidjson)

/-- `load_point`, and how many descriptors it leaves free. -/
def loadPoint (free : Nat) (id neighbor : List Byte) : Option ((Bool × List Byte) × Nat) :=
  match fopen files free (crossPath id) with
  | none => some ((false, []), free)
  | some (text, left) =>
      match json.parse text with
      | none => some ((false, []), left)
      | some (.array entries) => do
          let p ← findNeighbor neighbor entries
          pure (p, left)
      | some _ => some ((false, []), left)

theorem toNat_succ_of_lt {k n : BitVec 32} (h : k < n) : (k + 1).toNat = k.toNat + 1 := by
  have hone : (1 : BitVec 32).toNat = 1 := rfl
  have hlt := BitVec.lt_def.mp h
  have := n.isLt
  rw [BitVec.toNat_add, hone, Nat.mod_eq_of_lt (by omega)]

theorem toNat_pred_of_lt {k n : BitVec 32} (h : n < k) : (k - 1).toNat = k.toNat - 1 := by
  have hone : (1 : BitVec 32).toNat = 1 := rfl
  have hlt := BitVec.lt_def.mp h
  rw [BitVec.toNat_sub_of_le (by rw [BitVec.le_def, hone]; omega), hone]

/-- The loops over the hops. Forwards it runs while `k < to_index` and increments `k`, backwards
while `k > to_index` and decrements it. The inner `none` is `return false`. -/
def crossHops (r : List Json) (forward : Bool) (toIndex : BitVec 32) (free : Nat) (k : BitVec 32)
    (result : List (List Byte)) : Option (Option (List (List Byte))) :=
  if _h : if forward then k < toIndex else k > toIndex then do
    let next := if forward then k + 1 else k - 1
    let id ← (← r[k.toNat]?).getString
    let neighbor ← (← r[next.toNat]?).getString
    let (p, free) ← loadPoint files json free id neighbor
    if p.1 = false then pure none
    else crossHops r forward toIndex free next (result ++ [p.2])
  else some (some result)
termination_by if forward then toIndex.toNat - k.toNat else k.toNat - toIndex.toNat
decreasing_by
  cases forward with
  | false =>
      have hgt := BitVec.lt_def.mp _h
      have hnext := toNat_pred_of_lt _h
      show (k - 1).toNat - toIndex.toNat < k.toNat - toIndex.toNat
      omega
  | true =>
      have hlt := BitVec.lt_def.mp _h
      have hnext := toNat_succ_of_lt _h
      show toIndex.toNat - (k + 1).toNat < toIndex.toNat - k.toNat
      omega

/-- The loop of `test_cross_map` over the rules. It is left at the first match; without one,
`find_match` stays false. -/
def crossRules (free : Nat) (fromId toId : List Byte) :
    List Json → Option (Option (List (List Byte)))
  | [] => some none
  | e :: rest => do
      match ← e.member (str "rule") with
      | .array r => do
          let (fromIndex, toIndex) ← findIndices fromId toId r 0 (-1, -1)
          if fromIndex = -1 ∨ toIndex = -1 then crossRules free fromId toId rest
          else crossHops files json r (fromIndex.slt toIndex) toIndex free fromIndex []
      | _ => crossRules free fromId toId rest

/-- `test_cross_map`: `none` in it is `return false`, a list is the result that is printed before
`return true`. -/
def testCrossMap (free : Nat) (fromId toId : List Byte) : Option (Option (List (List Byte))) :=
  match fopen files free rulePath with
  | none => some none
  | some (text, left) =>
      match json.parse text with
      | none => some none
      | some (.array rules) => crossRules files json left fromId toId rules
      | some _ => some (some [])

end BazelPro.Tmp
