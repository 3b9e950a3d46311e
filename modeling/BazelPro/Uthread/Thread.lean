import BazelPro.C.Strings
import BazelPro.Print.Formatter

/-!
# Threads and their names

After `UThread` in `src/lib/uthread.h` and `src/lib/uthread.cc`. What the pthread calls return is
an argument. A name goes through two arrays of 16 bytes: `create` copies it into the object, and
`getName` copies it from there into an array of the caller, where it puts the NUL behind the copy
into the wrong array (`get_name_iff`).
-/

namespace BazelPro.Uthread

open C
open Print (CStr)

/-- `T_NAME_LEN`. -/
abbrev tNameLen : Nat := 16

/-- A `UThread`, without its attributes. The identifier of a thread, the callback and its argument
are 0 when they are not set. -/
structure UThread where
  threadId : Nat
  isThreadRunning : Bool
  threadName : Mem
  createCb : Nat
  arg : Nat

/-- What the pthread calls of `create` return, and the identifier of the new thread. -/
structure PthreadResults where
  attrInit : Int
  attrSetstacksize : Int
  create : Int
  threadId : Nat
  threadId_ne_zero : threadId ≠ 0

namespace UThread

/-- The constructor. -/
def init : UThread where
  threadId := 0
  isThreadRunning := false
  threadName := fun _ => 0
  createCb := 0
  arg := 0

/-- `create`, with its return value. -/
def create (t : UThread) (name : CStr) (createCb arg : Nat) (r : PthreadResults) :
    UThread × Int :=
  if r.attrInit ≠ 0 then (t, r.attrInit)
  else if r.attrSetstacksize ≠ 0 then (t, r.attrSetstacksize)
  else
    let t := { t with
      threadName := storeAt (strncpy t.threadName name.chars (tNameLen - 1)) (tNameLen - 1) [0]
      createCb := createCb
      arg := arg }
    if r.create ≠ 0 then ({ t with isThreadRunning := false }, r.create)
    else ({ t with threadId := r.threadId }, r.create)

/-- `isRunning`. -/
def isRunning (t : UThread) : Bool := t.isThreadRunning

/-- The array `m_threadName`. -/
def name (t : UThread) : List Byte := load t.threadName 0 tNameLen

/-- `getName`: the object and the array of the caller behind it, and its return value. -/
def getName (t : UThread) (name : Mem) : UThread × Mem × Int :=
  let name := strncpy name t.name (tNameLen - 1)
  ({ t with threadName := storeAt t.threadName (tNameLen - 1) [0] }, name, 0)

/-- Everything `create` can do. -/
theorem create_cases (t : UThread) (name : CStr) (createCb arg : Nat) (r : PthreadResults) :
    ((t.create name createCb arg r).2 ≠ 0 ∧
      (t.create name createCb arg r).1.threadId = t.threadId ∧
      ((t.create name createCb arg r).1.isThreadRunning = t.isThreadRunning ∨
        (t.create name createCb arg r).1.isThreadRunning = false)) ∨
    t.create name createCb arg r = ({ t with
      threadId := r.threadId
      threadName := storeAt (strncpy t.threadName name.chars 15) 15 [0]
      createCb := createCb
      arg := arg }, 0) := by
  unfold create
  split
  · next hinit => exact Or.inl ⟨hinit, rfl, Or.inl rfl⟩
  split
  · next hstack => exact Or.inl ⟨hstack, rfl, Or.inl rfl⟩
  dsimp only
  split
  · next hcreate => exact Or.inl ⟨hcreate, rfl, Or.inr rfl⟩
  · next hcreate =>
    rw [not_not.mp hcreate]
    exact Or.inr rfl

variable {t : UThread} {s : List Byte}

/-- What is copied from an array that holds a string. -/
theorem strncpy_name (hname : HoldsString t.name s) (dst : Mem) (n : Nat) :
    strncpy dst t.name n = strncpy dst s n := by
  have hstring := hname.eq_takeWhile []
  rw [List.append_nil] at hstring
  rw [strncpy, strncpy, strncpyChars, strncpyChars, hstring,
    takeWhile_eq_self_of_zero_not_mem hname.1]

/-- The copy that a caller gets of a name that is a string. -/
theorem getName_spec (hname : HoldsString t.name s) (hlength : s.length ≤ 15)
    (hlast : t.threadName 15 = 0) (buf : Mem) :
    (t.getName buf).1 = t ∧
      (HoldsString (load (t.getName buf).2.1 0 16) s ↔ s.length < 15 ∨ buf 15 = 0) := by
  have hcopy := holdsString_strncpy_iff buf hname.1 15
  rw [List.take_of_length_le hlength, ← strncpy_name hname] at hcopy
  exact ⟨congrArg (fun name => { t with threadName := name }) (storeAt_self hlast), hcopy⟩

/-- A successful `create` leaves the name, cut to 15 characters, in the object. -/
theorem create_name {t' : UThread} {name : CStr} {createCb arg : Nat} {r : PthreadResults}
    (h : t.create name createCb arg r = (t', 0)) :
    HoldsString t'.name (name.chars.take 15) ∧ t'.threadName 15 = 0 := by
  obtain ⟨hfailed, -⟩ | hcreated := t.create_cases name createCb arg r
  · rw [h] at hfailed
    exact absurd rfl hfailed
  · rw [h, Prod.mk.injEq] at hcreated
    rw [hcreated.1]
    exact ⟨holdsString_strncpy_concat t.threadName name.no_nul 15,
      storeAt_inside (strncpy t.threadName name.chars 15) 15 [0] 0 Nat.one_pos⟩

end UThread

/-- For all names, previous contents of the two arrays, and arguments: behind a successful `create`,
`getName` leaves the first 15 characters of the name as a string in the array of the caller, and the
object as it was, if and only if the name has fewer than 15 characters or the last byte of the
array was a NUL before. -/
theorem get_name_iff (t t' : UThread) (name : CStr) (createCb arg : Nat) (r : PthreadResults)
    (buf : Mem) (hcreate : t.create name createCb arg r = (t', 0)) :
    (HoldsString (load (t'.getName buf).2.1 0 tNameLen) (name.chars.take (tNameLen - 1)) ∧
        (t'.getName buf).1 = t') ↔
      name.chars.length < tNameLen - 1 ∨ buf (tNameLen - 1) = 0 := by
  obtain ⟨hname, hlast⟩ := UThread.create_name hcreate
  obtain ⟨hobject, hcopy⟩ := UThread.getName_spec hname (by simp) hlast buf
  rw [and_iff_left hobject]
  refine hcopy.trans (or_congr_left ?_)
  show (name.chars.take 15).length < 15 ↔ name.chars.length < 15
  rw [List.length_take]
  omega

/-- All the calls succeed. -/
def succeeding : PthreadResults := ⟨0, 0, 0, 1, Nat.one_ne_zero⟩

/-- The name `"me"`. -/
def shortName : CStr := ⟨['m', 'e'].map chr, by decide⟩

/-- The name of 15 characters `"loop_me_forever"`. -/
def longName : CStr :=
  ⟨['l', 'o', 'o', 'p', '_', 'm', 'e', '_', 'f', 'o', 'r', 'e', 'v', 'e', 'r'].map chr, by decide⟩

/-- A short name, and an array with something else in it. -/
theorem get_name_iff_short :
    (HoldsString (load ((UThread.init.create shortName 1 7 succeeding).1.getName
          fun _ => chr 'x').2.1 0 tNameLen) (shortName.chars.take (tNameLen - 1)) ∧
        ((UThread.init.create shortName 1 7 succeeding).1.getName fun _ => chr 'x').1 =
          (UThread.init.create shortName 1 7 succeeding).1) ↔
      shortName.chars.length < tNameLen - 1 ∨ chr 'x' = 0 :=
  get_name_iff UThread.init _ shortName 1 7 succeeding (fun _ => chr 'x') rfl

/-- A name of 15 characters is left without a NUL. -/
theorem long_name_unterminated :
    (UThread.init.create longName 1 7 succeeding).2 = 0 ∧
      ¬ HoldsString (load ((UThread.init.create longName 1 7 succeeding).1.getName
          fun _ => chr 'x').2.1 0 tNameLen) (longName.chars.take (tNameLen - 1)) := by
  refine ⟨rfl, fun h => ?_⟩
  have hnul : 0 ∈ load ((UThread.init.create longName 1 7 succeeding).1.getName
    fun _ => chr 'x').2.1 0 tNameLen := h.zero_mem
  exact absurd hnul (by decide)

end BazelPro.Uthread
