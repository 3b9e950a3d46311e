import BazelPro.C.Strings
import BazelPro.Jw.Answers

/-!
# The local copy of a datagram

`handle_msg` copies what was received over 1024 zero bytes, and the receive may have delivered 1024
bytes. Then no zero is left behind the copy, and the text that is parsed has its end in the copy
only if it has a NUL of its own.
-/

namespace BazelPro.Jw

open C

/-- What the receive delivers of a datagram. -/
def Arrival.received (a : Arrival) : List Byte := a.datagram.payload.take 1024

theorem Arrival.length_received (a : Arrival) :
    a.received.length = min a.datagram.payload.length 1024 := by
  rw [received, List.length_take, Nat.min_comm]

namespace Server

/-- The local copy `b` that is made of a datagram. -/
def copyOf (s : Server) (a : Arrival) : List Byte :=
  (s.receive a).localCopy (min a.datagram.payload.length 1024)

theorem copyOf_eq (s : Server) (a : Arrival) :
    s.copyOf a = a.received ++ List.replicate (1024 - a.received.length) 0 :=
  (s.receive a).localCopy_eq (load_receive s a) (by rw [a.length_received]; omega)

/-- The text that is parsed and its NUL are in the local copy, and every byte that the parser reads
is one that was received, or the NUL behind these. -/
def TextInside (s : Server) (a : Arrival) : Prop :=
  HoldsString (s.copyOf a) a.text ∧ HoldsString (a.received ++ [0]) a.text

/-- The NUL may be one of the datagram's own. -/
theorem zero_mem_copyOf_iff (s : Server) (a : Arrival) :
    0 ∈ s.copyOf a ↔ a.datagram.payload.length < 1024 ∨ 0 ∈ a.received := by
  have hlength := a.length_received
  rw [copyOf_eq, List.mem_append, List.mem_replicate, or_comm]
  refine or_congr_left ?_
  rw [and_iff_left rfl]
  omega

/-- The text is what was received, up to the first NUL, if it does not leave the copy. -/
theorem text_eq_of_zero_mem (s : Server) {a : Arrival} (h : 0 ∈ s.copyOf a) :
    a.text = (a.received ++ [0]).takeWhile (· ≠ 0) := by
  have htext : a.text = (s.copyOf a ++ a.beyond).takeWhile (· ≠ 0) := by
    rw [copyOf_eq]
    rfl
  rw [htext, takeWhile_append_of_zero_mem h, copyOf_eq, takeWhile_append_zeros]
  exact (takeWhile_append_zeros a.received 1).symm

theorem textInside_iff_zero_mem (s : Server) (a : Arrival) : s.TextInside a ↔ 0 ∈ s.copyOf a := by
  constructor
  · exact fun h => h.1.zero_mem
  · intro hnul
    have hcopy := (holdsString_takeWhile_iff (s.copyOf a) []).mpr hnul
    have hreceived := (holdsString_takeWhile_iff (a.received ++ [0]) []).mpr (by simp)
    rw [List.append_nil] at hcopy hreceived
    rw [← takeWhile_append_of_zero_mem hnul a.beyond, copyOf_eq] at hcopy
    rw [← text_eq_of_zero_mem s hnul] at hreceived
    exact ⟨by rw [copyOf_eq]; exact hcopy, hreceived⟩

/-- For every datagram, whatever the server and the stack hold: the text that `handle_msg` parses
lies in its local copy if and only if fewer than 1024 bytes were sent or one of the bytes received
is a NUL; and behind the bytes received there is a NUL in the copy if and only if fewer than 1024
were sent. -/
theorem text_inside_iff (s : Server) (a : Arrival) :
    (s.TextInside a ↔ a.datagram.payload.length < 1024 ∨ 0 ∈ a.received) ∧
      ((s.copyOf a)[a.received.length]? = some 0 ↔ a.datagram.payload.length < 1024) := by
  refine ⟨(s.textInside_iff_zero_mem a).trans (s.zero_mem_copyOf_iff a), ?_⟩
  have hlength := a.length_received
  rw [copyOf_eq, List.getElem?_append_right (Nat.le_refl _), Nat.sub_self, List.getElem?_replicate]
  by_cases hfull : 0 < 1024 - a.received.length
  · rw [if_pos hfull]
    exact iff_of_true rfl (by omega)
  · rw [if_neg hfull]
    exact iff_of_false (Option.some_ne_none _).symm (by omega)

/-- An info message with spaces behind it, 1024 bytes in all. -/
def fullDatagram : Arrival where
  datagram := ⟨str "\x7b\"type\":\"info\"\x7d" ++ List.replicate 1009 (chr ' '),
    ⟨[2, 0] ++ List.replicate 14 0, rfl, rfl⟩⟩
  beyond := []

/-- Its text does not end in the local copy. -/
theorem fullDatagram_outside :
    fullDatagram.received.length = 1024 ∧ ¬ init.TextInside fullDatagram := by
  have hlength : fullDatagram.datagram.payload.length = 1024 := by
    rw [fullDatagram, List.length_append, List.length_replicate]
    rfl
  have hreceived : fullDatagram.received = fullDatagram.datagram.payload :=
    List.take_of_length_le hlength.le
  refine ⟨by rw [hreceived, hlength], fun h => ?_⟩
  rcases (init.zero_mem_copyOf_iff _).mp ((init.textInside_iff_zero_mem _).mp h) with hshort | hnul
  · exact absurd hshort (by rw [hlength]; decide)
  · rw [hreceived] at hnul
    rcases List.mem_append.mp hnul with htext | hblank
    · exact absurd htext (by decide)
    · exact absurd (List.eq_of_mem_replicate hblank) (by decide)

end Server

end BazelPro.Jw
