import Mathlib.Data.List.Induction

/-!
# Two falling edges in three seconds

After `test_edge` in `src/tmp/tmp.cc`. The time of the last falling edge is 0 when there is none
to wait for, and it is reset to 0 by a double press. The abstract model `expected` has no such
time: it says what a falling edge returns from the falling edges before it. `EdgeRun.Inv` ties the
two together, and what the return values of a run say follows from `expected` alone.
-/

namespace BazelPro.Tmp

/-! ## The code -/

/-- The statics that `test_edge` uses, with their initial values. -/
structure EdgeStatics where
  activeSaving : Bool := false
  hasObstacle : Bool := true
  notAutoMode : Bool := false
  emergencyStop : Bool := false
  lastActiveSaveFallingTime : BitVec 64 := 0

/-- `test_edge`, with its return value; `now` is the clock in milliseconds. -/
def EdgeStatics.testEdge (s : EdgeStatics) (active : Bool) (now : BitVec 64) :
    EdgeStatics × Int :=
  if ¬ s.activeSaving ∧ active then ({ s with activeSaving := true }, 0)
  else if s.activeSaving ∧ ¬ active then
    let s := { s with activeSaving := false }
    if s.lastActiveSaveFallingTime = 0 then ({ s with lastActiveSaveFallingTime := now }, 0)
    else if now - s.lastActiveSaveFallingTime > 3000 then
      ({ s with lastActiveSaveFallingTime := now }, 1)
    else
      let s := { s with lastActiveSaveFallingTime := 0 }
      if s.hasObstacle ∧ ¬ s.notAutoMode then
        if s.emergencyStop then (s, 2) else ({ s with notAutoMode := true }, 3)
      else (s, 4)
  else (s, 0)

/-- A call of `test_edge`, and the clock then. -/
structure EdgeCall where
  active : Bool
  time : BitVec 64

/-- What is seen of a call: whether it is a falling edge, which the arguments say, the clock, and
the return value. -/
structure Observed where
  falling : Bool
  time : BitVec 64
  ret : Int

/-- A run: the statics, the argument of the last call, and what was seen so far. -/
structure EdgeRun where
  statics : EdgeStatics
  before : Bool
  log : List Observed

/-- One more call. -/
def EdgeRun.call (r : EdgeRun) (c : EdgeCall) : EdgeRun :=
  let (statics, ret) := r.statics.testEdge c.active c.time
  ⟨statics, c.active, r.log ++ [⟨r.before && !c.active, c.time, ret⟩]⟩

/-- The calls, from the initial statics. -/
def edgeRun (calls : List EdgeCall) : EdgeRun := calls.foldl EdgeRun.call ⟨{}, false, []⟩

/-- What is seen of the calls. -/
def observed (calls : List EdgeCall) : List Observed := (edgeRun calls).log

/-- The falling edges of a run, in order. -/
def EdgeRun.edges (r : EdgeRun) : List Observed := r.log.filter Observed.falling

/-- The falling edges among the calls. -/
def fallingEdges (calls : List EdgeCall) : List Observed := (edgeRun calls).edges

theorem edgeRun_concat (calls : List EdgeCall) (c : EdgeCall) :
    edgeRun (calls ++ [c]) = (edgeRun calls).call c := by
  rw [edgeRun, List.foldl_append]
  rfl

/-! ## The abstract model -/

/-- The edge that the next one may make a double press with: the last of `es`, unless that ended
a double press itself. -/
def awaiting (es : List Observed) : Option Observed :=
  es.getLast?.filter fun p => p.ret = 0 ∨ p.ret = 1

/-- What a falling edge returns after the falling edges `es`. -/
def expected (es : List Observed) (time : BitVec 64) : Int :=
  match awaiting es with
  | none => 0
  | some p =>
      if p.time.toNat + 3000 < time.toNat then 1
      else if ∃ e ∈ es, e.ret = 3 then 4
      else 3

variable {es : List Observed} {p : Observed} {time : BitVec 64}

theorem expected_first (h : awaiting es = none) : expected es time = 0 := by
  rw [expected, h]

theorem expected_timeout (h : awaiting es = some p) (ht : p.time.toNat + 3000 < time.toNat) :
    expected es time = 1 := by
  rw [expected, h]
  exact if_pos ht

theorem expected_pressed (h : awaiting es = some p) (ht : ¬ p.time.toNat + 3000 < time.toNat) :
    expected es time = if ∃ e ∈ es, e.ret = 3 then 4 else 3 := by
  rw [expected, h]
  exact if_neg ht

theorem awaiting_concat (es : List Observed) (e : Observed) :
    awaiting (es ++ [e]) = if e.ret = 0 ∨ e.ret = 1 then some e else none := by
  rw [awaiting, List.getLast?_concat]
  split <;> simp_all

/-! ## The invariant -/

/-- The statics tell what is expected of the next falling edge. -/
structure EdgeRun.Inv (r : EdgeRun) : Prop where
  activeSaving : r.statics.activeSaving = r.before
  hasObstacle : r.statics.hasObstacle = true
  emergencyStop : r.statics.emergencyStop = false
  /-- the sentinel: a time is stored as long as an edge waits for the next one -/
  lastTime : r.statics.lastActiveSaveFallingTime = ((awaiting r.edges).map Observed.time).getD 0
  notAutoMode : r.statics.notAutoMode = true ↔ ∃ e ∈ r.edges, e.ret = 3
  quiet : ∀ o ∈ r.log, o.falling = false → o.ret = 0
  law : ∀ j e, r.edges[j]? = some e → e.ret = expected (r.edges.take j) e.time

theorem EdgeRun.Inv.start : Inv ⟨{}, false, []⟩ := by
  refine ⟨rfl, rfl, rfl, rfl, ?_, ?_, ?_⟩ <;> simp [edges]

/-- A call that is no falling edge returns 0 and keeps the other statics. -/
theorem EdgeStatics.testEdge_quiet {s : EdgeStatics} {active : Bool} (now : BitVec 64)
    (h : (s.activeSaving && !active) = false) :
    s.testEdge active now = ({ s with activeSaving := active }, 0) := by
  obtain ⟨activeSaving⟩ := s
  cases activeSaving <;> cases active <;> first | rfl | cases h

/-- What the subtraction of the code compares. -/
theorem elapsed_iff {now last : BitVec 64} (h : last.toNat ≤ now.toNat) :
    now - last > 3000 ↔ last.toNat + 3000 < now.toNat := by
  rw [gt_iff_lt, BitVec.lt_def, BitVec.toNat_sub_of_le (by rwa [BitVec.le_def])]
  show 3000 < _ ↔ _
  omega

/-- A falling edge that no edge waits for is waited for from now on. -/
theorem EdgeStatics.testEdge_first {s : EdgeStatics} (now : BitVec 64) (h : s.activeSaving = true)
    (hlast : s.lastActiveSaveFallingTime = 0) :
    s.testEdge false now =
      ({ s with activeSaving := false, lastActiveSaveFallingTime := now }, 0) := by
  simp [testEdge, h, hlast]

/-- After more than three seconds, the later edge is the one that is waited for. -/
theorem EdgeStatics.testEdge_timeout {s : EdgeStatics} (now : BitVec 64)
    (h : s.activeSaving = true) (hlast : s.lastActiveSaveFallingTime ≠ 0)
    (helapsed : now - s.lastActiveSaveFallingTime > 3000) :
    s.testEdge false now =
      ({ s with activeSaving := false, lastActiveSaveFallingTime := now }, 1) := by
  simp only [testEdge, h, hlast, helapsed]
  rfl

/-- A double press, without an emergency stop. -/
theorem EdgeStatics.testEdge_pressed {s : EdgeStatics} (now : BitVec 64)
    (h : s.activeSaving = true) (hlast : s.lastActiveSaveFallingTime ≠ 0)
    (helapsed : ¬ now - s.lastActiveSaveFallingTime > 3000) (hobstacle : s.hasObstacle = true)
    (hstop : s.emergencyStop = false) :
    s.testEdge false now =
      ({ s with
          activeSaving := false
          lastActiveSaveFallingTime := 0
          notAutoMode := true }, if s.notAutoMode then 4 else 3) := by
  obtain ⟨activeSaving, hasObstacle, notAutoMode, emergencyStop, last⟩ := s
  dsimp only at h hlast helapsed hobstacle hstop
  subst h hobstacle hstop
  simp only [testEdge, hlast, helapsed]
  cases notAutoMode <;> rfl

namespace EdgeRun

variable {r : EdgeRun}

theorem edges_call_quiet {c : EdgeCall} (h : (r.before && !c.active) = false) :
    (r.call c).edges = r.edges := by
  show (r.log ++ [_]).filter Observed.falling = _
  rw [List.filter_append, List.filter_cons_of_neg (by simpa using h)]
  exact List.append_nil _

theorem edges_call_falling {c : EdgeCall} (h : (r.before && !c.active) = true) :
    (r.call c).edges = r.edges ++ [⟨true, c.time, (r.statics.testEdge c.active c.time).2⟩] := by
  show (r.log ++ [_]).filter Observed.falling = _
  rw [List.filter_append, h]
  rfl

/-- The return values of the edges before are what they were. -/
theorem law_concat {es : List Observed} {e : Observed}
    (h : ∀ j e', es[j]? = some e' → e'.ret = expected (es.take j) e'.time)
    (he : e.ret = expected es e.time) (j : Nat) (e' : Observed)
    (hj : (es ++ [e])[j]? = some e') : e'.ret = expected ((es ++ [e]).take j) e'.time := by
  rcases Nat.lt_or_ge j es.length with hlt | hge
  · rw [List.getElem?_append_left hlt] at hj
    rw [List.take_append_of_le_length (Nat.le_of_lt hlt)]
    exact h j e' hj
  · rw [List.getElem?_append_right hge, List.getElem?_singleton] at hj
    split at hj
    · have hj' : j = es.length := by omega
      rw [hj', List.take_left, ← Option.some.inj hj]
      exact he
    · cases hj

/-- A falling edge returns what is expected. -/
theorem Inv.ret_falling (h : Inv r) (hbefore : r.before = true) {now : BitVec 64}
    (htimes : ∀ e ∈ r.edges, 0 < e.time.toNat ∧ e.time.toNat ≤ now.toNat) :
    (r.statics.testEdge false now).2 = expected r.edges now ∧
      (r.statics.testEdge false now).1 = { r.statics with
        activeSaving := false
        lastActiveSaveFallingTime := if expected r.edges now ≤ 1 then now else 0
        notAutoMode := r.statics.notAutoMode || decide (1 < expected r.edges now) } := by
  have hactive := h.activeSaving.trans hbefore
  have hlast := h.lastTime
  cases hawaiting : awaiting r.edges with
  | none =>
      rw [hawaiting] at hlast
      rw [EdgeStatics.testEdge_first now hactive hlast]
      simp [expected_first hawaiting]
  | some p =>
      rw [hawaiting] at hlast
      change r.statics.lastActiveSaveFallingTime = p.time at hlast
      have hmem : p ∈ r.edges := List.mem_of_getLast? (Option.filter_eq_some_iff.mp hawaiting).1
      obtain ⟨hpos, hle⟩ := htimes p hmem
      have hne : r.statics.lastActiveSaveFallingTime ≠ 0 := by
        intro hzero
        rw [← hlast, hzero] at hpos
        exact absurd hpos (by decide)
      by_cases helapsed : p.time.toNat + 3000 < now.toNat
      · rw [EdgeStatics.testEdge_timeout now hactive hne
          (by rw [hlast]; exact (elapsed_iff hle).mpr helapsed)]
        simp [expected_timeout hawaiting helapsed]
      · rw [EdgeStatics.testEdge_pressed now hactive hne
          (by rw [hlast]; exact mt (elapsed_iff hle).mp helapsed) h.hasObstacle h.emergencyStop]
        have hexpected := expected_pressed hawaiting helapsed
        by_cases hthree : ∃ e ∈ r.edges, e.ret = 3
        · rw [if_pos hthree] at hexpected
          simp [hexpected, h.notAutoMode.mpr hthree]
        · rw [if_neg hthree] at hexpected
          simp [hexpected, mt h.notAutoMode.mp hthree]

/-- The values that are expected. -/
theorem expected_cases (es : List Observed) (time : BitVec 64) :
    expected es time = 0 ∨ expected es time = 1 ∨
      (expected es time = 3 ∧ ¬ ∃ e ∈ es, e.ret = 3) ∨
      (expected es time = 4 ∧ ∃ e ∈ es, e.ret = 3) := by
  unfold expected
  split
  · exact Or.inl rfl
  · split
    · exact Or.inr (Or.inl rfl)
    · split
      · next hthree => exact Or.inr (Or.inr (Or.inr ⟨rfl, hthree⟩))
      · next hthree => exact Or.inr (Or.inr (Or.inl ⟨rfl, hthree⟩))

/-- A call without a falling edge keeps the invariant. -/
theorem Inv.call_quiet (h : Inv r) {c : EdgeCall} (hfalling : (r.before && !c.active) = false) :
    Inv (r.call c) := by
  have hedges := edges_call_quiet hfalling
  have htest := EdgeStatics.testEdge_quiet c.time (h.activeSaving ▸ hfalling)
  have hstatics : (r.call c).statics = { r.statics with activeSaving := c.active } :=
    congrArg Prod.fst htest
  refine ⟨?_, ?_, ?_, ?_, ?_, ?_, ?_⟩
  · rw [hstatics]
    rfl
  · rw [hstatics]
    exact h.hasObstacle
  · rw [hstatics]
    exact h.emergencyStop
  · rw [hstatics, hedges]
    exact h.lastTime
  · rw [hstatics, hedges]
    exact h.notAutoMode
  · intro o ho hquiet
    rcases List.mem_append.mp ho with ho | ho
    · exact h.quiet o ho hquiet
    · rw [List.mem_singleton.mp ho]
      exact congrArg Prod.snd htest
  · rw [hedges]
    exact h.law

/-- A falling edge keeps the invariant. -/
theorem Inv.call_falling (h : Inv r) {c : EdgeCall} (hfalling : (r.before && !c.active) = true)
    (htimes : ∀ e ∈ r.edges, 0 < e.time.toNat ∧ e.time.toNat ≤ c.time.toNat) :
    Inv (r.call c) := by
  obtain ⟨hbefore, hactive⟩ : r.before = true ∧ c.active = false := by
    simpa using hfalling
  obtain ⟨hret, hstatics⟩ := h.ret_falling hbefore htimes
  have hedges := edges_call_falling hfalling
  rw [hactive, hret] at hedges
  have hstatics : (r.call c).statics = _ := (hactive ▸ hstatics :)
  have hcases := expected_cases r.edges c.time
  refine ⟨?_, ?_, ?_, ?_, ?_, ?_, ?_⟩
  · rw [hstatics]
    rfl
  · rw [hstatics]
    exact h.hasObstacle
  · rw [hstatics]
    exact h.emergencyStop
  · rw [hstatics, hedges, awaiting_concat]
    dsimp only
    split_ifs <;> first | rfl | omega
  · rw [hstatics, hedges]
    have := h.notAutoMode
    simp only [Bool.or_eq_true, decide_eq_true_eq, List.mem_append, List.mem_singleton]
    grind
  · intro o ho hquiet
    rcases List.mem_append.mp ho with ho | ho
    · exact h.quiet o ho hquiet
    · rw [List.mem_singleton.mp ho] at hquiet
      exact absurd (hfalling.symm.trans hquiet) (by decide)
  · rw [hedges]
    exact law_concat h.law rfl

/-- Every call keeps the invariant. -/
theorem Inv.call (h : Inv r) (c : EdgeCall)
    (htimes : ∀ e ∈ r.edges, 0 < e.time.toNat ∧ e.time.toNat ≤ c.time.toNat) :
    Inv (r.call c) := by
  cases hfalling : r.before && !c.active with
  | false => exact h.call_quiet hfalling
  | true => exact h.call_falling hfalling htimes

/-- The clock of a call is among the times of the calls. -/
theorem time_mem (calls : List EdgeCall) {o : Observed} (h : o ∈ (edgeRun calls).log) :
    ∃ c ∈ calls, o.time = c.time := by
  induction calls using List.reverseRecOn with
  | nil => cases h
  | append_singleton calls c ih =>
      rw [edgeRun_concat] at h
      rcases List.mem_append.mp h with h | h
      · obtain ⟨c', hc', htime⟩ := ih h
        exact ⟨c', List.mem_append_left _ hc', htime⟩
      · exact ⟨c, by simp, by rw [List.mem_singleton.mp h]⟩

/-- The invariant holds after any calls whose clock is positive and does not run backwards. -/
theorem Inv.run (calls : List EdgeCall) (hpos : ∀ c ∈ calls, 0 < c.time.toNat)
    (hclock : calls.Pairwise fun c c' => c.time.toNat ≤ c'.time.toNat) :
    Inv (edgeRun calls) := by
  induction calls using List.reverseRecOn with
  | nil => exact .start
  | append_singleton calls c ih =>
      rw [List.forall_mem_append] at hpos
      obtain ⟨hbefore, -, hlast⟩ := List.pairwise_append.mp hclock
      rw [edgeRun_concat]
      refine (ih hpos.1 hbefore).call c fun e he => ?_
      obtain ⟨c', hc', htime⟩ := time_mem calls (List.mem_filter.mp he).1
      rw [htime]
      exact ⟨hpos.1 c' hc', hlast c' hc' c (List.mem_singleton_self c)⟩

end EdgeRun

/-! ## What the return values say -/

/-- The falling edge before the `j`-th exists and returned 0 or 1: it is `p`. -/
def Armed (es : List Observed) (j : Nat) (p : Observed) : Prop :=
  ∃ k, j = k + 1 ∧ es[k]? = some p ∧ (p.ret = 0 ∨ p.ret = 1)

/-- The `j`-th falling edge ends a double press: the one before it is armed, and lies at most
three seconds earlier. -/
def DoublePress (es : List Observed) (j : Nat) : Prop :=
  ∃ e p, es[j]? = some e ∧ Armed es j p ∧ e.time.toNat ≤ p.time.toNat + 3000

variable {es : List Observed} {j : Nat} {e p : Observed}

theorem awaiting_take_iff (h : j < es.length) :
    awaiting (es.take j) = some p ↔ Armed es j p := by
  unfold awaiting Armed
  rw [Option.filter_eq_some_iff]
  cases j with
  | zero => simp
  | succ k =>
      have hlast : (es.take (k + 1)).getLast? = es[k]? := by
        rw [List.getLast?_take]
        simp [List.getElem?_eq_getElem (show k < es.length by omega)]
      rw [hlast]
      constructor
      · rintro ⟨hk, hret⟩
        exact ⟨k, rfl, hk, by simpa using hret⟩
      · rintro ⟨k', hk', hk, hret⟩
        obtain rfl : k = k' := by omega
        exact ⟨hk, by simpa using hret⟩

section Law

variable (law : ∀ j e, es[j]? = some e → e.ret = expected (es.take j) e.time)
include law

theorem ret_of_armed_timeout (hj : es[j]? = some e) (h : Armed es j p)
    (ht : p.time.toNat + 3000 < e.time.toNat) : e.ret = 1 := by
  have hlt := (List.getElem?_eq_some_iff.mp hj).1
  rw [law j e hj]
  exact expected_timeout ((awaiting_take_iff hlt).mpr h) ht

theorem ret_of_not_armed (hj : es[j]? = some e) (h : ¬ ∃ p, Armed es j p) : e.ret = 0 := by
  have hlt := (List.getElem?_eq_some_iff.mp hj).1
  rw [law j e hj]
  refine expected_first (Option.eq_none_iff_forall_ne_some.mpr fun p hp => ?_)
  exact h ⟨p, (awaiting_take_iff hlt).mp hp⟩

/-- A double press returns 3 or 4, by what was returned before. -/
theorem ret_of_doublePress (hj : es[j]? = some e) (h : DoublePress es j) :
    e.ret = if ∃ e ∈ es.take j, e.ret = 3 then 4 else 3 := by
  obtain ⟨e', p, hj', harmed, ht⟩ := h
  obtain rfl : e = e' := Option.some.inj (hj.symm.trans hj')
  have hlt := (List.getElem?_eq_some_iff.mp hj).1
  rw [law j e hj]
  exact expected_pressed ((awaiting_take_iff hlt).mpr harmed) (by omega)

/-- Only a double press returns more than 1. -/
theorem doublePress_of_ret (hj : es[j]? = some e) (h : e.ret ≠ 0 ∧ e.ret ≠ 1) :
    DoublePress es j := by
  by_cases harmed : ∃ p, Armed es j p
  · obtain ⟨p, harmed⟩ := harmed
    refine ⟨e, p, hj, harmed, ?_⟩
    by_contra ht
    exact h.2 (ret_of_armed_timeout law hj harmed (by omega))
  · exact absurd (ret_of_not_armed law hj harmed) h.1

/-- Where there was a double press, one returned 3. -/
theorem exists_three (h : DoublePress es j) : ∃ k ≤ j, ∃ e, es[k]? = some e ∧ e.ret = 3 := by
  have ⟨e, _, hj, _⟩ := h
  have hret := ret_of_doublePress law hj h
  split at hret
  · next hthree =>
    obtain ⟨e', hmem, hthree⟩ := hthree
    obtain ⟨k, hk⟩ := List.mem_iff_getElem?.mp hmem
    rw [List.getElem?_take] at hk
    split at hk
    · exact ⟨k, by omega, e', hk, hthree⟩
    · cases hk
  · exact ⟨j, Nat.le_refl j, e, hj, hret⟩

/-- The return value 3 is that of the first double press. -/
theorem ret_eq_three_iff (hj : es[j]? = some e) :
    e.ret = 3 ↔ DoublePress es j ∧ ∀ k < j, ¬ DoublePress es k := by
  constructor
  · intro hthree
    have hpress := doublePress_of_ret law hj (by omega)
    refine ⟨hpress, fun k hk hearlier => ?_⟩
    obtain ⟨i, hi, e', he', hthree'⟩ := exists_three law hearlier
    have hmem : e' ∈ es.take j :=
      List.mem_iff_getElem?.mpr ⟨i, by rw [List.getElem?_take, if_pos (by omega), he']⟩
    rw [ret_of_doublePress law hj hpress, if_pos ⟨e', hmem, hthree'⟩] at hthree
    cases hthree
  · rintro ⟨hpress, hfirst⟩
    rw [ret_of_doublePress law hj hpress, if_neg]
    rintro ⟨e', hmem, hthree⟩
    obtain ⟨k, hk⟩ := List.mem_iff_getElem?.mp hmem
    rw [List.getElem?_take] at hk
    split at hk
    · next hlt => exact hfirst k hlt (doublePress_of_ret law hk (by omega))
    · cases hk

/-- An edge that ends a double press does not begin one. -/
theorem not_doublePress_succ (h : DoublePress es j) : ¬ DoublePress es (j + 1) := by
  rintro ⟨-, p, -, ⟨k, hk, hp, hret⟩, -⟩
  obtain rfl : j = k := by omega
  have := ret_of_doublePress law hp h
  split at this <;> omega

end Law

/-- The law of the return values, for every run whose clock is positive and does not run
backwards. -/
theorem edge_law (calls : List EdgeCall) (hpos : ∀ c ∈ calls, 0 < c.time.toNat)
    (hclock : calls.Pairwise fun c c' => c.time.toNat ≤ c'.time.toNat) :
    (∀ o ∈ observed calls, o.falling = false → o.ret = 0) ∧
    (∀ j e, (fallingEdges calls)[j]? = some e →
      (∀ p, Armed (fallingEdges calls) j p →
        (p.time.toNat + 3000 < e.time.toNat → e.ret = 1) ∧
        (e.time.toNat ≤ p.time.toNat + 3000 → e.ret = 3 ∨ e.ret = 4)) ∧
      ((¬ ∃ p, Armed (fallingEdges calls) j p) → e.ret = 0) ∧
      (e.ret = 3 ↔ DoublePress (fallingEdges calls) j ∧
        ∀ k < j, ¬ DoublePress (fallingEdges calls) k) ∧
      (DoublePress (fallingEdges calls) j → (∃ k < j, DoublePress (fallingEdges calls) k) →
        e.ret = 4)) ∧
    (∀ j, DoublePress (fallingEdges calls) j → ¬ DoublePress (fallingEdges calls) (j + 1)) ∧
    ∀ o ∈ observed calls, o.ret ≠ 2 := by
  have h := EdgeRun.Inv.run calls hpos hclock
  have hpressed : ∀ j e, (fallingEdges calls)[j]? = some e → DoublePress (fallingEdges calls) j →
      e.ret = 3 ∨ e.ret = 4 := by
    intro j e hj hpress
    have := ret_of_doublePress h.law hj hpress
    split at this <;> omega
  refine ⟨h.quiet, fun j e hj => ⟨fun p harmed => ⟨?_, fun ht => ?_⟩, ?_, ?_, ?_⟩,
    fun j => not_doublePress_succ h.law, fun o ho htwo => ?_⟩
  · exact ret_of_armed_timeout h.law hj harmed
  · exact hpressed j e hj ⟨e, p, hj, harmed, ht⟩
  · exact ret_of_not_armed h.law hj
  · exact ret_eq_three_iff h.law hj
  · rintro hpress ⟨k, hk, hearlier⟩
    have hthree := mt (ret_eq_three_iff h.law hj).mp fun hfirst => hfirst.2 k hk hearlier
    exact (hpressed j e hj hpress).resolve_left hthree
  · -- a return value of 2 would be that of a double press
    cases hfalling : o.falling with
    | false => exact absurd (h.quiet o ho hfalling) (by omega)
    | true =>
        obtain ⟨j, hj⟩ := List.mem_iff_getElem?.mp (List.mem_filter.mpr ⟨ho, hfalling⟩)
        have := hpressed j o hj (doublePress_of_ret h.law hj (by omega))
        omega

/-- Two double presses, and one more edge between them that comes too late. -/
def presses : List EdgeCall :=
  [⟨true, 1⟩, ⟨false, 1000⟩, ⟨true, 1500⟩, ⟨false, 4001⟩, ⟨true, 4002⟩, ⟨false, 6000⟩,
    ⟨true, 9000⟩, ⟨false, 10000⟩, ⟨true, 10000⟩, ⟨false, 13000⟩]

theorem edge_law_presses :
    (fallingEdges presses).map Observed.ret = [0, 1, 3, 0, 4] ∧
      ∀ o ∈ observed presses, o.ret ≠ 2 :=
  ⟨by decide, (edge_law presses (by decide) (by decide)).2.2.2⟩

end BazelPro.Tmp
