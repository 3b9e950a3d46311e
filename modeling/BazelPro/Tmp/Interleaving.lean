import BazelPro.Tmp.Writer

/-!
# Get, load by load, against a running writer

`Get` as the sequence of its loads, interleaved with the stores of a writer at any point. As long
as fewer than fifteen `Put` calls overlap with it, the slot that it reads from is never the one
that is being written, so it sees one complete payload (`get_untorn`).
-/

namespace BazelPro.Tmp

open C

/-- The next thing `Get` does. `retry` tells the second attempt, on the slot before, from the
first; a call that has turned to the second attempt stays with it. -/
inductive Point where
  /-- load `helper.index` -/
  | start
  /-- read the clock -/
  | clock
  /-- load the timestamp for the trace output, which the second attempt has not -/
  | trace
  /-- load the timestamp and compare -/
  | check (retry : Bool)
  /-- load the timestamp for the message, and return -/
  | late (retry : Bool)
  /-- load payload byte `j` -/
  | copy (retry : Bool) (j : Nat)
  /-- load the checksum and compare -/
  | compare (retry : Bool)
  | done (retry : Bool) (ret : Int)
  deriving DecidableEq

/-- A call of `Get`: its program point and locals. -/
structure Reader where
  point : Point
  index : Int
  readTime : BitVec 32
  payload : AgvInfo

namespace Reader

/-- A call that has not begun. -/
def init (payload : AgvInfo) : Reader := ⟨.start, 0, 0, payload⟩

/-- The slot of the current attempt. -/
def slotIndex (r : Reader) (retry : Bool) : Int :=
  if retry then AgvBuf.retryIndex r.index else r.index

/-- Between the load of the index and the return. -/
def inFlight (r : Reader) : Bool :=
  match r.point with
  | .start | .done .. => false
  | _ => true

/-- One load. `now` is what the clock shows, for the step that reads it. -/
def step (r : Reader) (context : AgvBuf) (timeRange now : BitVec 32) : Option Reader :=
  match r.point with
  | .start =>
      let index := context.index.toInt
      if index ≥ cacheBufMax then some { r with index := index, point := .done false (-1) }
      else some { r with index := index, point := .clock }
  | .clock => some { r with readTime := now, point := .trace }
  | .trace => do
      let _ ← context.slot (r.slotIndex false)
      pure { r with point := .check false }
  | .check retry => do
      let w ← context.slot (r.slotIndex retry)
      pure { r with
        point := if r.readTime - w.timestamp > timeRange then .late retry else .copy retry 0 }
  | .late retry => do
      let _ ← context.slot (r.slotIndex retry)
      pure { r with point := .done retry (-1) }
  | .copy retry j =>
      if h : j < agvInfoSize then do
        let w ← context.slot (r.slotIndex retry)
        pure { r with payload := r.payload.set j w.agvInfo[j], point := .copy retry (j + 1) }
      else some { r with point := .compare retry }
  | .compare retry => do
      let w ← context.slot (r.slotIndex retry)
      pure { r with
        point := if crc32 r.payload.toList = w.crc32 then .done retry 0
          else if retry then .done true (-1) else .check true }
  | .done .. => none

/-- The call is behind its look at the clock. -/
def Clocked (r : Reader) : Prop := r.point ≠ .start ∧ r.point ≠ .clock

theorem Clocked.of_trace {r : Reader} (hpoint : r.point = .trace) : r.Clocked := by
  simp [Clocked, hpoint]

theorem Clocked.step {r r' : Reader} (h : r.Clocked) {context : AgvBuf}
    {timeRange now : BitVec 32} (hstep : r.step context timeRange now = some r') :
    r'.readTime = r.readTime ∧ r'.Clocked := by
  unfold Reader.step at hstep
  cases hpoint : r.point with
  | start => exact absurd hpoint h.1
  | clock => exact absurd hpoint h.2
  | trace | late retry =>
      simp only [hpoint] at hstep
      obtain ⟨w, -, hstep⟩ := Option.bind_eq_some_iff.mp hstep
      obtain rfl := Option.some.inj hstep
      exact ⟨rfl, nofun, nofun⟩
  | check retry =>
      simp only [hpoint] at hstep
      obtain ⟨w, -, hstep⟩ := Option.bind_eq_some_iff.mp hstep
      obtain rfl := Option.some.inj hstep
      refine ⟨rfl, ?_⟩
      dsimp only [Clocked]
      split <;> exact ⟨nofun, nofun⟩
  | copy retry j =>
      simp only [hpoint] at hstep
      split at hstep
      · obtain ⟨w, -, hstep⟩ := Option.bind_eq_some_iff.mp hstep
        obtain rfl := Option.some.inj hstep
        exact ⟨rfl, nofun, nofun⟩
      · obtain rfl := Option.some.inj hstep
        exact ⟨rfl, nofun, nofun⟩
  | compare retry =>
      simp only [hpoint] at hstep
      obtain ⟨w, -, hstep⟩ := Option.bind_eq_some_iff.mp hstep
      obtain rfl := Option.some.inj hstep
      refine ⟨rfl, ?_⟩
      dsimp only [Clocked]
      split
      · exact ⟨nofun, nofun⟩
      split <;> exact ⟨nofun, nofun⟩
  | done retry ret =>
      simp only [hpoint] at hstep
      cases hstep

end Reader

/-- The segment with one writer and one call of `Get`. The other fields record the run:
`loaded` and `seen` are the number of completed `Put` calls and the last of them at the load of
the index, `overlap` counts the `Put` calls in progress then or begun since, until the return. -/
structure State where
  shared : Shared
  reader : Reader
  loaded : Nat
  seen : Option Put
  overlap : Nat

/-- A step of the writer's side, or of `Get`. -/
inductive Act where
  | write (a : WriterAct)
  | read (now : BitVec 32)

namespace State

/-- The state after the first constructor run. -/
def init (payload : AgvInfo) : State := ⟨Shared.init, Reader.init payload, 0, none, 0⟩

/-- One step. -/
def step (timeRange : BitVec 32) (s : State) : Act → Option State
  | .write a => do
      let shared ← s.shared.step a
      pure { s with
        shared := shared
        overlap := if s.reader.inFlight then s.overlap + Shared.begins a else s.overlap }
  | .read now => do
      let reader ← s.reader.step s.shared.context timeRange now
      if s.reader.point = .start then
        pure { s with
          reader := reader
          loaded := s.shared.published.length
          seen := s.shared.published.getLast?
          overlap := s.shared.busy }
      else pure { s with reader := reader }

/-- An interleaving. -/
def run (timeRange : BitVec 32) (s : State) (acts : List Act) : Option State :=
  acts.foldlM (step timeRange) s

end State

/-! ## What the reader has seen -/

/-- A call that has read from the slot of `p` only. -/
def Sound (timeRange : BitVec 32) (r : Reader) (p : Put) : Prop :=
  match r.point with
  | .start => False
  | .clock | .trace => True
  | .check retry => retry = false
  | .late retry => retry = false ∧ ¬ r.readTime - p.time ≤ timeRange
  | .copy retry j => retry = false ∧ r.readTime - p.time ≤ timeRange ∧
      ∀ i, i < j → r.payload[i]? = p.payload[i]?
  | .compare retry => retry = false ∧ r.readTime - p.time ≤ timeRange ∧ r.payload = p.payload
  | .done retry ret => retry = false ∧
      if r.readTime - p.time ≤ timeRange then ret = 0 ∧ r.payload = p.payload else ret = -1

/-- The call is in its second attempt. -/
def Point.retry : Point → Bool
  | .start | .clock | .trace => false
  | .check retry | .late retry | .copy retry _ | .compare retry | .done retry _ => retry

theorem Sound.retry_eq {timeRange : BitVec 32} {r : Reader} {p : Put} (h : Sound timeRange r p) :
    r.point.retry = false := by
  unfold Sound at h
  split at h <;> simp_all [Point.retry]

/-- The number of steps left on the path without a retry. -/
def Point.remaining : Point → Nat
  | .start => agvInfoSize + 6
  | .clock => agvInfoSize + 5
  | .trace => agvInfoSize + 4
  | .check _ => agvInfoSize + 3
  | .late _ => 1
  | .copy _ j => agvInfoSize - j + 2
  | .compare _ => 1
  | .done .. => 0

/-- Copying one more byte. -/
theorem copied_set {n j : Nat} {v w : Vector Byte n} (hj : j < n)
    (h : ∀ i, i < j → v[i]? = w[i]?) : ∀ i, i < j + 1 → (v.set j w[j])[i]? = w[i]? := by
  intro i hi
  rw [Vector.getElem?_set]
  split
  · next heq =>
    subst heq
    exact (Vector.getElem?_eq_getElem hj).symm
  · exact h i (by omega)

/-- All bytes are copied. -/
theorem eq_of_copied {n j : Nat} {v w : Vector Byte n} (hj : n ≤ j)
    (h : ∀ i, i < j → v[i]? = w[i]?) : v = w := by
  refine Vector.ext fun i hi => ?_
  have := h i (by omega)
  rwa [Vector.getElem?_eq_getElem hi, Vector.getElem?_eq_getElem hi, Option.some.injEq] at this

/-- A step of the loop that copies the payload. -/
theorem Sound.step_copy {timeRange : BitVec 32} {p : Put} {context : AgvBuf} {j : Nat} {index : Int}
    {readTime : BitVec 32} {payload : AgvInfo} (hload : context.slot index = some p.wrapper)
    (hfresh : readTime - p.time ≤ timeRange)
    (hcopied : ∀ i, i < j → payload[i]? = p.payload[i]?) (now : BitVec 32) :
    ∃ r', (Reader.mk (.copy false j) index readTime payload).step context timeRange now = some r' ∧
      Sound timeRange r' p ∧ r'.index = index ∧
      r'.point.remaining < (Point.copy false j).remaining := by
  by_cases hj : j < agvInfoSize
  · have hstep : (Reader.mk (.copy false j) index readTime payload).step context timeRange now =
        some ⟨.copy false (j + 1), index, readTime, payload.set j p.payload[j]⟩ := by
      simp only [Reader.step, dif_pos hj]
      exact congrArg (Option.bind · _) hload
    exact ⟨_, hstep, ⟨rfl, hfresh, copied_set hj hcopied⟩, rfl, by simp [Point.remaining]; omega⟩
  · have hstep : (Reader.mk (.copy false j) index readTime payload).step context timeRange now =
        some ⟨.compare false, index, readTime, payload⟩ := by
      simp only [Reader.step, dif_neg hj]
    have hpayload := eq_of_copied (Nat.le_of_not_lt hj) hcopied
    exact ⟨_, hstep, ⟨rfl, hfresh, hpayload⟩, rfl, by simp [Point.remaining]⟩

/-- As long as the slot is intact, a call in flight makes progress and stays sound. -/
theorem Sound.step {timeRange : BitVec 32} {r : Reader} {p : Put} (h : Sound timeRange r p)
    (hflight : r.inFlight = true) {context : AgvBuf} {i : Nat} (hindex : r.index = i)
    (hslot : context.wrapper[i]? = some p.wrapper) (now : BitVec 32) :
    ∃ r', r.step context timeRange now = some r' ∧ Sound timeRange r' p ∧ r'.index = r.index ∧
      r'.point.remaining < r.point.remaining := by
  have hload : context.slot (r.slotIndex false) = some p.wrapper := by
    show context.slot r.index = _
    rw [hindex, AgvBuf.slot_natCast, hslot]
  obtain ⟨point, index, readTime, payload⟩ := r
  cases point with
  | start => cases hflight
  | clock => exact ⟨_, rfl, trivial, rfl, by simp [Point.remaining]⟩
  | trace => exact ⟨_, congrArg (Option.bind · _) hload, rfl, rfl, by simp [Point.remaining]⟩
  | check retry =>
      obtain rfl : retry = false := h
      have hstep : (Reader.mk (.check false) index readTime payload).step context timeRange now =
          some ⟨if readTime - p.time > timeRange then .late false else .copy false 0, index,
            readTime, payload⟩ :=
        congrArg (Option.bind · _) hload
      refine ⟨_, hstep, ?_⟩
      by_cases hfresh : readTime - p.time ≤ timeRange
      · rw [if_neg (BitVec.not_lt.mpr hfresh)]
        exact ⟨⟨rfl, hfresh, by simp⟩, rfl, by simp [Point.remaining]⟩
      · rw [if_pos (BitVec.not_le.mp hfresh)]
        exact ⟨⟨rfl, hfresh⟩, rfl, by simp [Point.remaining]⟩
  | late retry =>
      obtain ⟨rfl, hlate⟩ := h
      exact ⟨_, congrArg (Option.bind · _) hload, ⟨rfl, (if_neg hlate).mpr rfl⟩, rfl,
        by simp [Point.remaining]⟩
  | copy retry j =>
      obtain ⟨rfl, hfresh, hcopied⟩ := h
      exact Sound.step_copy hload hfresh hcopied now
  | compare retry =>
      obtain ⟨rfl, hfresh, rfl⟩ := h
      have hstep : (Reader.mk (.compare false) index readTime p.payload).step context timeRange
          now = some ⟨.done false 0, index, readTime, p.payload⟩ := by
        refine (congrArg (Option.bind · _) hload).trans ?_
        show some (Reader.mk (if crc32 p.payload.toList = p.wrapper.crc32 then _ else _) _ _ _) = _
        rw [if_pos (show crc32 p.payload.toList = p.wrapper.crc32 from rfl)]
      exact ⟨_, hstep, ⟨rfl, (if_pos hfresh).mpr ⟨rfl, rfl⟩⟩, rfl, by simp [Point.remaining]⟩
  | done retry ret => cases hflight

/-! ## The invariant -/

namespace State

/-- How the run stands to a call of `Get` in flight: at most `overlap` calls were published
since it loaded the index, and while that is less than fifteen its slot is intact. -/
structure Tracks (s : State) (p : Put) : Prop where
  loaded_le : s.loaded ≤ s.shared.published.length
  published_le : s.shared.published.length + s.shared.busy ≤ s.loaded + s.overlap
  intact : s.overlap < cacheBufMax →
    s.reader.index = (s.loaded % cacheBufMax : Nat) ∧
      s.shared.context.wrapper[s.loaded % cacheBufMax]? = some p.wrapper

/-- The invariant of the interleaving. -/
structure Inv (timeRange : BitVec 32) (s : State) : Prop where
  shared : s.shared.Ok
  tracks : ∀ p, s.seen = some p → s.reader.inFlight = true → Tracks s p
  sound : ∀ p, s.seen = some p → s.overlap < cacheBufMax → Sound timeRange s.reader p

variable {timeRange : BitVec 32} {s s' : State}

theorem Inv.init (payload : AgvInfo) : Inv timeRange (State.init payload) :=
  ⟨Shared.Ok.init, by simp [State.init], by simp [State.init]⟩

/-- A step of the writer. The slot it stores to is that of the next `Put`, which is less than
fifteen ahead of the one the reader is on. -/
theorem Inv.write (h : Inv timeRange s) {a : WriterAct}
    (hstep : s.step timeRange (.write a) = some s') : Inv timeRange s' := by
  obtain ⟨shared, hshared, hs'⟩ := Option.bind_eq_some_iff.mp hstep
  obtain ⟨hlen, hbusy, hframe⟩ := h.shared.frame hshared
  cases hs'
  refine ⟨h.shared.step hshared, fun p hp hflight => ?_, fun p hp hover => ?_⟩
  · obtain ⟨hloaded, hpublished, hintact⟩ := h.tracks p hp hflight
    refine ⟨?_, ?_, fun hover => ?_⟩
    · exact hloaded.trans hlen
    · simp only [if_pos hflight]
      omega
    · simp only [if_pos hflight] at hover
      obtain ⟨hindex, hslot⟩ := hintact (by omega)
      refine ⟨hindex, (hframe _ ?_).trans hslot⟩
      -- a store goes to the next slot: ahead of the one read, and by less than a whole round
      by_cases hquiet : s.shared.busy + Shared.begins a = 0
      · exact Or.inr hquiet
      · refine Or.inl ?_
        have hne := CyclicBuffer.cell_ne (n := s.loaded)
          (k := s.shared.published.length + 1 - s.loaded) (N := cacheBufMax) (by omega) (by omega)
        rwa [Nat.add_sub_cancel' (by omega)] at hne
  · have hle : s.overlap ≤
        if s.reader.inFlight then s.overlap + Shared.begins a else s.overlap := by
      split <;> omega
    exact h.sound p hp (lt_of_le_of_lt hle hover)

/-- The load of the index finds the published slot. -/
theorem Inv.load_index (h : Inv timeRange s) (hstart : s.reader.point = .start) (now : BitVec 32) :
    s.reader.step s.shared.context timeRange now = some { s.reader with
      index := (s.shared.published.length % cacheBufMax : Nat), point := .clock } := by
  have hlt := mod_cacheBufMax_lt s.shared.published.length
  have hindex : s.shared.context.index.toInt = (s.shared.published.length % cacheBufMax : Nat) := by
    rw [h.shared.index, AgvBuf.toInt_index hlt]
  simp only [Reader.step, hstart, hindex]
  rw [if_neg (by omega)]

/-- A step of the reader. -/
theorem Inv.read (h : Inv timeRange s) {now : BitVec 32}
    (hstep : s.step timeRange (.read now) = some s') : Inv timeRange s' := by
  obtain ⟨reader, hreader, hs'⟩ := Option.bind_eq_some_iff.mp hstep
  by_cases hstart : s.reader.point = .start
  · rw [if_pos hstart] at hs'
    rw [h.load_index hstart] at hreader
    cases hreader
    cases hs'
    exact ⟨h.shared, fun p hp _ => ⟨le_refl _, le_refl _, fun _ => ⟨rfl, h.shared.last p hp⟩⟩,
      fun _ _ _ => trivial⟩
  · rw [if_neg hstart] at hs'
    have hflight : s.reader.inFlight = true := by
      cases hpoint : s.reader.point with
      | start => exact absurd hpoint hstart
      | done retry ret => simp [Reader.step, hpoint] at hreader
      | _ => simp [Reader.inFlight, hpoint]
    have hsound : ∀ p, s.seen = some p → s.overlap < cacheBufMax →
        Sound timeRange reader p ∧ reader.index = s.reader.index := by
      intro p hp hover
      obtain ⟨hindex, hslot⟩ := (h.tracks p hp hflight).intact hover
      obtain ⟨r, hr, hsound, hsame, -⟩ := (h.sound p hp hover).step hflight hindex hslot now
      rw [hr] at hreader
      cases hreader
      exact ⟨hsound, hsame⟩
    cases hs'
    refine ⟨h.shared, fun p hp _ => ?_, fun p hp hover => (hsound p hp hover).1⟩
    obtain ⟨hloaded, hpublished, hintact⟩ := h.tracks p hp hflight
    exact ⟨hloaded, hpublished, fun hover =>
      ⟨(hsound p hp hover).2.trans (hintact hover).1, (hintact hover).2⟩⟩

/-- Every step keeps the invariant. -/
theorem Inv.step (h : Inv timeRange s) {a : Act} (hstep : s.step timeRange a = some s') :
    Inv timeRange s' := by
  cases a with
  | write a => exact h.write hstep
  | read now => exact h.read hstep

theorem Inv.run (h : Inv timeRange s) {acts : List Act} (hrun : s.run timeRange acts = some s') :
    Inv timeRange s' :=
  PartialRun.invariant (fun _ _ _ h hstep => h.step hstep) h hrun

/-- The writer's steps before the call begins. -/
theorem run_write {acts : List WriterAct} {shared : Shared} (hidle : s.reader.inFlight = false)
    (hrun : s.shared.run acts = some shared) :
    s.run timeRange (acts.map Act.write) = some { s with shared := shared } := by
  induction acts generalizing s with
  | nil =>
      cases hrun
      rfl
  | cons a acts ih =>
      obtain ⟨t, hstep, hrest⟩ := Option.bind_eq_some_iff.mp hrun
      refine Option.bind_eq_some_iff.mpr ⟨{ s with shared := t }, ?_, ih hidle hrest⟩
      refine Option.bind_eq_some_iff.mpr ⟨t, hstep, ?_⟩
      simp [hidle]

/-- Left alone, a call that is not overtaken returns. -/
theorem Inv.returns (h : Inv timeRange s) {p : Put} (hseen : s.seen = some p)
    (hover : s.overlap < cacheBufMax) (now : BitVec 32) :
    ∃ n s' retry ret, s.run timeRange (List.replicate n (.read now)) = some s' ∧
      s'.reader.point = .done retry ret := by
  -- induction on the loads that are left
  induction hn : s.reader.point.remaining using Nat.strongRecOn generalizing s with
  | _ m ih =>
      have hsound := h.sound p hseen hover
      by_cases hflight : s.reader.inFlight = true
      · obtain ⟨hindex, hslot⟩ := (h.tracks p hseen hflight).intact hover
        obtain ⟨reader, hreader, -, -, hless⟩ := hsound.step hflight hindex hslot now
        have hstart : s.reader.point ≠ .start := by
          intro hstart
          simp [Reader.inFlight, hstart] at hflight
        have hstep : s.step timeRange (.read now) = some { s with reader := reader } := by
          refine Option.bind_eq_some_iff.mpr ⟨reader, hreader, ?_⟩
          rw [if_neg hstart]
          rfl
        obtain ⟨n, s', retry, ret, hrun, hdone⟩ :=
          ih _ (hn ▸ hless) (h.read hstep) hseen hover rfl
        exact ⟨n + 1, s', retry, ret, Option.bind_eq_some_iff.mpr ⟨_, hstep, hrun⟩, hdone⟩
      · cases hpoint : s.reader.point with
        | start => simp [Sound, hpoint] at hsound
        | done retry ret => exact ⟨0, s, retry, ret, rfl, hpoint⟩
        | _ => simp [Reader.inFlight, hpoint] at hflight

/-- Loads behind the clock: they change neither the time read nor anything but the call. -/
theorem reads_frame {now : BitVec 32} {n : Nat} (hclocked : s.reader.Clocked)
    (hrun : s.run timeRange (List.replicate n (.read now)) = some s') :
    (s'.seen = s.seen ∧ s'.overlap = s.overlap ∧ s'.shared = s.shared) ∧
      s'.reader.readTime = s.reader.readTime ∧ s'.reader.Clocked := by
  induction n generalizing s with
  | zero =>
      cases hrun
      exact ⟨⟨rfl, rfl, rfl⟩, rfl, hclocked⟩
  | succ n ih =>
      obtain ⟨t, hread, hrest⟩ := Option.bind_eq_some_iff.mp hrun
      obtain ⟨reader, hreader, ht⟩ := Option.bind_eq_some_iff.mp hread
      rw [if_neg hclocked.1] at ht
      cases ht
      obtain ⟨hsame, htime, hclocked'⟩ := ih (hclocked.step hreader).2 hrest
      exact ⟨hsame, htime.trans (hclocked.step hreader).1, hclocked'⟩

end State

/-- In every interleaving in which at least one `Put` was complete when `Get` loaded the index,
and at most 14 calls overlap with it: `Get` does not retry; once it has returned, the result is
0 with the payload that was published last when it loaded the index if that is fresh, and -1
otherwise; and it does return. -/
theorem get_untorn (timeRange : BitVec 32) (payload : AgvInfo) (acts : List Act) (s : State)
    (p : Put) (hrun : (State.init payload).run timeRange acts = some s)
    (hseen : s.seen = some p) (hoverlap : s.overlap ≤ 14) :
    s.reader.point.retry = false ∧
    (∀ retry ret, s.reader.point = .done retry ret →
      if s.reader.readTime - p.time ≤ timeRange then ret = 0 ∧ s.reader.payload = p.payload
      else ret = -1) ∧
    ∀ now, ∃ n s' retry ret, s.run timeRange (List.replicate n (.read now)) = some s' ∧
      s'.reader.point = .done retry ret := by
  have hinv := (State.Inv.init payload).run hrun
  have hover : s.overlap < cacheBufMax := Nat.lt_succ_of_le hoverlap
  have hsound := hinv.sound p hseen hover
  refine ⟨hsound.retry_eq, fun retry ret hdone => ?_, hinv.returns hseen hover⟩
  simp only [Sound, hdone] at hsound
  exact hsound.2

/-- One complete `Put`. While `Get` is between its load of the index and its return, a second one
has begun: the payload is that of the first. -/
theorem get_untorn_after_put :
    ∃ acts s, (State.init (lastByte 0)).run 1 acts = some s ∧ s.seen = some ⟨lastByte 1, 7⟩ ∧
      s.overlap = 1 ∧ (∃ w, s.shared.writer = some w ∧ w.put = ⟨lastByte 2, 8⟩) ∧
      s.reader.point = .done false 0 ∧ s.reader.payload = lastByte 1 := by
  obtain ⟨context, -, hput⟩ := Shared.Ok.init.run_put rfl ⟨lastByte 1, 7⟩
  let first : Put := ⟨lastByte 1, 7⟩
  let second : Put := ⟨lastByte 2, 8⟩
  let t : State := { State.init (lastByte 0) with shared := ⟨context, none, [first]⟩ }
  have hwrites : (State.init (lastByte 0)).run 1 ((Shared.putActs first).map Act.write) = some t :=
    State.run_write rfl hput
  have hinv := (State.Inv.init (lastByte 0)).run hwrites
  -- the load of the index, and the first store of the second call
  obtain ⟨slot, hslot⟩ := t.shared.context.exists_slot t.shared.nextSlot_lt
  have hnext : t.shared.context.nextIndex = t.shared.nextSlot :=
    t.shared.context.nextIndex_eq hinv.shared.index
  obtain ⟨u, hbegin, hseen, hover, hwriter, htime, hclock⟩ : ∃ u, t.run 1
      [.read 8, .write (.begin second), .read 8] = some u ∧ u.seen = some first ∧ u.overlap = 1 ∧
      (∃ w, u.shared.writer = some w ∧ w.put = second) ∧ u.reader.readTime = 8 ∧
      u.reader.Clocked := by
    have hload := hinv.load_index rfl 8
    have hstore : t.shared.step (.begin second) = some { t.shared with
        context := t.shared.context.withSlot t.shared.nextSlot
          { slot with timestamp := second.time }
        writer := some ⟨second, t.shared.nextSlot, .stamped⟩ } := by
      simp only [Shared.step, t, hnext, AgvBuf.update_natCast _ _ hslot]
      rfl
    refine ⟨_, Option.bind_eq_some_iff.mpr ⟨_, Option.bind_eq_some_iff.mpr ⟨_, hload, rfl⟩,
      Option.bind_eq_some_iff.mpr ⟨_, Option.bind_eq_some_iff.mpr ⟨_, hstore, rfl⟩, rfl⟩⟩,
      rfl, rfl, ⟨_, rfl, rfl⟩, rfl, .of_trace rfl⟩
  have hrun := PartialRun.append hwrites hbegin
  obtain ⟨-, -, hreturns⟩ := get_untorn 1 (lastByte 0) _ u first hrun hseen (by omega)
  obtain ⟨n, s, retry, ret, hreads, hdone⟩ := hreturns 8
  obtain ⟨hsame, htime', -⟩ := State.reads_frame hclock hreads
  have hwhole := PartialRun.append hrun hreads
  obtain ⟨hretry, hresult, -⟩ := get_untorn 1 (lastByte 0) _ s first hwhole
    (hsame.1.trans hseen) (by rw [hsame.2.1]; omega)
  have hfirst := hresult retry ret hdone
  rw [htime', htime, if_pos (by decide)] at hfirst
  obtain ⟨rfl, hpayload⟩ := hfirst
  rw [hdone] at hretry
  obtain rfl : retry = false := hretry
  refine ⟨_, s, hwhole, hsame.1.trans hseen, hsame.2.1.trans hover, ?_, hdone, hpayload⟩
  rw [hsame.2.2]
  exact hwriter

end BazelPro.Tmp
