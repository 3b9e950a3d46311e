import BazelPro.C.Int32
import BazelPro.Hk.Requests

/-!
# Runs of the HK server

What holds over a whole run from the start of the program: the counters and the flag are
functions of the datagrams received so far (`Reached`), so the messages that go out while the
`n`-th datagram is handled are determined by that datagram, by `n`, and by whether a robot
status request came before. `run_trace` states the whole output of a run.
-/

namespace BazelPro.Hk

open C

/-- The type of a sent message. -/
def sentType (x : Sent) : BitVec 16 := typeOf (view x.bytes)

/-- `cmd_type` of a sent interrupt command. -/
def sentCmdType (x : Sent) : BitVec 16 := be16 (view x.bytes) 18

/-- The datagram is a robot status request. -/
abbrev IsStatus (d : Datagram) : Prop :=
  typeOf (view d.payload) = GsMsgType.robotStatusReq.code

/-- The datagram is an apply-plan request. -/
abbrev IsPlan (d : Datagram) : Prop := typeOf (view d.payload) = GsMsgType.applyPlanReq.code

/-- The types of the messages that go out while `d` is handled after the datagrams `earlier`,
in order: the response, then what the request asks for, then the interrupt command. -/
def traceOf (earlier : List Datagram) (d : Datagram) : List (BitVec 16) :=
  let m := view d.payload
  (if typeOf m ∈ handledTypes then [typeOf m + 1] else []) ++
  (if IsStatus d ∧ needPlanOf m ≠ 0 then [GsMsgType.trpCtrlReq.code] else []) ++
  (if IsStatus d ∧ ∀ e ∈ earlier, ¬ IsStatus e then [GsMsgType.doorConfigReq.code] else []) ++
  (if IsPlan d ∧ ctrlTypeOf m = 1 then [GsMsgType.pathPlanReq.code] else []) ++
  (if (earlier.length + 1) % 3 = 0 then [GsMsgType.interruptCtrlReq.code] else [])

/-! ## Single messages -/

namespace Server

theorem sentType_sent (s : Server) (g : Generator) : sentType (s.sent g) = g.type.code := by
  rw [sentType, typeOf, view, sent, Message.be16_type, g.type_message]

theorem sentCmdType_interrupt (s : Server) :
    sentCmdType (s.sent .interruptCtrlReq) = ((s.flip + 1).srem 3).setWidth 16 := by
  have := be16_storeAt (fun _ => 0)
    (headerBytes (bswap32 1) .interruptCtrlReq 20 ++ bytes16 (bswap16 6001)) []
    (((s.flip + 1).srem 3).setWidth 16)
  simpa [sentCmdType, view, sent, Generator.message, Message.encode] using this

end Server

/-- A datagram is a status request for the dispatch when it is one by its own bytes. -/
theorem isStatus_received (s : Server) (d : Datagram) (h : 10 ≤ d.payload.length) :
    isStatus (s.received d) = decide (IsStatus d) := by
  rw [isStatus, s.type_received d h]

/-- The types of the answers are the trace without the interrupt command. -/
theorem answers_type (d : Datagram) (sent : Bool) :
    (answers (view d.payload) sent).map (fun g => g.type.code) =
      (if typeOf (view d.payload) ∈ handledTypes then [typeOf (view d.payload) + 1] else []) ++
      (if IsStatus d ∧ needPlanOf (view d.payload) ≠ 0 then [GsMsgType.trpCtrlReq.code] else []) ++
      (if IsStatus d ∧ sent = false then [GsMsgType.doorConfigReq.code] else []) ++
      (if IsPlan d ∧ ctrlTypeOf (view d.payload) = 1 then [GsMsgType.pathPlanReq.code]
        else []) := by
  unfold answers handledTypes
  split
  · next h => simp [h, IsStatus, IsPlan, GsMsgType.code, Generator.type]
  split
  · next h =>
    cases sent <;> split <;> simp_all [IsStatus, IsPlan, GsMsgType.code, Generator.type]
  split
  · next h => simp [h, IsStatus, IsPlan, GsMsgType.code, Generator.type]
  split
  · next h => simp [h, IsStatus, IsPlan, GsMsgType.code, Generator.type]
  split
  · next h => simp [h, IsStatus, IsPlan, GsMsgType.code, Generator.type]
  split
  · next h => simp [h, IsStatus, IsPlan, GsMsgType.code, Generator.type]
  split
  · next h => split <;> simp_all [IsStatus, IsPlan, GsMsgType.code, Generator.type]
  · simp_all

/-! ## The counters -/

/-- A count below `2 ^ 31` keeps its value modulo 3 in an `int`. -/
theorem srem_three (n : Nat) (h : n < 2 ^ 31) :
    (BitVec.ofNat 32 n).srem 3 = BitVec.ofNat 32 (n % 3) := srem_ofNat h (by decide)

/-- The interrupt command is due in every third iteration. -/
theorem interrupt_due_ofNat (n : Nat) (h : n < 2 ^ 31) :
    interruptDue (BitVec.ofNat 32 n) = decide (n % 3 = 0) := by
  rw [interruptDue, srem_three n h]
  have : n % 3 < 3 := Nat.mod_lt _ (by omega)
  interval_cases n % 3 <;> rfl

/-- The state after the datagrams `ds`, as far as it decides what is sent. -/
structure Reached (ds : List Datagram) (s : Server) : Prop where
  tick : s.tick = BitVec.ofNat 32 ds.length
  flip : s.flip = BitVec.ofNat 32 (ds.length / 3)
  ifSendDoorInfo : s.ifSendDoorInfo = true ↔ ∃ e ∈ ds, IsStatus e

theorem Reached.init (buffer clientAddr : Mem) : Reached [] (Server.init buffer clientAddr) :=
  ⟨rfl, rfl, by simp [Server.init]⟩

variable {ds : List Datagram} {s : Server} {d : Datagram}

theorem Reached.succ_tick (hs : Reached ds s) : s.tick + 1 = BitVec.ofNat 32 (ds.length + 1) := by
  rw [hs.tick, ofNat_add_one]

/-- One iteration keeps the counters and the flag in step with the history. -/
theorem Reached.step (hs : Reached ds s) (hfull : FullLength d)
    (hlen : ds.length + 1 < 2 ^ 31) :
    ∃ s', (s.step d).1 = some s' ∧ Reached (ds ++ [d]) s' := by
  have h10 : 10 ≤ d.payload.length := by
    have := hfull.sixteen_le
    omega
  obtain ⟨sendbuffer, hstep⟩ := s.step_spec hfull.ne_nil
  rw [hstep]
  refine ⟨_, rfl, ?_, ?_, ?_⟩
  · simpa using hs.succ_tick
  · simp only [hs.succ_tick, interrupt_due_ofNat _ hlen, hs.flip, decide_eq_true_eq,
      List.length_append, List.length_singleton]
    split
    · -- every third datagram moves `flip` on
      rw [show (ds.length + 1) / 3 = ds.length / 3 + 1 by omega, ofNat_add_one]
    · rw [show (ds.length + 1) / 3 = ds.length / 3 by omega]
  · simp [isStatus_received s d h10, hs.ifSendDoorInfo, or_and_right, exists_or]

/-- What one iteration sends. -/
theorem Reached.sends (hs : Reached ds s) (hfull : FullLength d)
    (hlen : ds.length + 1 < 2 ^ 31) :
    (s.step d).2.map sentType = traceOf ds d ∧
      ((ds.length + 1) % 3 = 0 → ∃ x, (s.step d).2.getLast? = some x ∧
        sentType x = GsMsgType.interruptCtrlReq.code ∧
        sentCmdType x = BitVec.ofNat 16 ((ds.length + 1) / 3 % 3)) := by
  obtain ⟨sendbuffer, hstep⟩ := s.step_spec hfull.ne_nil
  have hdue : interruptDue (s.tick + 1) = decide ((ds.length + 1) % 3 = 0) := by
    rw [hs.succ_tick, interrupt_due_ofNat _ hlen]
  rw [hstep]
  refine ⟨?_, fun hthird => ?_⟩
  · have hdoor : (s.ifSendDoorInfo = false) ↔ ∀ e ∈ ds, ¬ IsStatus e := by
      rw [← Bool.not_eq_true, hs.ifSendDoorInfo]
      simp
    have htypes : ∀ gs : List Generator, (gs.map (s.receive d).sent).map sentType =
        gs.map (fun g => g.type.code) := by
      intro gs
      simp [Server.sentType_sent]
    simp only [Server.outputs, htypes, List.map_append, s.answers_received d hfull, answers_type,
      hdoor, hdue, traceOf, decide_eq_true_eq]
    split_ifs <;> simp [Generator.type]
  · -- the interrupt command comes after the answers
    refine ⟨(s.receive d).sent .interruptCtrlReq, ?_, ?_, ?_⟩
    · have hout : s.outputs d = answers (s.received d) s.ifSendDoorInfo ++ [.interruptCtrlReq] := by
        rw [Server.outputs, hdue, decide_eq_true hthird]
        rfl
      simp [hout]
    · exact Server.sentType_sent _ _
    · have hflip : (s.receive d).flip + 1 = BitVec.ofNat 32 ((ds.length + 1) / 3) := by
        change s.flip + 1 = _
        rw [hs.flip, show (ds.length + 1) / 3 = ds.length / 3 + 1 by omega, ofNat_add_one]
      rw [Server.sentCmdType_interrupt, hflip, srem_three _ (by omega),
        BitVec.setWidth_ofNat_of_le (by omega)]

/-! ## Runs -/

namespace Server

/-- Handling one more datagram. -/
theorem run_concat {s s' : Server} {ds : List Datagram} (h : (s.run ds).1 = some s')
    (d : Datagram) :
    s.run (ds ++ [d]) = ((s'.step d).1, (s.run ds).2 ++ [(s'.step d).2]) := by
  induction ds generalizing s with
  | nil =>
      obtain rfl : s = s' := Option.some.inj h
      simp only [List.nil_append, run]
      rcases s.step d with ⟨_ | t, sent⟩ <;> rfl
  | cons e ds ih =>
      simp only [List.cons_append, run] at h ⊢
      rcases hstep : s.step e with ⟨_ | t, sent⟩ <;> rw [hstep] at h
      · cases h
      · simp only [ih h, List.cons_append]

/-- The `i`-th entry of the output is what the iteration on the `i`-th datagram sends, from the
state that the datagrams before it led to. -/
theorem run_getElem? {s s' : Server} {ds : List Datagram} {i : Nat}
    (h : (s.run (ds.take i)).1 = some s') (hi : i < ds.length) :
    (s.run ds).2[i]? = some (s'.step ds[i]).2 := by
  induction ds generalizing s i with
  | nil => simp at hi
  | cons e ds ih =>
      cases i with
      | zero =>
          obtain rfl : s = s' := Option.some.inj h
          simp only [run, List.getElem_cons_zero]
          rcases s.step e with ⟨_ | t, sent⟩ <;> rfl
      | succ i =>
          simp only [List.length_cons, Nat.add_lt_add_iff_right] at hi
          simp only [List.take_succ_cons, run] at h ⊢
          rcases hstep : s.step e with ⟨_ | t, sent⟩ <;> rw [hstep] at h
          · cases h
          · exact ih h hi

/-- As long as no datagram is empty, the process goes on. -/
theorem run_goes_on (s : Server) (ds : List Datagram) (h : ∀ d ∈ ds, d.payload ≠ []) :
    ∃ s', (s.run ds).1 = some s' := by
  induction ds generalizing s with
  | nil => exact ⟨s, rfl⟩
  | cons d ds ih =>
      obtain ⟨sendbuffer, hstep⟩ := s.step_spec (h d List.mem_cons_self)
      simp only [run, hstep]
      exact ih _ fun e he => h e (List.mem_cons_of_mem _ he)

/-- The counters and the flag after any run on full-length datagrams. -/
theorem reached_run (buffer clientAddr : Mem) (ds : List Datagram) (hlen : ds.length < 2 ^ 31)
    (hfull : ∀ d ∈ ds, FullLength d) :
    ∃ s, ((Server.init buffer clientAddr).run ds).1 = some s ∧ Reached ds s := by
  -- the run grows at its end, where the step lemma applies
  induction ds using List.reverseRecOn with
  | nil => exact ⟨_, rfl, Reached.init buffer clientAddr⟩
  | append_singleton ds d ih =>
      rw [List.length_append, List.length_singleton] at hlen
      obtain ⟨s, hrun, hs⟩ := ih (by omega) fun e he => hfull e (List.mem_append_left _ he)
      rw [run_concat hrun]
      exact hs.step (hfull d (by simp)) hlen

end Server

/-- Only an interrupt command has the type of one. -/
theorem count_traceOf (earlier : List Datagram) (d : Datagram) :
    (traceOf earlier d).count GsMsgType.interruptCtrlReq.code =
      if (earlier.length + 1) % 3 = 0 then 1 else 0 := by
  have hresp : (if typeOf (view d.payload) ∈ handledTypes then [typeOf (view d.payload) + 1]
      else []).count GsMsgType.interruptCtrlReq.code = 0 := by
    rw [List.count_eq_zero]
    split
    · next h =>
      simp only [handledTypes, List.mem_cons, List.not_mem_nil, or_false] at h
      rcases h with h | h | h | h | h | h | h <;> rw [h] <;> decide
    · exact List.not_mem_nil
  rw [traceOf, List.count_append, List.count_append, List.count_append, List.count_append, hresp]
  split_ifs <;> decide

/-- The interrupt commands of a whole run. -/
theorem count_interrupts (buffer clientAddr : Mem) (ds : List Datagram)
    (hlen : ds.length < 2 ^ 31) (hfull : ∀ d ∈ ds, FullLength d) :
    ((((Server.init buffer clientAddr).run ds).2.flatten).map sentType).count
      GsMsgType.interruptCtrlReq.code = ds.length / 3 := by
  induction ds using List.reverseRecOn with
  | nil => rfl
  | append_singleton ds d ih =>
      rw [List.length_append, List.length_singleton] at hlen
      have hfull' : ∀ e ∈ ds, FullLength e := fun e he => hfull e (List.mem_append_left _ he)
      obtain ⟨s, hrun, hs⟩ := Server.reached_run buffer clientAddr ds (by omega) hfull'
      have hsent := (hs.sends (hfull d (by simp)) hlen).1
      rw [Server.run_concat hrun, List.flatten_append, List.map_append, List.count_append,
        ih (by omega) hfull', List.flatten_singleton, hsent, count_traceOf, List.length_append,
        List.length_singleton]
      split_ifs <;> omega

/-- The output of a run on full-length datagrams: for every datagram exactly the messages of
`traceOf`, the interrupt command last and its `cmd_type` counting modulo 3; and `n / 3`
interrupt commands altogether. -/
theorem run_trace (buffer clientAddr : Mem) (ds : List Datagram) (hlen : ds.length < 2 ^ 31)
    (hfull : ∀ d ∈ ds, FullLength d) :
    (∀ i (hi : i < ds.length), ∃ sent,
      ((Server.init buffer clientAddr).run ds).2[i]? = some sent ∧
      sent.map sentType = traceOf (ds.take i) ds[i] ∧
      ((i + 1) % 3 = 0 → ∃ x, sent.getLast? = some x ∧
        sentType x = GsMsgType.interruptCtrlReq.code ∧
        sentCmdType x = BitVec.ofNat 16 ((i + 1) / 3 % 3))) ∧
    ((((Server.init buffer clientAddr).run ds).2.flatten).map sentType).count
      GsMsgType.interruptCtrlReq.code = ds.length / 3 := by
  refine ⟨fun i hi => ?_, count_interrupts buffer clientAddr ds hlen hfull⟩
  have htake : (ds.take i).length = i := by simp; omega
  obtain ⟨s, hrun, hs⟩ := Server.reached_run buffer clientAddr (ds.take i) (by omega)
    fun d hd => hfull d (List.mem_of_mem_take hd)
  have hsends := hs.sends (hfull ds[i] (List.getElem_mem hi)) (by omega)
  rw [htake] at hsends
  exact ⟨_, Server.run_getElem? hrun hi, hsends⟩

/-- Three status requests: the third is answered and followed by the interrupt command. -/
theorem run_trace_statuses :
    (∃ sent, ((Server.init (fun _ => 0) (fun _ => 0)).run
        [statusRequest, statusRequest, statusRequest]).2[2]? = some sent ∧
      sent.map sentType = [6, 19]) ∧
    ((((Server.init (fun _ => 0) (fun _ => 0)).run
        [statusRequest, statusRequest, statusRequest]).2.flatten).map sentType).count 19 = 1 := by
  obtain ⟨htrace, hcount⟩ := run_trace (fun _ => 0) (fun _ => 0)
    [statusRequest, statusRequest, statusRequest] (by decide) (by decide)
  obtain ⟨sent, hsent, htypes, -⟩ := htrace 2 (by decide)
  exact ⟨⟨sent, hsent, htypes.trans (by decide)⟩, hcount⟩

end BazelPro.Hk
