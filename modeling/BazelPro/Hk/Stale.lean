import BazelPro.Hk.Run

/-!
# Bytes of earlier datagrams

The receive buffer is never cleared, so a datagram that is shorter than what its branch reads is
completed by whatever an earlier one left there. `sent_bytes_eq_iff` compares two runs that agree
on the counters and receive the same datagram next: they send the same bytes exactly when the
datagram covers what is read of it, or is empty, in which case the server ends before it sends.
-/

namespace BazelPro.Hk

open C

/-- The same counters and flags. -/
structure SameCounters (s₁ s₂ : Server) : Prop where
  tick : s₁.tick = s₂.tick
  flip : s₁.flip = s₂.flip
  registered : s₁.registered = s₂.registered
  ifSendDoorInfo : s₁.ifSendDoorInfo = s₂.ifSendDoorInfo

/-- The bytes of the datagrams sent while `d` is handled. -/
def Server.sentBytes (s : Server) (d : Datagram) : List (List Byte) :=
  (s.step d).2.map Sent.bytes

/-- What the dispatch reads is in the datagram. The last two cases are the ones where half of a
16-bit field is: its high byte alone tells that the message is not handled, or that no path is
asked for. -/
def Covered (p : List Byte) : Prop :=
  (10 ≤ p.length ∧ bytesRead (typeOf (view p)) ≤ p.length) ∨
  (p.length = 9 ∧ view p 8 ≠ 0) ∨
  (p.length = 35 ∧ typeOf (view p) = GsMsgType.applyPlanReq.code ∧ view p 34 ≠ 0)

instance (p : List Byte) : Decidable (Covered p) := inferInstanceAs (Decidable (_ ∨ _))

/-- The encodings of the answers to the received bytes `m`. -/
def answerBytes (flip : BitVec 32) (doorInfoSent : Bool) (m : Mem) : List (List Byte) :=
  (answers m doorInfoSent).map fun g => (g.message flip).encode

/-- What is sent is the encoded answers, then the interrupt command if one is due. -/
theorem Server.sent_bytes_eq (s : Server) {d : Datagram} (hne : d.payload ≠ []) :
    s.sentBytes d = answerBytes s.flip s.ifSendDoorInfo (s.received d) ++
      (if interruptDue (s.tick + 1) then [Generator.interruptCtrlReq] else []).map
        fun g => (g.message s.flip).encode := by
  obtain ⟨sendbuffer, hstep⟩ := s.step_spec hne
  rw [Server.sentBytes, hstep, outputs, List.map_map, List.map_append]
  rfl

/-- Two states with the same counters send the same bytes exactly if they answer alike. -/
theorem SameCounters.sent_bytes_iff {s₁ s₂ : Server} (h : SameCounters s₁ s₂) {d : Datagram}
    (hne : d.payload ≠ []) :
    s₁.sentBytes d = s₂.sentBytes d ↔
      answerBytes s₁.flip s₁.ifSendDoorInfo (s₁.received d) =
        answerBytes s₁.flip s₁.ifSendDoorInfo (s₂.received d) := by
  rw [s₁.sent_bytes_eq hne, s₂.sent_bytes_eq hne, ← h.flip, ← h.ifSendDoorInfo, ← h.tick]
  exact List.append_left_inj _

/-! ## Covered datagrams -/

/-- A 16-bit field with a non-zero high byte is at least 256. -/
theorem be16_ne_of_high {m : Mem} {off : Nat} (h : m off ≠ 0) (x : BitVec 16)
    (hx : x.extractLsb' 8 8 = 0) : be16 m off ≠ x := by
  intro heq
  apply h
  rw [← hx, ← heq, be16]
  exact (BitVec.extractLsb'_append_eq_left ..).symm

/-- The handled types are below 256. -/
theorem high_of_handled {type : BitVec 16} (h : type ∈ handledTypes) :
    type.extractLsb' 8 8 = 0 := by
  simp only [handledTypes, List.mem_cons, List.not_mem_nil, or_false] at h
  rcases h with h | h | h | h | h | h | h <;> rw [h] <;> decide

/-- A plan request that does not ask for a path. -/
theorem answers_plan (m : Mem) (sent : Bool) (htype : typeOf m = GsMsgType.applyPlanReq.code)
    (hctrl : ctrlTypeOf m ≠ 1) : answers m sent = [.applyPlanResp (word32 m 4)] := by
  rw [answers, htype, if_neg hctrl]
  rfl

/-- The answers to a covered datagram do not depend on what the buffer held before. -/
theorem Covered.answers_eq {d : Datagram} (h : Covered d.payload) (s₁ s₂ : Server) (sent : Bool) :
    answers (s₁.received d) sent = answers (s₂.received d) sent := by
  have hbyte : ∀ (s : Server) (i : Nat), i < d.payload.length → i < 1024 →
      s.received d i = view d.payload i :=
    fun s i hi hsize => s.received_agree d (n := i + 1) hi hsize i (Nat.lt_succ_self i)
  rcases h with ⟨h10, hread⟩ | ⟨h9, hhigh⟩ | ⟨h35, htype, hhigh⟩
  · -- all that the branch reads was received
    have hagree : ∀ s : Server, answers (s.received d) sent = answers (view d.payload) sent := by
      intro s
      refine answers_congr sent ?_
      rw [s.type_received d h10]
      refine s.received_agree d hread ?_
      unfold bytesRead
      split_ifs <;> omega
    rw [hagree s₁, hagree s₂]
  · -- the high byte of the type was received, and no handled type has that
    have hnone : ∀ s : Server, answers (s.received d) sent = [] := by
      intro s
      refine answers_unhandled _ sent fun hmem => ?_
      rw [← hbyte s 8 (by omega) (by omega)] at hhigh
      exact be16_ne_of_high hhigh _ (high_of_handled hmem) rfl
    rw [hnone s₁, hnone s₂]
  · -- the high byte of `ctrl_type` was received, and it rules the value 1 out
    have hplan : ∀ s : Server,
        answers (s.received d) sent = [.applyPlanResp (word32 (view d.payload) 4)] := by
      intro s
      rw [← hbyte s 34 (by omega) (by omega)] at hhigh
      have horder : word32 (s.received d) 4 = word32 (view d.payload) 4 :=
        word32_congr (s.received_agree d (by omega) (by omega))
      rw [← horder]
      refine answers_plan _ sent ?_ (be16_ne_of_high hhigh 1 (by decide))
      rw [s.type_received d (by omega), htype]
    rw [hplan s₁, hplan s₂]

/-! ## Datagrams that are not covered -/

/-- The start with all-zero memory. -/
abbrev Server.zero : Server := Server.init (fun _ => 0) (fun _ => 0)

/-- After a single datagram from all-zero memory, the buffer holds that datagram, and the flags
only depend on whether it is a status request. -/
theorem Server.run_single {e : List Byte} (hne : e ≠ []) (he : e.length ≤ 1024) :
    ∃ s, (Server.zero.run [⟨e, loopback⟩]).1 = some s ∧ s.tick = 1 ∧ s.flip = 0 ∧
      s.registered = isStatus (view e) ∧ s.ifSendDoorInfo = isStatus (view e) ∧
      s.buffer = view e := by
  obtain ⟨sendbuffer, hstep⟩ := Server.zero.step_spec (d := ⟨e, loopback⟩) hne
  have hreceived : Server.zero.received ⟨e, loopback⟩ = view e :=
    congrArg (storeAt (fun _ => 0) 0) (List.take_of_length_le he)
  simp only [run, hstep, hreceived]
  exact ⟨_, rfl, rfl, rfl, Bool.false_or _, Bool.false_or _, rfl⟩

/-- A state that a single datagram leads to, from all-zero memory. -/
structure AfterOne (e : List Byte) (s : Server) : Prop where
  run : (Server.zero.run [⟨e, loopback⟩]).1 = some s
  buffer : s.buffer = view e

/-- Two datagrams lead to states with the same counters, unless just one of them is a status
request. -/
theorem exists_afterOne (e₁ e₂ : List Byte) (h₁ : e₁ ≠ [] ∧ e₁.length ≤ 1024)
    (h₂ : e₂ ≠ [] ∧ e₂.length ≤ 1024) (hstatus : isStatus (view e₁) = isStatus (view e₂)) :
    ∃ s₁ s₂, AfterOne e₁ s₁ ∧ AfterOne e₂ s₂ ∧ SameCounters s₁ s₂ := by
  obtain ⟨s₁, hrun₁, htick₁, hflip₁, hregistered₁, hdoor₁, hbuffer₁⟩ := Server.run_single h₁.1 h₁.2
  obtain ⟨s₂, hrun₂, htick₂, hflip₂, hregistered₂, hdoor₂, hbuffer₂⟩ := Server.run_single h₂.1 h₂.2
  exact ⟨s₁, s₂, ⟨hrun₁, hbuffer₁⟩, ⟨hrun₂, hbuffer₂⟩, htick₁.trans htick₂.symm,
    hflip₁.trans hflip₂.symm, by rw [hregistered₁, hregistered₂, hstatus],
    by rw [hdoor₁, hdoor₂, hstatus]⟩

/-- Beyond the end of the datagram the buffer still has the earlier one. -/
theorem AfterOne.received {e : List Byte} {s : Server} (h : AfterOne e s) (d : Datagram) (i : Nat)
    (hi : d.payload.length ≤ i) : s.received d i = view e i := by
  rw [Server.received, h.buffer]
  exact storeAt_outside _ _ _ i (Or.inr (by simp; omega))

/-- A datagram of zeros. -/
def zeros : List Byte := List.replicate 36 0

/-- Zeros up to the type, and a register request from there on. -/
def registerResidue : List Byte := List.replicate 9 0 ++ [1]

/-- Not a request, but non-zero where the requests have their fields. -/
def fieldResidue : List Byte := List.replicate 22 0 ++ List.replicate 12 1 ++ [0, 1]

/-- The last byte of the area id is sent back at its own offset. -/
theorem clean_area_byte (m : Mem) (flip : BitVec 32) :
    ((Generator.applyCleanAreaResp (bswap32 (word32 m 20))).message flip).encode[23]? =
      some (m 23) := by
  simp only [Message.encode, Generator.message, bytes32_bswap32, bytes32_word32,
    List.reverse_reverse]
  rfl

/-- So is that of the traffic area id. -/
theorem traffic_area_byte (m : Mem) (flip : BitVec 32) :
    ((Generator.applyTrafficResResp (word32 m 4) (word32 m 20)).message flip).encode[23]? =
      some (m 23) := by
  simp only [Message.encode, Generator.message, bytes32_word32]
  rfl

/-- And that of the door's position. -/
theorem door_byte (m : Mem) (flip : BitVec 32) :
    ((Generator.applyForDoorResp (word32 m 20) (word32 m 24) (word32 m 28)
      (word32 m 4)).message flip).encode[31]? = some (m 31) := by
  simp only [Message.encode, Generator.message, bytes32_word32]
  rfl

section Uncovered

variable {m₁ m₂ : Mem} {sent : Bool} {flip : BitVec 32}

/-- Answers of different lengths are different. -/
theorem answer_bytes_ne_of_length
    (h : (answers m₁ sent).length ≠ (answers m₂ sent).length) :
    answerBytes flip sent m₁ ≠ answerBytes flip sent m₂ := by
  intro heq
  exact h (by simpa [answerBytes] using congrArg List.length heq)

/-- Two single answers that show a byte of the buffer at the same place tell the buffers
apart. -/
theorem answer_bytes_ne_of_byte {g₁ g₂ : Generator} {i : Nat}
    (h₁ : answers m₁ sent = [g₁]) (h₂ : answers m₂ sent = [g₂])
    (hb₁ : (g₁.message flip).encode[i]? = some (m₁ i))
    (hb₂ : (g₂.message flip).encode[i]? = some (m₂ i)) (hne : m₁ i ≠ m₂ i) :
    answerBytes flip sent m₁ ≠ answerBytes flip sent m₂ := by
  intro heq
  rw [answerBytes, answerBytes, h₁, h₂, List.map_singleton, List.map_singleton,
    List.singleton_inj] at heq
  rw [heq, hb₂] at hb₁
  exact hne (Option.some.inj hb₁).symm

end Uncovered

/-- A request that is shorter than what its branch reads is answered differently when zeros
follow it and when `fieldResidue` does. -/
theorem answers_after_residue {m₁ m₂ : Mem} {n : Nat} (sent : Bool) (flip : BitVec 32)
    (htype : typeOf m₁ = typeOf m₂) (hn : 10 ≤ n) (hshort : n < bytesRead (typeOf m₁))
    (h₁ : ∀ i, n ≤ i → m₁ i = view zeros i) (h₂ : ∀ i, n ≤ i → m₂ i = view fieldResidue i)
    (hctrl₁ : m₁ 34 = 0) (hctrl₂ : m₂ 34 = 0) :
    answerBytes flip sent m₁ ≠ answerBytes flip sent m₂ := by
  unfold bytesRead at hshort
  split at hshort
  · next hstatus =>
    have hneed₁ : needPlanOf m₁ = 0 := h₁ 22 (by omega)
    have hneed₂ : needPlanOf m₂ = 1 := h₂ 22 (by omega)
    -- `need_plan` is in the residue: one side sends a movement command
    apply answer_bytes_ne_of_length
    simp [answers, ← htype, hstatus, hneed₁, hneed₂, GsMsgType.code]
  split at hshort
  · next hclean =>
    have hne : m₁ 23 ≠ m₂ 23 := by
      rw [h₁ 23 (by omega), h₂ 23 (by omega)]
      decide
    exact answer_bytes_ne_of_byte (by rw [answers, hclean]; rfl)
      (by rw [answers, ← htype, hclean]; rfl) (clean_area_byte m₁ flip)
      (clean_area_byte m₂ flip) hne
  split at hshort
  · next hdoor =>
    have hne : m₁ 31 ≠ m₂ 31 := by
      rw [h₁ 31 (by omega), h₂ 31 (by omega)]
      decide
    exact answer_bytes_ne_of_byte (by rw [answers, hdoor]; rfl)
      (by rw [answers, ← htype, hdoor]; rfl) (door_byte m₁ flip) (door_byte m₂ flip) hne
  split at hshort
  · next htraffic =>
    have hne : m₁ 23 ≠ m₂ 23 := by
      rw [h₁ 23 (by omega), h₂ 23 (by omega)]
      decide
    exact answer_bytes_ne_of_byte (by rw [answers, htraffic]; rfl)
      (by rw [answers, ← htype, htraffic]; rfl) (traffic_area_byte m₁ flip)
      (traffic_area_byte m₂ flip) hne
  split at hshort
  · next hplan =>
    have hask₁ : ctrlTypeOf m₁ ≠ 1 := by
      rw [ctrlTypeOf, be16, hctrl₁, h₁ 35 (by omega)]
      decide
    have hask₂ : ctrlTypeOf m₂ = 1 := by
      rw [ctrlTypeOf, be16, hctrl₂, h₂ 35 (by omega)]
      decide
    have hpath : answers m₂ sent = [.applyPlanResp (word32 m₂ 4), .pathPlanReq] := by
      rw [answers, ← htype, hplan, if_pos hask₂]
      rfl
    -- one side is asked for a path
    apply answer_bytes_ne_of_length
    rw [answers_plan m₁ sent hplan hask₁, hpath]
    exact (by decide : 1 ≠ 2)
  · omega

/-- Only an apply-plan request is read to its end. -/
theorem plan_of_bytes_read (type : BitVec 16) (h : 35 < bytesRead type) :
    type = GsMsgType.applyPlanReq.code ∧ bytesRead type = 36 := by
  unfold bytesRead at h ⊢
  split_ifs at h ⊢ <;> first | omega | exact ⟨‹_›, rfl⟩

/-- After one datagram, the received bytes are the new datagram's and, behind it, the earlier
one's. -/
theorem AfterOne.received_eq_zero {e : List Byte} {s : Server} (h : AfterOne e s) (d : Datagram)
    (i : Nat) (hi : i < 1024) (hold : view e i = 0)
    (hnew : i < d.payload.length → view d.payload i = 0) : s.received d i = 0 := by
  by_cases hlen : i < d.payload.length
  · rw [← hnew hlen]
    exact s.received_agree d (n := i + 1) hlen hi i (Nat.lt_succ_self i)
  · rw [h.received d i (by omega), hold]

/-- What is not covered is answered differently after some two datagrams. -/
theorem exists_residue {d : Datagram} (hne : d.payload ≠ []) (h : ¬ Covered d.payload) :
    ∃ e₁ e₂ s₁ s₂, AfterOne e₁ s₁ ∧ AfterOne e₂ s₂ ∧ SameCounters s₁ s₂ ∧
      s₁.sentBytes d ≠ s₂.sentBytes d := by
  unfold Covered at h
  push Not at h
  obtain ⟨hread, hnine, hplan⟩ := h
  by_cases h10 : 10 ≤ d.payload.length
  · -- the type was received, and a field of its branch was not
    have hshort := hread h10
    have h34 : ∀ e s, AfterOne e s → view e 34 = 0 → s.received d 34 = 0 := by
      intro e s he hold
      refine he.received_eq_zero d 34 (by omega) hold fun hlen => ?_
      obtain ⟨htype, h36⟩ := plan_of_bytes_read (typeOf (view d.payload)) (by omega)
      exact hplan (by omega) htype
    obtain ⟨s₁, s₂, h₁, h₂, hsame⟩ := exists_afterOne zeros fieldResidue (by decide)
      (by decide) (by decide)
    refine ⟨_, _, s₁, s₂, h₁, h₂, hsame, ?_⟩
    rw [Ne, hsame.sent_bytes_iff hne]
    refine answers_after_residue _ _ ?_ h10 ?_ (h₁.received d) (h₂.received d)
      (h34 zeros s₁ h₁ rfl) (h34 fieldResidue s₂ h₂ rfl)
    · rw [Server.type_received _ d h10, Server.type_received _ d h10]
    · rwa [Server.type_received _ d h10]
  · -- the residue completes the type: zero is no request, one is a register request
    have htype : ∀ e s, AfterOne e s → view e 8 = 0 →
        typeOf (s.received d) = (0 : Byte) ++ view e 9 := by
      intro e s he hold
      have h8 : s.received d 8 = 0 :=
        he.received_eq_zero d 8 (by omega) hold fun hlen => hnine (by omega)
      rw [typeOf, be16, h8, he.received d 9 (by omega)]
    obtain ⟨s₁, s₂, h₁, h₂, hsame⟩ := exists_afterOne zeros registerResidue (by decide)
      (by decide) (by decide)
    refine ⟨_, _, s₁, s₂, h₁, h₂, hsame, ?_⟩
    rw [Ne, hsame.sent_bytes_iff hne]
    have hnone : answers (s₁.received d) s₁.ifSendDoorInfo = [] := by
      apply answers_unhandled
      rw [htype zeros s₁ h₁ rfl]
      decide
    have hregister : answers (s₂.received d) s₁.ifSendDoorInfo = [.registerResp] := by
      rw [answers, htype registerResidue s₂ h₂ rfl]
      rfl
    apply answer_bytes_ne_of_length
    rw [hnone, hregister]
    exact (by decide : 0 ≠ 1)

/-! ## The condition -/

/-- For the next datagram `d`, any two runs that reach the same counters send the same bytes if
and only if `d` covers what the dispatch reads of it, or is empty. -/
theorem sent_bytes_eq_iff (d : Datagram) :
    (∀ (buffer₁ addr₁ buffer₂ addr₂ : Mem) (ds₁ ds₂ : List Datagram) (s₁ s₂ : Server),
      ((Server.init buffer₁ addr₁).run ds₁).1 = some s₁ →
      ((Server.init buffer₂ addr₂).run ds₂).1 = some s₂ →
      SameCounters s₁ s₂ → s₁.sentBytes d = s₂.sentBytes d) ↔
        d.payload = [] ∨ Covered d.payload := by
  by_cases hempty : d.payload = []
  · -- nothing is sent in either run
    refine iff_of_true (fun _ _ _ _ _ _ s₁ s₂ _ _ _ => ?_) (Or.inl hempty)
    rw [Server.sentBytes, Server.sentBytes, s₁.step_empty hempty, s₂.step_empty hempty]
  rw [or_iff_right hempty]
  constructor
  · -- two histories that differ in the residue refute the left side
    intro hsame
    by_contra hcovered
    obtain ⟨e₁, e₂, s₁, s₂, h₁, h₂, hcounters, hne⟩ := exists_residue hempty hcovered
    exact hne (hsame _ _ _ _ [⟨e₁, loopback⟩] [⟨e₂, loopback⟩] s₁ s₂ h₁.run h₂.run hcounters)
  · intro hcovered _ _ _ _ _ _ s₁ s₂ _ _ hcounters
    rw [hcounters.sent_bytes_iff hempty, answerBytes, answerBytes, hcovered.answers_eq s₁ s₂]

/-- A robot status request of which only the header arrived. -/
def bareStatusRequest : Datagram :=
  ⟨(Message.mk (bswap32 7) .robotStatusReq []).encode, loopback⟩

/-- Whether it is followed by a movement command is decided by an earlier datagram. -/
theorem bare_status_request_stale :
    ¬ ∀ (buffer₁ addr₁ buffer₂ addr₂ : Mem) (ds₁ ds₂ : List Datagram) (s₁ s₂ : Server),
      ((Server.init buffer₁ addr₁).run ds₁).1 = some s₁ →
      ((Server.init buffer₂ addr₂).run ds₂).1 = some s₂ →
      SameCounters s₁ s₂ →
      s₁.sentBytes bareStatusRequest = s₂.sentBytes bareStatusRequest := by
  intro hsame
  obtain ⟨e₁, e₂, s₁, s₂, h₁, h₂, hcounters, hne⟩ :=
    exists_residue (d := bareStatusRequest) (by decide) (by decide)
  exact hne (hsame _ _ _ _ [⟨e₁, loopback⟩] [⟨e₂, loopback⟩] s₁ s₂ h₁.run h₂.run hcounters)

end BazelPro.Hk
