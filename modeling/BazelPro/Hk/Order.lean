import BazelPro.Hk.Run

/-!
# The order of a response

Four of the request branches pass the four order bytes of the request on to the generator of the
response. The register, status and clean-area branches do not: their generators write the order
of the header they build, which is always 1. `response_order_iff` says for every datagram of
every run which of the two happens to give the requester its own order back.
-/

namespace BazelPro.Hk

open C

/-- The order bytes of the message in `m`. -/
def orderOf (m : Mem) : List Byte := load m 4 4

/-- The order bytes of a sent message. -/
def sentOrder (x : Sent) : List Byte := orderOf (view x.bytes)

/-- The first message sent while `d` is handled is its response and carries its order. -/
def EchoesOrder (d : Datagram) (sent : List Sent) : Prop :=
  ∃ x, sent.head? = some x ∧ sentType x = typeOf (view d.payload) + 1 ∧
    sentOrder x = orderOf (view d.payload)

/-- The request types whose response is generated from the request's order. -/
def echoingTypes : List (BitVec 16) :=
  [GsMsgType.applyForDoorReq.code, GsMsgType.applyTrafficResReq.code,
    GsMsgType.applyOfflineReq.code, GsMsgType.applyPlanReq.code]

/-- The request is of one of these types, or its order is the 1 that the others answer with. -/
def KeepsOrder (d : Datagram) : Prop :=
  typeOf (view d.payload) ∈ echoingTypes ∨ orderOf (view d.payload) = [0, 0, 0, 1]

instance (d : Datagram) : Decidable (KeepsOrder d) := inferInstanceAs (Decidable (_ ∨ _))

/-- The first answer to a handled request is its response, with the order passed on or 1. -/
theorem answers_head (m : Mem) (doorInfoSent : Bool) (h : typeOf m ∈ handledTypes) :
    ∃ g rest, answers m doorInfoSent = g :: rest ∧ g.type.code = typeOf m + 1 ∧
      ∀ flip, (g.message flip).order =
        if typeOf m ∈ echoingTypes then word32 m 4 else bswap32 1 := by
  simp only [handledTypes, List.mem_cons, List.not_mem_nil, or_false] at h
  unfold answers echoingTypes
  rcases h with h | h | h | h | h | h | h <;> rw [h]
  · exact ⟨.registerResp, [], rfl, rfl, fun _ => rfl⟩
  · exact ⟨.robotStatusResp, _, rfl, rfl, fun _ => rfl⟩
  · exact ⟨.applyCleanAreaResp _, [], rfl, rfl, fun _ => rfl⟩
  · exact ⟨.applyForDoorResp _ _ _ _, [], rfl, rfl, fun _ => rfl⟩
  · exact ⟨.applyTrafficResResp _ _, [], rfl, rfl, fun _ => rfl⟩
  · exact ⟨.applyOffineResp _, [], rfl, rfl, fun _ => rfl⟩
  · exact ⟨.applyPlanResp _, _, rfl, rfl, fun _ => rfl⟩

/-- One iteration on a full-length request: the response has the request's order exactly when
the branch passes it on or it is 1. -/
theorem step_echoes_iff (s : Server) (d : Datagram) (hfull : FullLength d)
    (hreq : typeOf (view d.payload) ∈ handledTypes) :
    EchoesOrder d (s.step d).2 ↔ KeepsOrder d := by
  obtain ⟨g, rest, hanswers, htype, horder⟩ :=
    answers_head (view d.payload) s.ifSendDoorInfo hreq
  obtain ⟨sendbuffer, hstep⟩ := s.step_spec hfull.ne_nil
  have hhead : (s.step d).2.head? = some ((s.receive d).sent g) := by
    rw [hstep, Server.outputs, s.answers_received d hfull, hanswers]
    rfl
  have hsent : sentOrder ((s.receive d).sent g) =
      if typeOf (view d.payload) ∈ echoingTypes then orderOf (view d.payload)
      else [0, 0, 0, 1] := by
    rw [sentOrder, orderOf, view, Server.sent, Message.load_order, horder]
    split
    · exact bytes32_word32 _ 4
    · rfl
  unfold EchoesOrder KeepsOrder
  rw [hhead]
  constructor
  · rintro ⟨x, hx, -, hecho⟩
    obtain rfl : (s.receive d).sent g = x := Option.some.inj hx
    rw [hsent] at hecho
    by_cases hpass : typeOf (view d.payload) ∈ echoingTypes
    · exact Or.inl hpass
    · rw [if_neg hpass] at hecho
      exact Or.inr hecho.symm
  · intro hkeeps
    refine ⟨_, rfl, (Server.sentType_sent _ g).trans htype, ?_⟩
    rw [hsent]
    split
    · rfl
    · next hpass => exact (hkeeps.resolve_left hpass).symm

/-- In every run, the response to a full-length request that the server receives, no datagram
before it being an empty one that ends the process, has the request's order if and only if the
request is of a type whose branch passes the order on, or its order is 1. -/
theorem response_order_iff (buffer clientAddr : Mem) (ds : List Datagram) (i : Nat)
    (hi : i < ds.length) (hreceived : ∀ e ∈ ds.take i, e.payload ≠ []) (hfull : FullLength ds[i])
    (hreq : typeOf (view ds[i].payload) ∈ handledTypes) :
    ∃ sent, ((Server.init buffer clientAddr).run ds).2[i]? = some sent ∧
      (EchoesOrder ds[i] sent ↔ KeepsOrder ds[i]) := by
  obtain ⟨s, hrun⟩ := (Server.init buffer clientAddr).run_goes_on (ds.take i) hreceived
  exact ⟨_, Server.run_getElem? hrun hi, step_echoes_iff s ds[i] hfull hreq⟩

/-- A status request with order 7 is not one of them. -/
theorem response_order_status :
    ∃ sent, ((Server.init (fun _ => 0) (fun _ => 0)).run [statusRequest]).2[0]? = some sent ∧
      ¬ EchoesOrder statusRequest sent := by
  obtain ⟨sent, hsent, hiff⟩ := response_order_iff (fun _ => 0) (fun _ => 0) [statusRequest] 0
    (by decide) (by decide) (by decide) (by decide)
  exact ⟨sent, hsent, fun h => absurd (hiff.mp h) (by decide)⟩

/-- So not every response has the order of its request. -/
theorem not_every_response_echoes :
    ¬ ∀ (buffer clientAddr : Mem) (ds : List Datagram) (i : Nat) (hi : i < ds.length),
      (∀ e ∈ ds.take i, e.payload ≠ []) →
      FullLength ds[i] → typeOf (view ds[i].payload) ∈ handledTypes →
      ∃ sent, ((Server.init buffer clientAddr).run ds).2[i]? = some sent ∧
        EchoesOrder ds[i] sent := by
  intro hall
  obtain ⟨sent, hsent, hecho⟩ := hall (fun _ => 0) (fun _ => 0) [statusRequest] 0
    (by decide) (by decide) (by decide) (by decide)
  have hstep : ((Server.init (fun _ => 0) (fun _ => 0)).run [statusRequest]).2[0]? =
      some ((Server.init (fun _ => 0) (fun _ => 0)).step statusRequest).2 :=
    Server.run_getElem? rfl (by decide)
  obtain rfl := Option.some.inj (hstep.symm.trans hsent)
  exact absurd ((step_echoes_iff _ statusRequest (by decide) (by decide)).mp hecho) (by decide)

end BazelPro.Hk
