import BazelPro.Jw.Server

/-!
# What the JW server answers

The text that the parser sees is a function of the datagram (`Arrival.text`), and whether there
is a reply is a function of the text (`Answered`).
-/

namespace BazelPro.Jw

open C

/-- The text that the parser reads when this datagram is handled. -/
def Arrival.text (a : Arrival) : List Byte :=
  let p := a.datagram.payload.take 1024
  (p ++ List.replicate (1024 - p.length) 0 ++ a.beyond).takeWhile (· ≠ 0)

/-- The text is a path request with an `int` id, or an info message. -/
def Answered (json : Rapidjson) (text : List Byte) : Prop :=
  ∃ d itr type, json.parse text = some d ∧ d.findMember (str "type") = some (some itr) ∧
    itr.getString = some type ∧
    (type = str "info" ∨
      type = str "pathReq" ∧ ∃ v id, d.member (str "id") = some v ∧ v.getInt = some id)

namespace Server

variable (json : Rapidjson)

theorem load_receive (s : Server) (a : Arrival) :
    load (s.receive a).buffer 0 (min a.datagram.payload.length 1024) =
      a.datagram.payload.take 1024 := by
  have hload := load_storeAt s.buffer 0 (a.datagram.payload.take 1024)
  rwa [List.length_take, Nat.min_comm] at hload

/-- The local copy of bytes that fit into it. -/
theorem localCopy_eq (s : Server) {len : Nat} {bytes : List Byte}
    (hload : load s.buffer 0 len = bytes) (h : bytes.length ≤ 1024) :
    s.localCopy len = bytes ++ List.replicate (1024 - bytes.length) 0 := by
  rw [localCopy, hload, load_storeAt_zero _ _ h]

theorem text_receive (s : Server) (a : Arrival) :
    (s.receive a).text (min a.datagram.payload.length 1024) a.beyond = a.text := by
  rw [text, (s.receive a).localCopy_eq (load_receive s a) (by simp), Arrival.text]

theorem step_eq (s : Server) (a : Arrival) :
    s.step json a =
      (s.receive a).handleMsg json (min a.datagram.payload.length 1024) a.beyond := rfl

/-- The global path goes to the client address, and the tick changes nothing but its counter. -/
theorem on_tick_spec (s : Server) :
    s.onTick json =
      ({ s with globalPathTick := s.globalPathTick + 1 },
        if (s.globalPathTick + 1).srem 3 = 0 then
          [s.sent (strncpyChars (json.write (globalPath (s.globalPathTick + 1)))
            (json.write (globalPath (s.globalPathTick + 1))).length)]
        else []) := by
  unfold onTick
  by_cases h : (s.globalPathTick + 1).srem 3 = 0
  · simp only [if_pos h]
    rfl
  · simp only [if_neg h]

/-- A path request is answered when its id is an `int`; the turn counter goes up. -/
theorem on_path_req_eq_some {s s' : Server} {d : Json} {out : List Sent} :
    s.onPathReq json d = some (s', out) ↔
      ∃ v id, d.member (str "id") = some v ∧ v.getInt = some id ∧
        s' = { s with
          buffer := strncpy s.buffer (json.write (pathResp id s.blockTick))
            (json.write (pathResp id s.blockTick)).length
          blockTick := s.blockTick + 1 } ∧
        out = [s.sent (load s'.buffer 0 (json.write (pathResp id s.blockTick)).length)] := by
  constructor
  · intro h
    obtain ⟨v, hv, h⟩ := Option.bind_eq_some_iff.mp h
    obtain ⟨id, hid, h⟩ := Option.bind_eq_some_iff.mp h
    cases h
    exact ⟨v, id, hv, hid, rfl, rfl⟩
  · rintro ⟨v, id, hv, hid, rfl, rfl⟩
    exact Option.bind_eq_some_iff.mpr ⟨v, hv, Option.bind_eq_some_iff.mpr ⟨id, hid, rfl⟩⟩

/-- Everything `handle_msg` can do: ignore the text, or answer it by its type and tick. -/
theorem handle_msg_cases {s s' : Server} {len : Nat} {beyond : List Byte} {out : List Sent}
    (h : s.handleMsg json len beyond = some (s', out)) :
    ((json.parse (s.text len beyond) = none ∨ ∃ d, json.parse (s.text len beyond) = some d ∧
        d.findMember (str "type") = some none) ∧ s' = s ∧ out = []) ∨
    ∃ d itr type s₁ reply, json.parse (s.text len beyond) = some d ∧
      d.findMember (str "type") = some (some itr) ∧ itr.getString = some type ∧
      s.dispatch json d type = some (s₁, reply) ∧ s' = (s₁.onTick json).1 ∧
      out = reply ++ (s₁.onTick json).2 := by
  unfold handleMsg at h
  cases hparse : json.parse (s.text len beyond) with
  | none =>
      rw [hparse] at h
      cases h
      exact Or.inl ⟨Or.inl rfl, rfl, rfl⟩
  | some d =>
      rw [hparse] at h
      obtain ⟨found, hfind, h⟩ := Option.bind_eq_some_iff.mp h
      cases found with
      | none =>
          cases h
          exact Or.inl ⟨Or.inr ⟨d, rfl, hfind⟩, rfl, rfl⟩
      | some itr =>
          obtain ⟨type, htype, h⟩ := Option.bind_eq_some_iff.mp h
          obtain ⟨⟨s₁, reply⟩, hreply, h⟩ := Option.bind_eq_some_iff.mp h
          cases h
          exact Or.inr ⟨d, itr, type, s₁, reply, rfl, hfind, htype, hreply, rfl, rfl⟩

/-- A branch replies to the client address, if it replies; it leaves the address and the message
counter alone. -/
theorem dispatch_spec {s s' : Server} {d : Json} {type : List Byte} {out : List Sent}
    (h : s.dispatch json d type = some (s', out)) :
    s'.clientAddr = s.clientAddr ∧ s'.clientLen = s.clientLen ∧
      s'.globalPathTick = s.globalPathTick ∧
      (∀ x ∈ out, x.dest = load s.clientAddr 0 s.clientLen) ∧
      (out ≠ [] ↔ type = str "info" ∨ type = str "pathReq") := by
  have hne : str "info" ≠ str "pathReq" := by decide
  unfold dispatch at h
  split at h
  · next hpath =>
    obtain ⟨v, id, -, -, rfl, rfl⟩ := (on_path_req_eq_some json).mp h
    simp [hpath, sent]
  split at h
  · next hinfo =>
    cases h
    simp [hinfo, sent]
  · next hpath hinfo =>
    cases h
    simp [hpath, hinfo]

/-- All that one call sends goes to the client address, which it leaves alone. -/
theorem handle_msg_dest {s s' : Server} {len : Nat} {beyond : List Byte} {out : List Sent}
    (h : s.handleMsg json len beyond = some (s', out)) :
    s'.clientLen = s.clientLen ∧ ∀ x ∈ out, x.dest = load s.clientAddr 0 s.clientLen := by
  obtain ⟨-, rfl, rfl⟩ | ⟨d, itr, type, s₁, reply, -, -, -, hreply, rfl, rfl⟩ :=
    handle_msg_cases json h
  · simp
  · obtain ⟨haddr, hlen, -, hdest, -⟩ := dispatch_spec json hreply
    rw [on_tick_spec]
    refine ⟨hlen, fun x hx => ?_⟩
    rcases List.mem_append.mp hx with hx | hx
    · exact hdest x hx
    · split at hx
      · rw [List.mem_singleton.mp hx, sent, haddr, hlen]
      · cases hx

/-- A call that answers, when the message counter is at its start, sends something. -/
theorem handle_msg_answers (s : Server) (htick : s.globalPathTick = 0) (len : Nat)
    (beyond : List Byte) :
    (∃ s' out, s.handleMsg json len beyond = some (s', out) ∧ out ≠ []) ↔
      Answered json (s.text len beyond) := by
  constructor
  · rintro ⟨s', out, h, hne⟩
    obtain ⟨-, -, rfl⟩ | ⟨d, itr, type, s₁, reply, hparse, hfind, htype, hreply, rfl, rfl⟩ :=
      handle_msg_cases json h
    · exact absurd rfl hne
    · obtain ⟨-, -, htick₁, -, hanswers⟩ := dispatch_spec json hreply
      have hquiet : (s₁.onTick json).2 = [] := by
        rw [on_tick_spec, htick₁, htick]
        rfl
      rw [hquiet, List.append_nil] at hne
      refine ⟨d, itr, type, hparse, hfind, htype, ?_⟩
      rcases hanswers.mp hne with hinfo | hpath
      · exact Or.inl hinfo
      · rw [dispatch, if_pos hpath] at hreply
        obtain ⟨v, id, hv, hid, -⟩ := (on_path_req_eq_some json).mp hreply
        exact Or.inr ⟨hpath, v, id, hv, hid⟩
  · rintro ⟨d, itr, type, hparse, hfind, htype, hkind⟩
    have hreply : ∃ s₁ reply, s.dispatch json d type = some (s₁, reply) := by
      unfold dispatch
      rcases hkind with hinfo | ⟨hpath, v, id, hv, hid⟩
      · rw [if_neg (by rw [hinfo]; decide), if_pos hinfo]
        exact ⟨_, _, rfl⟩
      · rw [if_pos hpath]
        exact ⟨_, _, (on_path_req_eq_some json).mpr ⟨v, id, hv, hid, rfl, rfl⟩⟩
    obtain ⟨s₁, reply, hreply⟩ := hreply
    have hne : reply ≠ [] :=
      (dispatch_spec json hreply).2.2.2.2.mpr (hkind.imp id And.left)
    refine ⟨(s₁.onTick json).1, reply ++ (s₁.onTick json).2, ?_, by simp [hne]⟩
    rw [handleMsg, hparse]
    exact Option.bind_eq_some_iff.mpr ⟨_, hfind, Option.bind_eq_some_iff.mpr
      ⟨type, htype, Option.bind_eq_some_iff.mpr ⟨_, hreply, rfl⟩⟩⟩

/-- One iteration replies to the address that the receive left behind. -/
theorem step_dest {s s' : Server} {a : Arrival} {out : List Sent}
    (h : s.step json a = some (s', out)) :
    s'.clientLen = 16 ∧ ∀ x ∈ out, x.dest = load (s.receive a).clientAddr 0 16 := by
  have hlen : (s.receive a).clientLen = 16 :=
    recvfrom_addrlen s.buffer 1024 s.clientAddr s.clientLen a.datagram
  rw [step_eq] at h
  have := handle_msg_dest json h
  rwa [hlen] at this

/-- The first iteration replies exactly if the text asks for it. -/
theorem first_step_answers (a : Arrival) :
    (∃ s' out, init.step json a = some (s', out) ∧ out ≠ []) ↔ Answered json a.text := by
  rw [step_eq, ← text_receive init a]
  exact handle_msg_answers json (init.receive a) rfl _ _

end Server

end BazelPro.Jw
