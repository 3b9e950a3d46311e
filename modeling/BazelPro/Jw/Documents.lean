import BazelPro.Jw.Shapes

/-!
# The documents of a reply

What the JW server sends is documents that it hands to the writer of the JSON library. Which ones,
is a function of the text of the message and of the two counters (`Server.documents`), and for
well-shaped messages the datagrams are these documents as they are written (`step_documents`).
-/

namespace BazelPro.Jw

open C Json

/-! ## Messages -/

/-- The type of a document, if it is an object that has one. -/
def Json.typeOf (d : Json) : Option (List Byte) := do
  let itr ← d.member (str "type")
  itr.getString

/-- The type of a message, if it parses and has one. -/
def messageType (json : Rapidjson) (text : List Byte) : Option (List Byte) := do
  let d ← json.parse text
  d.typeOf

/-- The `id` of a message. -/
def messageId (json : Rapidjson) (text : List Byte) : Option (BitVec 32) := do
  let d ← json.parse text
  let v ← d.member (str "id")
  v.getInt

/-- The message is counted. -/
def Arrival.Accepted (json : Rapidjson) (a : Arrival) : Prop := (messageType json a.text).isSome

/-- The message is a path request. -/
def Arrival.IsRequest (json : Rapidjson) (a : Arrival) : Prop :=
  messageType json a.text = some (str "pathReq")

instance (json : Rapidjson) (a : Arrival) : Decidable (a.Accepted json) :=
  inferInstanceAs (Decidable (_ = true))

instance (json : Rapidjson) (a : Arrival) : Decidable (a.IsRequest json) :=
  inferInstanceAs (Decidable (_ = _))

theorem Arrival.IsRequest.accepted {json : Rapidjson} {a : Arrival} (h : a.IsRequest json) :
    a.Accepted json := by
  rw [Accepted, h]
  rfl

/-- If the message parses, it is well shaped. -/
def Arrival.Shaped (json : Rapidjson) (a : Arrival) : Prop :=
  ∀ d, json.parse a.text = some d → WellShaped d

namespace Server

variable (json : Rapidjson)

/-- What a message of this type is answered with. -/
def answers (s : Server) (text type : List Byte) : List Json :=
  if type = str "pathReq" then (messageId json text).toList.map fun id => pathResp id s.blockTick
  else if type = str "info" then [hotInfo]
  else []

/-- What follows a message that is counted. -/
def tickDocuments (s : Server) : List Json :=
  if (s.globalPathTick + 1).srem 3 = 0 then [globalPath (s.globalPathTick + 1)] else []

/-- The documents that are written while a message is handled. -/
def documents (s : Server) (text : List Byte) : List Json :=
  match messageType json text with
  | none => []
  | some type => s.answers json text type ++ s.tickDocuments

/-- A document as it is sent. -/
def written (s : Server) (d : Json) : Sent :=
  s.sent (strncpyChars (json.write d) (json.write d).length)

/-- A branch writes the document of its type, and counts path requests. -/
theorem dispatch_written {s s' : Server} {d : Json} {text type : List Byte} {out : List Sent}
    (hparse : json.parse text = some d) (h : s.dispatch json d type = some (s', out)) :
    s'.blockTick = (if type = str "pathReq" then s.blockTick + 1 else s.blockTick) ∧
      out = (s.answers json text type).map (s.written json) := by
  unfold answers
  unfold dispatch at h
  split at h
  · next hpath =>
    obtain ⟨v, id, hmember, hid, rfl, rfl⟩ := (on_path_req_eq_some json).mp h
    have hmessage : messageId json text = some id := Option.bind_eq_some_iff.mpr
      ⟨d, hparse, Option.bind_eq_some_iff.mpr ⟨v, hmember, hid⟩⟩
    rw [if_pos hpath, if_pos hpath, hmessage]
    exact ⟨rfl, by simp [load_strncpy, written]⟩
  split at h
  · next hpath hinfo =>
    cases h
    rw [if_neg hpath, if_neg hpath, if_pos hinfo]
    exact ⟨rfl, rfl⟩
  · next hpath hinfo =>
    cases h
    rw [if_neg hpath, if_neg hpath, if_neg hinfo]
    exact ⟨rfl, rfl⟩

theorem written_congr {s s' : Server} (haddr : s'.clientAddr = s.clientAddr)
    (hlen : s'.clientLen = s.clientLen) : s'.written json = s.written json := by
  funext d
  rw [written, written, sent, sent, haddr, hlen]

/-- The type of a message that `handle_msg` has found. -/
theorem messageType_eq {text type : List Byte} {d itr : Json} (hparse : json.parse text = some d)
    (hfind : d.findMember (str "type") = some (some itr)) (htype : itr.getString = some type) :
    messageType json text = some type := by
  refine Option.bind_eq_some_iff.mpr ⟨d, hparse, Option.bind_eq_some_iff.mpr ⟨itr, ?_, htype⟩⟩
  rw [member, hfind]
  rfl

/-- A message that does not parse, or has no type. -/
theorem messageType_eq_none {text : List Byte}
    (h : json.parse text = none ∨
      ∃ d, json.parse text = some d ∧ d.findMember (str "type") = some none) :
    messageType json text = none := by
  rcases h with hparse | ⟨d, hparse, hfind⟩
  · rw [messageType, hparse]
    rfl
  · rw [messageType, hparse]
    show d.typeOf = none
    rw [typeOf, member, hfind]
    rfl

/-- A well-shaped message is handled: its documents are sent as they are written, and the counters
count it. -/
theorem step_documents (s : Server) {a : Arrival} (hshape : a.Shaped json) :
    ∃ s', s.step json a = some (s', (s.documents json a.text).map (s'.written json)) ∧
      s'.globalPathTick =
        (if a.Accepted json then s.globalPathTick + 1 else s.globalPathTick) ∧
      s'.blockTick = if a.IsRequest json then s.blockTick + 1 else s.blockTick := by
  have hdefined := ((s.receive a).handle_msg_ne_none_iff json
    (min a.datagram.payload.length 1024) a.beyond).mpr (by rw [text_receive]; exact hshape)
  obtain ⟨⟨s', out⟩, h⟩ := Option.ne_none_iff_exists'.mp hdefined
  have hcases := handle_msg_cases json h
  rw [text_receive] at hcases
  obtain ⟨hnone, rfl, rfl⟩ | ⟨d, itr, type, s₁, reply, hparse, hfind, htype, hreply, rfl, rfl⟩ :=
    hcases
  · have htype := messageType_eq_none json hnone
    refine ⟨s.receive a, ?_, ?_, ?_⟩
    · rw [step_eq, h, documents, htype]
      rfl
    · simp [Arrival.Accepted, htype, receive]
    · simp [Arrival.IsRequest, htype, receive]
  · have htype := messageType_eq json hparse hfind htype
    obtain ⟨haddr, hlen, htick, -⟩ := dispatch_spec json hreply
    obtain ⟨hblock, hout⟩ := dispatch_written json hparse hreply
    have hwritten : (s₁.onTick json).1.written json = s₁.written json := by
      rw [on_tick_spec]
      exact written_congr json rfl rfl
    have hkeep := written_congr json haddr hlen
    refine ⟨(s₁.onTick json).1, ?_, ?_, ?_⟩
    · rw [step_eq, h, documents, htype, hwritten, List.map_append, hout, ← hkeep, on_tick_spec,
        htick, tickDocuments]
      dsimp only
      congr 3
      split
      · next hdue =>
        rw [if_pos (show (s.globalPathTick + 1).srem 3 = 0 from hdue)]
        rfl
      · next hdue =>
        rw [if_neg (show (s.globalPathTick + 1).srem 3 ≠ 0 from hdue)]
        rfl
    · rw [if_pos (by rw [Arrival.Accepted, htype]; rfl), on_tick_spec, htick]
      rfl
    · have hrequest : a.IsRequest json ↔ type = str "pathReq" := by
        rw [Arrival.IsRequest, htype, Option.some.injEq]
      rw [on_tick_spec, if_congr hrequest rfl rfl]
      exact hblock

end Server

end BazelPro.Jw
