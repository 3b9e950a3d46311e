import BazelPro.C.Int32
import BazelPro.C.Strings
import BazelPro.Jw.Documents
import BazelPro.Lib.PartialRun

/-!
# The turns of the JW server

The result that a path request is answered with goes round with `block_tick`, and every third
message that is counted is followed by a global path. `Proper` says what one message should lead
to, after the messages before it, and `TurnLaw` that all the messages of a run lead to that. The
fourth path request finds no branch for its turn, and is answered without a result.
-/

namespace BazelPro.Jw

open C Json

/-! ## Responses -/

/-- A response with the id of the request, and with one result. -/
def Answers (n : Int) (d : Json) : Prop :=
  ∃ members, d = .object members ∧
    members.filter (fun m => m.1 = str "id") = [(str "id", .int n)] ∧
    ∃ code, members.filter (fun m => m.1 = str "result") = [(str "result", .int code)]

/-- The blocked points are neither an id nor a result. -/
theorem answers_object (n code : Int) {block : List (List Byte × Json)}
    (hblock : ∀ m ∈ block, m.1 = str "block") :
    Answers n (.object ([(str "type", .string (str "pathResp")), (str "id", .int n)] ++
      [(str "result", .int code)] ++ block)) := by
  have hid : block.filter (fun m => m.1 = str "id") = [] := by
    refine List.filter_eq_nil_iff.mpr fun m hm => ?_
    rw [hblock m hm]
    decide
  have hresult : block.filter (fun m => m.1 = str "result") = [] := by
    refine List.filter_eq_nil_iff.mpr fun m hm => ?_
    rw [hblock m hm]
    decide
  refine ⟨_, rfl, ?_, code, ?_⟩
  · rw [List.filter_append, hid]
    rfl
  · rw [List.filter_append, hresult]
    rfl

namespace Server

/-- There is a result in three turns of four. -/
theorem answers_path_resp_iff (id blockTick : BitVec 32) :
    Answers id.toInt (pathResp id blockTick) ↔
      blockTick.srem 4 = 0 ∨ blockTick.srem 4 = 1 ∨ blockTick.srem 4 = 2 := by
  have hblock : ∀ m ∈ (if (blockTick + 1).srem 2 = 0 then
      [(str "block", Json.array ((List.range 5).map fun i => .point (700 + i) (800 + i)))]
      else []), m.1 = str "block" := by
    intro m hm
    split at hm
    · rw [List.mem_singleton.mp hm]
    · cases hm
  unfold pathResp
  by_cases h0 : blockTick.srem 4 = 0
  · rw [if_pos h0]
    exact iff_of_true (answers_object _ 0 hblock) (Or.inl h0)
  rw [if_neg h0]
  by_cases h1 : blockTick.srem 4 = 1
  · rw [if_pos h1]
    exact iff_of_true (answers_object _ 1 hblock) (Or.inr (Or.inl h1))
  rw [if_neg h1]
  by_cases h2 : blockTick.srem 4 = 2
  · rw [if_pos h2]
    exact iff_of_true (answers_object _ 2 hblock) (Or.inr (Or.inr h2))
  rw [if_neg h2]
  refine iff_of_false ?_ (not_or.mpr ⟨h0, not_or.mpr ⟨h1, h2⟩⟩)
  rintro ⟨members, hmembers, -, code, hcode⟩
  cases hmembers
  split at hcode <;> cases hcode

end Server

/-! ## Documents by their type -/

/-- The documents of a type, in their order. -/
def ofType (type : List Byte) (docs : List Json) : List Json :=
  docs.filter fun d => d.typeOf = some type

theorem ofType_append (type : List Byte) (docs docs' : List Json) :
    ofType type (docs ++ docs') = ofType type docs ++ ofType type docs' :=
  List.filter_append ..

/-- Documents of one type. -/
theorem ofType_of_forall {type type' : List Byte} {docs : List Json}
    (h : ∀ d ∈ docs, d.typeOf = some type) :
    ofType type' docs = if type = type' then docs else [] := by
  split
  · next heq =>
    refine List.filter_eq_self.mpr fun d hd => ?_
    rw [h d hd, heq, decide_eq_true rfl]
  · next hne =>
    refine List.filter_eq_nil_iff.mpr fun d hd => ?_
    rw [h d hd, decide_eq_true_eq]
    exact fun heq => hne (Option.some.inj heq)

namespace Server

variable (json : Rapidjson)

theorem type_of_tick_document (s : Server) :
    ∀ d ∈ s.tickDocuments, d.typeOf = some (str "globalpath") := by
  intro d hd
  unfold tickDocuments at hd
  split at hd
  · rw [List.mem_singleton.mp hd]
    rfl
  · cases hd

/-- A path request is answered with responses, and another message with none. -/
theorem type_of_answer (s : Server) (text type : List Byte) :
    ∀ d ∈ s.answers json text type,
      d.typeOf = some (if type = str "pathReq" then str "pathResp" else str "hotInfo") := by
  intro d hd
  unfold answers at hd
  split at hd
  · next hpath =>
    obtain ⟨id, -, rfl⟩ := List.mem_map.mp hd
    rw [if_pos hpath]
    rfl
  split at hd
  · next hpath hinfo =>
    rw [List.mem_singleton.mp hd, if_neg hpath]
    rfl
  · cases hd

/-- The responses among the documents of a message. -/
theorem responses_documents (s : Server) {text type : List Byte}
    (htype : messageType json text = some type) :
    ofType (str "pathResp") (s.documents json text) =
      if type = str "pathReq" then
        (messageId json text).toList.map fun id => pathResp id s.blockTick
      else [] := by
  rw [documents, htype]
  dsimp only
  rw [ofType_append, ofType_of_forall (s.type_of_answer json text type),
    ofType_of_forall s.type_of_tick_document,
    if_neg (show str "globalpath" ≠ str "pathResp" by decide), List.append_nil]
  by_cases hpath : type = str "pathReq"
  · rw [if_pos hpath, if_pos rfl, if_pos hpath, answers, if_pos hpath]
  · rw [if_neg hpath, if_neg hpath, if_neg (by decide)]

/-- The global paths among the documents of a message. -/
theorem globals_documents (s : Server) {text type : List Byte}
    (htype : messageType json text = some type) :
    ofType (str "globalpath") (s.documents json text) = s.tickDocuments := by
  have hanswers : (if type = str "pathReq" then str "pathResp" else str "hotInfo") ≠
      str "globalpath" := by
    split <;> decide
  rw [documents, htype]
  dsimp only
  rw [ofType_append, ofType_of_forall (s.type_of_answer json text type), if_neg hanswers,
    ofType_of_forall s.type_of_tick_document, if_pos rfl, List.nil_append]

end Server

/-! ## One message -/

/-- A well-shaped path request has an id, in the range of `int`. -/
theorem Arrival.IsRequest.id_spec {json : Rapidjson} {a : Arrival} (hshape : a.Shaped json)
    (h : a.IsRequest json) :
    ∃ d id, json.parse a.text = some d ∧ d.member (str "id") = some (.int id.toInt) ∧
      messageId json a.text = some id := by
  obtain ⟨d, hparse, htype⟩ := Option.bind_eq_some_iff.mp h
  obtain ⟨itr, hitr, hstring⟩ := Option.bind_eq_some_iff.mp htype
  obtain ⟨members, rfl, hmembers⟩ := hshape d hparse
  obtain ⟨t, rfl, hid⟩ := hmembers itr hitr
  obtain ⟨n, hn, hrange⟩ := hid (Option.some.inj hstring)
  have hmember : (Json.object members).member (str "id") = some (.int n) := hn
  refine ⟨.object members, BitVec.ofInt 32 n, hparse, ?_, ?_⟩
  · rw [hmember, BitVec.toInt_ofInt_eq_self (by decide) hrange.1 hrange.2]
  · exact Option.bind_eq_some_iff.mpr ⟨_, hparse, Option.bind_eq_some_iff.mpr
      ⟨_, hmember, getInt_eq_some_iff.mpr ⟨n, rfl, hrange, rfl⟩⟩⟩

/-- The number of messages that were counted. -/
def accepted (json : Rapidjson) (arrivals : List Arrival) : Nat :=
  arrivals.countP fun a => a.Accepted json

/-- The number of path requests. -/
def requests (json : Rapidjson) (arrivals : List Arrival) : Nat :=
  arrivals.countP fun a => a.IsRequest json

namespace Server

variable (json : Rapidjson)

/-- What a datagram should lead to: `before` are the datagrams before it, and `out` what is sent. -/
structure Proper (before : List Arrival) (a : Arrival) (s s' : Server) (out : List Sent) :
    Prop where
  sent : out = (s.documents json a.text).map (s'.written json)
  answered : a.IsRequest json → ∃ d n response, json.parse a.text = some d ∧
    d.member (str "id") = some (.int n) ∧
    ofType (str "pathResp") (s.documents json a.text) = [response] ∧ Answers n response
  unasked : ¬ a.IsRequest json → ofType (str "pathResp") (s.documents json a.text) = []
  followed : a.Accepted json → 3 ∣ accepted json before + 1 →
    ∃ last, ofType (str "globalpath") (s.documents json a.text) = [last] ∧
      (s.documents json a.text).getLast? = some last ∧
      last.member (str "serverpathid") = some (.int (accepted json before + 1))
  unfollowed : ¬ (a.Accepted json ∧ 3 ∣ accepted json before + 1) →
    ofType (str "globalpath") (s.documents json a.text) = []
  ignored : ¬ a.Accepted json →
    out = [] ∧ s'.globalPathTick = s.globalPathTick ∧ s'.blockTick = s.blockTick

/-- The counters count the messages and the path requests. -/
structure Counted (before : List Arrival) (s : Server) : Prop where
  globalPathTick : s.globalPathTick = BitVec.ofNat 32 (accepted json before)
  blockTick : s.blockTick = BitVec.ofNat 32 (requests json before)

/-- The branches of the two counters do what the message is due. -/
structure InTurn (before : List Arrival) (a : Arrival) (globalPathTick blockTick : BitVec 32) :
    Prop where
  result : a.IsRequest json →
    blockTick.srem 4 = 0 ∨ blockTick.srem 4 = 1 ∨ blockTick.srem 4 = 2
  due : a.Accepted json → ((globalPathTick + 1).srem 3 = 0 ↔ 3 ∣ accepted json before + 1)
  number : a.Accepted json → 3 ∣ accepted json before + 1 →
    (globalPathTick + 1).toInt = accepted json before + 1

variable {json}

/-- A path request gets its response in three turns of four. -/
theorem answered_iff (s : Server) {a : Arrival} (hshape : a.Shaped json)
    (hrequest : a.IsRequest json) :
    (∃ d n response, json.parse a.text = some d ∧ d.member (str "id") = some (.int n) ∧
        ofType (str "pathResp") (s.documents json a.text) = [response] ∧ Answers n response) ↔
      s.blockTick.srem 4 = 0 ∨ s.blockTick.srem 4 = 1 ∨ s.blockTick.srem 4 = 2 := by
  obtain ⟨d, id, hparse, hmember, hid⟩ := hrequest.id_spec hshape
  have hresponses : ofType (str "pathResp") (s.documents json a.text) =
      [pathResp id s.blockTick] := by
    rw [responses_documents json s hrequest, if_pos rfl, hid]
    rfl
  rw [← answers_path_resp_iff id, hresponses]
  constructor
  · rintro ⟨d', n, response, hparse', hmember', hresponse, hanswers⟩
    cases hparse.symm.trans hparse'
    cases hmember.symm.trans hmember'
    cases hresponse
    exact hanswers
  · intro hanswers
    exact ⟨d, id.toInt, _, hparse, hmember, rfl, hanswers⟩

theorem tickDocuments_eq_nil_iff (s : Server) :
    s.tickDocuments = [] ↔ (s.globalPathTick + 1).srem 3 ≠ 0 := by
  unfold tickDocuments
  split
  · next hdue => exact iff_of_false (List.cons_ne_nil _ _) (not_not.mpr hdue)
  · next hdue => exact iff_of_true rfl hdue

/-- A message that is counted is followed by a global path in its turn. -/
theorem followed_iff (s : Server) {a : Arrival} (haccepted : a.Accepted json) (k : Int) :
    (∃ last, ofType (str "globalpath") (s.documents json a.text) = [last] ∧
        (s.documents json a.text).getLast? = some last ∧
        last.member (str "serverpathid") = some (.int k)) ↔
      (s.globalPathTick + 1).srem 3 = 0 ∧ (s.globalPathTick + 1).toInt = k := by
  obtain ⟨type, htype⟩ := Option.isSome_iff_exists.mp haccepted
  rw [globals_documents json s htype]
  by_cases hdue : (s.globalPathTick + 1).srem 3 = 0
  · have htick : s.tickDocuments = [globalPath (s.globalPathTick + 1)] := if_pos hdue
    have hlast : (s.documents json a.text).getLast? = some (globalPath (s.globalPathTick + 1)) := by
      rw [documents, htype, htick]
      exact List.getLast?_concat
    rw [htick, hlast, and_iff_right hdue]
    constructor
    · rintro ⟨last, hglobal, -, hmember⟩
      cases hglobal
      exact Json.int.inj (Option.some.inj hmember)
    · intro hk
      exact ⟨_, rfl, rfl, congrArg (fun k => some (Json.int k)) hk⟩
  · refine iff_of_false ?_ fun h => hdue h.1
    rintro ⟨last, hglobal, -⟩
    rw [(s.tickDocuments_eq_nil_iff).mpr hdue] at hglobal
    cases hglobal

/-- A well-shaped message leads to what it should if and only if it comes in turn. -/
theorem proper_iff_inTurn {before : List Arrival} {a : Arrival} {s s' : Server}
    {out : List Sent} (hshape : a.Shaped json) (hstep : s.step json a = some (s', out)) :
    Proper json before a s s' out ↔ InTurn json before a s.globalPathTick s.blockTick := by
  obtain ⟨s₁, hstep₁, hglobal, hblock⟩ := step_documents json s hshape
  cases hstep.symm.trans hstep₁
  constructor
  · intro h
    refine ⟨fun hrequest => (s.answered_iff hshape hrequest).mp (h.answered hrequest), ?_, ?_⟩
    · intro haccepted
      by_cases hthird : 3 ∣ accepted json before + 1
      · exact iff_of_true ((s.followed_iff haccepted _).mp (h.followed haccepted hthird)).1 hthird
      · have hnone := h.unfollowed fun hboth => hthird hboth.2
        obtain ⟨type, htype⟩ := Option.isSome_iff_exists.mp haccepted
        rw [globals_documents json s htype, tickDocuments_eq_nil_iff] at hnone
        exact iff_of_false hnone hthird
    · intro haccepted hthird
      exact ((s.followed_iff haccepted _).mp (h.followed haccepted hthird)).2
  · intro h
    have hquiet : ¬ a.Accepted json → s.documents json a.text = [] := by
      intro haccepted
      rw [documents, Option.not_isSome_iff_eq_none.mp haccepted]
    refine ⟨rfl, fun hrequest => (s.answered_iff hshape hrequest).mpr (h.result hrequest),
      ?_, ?_, ?_, ?_⟩
    · intro hrequest
      cases htype : messageType json a.text with
      | none => rw [documents, htype]; rfl
      | some type =>
          rw [responses_documents json s htype, if_neg]
          rintro rfl
          exact hrequest htype
    · intro haccepted hthird
      exact (s.followed_iff haccepted _).mpr
        ⟨(h.due haccepted).mpr hthird, h.number haccepted hthird⟩
    · intro hboth
      cases htype : messageType json a.text with
      | none => rw [documents, htype]; rfl
      | some type =>
          have haccepted : a.Accepted json := Option.isSome_iff_exists.mpr ⟨type, htype⟩
          rw [globals_documents json s htype, tickDocuments_eq_nil_iff]
          exact fun hdue => hboth ⟨haccepted, (h.due haccepted).mp hdue⟩
    · intro haccepted
      have hrequest : ¬ a.IsRequest json := fun h => haccepted h.accepted
      rw [hquiet haccepted, hglobal, hblock, if_neg haccepted, if_neg hrequest]
      exact ⟨rfl, rfl, rfl⟩

end Server

/-! ## Runs -/

namespace Server

variable (json : Rapidjson)

/-- The state after these datagrams, if no assertion has failed. -/
def reached (arrivals : List Arrival) : Option Server :=
  arrivals.foldlM (fun s a => (s.step json a).map Prod.fst) init

/-- Every datagram of a run leads to what it should. -/
def TurnLaw (arrivals : List Arrival) : Prop :=
  ∀ before a after, arrivals = before ++ a :: after →
    ∃ s s' out, reached json before = some s ∧ s.step json a = some (s', out) ∧
      Proper json before a s s' out

variable {json}

theorem Counted.step {before : List Arrival} {a : Arrival} {s : Server}
    (h : Counted json before s) (hshape : a.Shaped json) :
    ∃ s' out, s.step json a = some (s', out) ∧ Counted json (before ++ [a]) s' := by
  obtain ⟨s', hstep, hglobal, hblock⟩ := step_documents json s hshape
  refine ⟨s', _, hstep, ?_, ?_⟩
  · rw [hglobal, h.globalPathTick, accepted, accepted, List.countP_append, List.countP_singleton]
    simp only [decide_eq_true_eq]
    split
    · exact ofNat_add_one _
    · rfl
  · rw [hblock, h.blockTick, requests, requests, List.countP_append, List.countP_singleton]
    simp only [decide_eq_true_eq]
    split
    · exact ofNat_add_one _
    · rfl

/-- Well-shaped messages are handled to the end, and the counters count them. -/
theorem reached_counted {arrivals : List Arrival} (hshape : ∀ a ∈ arrivals, a.Shaped json) :
    ∃ s, reached json arrivals = some s ∧ Counted json arrivals s := by
  induction arrivals using List.reverseRecOn with
  | nil => exact ⟨init, rfl, rfl, rfl⟩
  | append_singleton arrivals a ih =>
      obtain ⟨s, hs, hcounted⟩ := ih fun b hb => hshape b (List.mem_append_left _ hb)
      obtain ⟨s', out, hstep, hcounted'⟩ := hcounted.step (hshape a (by simp))
      refine ⟨s', PartialRun.append hs ?_, hcounted'⟩
      simp [hstep]

/-- The law of a run is about its turns. -/
theorem turnLaw_iff_inTurn {arrivals : List Arrival} (hshape : ∀ a ∈ arrivals, a.Shaped json) :
    TurnLaw json arrivals ↔ ∀ before a after, arrivals = before ++ a :: after →
      InTurn json before a (BitVec.ofNat 32 (accepted json before))
        (BitVec.ofNat 32 (requests json before)) := by
  constructor
  · intro h before a after hsplit
    subst hsplit
    obtain ⟨s, s', out, hs, hstep, hproper⟩ := h before a after rfl
    obtain ⟨s₁, hs₁, hcounted⟩ :=
      reached_counted fun b hb => hshape b (List.mem_append_left (a :: after) hb)
    cases hs.symm.trans hs₁
    rw [← hcounted.globalPathTick, ← hcounted.blockTick]
    exact (proper_iff_inTurn (hshape a (by simp)) hstep).mp hproper
  · intro h before a after hsplit
    have hturn := h before a after hsplit
    subst hsplit
    obtain ⟨s, hs, hcounted⟩ :=
      reached_counted fun b hb => hshape b (List.mem_append_left (a :: after) hb)
    obtain ⟨s', out, hstep, -⟩ := hcounted.step (hshape a (by simp))
    rw [← hcounted.globalPathTick, ← hcounted.blockTick] at hturn
    exact ⟨s, s', out, hs, hstep, (proper_iff_inTurn (hshape a (by simp)) hstep).mpr hturn⟩

/-- The counter finds every third message, as long as it does not run over. -/
theorem due_iff {n : Nat} (h : n < 2 ^ 31) :
    (BitVec.ofNat 32 n + 1).srem 3 = 0 ↔ 3 ∣ n + 1 := by
  rw [ofNat_add_one]
  rcases Nat.lt_or_ge (n + 1) (2 ^ 31) with hlt | hge
  · exact srem_ofNat_eq_zero_iff hlt (by decide)
  · -- the smallest `int` is no multiple of 3 either
    have hlast : n + 1 = 2 ^ 31 := by omega
    rw [hlast]
    decide

theorem number_of_due {n : Nat} (h : n < 2 ^ 31) (hthird : 3 ∣ n + 1) :
    (BitVec.ofNat 32 n + 1).toInt = n + 1 := by
  have hlt : n + 1 < 2 ^ 31 := by omega
  rw [ofNat_add_one, toInt_ofNat_of_lt hlt]
  rfl

/-- For every sequence of well-shaped messages: each one leads to what it should if and only if
there are at most three path requests among them, and at most 2147483648 messages are counted. -/
theorem turn_law_iff (json : Rapidjson) (arrivals : List Arrival)
    (hshape : ∀ a ∈ arrivals, a.Shaped json) :
    TurnLaw json arrivals ↔ requests json arrivals ≤ 3 ∧ accepted json arrivals ≤ 2 ^ 31 := by
  rw [turnLaw_iff_inTurn hshape]
  constructor
  · intro h
    refine ⟨Nat.le_of_not_lt fun hmany => ?_, Nat.le_of_not_lt fun hmany => ?_⟩
    · obtain ⟨before, a, after, hsplit, ha, hcount⟩ :=
        PartialRun.exists_split_of_lt_countP hmany
      have hresult := (h before a after hsplit).result (of_decide_eq_true ha)
      rw [requests, hcount] at hresult
      exact absurd hresult (by decide)
    · obtain ⟨before, a, after, hsplit, ha, hcount⟩ :=
        PartialRun.exists_split_of_lt_countP hmany
      have hdue := (h before a after hsplit).due (of_decide_eq_true ha)
      rw [accepted, hcount] at hdue
      exact absurd hdue (by decide)
  · rintro ⟨hrequests, haccepted⟩ before a after rfl
    have htick : a.Accepted json → accepted json before < 2 ^ 31 := fun ha =>
      Nat.lt_of_lt_of_le (PartialRun.countP_lt_of_split (decide_eq_true ha)) haccepted
    refine ⟨fun ha => ?_, fun ha => due_iff (htick ha), fun ha => number_of_due (htick ha)⟩
    have hlt : requests json before < 3 :=
      Nat.lt_of_lt_of_le (PartialRun.countP_lt_of_split (decide_eq_true ha)) hrequests
    interval_cases requests json before <;> decide

/-- The text of a path request. -/
def requestText : List Byte := str "\x7b\"type\":\"pathReq\",\"id\":7\x7d"

/-- A parser that knows this text only. -/
def requestOnly : Rapidjson where
  parse text := if text = requestText then
    some (.object [(str "type", .string (str "pathReq")), (str "id", .int 7)]) else none
  write _ := []

/-- The request in a datagram. -/
def request : Arrival where
  datagram := ⟨requestText, ⟨[2, 0, 32, 209] ++ List.replicate 12 0, rfl, rfl⟩⟩
  beyond := []

theorem request_text : request.text = requestText := by
  rw [Arrival.text, request]
  dsimp only
  rw [List.append_nil, List.take_of_length_le (by decide), takeWhile_append_zeros]
  rfl

theorem parse_request : requestOnly.parse request.text =
    some (.object [(str "type", .string (str "pathReq")), (str "id", .int 7)]) := by
  rw [request_text]
  rfl

theorem request_isRequest : request.IsRequest requestOnly := by
  rw [Arrival.IsRequest, messageType, parse_request]
  rfl

theorem request_shaped : request.Shaped requestOnly := by
  intro d hd
  cases parse_request.symm.trans hd
  refine ⟨_, rfl, fun itr hitr => ?_⟩
  cases hitr
  exact ⟨_, rfl, fun _ => ⟨7, rfl, by decide, by decide⟩⟩

/-- Three path requests are answered as they should be. -/
theorem turn_law_three_requests : TurnLaw requestOnly (List.replicate 3 request) := by
  refine (turn_law_iff requestOnly (List.replicate 3 request) fun a ha => ?_).mpr ⟨?_, ?_⟩
  · rw [List.eq_of_mem_replicate ha]
    exact request_shaped
  · exact List.countP_le_length
  · exact List.countP_le_length.trans (by decide)

/-- The fourth one is not. -/
theorem fourth_request_without_result : ¬ TurnLaw requestOnly (List.replicate 4 request) := by
  have hshape : ∀ a ∈ List.replicate 4 request, a.Shaped requestOnly := by
    intro a ha
    rw [List.eq_of_mem_replicate ha]
    exact request_shaped
  have hcount : requests requestOnly (List.replicate 3 request) = 3 := by
    rw [requests, List.countP_replicate, if_pos (decide_eq_true request_isRequest)]
  intro h
  have hturn := (turnLaw_iff_inTurn hshape).mp h (List.replicate 3 request) request [] rfl
  have hresult := hturn.result request_isRequest
  rw [hcount] at hresult
  exact absurd hresult (by decide)

end Server

end BazelPro.Jw
