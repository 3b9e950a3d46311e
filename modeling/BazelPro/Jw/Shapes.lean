import BazelPro.Jw.Answers

/-!
# Messages of an unexpected shape

`handle_msg` checks that the text parses and that there is a member `type`. The accessors assert
more than that. `WellShaped` is what a document must be like for none of the assertions to fail.
-/

namespace BazelPro.Jw

open C

/-! ## What the accessors assert -/

namespace Json

/-- The value of the first member of this name. -/
def firstMember (members : List (List Byte × Json)) (name : List Byte) : Option Json :=
  (members.find? fun m => m.1 = name).map Prod.snd

theorem findMember_eq_some_iff {v : Json} {name : List Byte} {found : Option Json} :
    v.findMember name = some found ↔
      ∃ members, v = .object members ∧ found = firstMember members name := by
  cases v with
  | object members => simp [findMember, firstMember, eq_comm]
  | _ => simp [findMember]

theorem getString_eq_some_iff {v : Json} {s : List Byte} :
    v.getString = some s ↔ ∃ t, v = .string t ∧ s = t.takeWhile (· ≠ 0) := by
  constructor
  · intro h
    cases v with
    | string t => exact ⟨t, rfl, (Option.some.inj h).symm⟩
    | _ => cases h
  · intro h
    obtain ⟨t, rfl, rfl⟩ := h
    rfl

theorem getInt_eq_some_iff {v : Json} {x : BitVec 32} :
    v.getInt = some x ↔ ∃ n, v = .int n ∧ (-2 ^ 31 ≤ n ∧ n < 2 ^ 31) ∧ x = BitVec.ofInt 32 n := by
  cases v with
  | int n => simp [getInt, eq_comm]
  | _ => simp [getInt]

end Json

open Json

/-- A document that trips no assertion: an object whose member `type`, if there is one, is a
string, and whose member `id` is an integer that fits an `int` if the type is `pathReq`. -/
def WellShaped (d : Json) : Prop :=
  ∃ members, d = .object members ∧
    ∀ itr, firstMember members (str "type") = some itr →
      ∃ type, itr = .string type ∧
        (type.takeWhile (· ≠ 0) = str "pathReq" →
          ∃ n, firstMember members (str "id") = some (.int n) ∧ -2 ^ 31 ≤ n ∧ n < 2 ^ 31)

namespace Server

variable (json : Rapidjson)

theorem on_path_req_ne_none_iff (s : Server) (members : List (List Byte × Json)) :
    s.onPathReq json (.object members) ≠ none ↔
      ∃ n, firstMember members (str "id") = some (.int n) ∧ -2 ^ 31 ≤ n ∧ n < 2 ^ 31 := by
  rw [Option.ne_none_iff_exists']
  constructor
  · rintro ⟨⟨s', out⟩, h⟩
    obtain ⟨v, id, hv, hid, -⟩ := (on_path_req_eq_some json).mp h
    obtain ⟨n, rfl, hn, -⟩ := getInt_eq_some_iff.mp hid
    exact ⟨n, hv, hn⟩
  · intro h
    obtain ⟨n, hmember, hn⟩ := h
    exact ⟨_, (on_path_req_eq_some json).mpr
      ⟨_, _, hmember, getInt_eq_some_iff.mpr ⟨n, rfl, hn, rfl⟩, rfl, rfl⟩⟩

/-- Only the `pathReq` branch has assertions. -/
theorem dispatch_ne_none_iff (s : Server) (d : Json) (type : List Byte) :
    s.dispatch json d type ≠ none ↔ (type = str "pathReq" → s.onPathReq json d ≠ none) := by
  unfold dispatch
  split
  · next hpath => simp [hpath]
  split <;> simp_all [onInfo]

/-- The reaction to a document that was parsed. -/
theorem handle_parsed_ne_none_iff (s : Server) {len : Nat} {beyond : List Byte} {d : Json}
    (hparse : json.parse (s.text len beyond) = some d) :
    s.handleMsg json len beyond ≠ none ↔ WellShaped d := by
  rw [Option.ne_none_iff_exists', handleMsg, hparse]
  constructor
  · rintro ⟨⟨s', out⟩, h⟩
    obtain ⟨found, hfound, h⟩ := Option.bind_eq_some_iff.mp h
    obtain ⟨members, rfl, rfl⟩ := findMember_eq_some_iff.mp hfound
    refine ⟨members, rfl, fun itr hitr => ?_⟩
    rw [hitr] at h
    obtain ⟨type, htype, h⟩ := Option.bind_eq_some_iff.mp h
    obtain ⟨t, rfl, rfl⟩ := getString_eq_some_iff.mp htype
    obtain ⟨reply, hreply, -⟩ := Option.bind_eq_some_iff.mp h
    have hdispatch : s.dispatch json (.object members) (t.takeWhile (· ≠ 0)) ≠ none := by
      rw [hreply]
      exact Option.some_ne_none _
    exact ⟨t, rfl, fun hpath => (s.on_path_req_ne_none_iff json members).mp
      ((s.dispatch_ne_none_iff json _ _).mp hdispatch hpath)⟩
  · intro h
    obtain ⟨members, rfl, hshape⟩ := h
    cases hitr : firstMember members (str "type") with
    | none => exact ⟨(s, []), Option.bind_eq_some_iff.mpr
        ⟨none, findMember_eq_some_iff.mpr ⟨members, rfl, hitr.symm⟩, rfl⟩⟩
    | some itr =>
        obtain ⟨t, rfl, hpath⟩ := hshape itr hitr
        have hdispatch := (s.dispatch_ne_none_iff json (.object members) _).mpr
          fun h => (s.on_path_req_ne_none_iff json members).mpr (hpath h)
        obtain ⟨reply, hreply⟩ := Option.ne_none_iff_exists'.mp hdispatch
        exact ⟨_, Option.bind_eq_some_iff.mpr
          ⟨_, findMember_eq_some_iff.mpr ⟨members, rfl, hitr.symm⟩, Option.bind_eq_some_iff.mpr
            ⟨_, rfl, Option.bind_eq_some_iff.mpr ⟨reply, hreply, rfl⟩⟩⟩⟩

/-- `handle_msg` calls the accessors only where they may be called if and only if the text is no
document or a well-shaped one, in every state of the server. -/
theorem handle_msg_ne_none_iff (s : Server) (len : Nat) (beyond : List Byte) :
    s.handleMsg json len beyond ≠ none ↔
      ∀ d, json.parse (s.text len beyond) = some d → WellShaped d := by
  cases hparse : json.parse (s.text len beyond) with
  | none => simp [handleMsg, hparse]
  | some d =>
      rw [s.handle_parsed_ne_none_iff json hparse]
      constructor
      · intro h d' hd'
        rwa [← Option.some.inj hd']
      · exact fun h => h d rfl

/-- A parser that knows the text `[]` only. -/
def brackets : Rapidjson where
  parse text := if text = str "[]" then some (.array []) else none
  write _ := []

/-- The server has received the text `[]`. -/
def bracketsReceived : Server := { init with buffer := storeAt (fun _ => 0) 0 (str "[]") }

/-- An array is a document, but `FindMember` is called on it. -/
theorem handle_msg_array :
    ∃ d, brackets.parse (bracketsReceived.text 2 []) = some d ∧
      bracketsReceived.handleMsg brackets 2 [] = none := by
  have htext : bracketsReceived.text 2 [] = str "[]" := by
    have hload : load bracketsReceived.buffer 0 2 = str "[]" := load_storeAt _ 0 (str "[]")
    rw [text, localCopy, hload, load_storeAt_zero _ _ (by decide)]
    rfl
  have hparse : brackets.parse (bracketsReceived.text 2 []) = some (.array []) := by
    rw [htext]
    rfl
  refine ⟨_, hparse, ?_⟩
  rw [handleMsg, hparse]
  rfl

end Server

end BazelPro.Jw
