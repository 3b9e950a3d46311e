import BazelPro.Tmp.CrossLaw

/-!
# Success without a way

`find_match` is looked at inside the branch for arrays only, and the accessors assert the shape of
the entries. So when no rule lists both maps, `test_cross_map` returns false for the documents
that are an array of entries, and for no other.
-/

namespace BazelPro.Tmp

open C Jw

/-- The rule lists the map. -/
def Lists (r : List Json) (id : List Byte) : Prop := ∃ v ∈ r, v.getString = some id

/-- Some rule of the document lists both maps. -/
def Offers (d : Json) (fromId toId : List Byte) : Prop :=
  ∃ rules e r, d = .array rules ∧ e ∈ rules ∧ e.member (str "rule") = some (.array r) ∧
    Lists r fromId ∧ Lists r toId

/-- The document is an array of objects with a member `rule`, each of which is an array of strings
or no array. -/
def RuleList (d : Json) : Prop := ∃ rules, d = .array rules ∧ ∀ e ∈ rules, RuleEntry e

variable {files : Files} {json : Rapidjson} {free : Nat} {fromId toId : List Byte} {e : Json}
variable {rules rest r : List Json}

theorem Strings.lists {id : List Byte} (h : Strings r) (hid : id ∈ idsOf r) : Lists r id := by
  obtain ⟨v, hv, rfl⟩ := List.mem_map.mp hid
  obtain ⟨s, rfl⟩ := h v hv
  exact ⟨_, hv, rfl⟩

/-- An entry that is not as expected trips an assertion. -/
theorem crossRules_of_not_entry (h : ¬ RuleEntry e) :
    crossRules files json free fromId toId (e :: rest) = none := by
  cases hrule : e.member (str "rule") with
  | none =>
      rw [crossRules, hrule]
      rfl
  | some rule =>
      cases rule with
      | array r =>
          have hr : ¬ Strings r := by
            refine fun hr => h ⟨_, hrule, fun r' hr' => ?_⟩
            cases hr'
            exact hr
          simp only [crossRules, hrule, Option.bind_eq_bind, Option.bind_some,
            findIndices_eq_none hr, Option.bind_none]
      | _ => exact absurd ⟨_, hrule, fun r hr => by cases hr⟩ h

/-- An entry that does not list both maps is passed over. -/
theorem crossRules_of_entry (h : RuleEntry e)
    (hno : ∀ r, e.member (str "rule") = some (.array r) → ¬ (Lists r fromId ∧ Lists r toId)) :
    crossRules files json free fromId toId (e :: rest) =
      crossRules files json free fromId toId rest := by
  cases hids : ruleIds e with
  | none => exact crossRules_of_ruleIds_none h hids
  | some ids =>
      obtain ⟨r, hrule, hr, rfl⟩ := h.exists_strings hids
      exact crossRules_of_not_listed hrule hr
        fun hlisted => hno r hrule ⟨hr.lists hlisted.1, hr.lists hlisted.2⟩

theorem crossRules_eq_some_none_iff
    (hno : ∀ e ∈ rules, ∀ r, e.member (str "rule") = some (.array r) →
      ¬ (Lists r fromId ∧ Lists r toId)) :
    crossRules files json free fromId toId rules = some none ↔ ∀ e ∈ rules, RuleEntry e := by
  induction rules with
  | nil => exact ⟨fun _ e he => absurd he List.not_mem_nil, fun _ => rfl⟩
  | cons e rest ih =>
      obtain ⟨hnoE, hnoRest⟩ := List.forall_mem_cons.mp hno
      rw [List.forall_mem_cons]
      by_cases he : RuleEntry e
      · rw [crossRules_of_entry he hnoE, ih hnoRest]
        exact (and_iff_right he).symm
      · rw [crossRules_of_not_entry he]
        exact ⟨fun h => (nomatch h), fun h => absurd h.1 he⟩

/-- If no rule lists both maps, `test_cross_map` returns false exactly for the documents that are
a list of rules. -/
theorem not_found_iff (files : Files) (json : Rapidjson) (free left : Nat)
    (fromId toId text : List Byte) (d : Json)
    (hfile : fopen files free rulePath = some (text, left)) (hparse : json.parse text = some d)
    (hno : ¬ Offers d fromId toId) :
    testCrossMap files json free fromId toId = some none ↔ RuleList d := by
  unfold testCrossMap RuleList
  simp only [hfile, hparse]
  cases d with
  | array rules =>
      simp only [Json.array.injEq, exists_eq_left']
      refine crossRules_eq_some_none_iff fun e he r hrule hlists => hno ?_
      exact ⟨rules, e, r, rfl, he, hrule, hlists.1, hlists.2⟩
  | _ => simp

/-- A way to a map that no rule lists. -/
theorem not_found_short :
    testCrossMap shortFiles shortParser 1 (str "1") (str "3") = some none := by
  refine (not_found_iff shortFiles shortParser 1 0 (str "1") (str "3") shortText
    (.array [ruleOf [str "1", str "2"]]) rfl rfl ?_).mpr
    ⟨_, rfl, List.forall_mem_singleton.mpr (ruleEntry_ruleOf _)⟩
  intro hoffers
  obtain ⟨rules, e, r, hrules, he, hrule, -, v, hv, hid⟩ := hoffers
  cases hrules
  rw [List.mem_singleton.mp he] at hrule
  cases hrule
  rcases List.mem_pair.mp hv with rfl | rfl <;> exact absurd hid (by decide)

/-- A file with an empty object. -/
def objectFiles : Files := fun path => if path = rulePath then some (str "\x7b\x7d") else none

/-- A parser that knows the text of the empty object only. -/
def objectParser : Rapidjson where
  parse text := if text = str "\x7b\x7d" then some (.object []) else none
  write _ := []

/-- Without any rule, success. -/
theorem found_without_rules :
    fopen objectFiles 1 rulePath = some (str "\x7b\x7d", 0) ∧
      objectParser.parse (str "\x7b\x7d") = some (.object []) ∧
      ¬ Offers (.object []) (str "1") (str "2") ∧
      testCrossMap objectFiles objectParser 1 (str "1") (str "2") = some (some []) := by
  refine ⟨rfl, rfl, ?_, rfl⟩
  intro hoffers
  obtain ⟨rules, e, r, hrules, -⟩ := hoffers
  cases hrules

end BazelPro.Tmp
