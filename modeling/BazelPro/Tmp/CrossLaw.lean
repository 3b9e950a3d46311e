import BazelPro.C.Int32
import BazelPro.Jw.Shapes
import BazelPro.Lib.Walk
import BazelPro.Tmp.CrossMap

/-!
# Which way is found

What `test_cross_map` is for: the first rule that lists both maps is walked from the last position
of the one to the last position of the other, and every step of the walk needs a crossing. For
documents of the expected shape the code does this as long as the two positions fit the `int`
variables in the same way and every file on the way can be opened (`cross_map_iff`).
-/

namespace BazelPro.Tmp

open C Jw Walk

/-! ## The crossing tables -/

/-- An object with a string `neighbor` and a string `point.info`. -/
def CrossEntry (e : Json) : Prop :=
  ∃ neighbor point info, e.member (str "neighbor") = some (.string neighbor) ∧
    e.member (str "point") = some point ∧ point.member (str "info") = some (.string info)

/-- The neighbour that an entry is for. -/
def neighborOf (e : Json) : Option (List Byte) :=
  (e.member (str "neighbor")).bind Json.getString

/-- `point.info` of an entry. -/
def infoOf (e : Json) : Option (List Byte) :=
  ((e.member (str "point")).bind fun point => point.member (str "info")).bind Json.getString

theorem CrossEntry.neighborOf_eq {e : Json} (h : CrossEntry e) :
    ∃ n, neighborOf e = some n := by
  obtain ⟨neighbor, point, info, hneighbor, -, -⟩ := h
  exact ⟨_, by rw [neighborOf, hneighbor]; rfl⟩

theorem CrossEntry.infoOf_eq {e : Json} (h : CrossEntry e) : ∃ info, infoOf e = some info := by
  obtain ⟨neighbor, point, info, -, hpoint, hinfo⟩ := h
  exact ⟨_, by rw [infoOf, hpoint, Option.bind_some, hinfo]; rfl⟩

/-- The search in a table finds the first entry for the neighbour. -/
theorem findNeighbor_eq {entries : List Json} (h : ∀ e ∈ entries, CrossEntry e)
    (neighbor : List Byte) :
    findNeighbor neighbor entries =
      some (((entries.find? fun e => neighborOf e = some neighbor).bind infoOf).elim
        (false, []) (true, ·)) := by
  induction entries with
  | nil => rfl
  | cons e entries ih =>
      rw [List.forall_mem_cons] at h
      obtain ⟨n, hn⟩ := h.1.neighborOf_eq
      obtain ⟨info, hinfo⟩ := h.1.infoOf_eq
      have hstep : findNeighbor neighbor (e :: entries) =
          if n = neighbor then some (true, info) else findNeighbor neighbor entries := by
        obtain ⟨v, hv, hvn⟩ := Option.bind_eq_some_iff.mp hn
        obtain ⟨w, hw, hinfo⟩ := Option.bind_eq_some_iff.mp hinfo
        obtain ⟨point, hpoint, hw⟩ := Option.bind_eq_some_iff.mp hw
        simp only [findNeighbor, hv, hvn, hpoint, hw, hinfo, Option.bind_eq_bind,
          Option.bind_some]
        rfl
      rw [hstep, ih h.2]
      by_cases heq : n = neighbor
      · rw [if_pos heq, List.find?_cons_of_pos (by simp [hn, heq])]
        rw [Option.bind_some, hinfo]
        rfl
      · rw [if_neg heq, List.find?_cons_of_neg (by simp [hn, heq])]

variable (files : Files) (json : Rapidjson)

/-- `info` of the first entry for `neighbor` in the crossing table of the map `id`. -/
def crossing (id neighbor : List Byte) : Option (List Byte) :=
  match (files (crossPath id)).bind json.parse with
  | some (.array entries) =>
      (entries.find? fun e => neighborOf e = some neighbor).bind infoOf
  | _ => none

/-- Every crossing table is absent, or an array of entries. -/
def CrossTables : Prop :=
  ∀ id text, files (crossPath id) = some text →
    ∃ entries, json.parse text = some (.array entries) ∧ ∀ e ∈ entries, CrossEntry e

variable {files json}

/-- A crossing that is there is found if its table can be opened. -/
theorem loadPoint_eq (h : CrossTables files json) {id neighbor info : List Byte}
    (hinfo : crossing files json id neighbor = some info) (left : Nat) :
    loadPoint files json (left + 1) id neighbor = some ((true, info), left) := by
  unfold crossing at hinfo
  cases hfile : files (crossPath id) with
  | none => simp [hfile] at hinfo
  | some text =>
      obtain ⟨entries, hparse, hentries⟩ := h id text hfile
      simp only [hfile, Option.bind_some, hparse] at hinfo
      simp only [loadPoint, fopen, hfile, Option.map_some, hparse, findNeighbor_eq hentries, hinfo]
      rfl

/-- One that is not there is not found. -/
theorem loadPoint_of_missing (h : CrossTables files json) {id neighbor : List Byte}
    (hmissing : crossing files json id neighbor = none) (free : Nat) :
    ∃ left, loadPoint files json free id neighbor = some ((false, []), left) := by
  cases free with
  | zero => exact ⟨0, rfl⟩
  | succ left =>
      unfold crossing at hmissing
      cases hfile : files (crossPath id) with
      | none => exact ⟨left + 1, by simp only [loadPoint, fopen, hfile, Option.map_none]⟩
      | some text =>
          obtain ⟨entries, hparse, hentries⟩ := h id text hfile
          simp only [hfile, Option.bind_some, hparse] at hmissing
          refine ⟨left, ?_⟩
          simp only [loadPoint, fopen, hfile, Option.map_some, hparse, findNeighbor_eq hentries,
            hmissing]
          rfl

/-! ## The positions -/

/-- The array consists of strings. -/
def Strings (r : List Json) : Prop := ∀ v ∈ r, ∃ s, v = .string s

/-- The ids of a rule, as the code reads them. -/
def idsOf (r : List Json) : List (List Byte) := r.map fun v => v.getString.getD []

theorem Strings.getString_getElem? {r : List Json} (h : Strings r) {i : Nat} {id : List Byte}
    (hid : (idsOf r)[i]? = some id) : ∃ v, r[i]? = some v ∧ v.getString = some id := by
  rw [idsOf, List.getElem?_map, Option.map_eq_some_iff] at hid
  obtain ⟨v, hv, hid⟩ := hid
  obtain ⟨s, rfl⟩ := h v (List.mem_of_getElem? hv)
  exact ⟨_, hv, congrArg some hid⟩

/-- The value of an index variable after the loop over `ids`, which counts from `j`. -/
def lastIndex (id : List Byte) : List (List Byte) → BitVec 32 → BitVec 32 → BitVec 32
  | [], _, last => last
  | x :: rest, j, last => lastIndex id rest (j + 1) (if x = id then j else last)

theorem findIndices_eq {r : List Json} (h : Strings r) (fromId toId : List Byte)
    (j fromIndex toIndex : BitVec 32) :
    findIndices fromId toId r j (fromIndex, toIndex) =
      some (lastIndex fromId (idsOf r) j fromIndex, lastIndex toId (idsOf r) j toIndex) := by
  induction r generalizing j fromIndex toIndex with
  | nil => rfl
  | cons v r ih =>
      obtain ⟨⟨s, rfl⟩, hrest⟩ := List.forall_mem_cons.mp h
      exact ih hrest _ _ _

/-- The loop fails on the first entry that is no string. -/
theorem findIndices_eq_none {r : List Json} (h : ¬ Strings r) (fromId toId : List Byte)
    (j : BitVec 32) (indices : BitVec 32 × BitVec 32) :
    findIndices fromId toId r j indices = none := by
  induction r generalizing j indices with
  | nil => exact absurd (fun v hv => absurd hv List.not_mem_nil) h
  | cons v r ih =>
      cases v with
      | string s =>
          refine ih (fun hrest => h ?_) _ _
          exact List.forall_mem_cons.mpr ⟨⟨s, rfl⟩, hrest⟩
      | _ => rfl

theorem lastIndex_of_not_mem {id : List Byte} {ids : List (List Byte)} (h : id ∉ ids)
    (j last : BitVec 32) : lastIndex id ids j last = last := by
  induction ids generalizing j with
  | nil => rfl
  | cons x ids ih =>
      obtain ⟨hne, hrest⟩ := not_or.mp (mt List.mem_cons.mpr h)
      rw [lastIndex, if_neg (Ne.symm hne), ih hrest]

theorem lastIndex_of_isLast {id : List Byte} {ids : List (List Byte)} {a : Nat}
    (h : IsLast ids id a) (j last : BitVec 32) :
    lastIndex id ids j last = j + BitVec.ofNat 32 a := by
  induction ids generalizing a j last with
  | nil => cases h.mem
  | cons x ids ih =>
      cases a with
      | zero =>
          obtain ⟨heq, hrest⟩ := isLast_cons_zero.mp h
          rw [lastIndex, if_pos heq, lastIndex_of_not_mem hrest]
          exact (BitVec.add_zero j).symm
      | succ a =>
          rw [lastIndex, ih (isLast_cons_succ.mp h), BitVec.ofNat_add, BitVec.add_assoc,
            BitVec.add_comm 1]
          rfl

/-! ## The hops -/

variable (files json) in
/-- The infos of the crossings from position `a` to position `b`, if they are all there. -/
def hopInfos (ids : List (List Byte)) (a b : Nat) : Option (List (List Byte)) :=
  (steps (walk ids a b)).mapM fun hop => crossing files json hop.1 hop.2

/-- One round of the loop. -/
theorem crossHops_step (htables : CrossTables files json) {r : List Json} (hr : Strings r)
    {forward : Bool} {toIndex k next : BitVec 32} {id neighbor : List Byte}
    (hmore : if forward then k < toIndex else k > toIndex)
    (hnext : next = if forward then k + 1 else k - 1)
    (hid : (idsOf r)[k.toNat]? = some id) (hneighbor : (idsOf r)[next.toNat]? = some neighbor)
    (free : Nat) (result : List (List Byte)) :
    crossHops files json r forward toIndex free k result =
      match free, crossing files json id neighbor with
      | left + 1, some info => crossHops files json r forward toIndex left next (result ++ [info])
      | _, _ => some none := by
  obtain ⟨v, hv, hid⟩ := hr.getString_getElem? hid
  obtain ⟨w, hw, hneighbor⟩ := hr.getString_getElem? hneighbor
  rw [crossHops, dif_pos hmore, ← hnext]
  simp only [hv, hw, hid, hneighbor, Option.bind_eq_bind, Option.bind_some]
  cases hcrossing : crossing files json id neighbor with
  | none =>
      obtain ⟨left, hload⟩ := loadPoint_of_missing htables hcrossing free
      rw [hload]
      cases free <;> rfl
  | some info =>
      cases free with
      | zero => rfl
      | succ left =>
          rw [loadPoint_eq htables hcrossing]
          rfl

theorem hopInfos_next {ids : List (List Byte)} {a b n : Nat} {id neighbor : List Byte}
    (hnext : a < b ∧ n = a + 1 ∨ b < a ∧ n = a - 1) (hid : ids[a]? = some id)
    (hneighbor : ids[n]? = some neighbor) :
    hopInfos files json ids a b =
      (crossing files json id neighbor).bind fun info =>
        (hopInfos files json ids n b).map (info :: ·) := by
  rw [hopInfos, steps_walk hnext hid hneighbor, List.mapM_cons]
  exact congrArg (Option.bind _) (funext fun info => Option.map_eq_bind.symm)

/-- The next position on the way to another one. -/
theorem exists_next {forward : Bool} {toIndex k : BitVec 32}
    (hdir : if forward then k ≤ toIndex else toIndex ≤ k) (hne : k.toNat ≠ toIndex.toNat) :
    ∃ next : BitVec 32, (if forward then k < toIndex else k > toIndex) ∧
      (next = if forward then k + 1 else k - 1) ∧
      (k.toNat < toIndex.toNat ∧ next.toNat = k.toNat + 1 ∨
        toIndex.toNat < k.toNat ∧ next.toNat = k.toNat - 1) ∧
      (if forward then next ≤ toIndex else toIndex ≤ next) := by
  cases forward with
  | false =>
      have hlt : toIndex < k :=
        BitVec.lt_def.mpr (lt_of_le_of_ne (BitVec.le_def.mp hdir) (Ne.symm hne))
      have hpred := toNat_pred_of_lt hlt
      have := BitVec.lt_def.mp hlt
      exact ⟨k - 1, hlt, rfl, Or.inr ⟨this, hpred⟩, BitVec.le_def.mpr (by omega)⟩
  | true =>
      have hlt : k < toIndex := BitVec.lt_def.mpr (lt_of_le_of_ne (BitVec.le_def.mp hdir) hne)
      have hsucc := toNat_succ_of_lt hlt
      have := BitVec.lt_def.mp hlt
      exact ⟨k + 1, hlt, rfl, Or.inl ⟨this, hsucc⟩, BitVec.le_def.mpr (by omega)⟩

/-- How many hops it is from position `a` to position `b`. -/
def hops (a b : Nat) : Nat := (b - a) + (a - b)

/-- The loop that runs in the direction of the walk: it needs a descriptor for each hop. -/
theorem crossHops_eq (htables : CrossTables files json) {r : List Json} (hr : Strings r)
    {forward : Bool} {toIndex k : BitVec 32} (hto : toIndex.toNat < (idsOf r).length)
    (hk : k.toNat < (idsOf r).length) (hdir : if forward then k ≤ toIndex else toIndex ≤ k)
    (free : Nat) (result : List (List Byte)) :
    crossHops files json r forward toIndex free k result =
      some (if hops k.toNat toIndex.toNat ≤ free then
        (hopInfos files json (idsOf r) k.toNat toIndex.toNat).map (result ++ ·) else none) := by
  -- induction on the hops that are left
  induction hn : hops k.toNat toIndex.toNat generalizing k free result with
  | zero =>
      unfold hops at hn
      have heq : k = toIndex := BitVec.eq_of_toNat_eq (by omega)
      rw [crossHops, dif_neg (by rw [heq]; cases forward <;> simp), heq, hopInfos,
        walk_self (List.getElem?_eq_getElem hto)]
      simp
  | succ n ih =>
      unfold hops at hn ih
      have hne : k.toNat ≠ toIndex.toNat := by omega
      obtain ⟨next, hmore, hnext, hstep, hdir'⟩ := exists_next hdir hne
      have hlen : next.toNat < (idsOf r).length := by omega
      have hid := List.getElem?_eq_getElem hk
      have hneighbor := List.getElem?_eq_getElem hlen
      rw [crossHops_step htables hr hmore hnext hid hneighbor, hopInfos_next hstep hid hneighbor]
      cases crossing files json (idsOf r)[k.toNat] (idsOf r)[next.toNat] with
      | none => cases free <;> simp
      | some info =>
          cases free with
          | zero => rfl
          | succ left =>
              simp only [ih hlen hdir' left (result ++ [info]) (by omega), Option.bind_some,
                Option.map_map, Function.comp_def, List.append_assoc, List.singleton_append,
                Nat.add_le_add_iff_right]

/-! ## The rules -/

/-- An object with a member `rule`, which is an array of strings or no array. -/
def RuleEntry (e : Json) : Prop :=
  ∃ rule, e.member (str "rule") = some rule ∧ ∀ r, rule = .array r → Strings r

/-- The ids of an entry whose rule is an array. -/
def ruleIds (e : Json) : Option (List (List Byte)) :=
  match e.member (str "rule") with
  | some (.array r) => some (idsOf r)
  | _ => none

/-- The ids of the first rule that lists both maps. -/
def route (rules : List Json) (fromId toId : List Byte) : Option (List (List Byte)) :=
  (rules.filterMap ruleIds).find? fun ids => ids.contains fromId && ids.contains toId

theorem ruleIds_of_array {e : Json} {r : List Json}
    (h : e.member (str "rule") = some (.array r)) : ruleIds e = some (idsOf r) := by
  rw [ruleIds, h]

variable {free : Nat} {fromId toId : List Byte} {e : Json} {rest r : List Json}

theorem RuleEntry.exists_strings (he : RuleEntry e) {ids : List (List Byte)}
    (h : ruleIds e = some ids) :
    ∃ r, e.member (str "rule") = some (.array r) ∧ Strings r ∧ idsOf r = ids := by
  obtain ⟨rule, hrule, hstrings⟩ := he
  cases rule with
  | array r => exact ⟨r, hrule, hstrings r rfl,
      Option.some.inj ((ruleIds_of_array hrule).symm.trans h)⟩
  | _ => simp [ruleIds, hrule] at h

/-- A rule that is no array is passed over. -/
theorem crossRules_of_ruleIds_none (he : RuleEntry e) (h : ruleIds e = none) :
    crossRules files json free fromId toId (e :: rest) =
      crossRules files json free fromId toId rest := by
  obtain ⟨rule, hrule, -⟩ := he
  rw [crossRules, hrule]
  cases rule with
  | array r => cases (ruleIds_of_array hrule).symm.trans h
  | _ => rfl

/-- A rule that does not list both maps is passed over. -/
theorem crossRules_of_not_listed (hrule : e.member (str "rule") = some (.array r))
    (hr : Strings r) (h : ¬ (fromId ∈ idsOf r ∧ toId ∈ idsOf r)) :
    crossRules files json free fromId toId (e :: rest) =
      crossRules files json free fromId toId rest := by
  have hmissing : lastIndex fromId (idsOf r) 0 (-1) = -1 ∨ lastIndex toId (idsOf r) 0 (-1) = -1 :=
    (not_and_or.mp h).imp (lastIndex_of_not_mem · 0 (-1)) (lastIndex_of_not_mem · 0 (-1))
  simp only [crossRules, hrule, Option.bind_eq_bind, Option.bind_some, findIndices_eq hr,
    if_pos hmissing]

/-- The position of an entry is not taken for the -1 of a missing one. -/
theorem ofNat_ne_neg_one {a n : Nat} (ha : a < n) (hn : n < 2 ^ 32) :
    BitVec.ofNat 32 a ≠ -1 := by
  intro h
  have hnat := congrArg BitVec.toNat h
  have hmax : (-1 : BitVec 32).toNat = 2 ^ 32 - 1 := rfl
  rw [BitVec.toNat_ofNat, hmax, Nat.mod_eq_of_lt (by omega)] at hnat
  omega

/-- A rule that lists both maps is walked. -/
theorem crossRules_of_listed (hrule : e.member (str "rule") = some (.array r)) (hr : Strings r)
    (hsize : (idsOf r).length < 2 ^ 32) {a b : Nat} (ha : IsLast (idsOf r) fromId a)
    (hb : IsLast (idsOf r) toId b) :
    crossRules files json free fromId toId (e :: rest) =
      crossHops files json r ((BitVec.ofNat 32 a).slt (BitVec.ofNat 32 b)) (BitVec.ofNat 32 b)
        free (BitVec.ofNat 32 a) [] := by
  have hfound : ¬ (BitVec.ofNat 32 a = -1 ∨ BitVec.ofNat 32 b = -1) :=
    not_or.mpr ⟨ofNat_ne_neg_one ha.lt_length hsize, ofNat_ne_neg_one hb.lt_length hsize⟩
  have hzero : ∀ x : BitVec 32, 0 + x = x := fun x => BitVec.zero_add x
  simp only [crossRules, hrule, Option.bind_eq_bind, Option.bind_some, findIndices_eq hr,
    lastIndex_of_isLast ha, lastIndex_of_isLast hb, hzero, if_neg hfound]

/-- The loop over the rules finds the route. -/
theorem crossRules_eq {rules : List Json} (free : Nat) (hrules : ∀ e ∈ rules, RuleEntry e)
    (hsize : ∀ e ∈ rules, ∀ ids, ruleIds e = some ids → ids.length < 2 ^ 32) :
    (route rules fromId toId = none → crossRules files json free fromId toId rules = some none) ∧
    ∀ ids a b, route rules fromId toId = some ids → IsLast ids fromId a → IsLast ids toId b →
      ∃ r, Strings r ∧ idsOf r = ids ∧ ids.length < 2 ^ 32 ∧
        crossRules files json free fromId toId rules =
          crossHops files json r ((BitVec.ofNat 32 a).slt (BitVec.ofNat 32 b))
            (BitVec.ofNat 32 b) free (BitVec.ofNat 32 a) [] := by
  induction rules with
  | nil => exact ⟨fun _ => rfl, fun ids a b h => absurd h (by simp [route])⟩
  | cons e rest ih =>
      obtain ⟨he, hrest⟩ := List.forall_mem_cons.mp hrules
      obtain ⟨hsizeE, hsizeRest⟩ := List.forall_mem_cons.mp hsize
      cases hids : ruleIds e with
      | none =>
          rw [route, List.filterMap_cons_none hids, crossRules_of_ruleIds_none he hids]
          exact ih hrest hsizeRest
      | some ids =>
          obtain ⟨r, hrule, hr, rfl⟩ := he.exists_strings hids
          rw [route, List.filterMap_cons_some hids]
          by_cases hlisted : fromId ∈ idsOf r ∧ toId ∈ idsOf r
          · rw [List.find?_cons_of_pos (by simpa using hlisted)]
            refine ⟨fun h => (by cases h), fun ids a b hroute ha hb => ?_⟩
            cases hroute
            exact ⟨r, hr, rfl, hsizeE _ hids, crossRules_of_listed hrule hr (hsizeE _ hids) ha hb⟩
          · rw [List.find?_cons_of_neg (by simpa using hlisted),
              crossRules_of_not_listed hrule hr hlisted]
            exact ih hrest hsizeRest

/-! ## The law -/

variable (files json) in
/-- The files have the expected shape: the rules are an array of entries, which has been parsed,
an array has a `SizeType` size, and so are the crossing tables. -/
structure Expected (rules : List Json) : Prop where
  document : ∃ text, files rulePath = some text ∧ json.parse text = some (.array rules)
  entries : ∀ e ∈ rules, RuleEntry e
  size : ∀ e ∈ rules, ∀ ids, ruleIds e = some ids → ids.length < 2 ^ 32
  tables : CrossTables files json

/-- No file can be opened, that of the rules neither. -/
theorem testCrossMap_zero (fromId toId : List Byte) :
    testCrossMap files json 0 fromId toId = some none := rfl

theorem testCrossMap_eq_crossRules {rules : List Json} (h : Expected files json rules)
    (left : Nat) (fromId toId : List Byte) :
    testCrossMap files json (left + 1) fromId toId =
      crossRules files json left fromId toId rules := by
  obtain ⟨text, hfile, hparse⟩ := h.document
  simp only [testCrossMap, fopen, hfile, Option.map_some, hparse]

variable (files json) in
/-- `test_cross_map` finds the way: it walks the first rule that lists both maps and needs every
crossing, and it returns false if there is no such rule. -/
def Follows (free : Nat) (rules : List Json) (fromId toId : List Byte) : Prop :=
  (route rules fromId toId = none → testCrossMap files json free fromId toId = some none) ∧
  ∀ ids a b, route rules fromId toId = some ids → IsLast ids fromId a → IsLast ids toId b →
    testCrossMap files json free fromId toId = some (hopInfos files json ids a b)

variable (files json) in
/-- Some crossing from position `a` to position `b` is not there. -/
def Missing (ids : List (List Byte)) (a b : Nat) : Prop :=
  ∃ hop ∈ steps (walk ids a b), crossing files json hop.1 hop.2 = none

variable (files json) in
/-- A descriptor is free for the rules and for each crossing table on the way, or the way is not
there anyway. -/
def Affordable (free : Nat) (rules : List Json) (fromId toId : List Byte) : Prop :=
  ∀ ids a b, route rules fromId toId = some ids → IsLast ids fromId a → IsLast ids toId b →
    hops a b < free ∨ Missing files json ids a b

/-- The two positions are both non-negative as an `int`, or both negative. -/
def SameSign (rules : List Json) (fromId toId : List Byte) : Prop :=
  ∀ ids a b, route rules fromId toId = some ids → IsLast ids fromId a → IsLast ids toId b →
    (a < 2 ^ 31 ↔ b < 2 ^ 31)

/-- The comparison of the two `int` variables. -/
theorem slt_ofNat {a b : Nat} (ha : a < 2 ^ 32) (hb : b < 2 ^ 32) :
    (BitVec.ofNat 32 a).slt (BitVec.ofNat 32 b) =
      if a < 2 ^ 31 ↔ b < 2 ^ 31 then decide (a < b) else decide (b < a) := by
  rw [BitVec.slt_eq_decide, BitVec.toInt_eq_toNat_cond, BitVec.toInt_eq_toNat_cond,
    toNat_ofNat_of_lt ha, toNat_ofNat_of_lt hb]
  by_cases hsign : a < 2 ^ 31 ↔ b < 2 ^ 31
  · rw [if_pos hsign]
    refine decide_eq_decide.mpr ?_
    split <;> split <;> omega
  · rw [if_neg hsign]
    refine decide_eq_decide.mpr ?_
    split <;> split <;> omega

/-- What is returned if some rule lists both maps: with positions of different sign, neither loop
is entered. -/
theorem testCrossMap_of_route {rules : List Json} (h : Expected files json rules)
    {ids : List (List Byte)} {a b : Nat} (hroute : route rules fromId toId = some ids)
    (ha : IsLast ids fromId a) (hb : IsLast ids toId b) (left : Nat) :
    testCrossMap files json (left + 1) fromId toId =
      if a < 2 ^ 31 ↔ b < 2 ^ 31 then
        some (if hops a b ≤ left then hopInfos files json ids a b else none)
      else some (some []) := by
  obtain ⟨r, hr, rfl, hsize, hrules⟩ :=
    (crossRules_eq left h.entries h.size).2 ids a b hroute ha hb
  have hlta := toNat_ofNat_of_lt (ha.lt_length.trans hsize)
  have hltb := toNat_ofNat_of_lt (hb.lt_length.trans hsize)
  rw [testCrossMap_eq_crossRules h, hrules,
    slt_ofNat (ha.lt_length.trans hsize) (hb.lt_length.trans hsize)]
  by_cases hsign : a < 2 ^ 31 ↔ b < 2 ^ 31
  · rw [if_pos hsign, if_pos hsign, crossHops_eq h.tables hr (by rw [hltb]; exact hb.lt_length)
      (by rw [hlta]; exact ha.lt_length), hlta, hltb]
    · simp
    · rw [BitVec.le_def, BitVec.le_def, hlta, hltb]
      by_cases hlt : a < b
      · rw [if_pos (decide_eq_true hlt)]
        exact Nat.le_of_lt hlt
      · rw [if_neg (by simpa using hlt)]
        exact Nat.le_of_not_lt hlt
  · rw [if_neg hsign, if_neg hsign, crossHops, dif_neg]
    rw [gt_iff_lt, BitVec.lt_def, BitVec.lt_def, hlta, hltb]
    split
    · next hlt =>
      have := of_decide_eq_true hlt
      omega
    · next hlt =>
      have : ¬ b < a := by simpa using hlt
      exact this

theorem mapM_eq_none_iff {α β : Type*} {f : α → Option β} {xs : List α} :
    xs.mapM f = none ↔ ∃ x ∈ xs, f x = none := by
  induction xs with
  | nil => simp
  | cons x xs ih =>
      rw [List.mapM_cons]
      cases hx : f x with
      | none => simp [hx]
      | some y =>
          rw [List.exists_mem_cons_iff, hx, ← ih]
          cases xs.mapM f <;> simp

theorem hopInfos_eq_none_iff {ids : List (List Byte)} {a b : Nat} :
    hopInfos files json ids a b = none ↔ Missing files json ids a b := mapM_eq_none_iff

theorem length_of_mapM {α β : Type*} {f : α → Option β} {xs : List α} {ys : List β}
    (h : xs.mapM f = some ys) : ys.length = xs.length := by
  induction xs generalizing ys with
  | nil =>
      cases h
      rfl
  | cons x xs ih =>
      rw [List.mapM_cons] at h
      obtain ⟨y, -, h⟩ := Option.bind_eq_some_iff.mp h
      obtain ⟨ys', hys', h⟩ := Option.bind_eq_some_iff.mp h
      cases h
      rw [List.length_cons, List.length_cons, ih hys']

/-- The result has as many entries as there are hops. -/
theorem length_hopInfos {ids result : List (List Byte)} {a b : Nat} (ha : a < ids.length)
    (hb : b < ids.length) (h : hopInfos files json ids a b = some result) :
    result.length = hops a b := by
  rw [length_of_mapM h, length_steps, length_walk ha hb, Nat.add_sub_cancel, hops]

theorem route_comm (rules : List Json) (fromId toId : List Byte) :
    route rules toId fromId = route rules fromId toId := by
  unfold route
  exact congrArg (List.find? · _) (funext fun ids => Bool.and_comm _ _)

theorem SameSign.symm {rules : List Json} (h : SameSign rules fromId toId) :
    SameSign rules toId fromId :=
  fun ids a b hroute ha hb => (h ids b a (route_comm rules fromId toId ▸ hroute) hb ha).symm

theorem follows_iff {rules : List Json} (h : Expected files json rules) (free : Nat) :
    Follows files json free rules fromId toId ↔
      (free = 0 ∨ SameSign rules fromId toId) ∧ Affordable files json free rules fromId toId := by
  cases free with
  | zero =>
      -- false is right if no rule lists both maps, or a crossing is missing
      rw [Follows, testCrossMap_zero, Affordable]
      simp only [Option.some.injEq, implies_true, true_and, true_or, Nat.not_lt_zero, false_or,
        ← hopInfos_eq_none_iff, eq_comm]
  | succ left =>
      rw [or_iff_right (Nat.succ_ne_zero left)]
      constructor
      · intro hfollows
        refine ⟨fun ids a b hroute ha hb => ?_, fun ids a b hroute ha hb => ?_⟩
        · by_contra hsign
          have heq := hfollows.2 ids a b hroute ha hb
          rw [testCrossMap_of_route h hroute ha hb, if_neg hsign, Option.some.injEq] at heq
          have hlen := length_hopInfos ha.lt_length hb.lt_length heq.symm
          rw [List.length_nil, hops] at hlen
          omega
        · rw [or_iff_not_imp_left]
          intro hscarce
          have heq := hfollows.2 ids a b hroute ha hb
          rw [testCrossMap_of_route h hroute ha hb] at heq
          split at heq
          · rw [if_neg (by omega)] at heq
            exact hopInfos_eq_none_iff.mp (Option.some.inj heq).symm
          · have hlen := length_hopInfos ha.lt_length hb.lt_length (Option.some.inj heq).symm
            rw [List.length_nil] at hlen
            omega
      · rintro ⟨hsign, hafford⟩
        refine ⟨fun hroute => ?_, fun ids a b hroute ha hb => ?_⟩
        · rw [testCrossMap_eq_crossRules h]
          exact (crossRules_eq left h.entries h.size).1 hroute
        · rw [testCrossMap_of_route h hroute ha hb, if_pos (hsign ids a b hroute ha hb)]
          rcases hafford ids a b hroute ha hb with hfree | hmissing
          · rw [if_pos (by omega)]
          · rw [hopInfos_eq_none_iff.mpr hmissing, ite_self]

/-- For files of the expected shape, `test_cross_map` finds the way if and only if the two
positions have the same sign as an `int` and there are enough descriptors for the files that it
opens, or else a crossing is missing. The result then has one entry for each hop. If both ways
are found, the maps exchanged are passed in the opposite order. -/
theorem cross_map_iff {rules : List Json} (h : Expected files json rules) (free : Nat)
    (fromId toId : List Byte) :
    (Follows files json free rules fromId toId ↔
      (free = 0 ∨ SameSign rules fromId toId) ∧ Affordable files json free rules fromId toId) ∧
    ((free = 0 ∨ SameSign rules fromId toId) → Affordable files json free rules fromId toId →
      Affordable files json free rules toId fromId →
      ∀ ids a b, route rules fromId toId = some ids → IsLast ids fromId a → IsLast ids toId b →
      (∀ result, testCrossMap files json free fromId toId = some (some result) →
        result.length = (b - a) + (a - b)) ∧
      testCrossMap files json free toId fromId =
        some ((steps (walk ids a b).reverse).mapM fun hop => crossing files json hop.1 hop.2)) := by
  refine ⟨follows_iff h free, fun hsign hafford hback ids a b hroute ha hb =>
    ⟨fun result hresult => ?_, ?_⟩⟩
  · rw [((follows_iff h free).mpr ⟨hsign, hafford⟩).2 ids a b hroute ha hb,
      Option.some.injEq] at hresult
    exact length_hopInfos ha.lt_length hb.lt_length hresult
  · have hfollows := (follows_iff h free).mpr ⟨hsign.imp_right SameSign.symm, hback⟩
    rw [hfollows.2 ids b a ((route_comm rules fromId toId).trans hroute) hb ha, hopInfos,
      walk_reverse]

/-- Short rules are walked in the right direction. -/
theorem sameSign_of_length {rules : List Json}
    (h : ∀ e ∈ rules, ∀ ids, ruleIds e = some ids → ids.length ≤ 2 ^ 31)
    (fromId toId : List Byte) : SameSign rules fromId toId := by
  intro ids a b hroute ha hb
  obtain ⟨e, he, hids⟩ := List.mem_filterMap.mp (List.mem_of_find?_eq_some hroute)
  have hlen := h e he ids hids
  have := ha.lt_length
  have := hb.lt_length
  omega

/-- The rules are no crossing table. -/
theorem crossPath_ne_rulePath (id : List Byte) : crossPath id ≠ rulePath := by
  intro h
  have hchar := congrArg (fun path => path.reverse[5]?) h
  simp only [crossPath] at hchar
  rw [List.reverse_append, List.getElem?_append_left (by decide)] at hchar
  exact absurd hchar (by decide)

/-- An entry with these ids. -/
def ruleOf (ids : List (List Byte)) : Json := .object [(str "rule", .array (ids.map Json.string))]

theorem ruleEntry_ruleOf (ids : List (List Byte)) : RuleEntry (ruleOf ids) := by
  refine ⟨_, rfl, fun r hr v hv => ?_⟩
  cases hr
  obtain ⟨id, -, rfl⟩ := List.mem_map.mp hv
  exact ⟨id, rfl⟩

theorem ruleIds_ruleOf {ids : List (List Byte)} (h : ∀ id ∈ ids, id.takeWhile (· ≠ 0) = id) :
    ruleIds (ruleOf ids) = some ids := by
  have hids : idsOf (ids.map Json.string) = ids := by
    rw [idsOf, List.map_map]
    exact (List.map_congr_left h).trans (List.map_id ids)
  exact congrArg some hids

/-- Files with the rules and with a crossing table for the map 1. -/
def twoFiles (rulesText tableText : List Byte) : Files := fun path =>
  if path = rulePath then some rulesText
  else if path = crossPath (str "1") then some tableText
  else none

/-- A parser that knows two texts only. -/
def twoTexts (rulesText tableText : List Byte) (rules table : List Json) : Rapidjson where
  parse text :=
    if text = rulesText then some (.array rules)
    else if text = tableText then some (.array table)
    else none
  write _ := []

theorem expected_twoFiles {rulesText tableText : List Byte} {rules table : List Json}
    (hne : tableText ≠ rulesText) (hrules : ∀ e ∈ rules, RuleEntry e)
    (hsize : ∀ e ∈ rules, ∀ ids, ruleIds e = some ids → ids.length < 2 ^ 32)
    (htable : ∀ e ∈ table, CrossEntry e) :
    Expected (twoFiles rulesText tableText) (twoTexts rulesText tableText rules table) rules where
  document := ⟨rulesText, if_pos rfl, if_pos rfl⟩
  entries := hrules
  size := hsize
  tables id text h := by
    unfold twoFiles at h
    rw [if_neg (crossPath_ne_rulePath id)] at h
    split at h
    · cases h
      exact ⟨table, (if_neg hne).trans (if_pos rfl), htable⟩
    · cases h

/-- A rule for two maps. -/
def shortText : List Byte := str "[\x7b\"rule\":[\"1\",\"2\"]\x7d]"

/-- A crossing table with one entry. -/
def shortTableText : List Byte :=
  str "[\x7b\"neighbor\":\"2\",\"point\":\x7b\"info\":\"p\"\x7d\x7d]"

def shortTable : List Json :=
  [.object [(str "neighbor", .string (str "2")),
    (str "point", .object [(str "info", .string (str "p"))])]]

theorem crossEntry_shortTable : ∀ e ∈ shortTable, CrossEntry e :=
  List.forall_mem_singleton.mpr ⟨_, _, _, rfl, rfl, rfl⟩

theorem expected_ruleOf {ids : List (List Byte)} {rulesText : List Byte}
    (hids : ruleIds (ruleOf ids) = some ids) (hsize : ids.length < 2 ^ 32)
    (hne : shortTableText ≠ rulesText) :
    Expected (twoFiles rulesText shortTableText)
      (twoTexts rulesText shortTableText [ruleOf ids] shortTable) [ruleOf ids] := by
  refine expected_twoFiles hne ?_ (fun e he ids' h => ?_) crossEntry_shortTable
  · exact List.forall_mem_singleton.mpr (ruleEntry_ruleOf ids)
  · rw [List.mem_singleton.mp he, hids] at h
    cases h
    exact hsize

/-- The files for the maps 1 and 2, and the parser for them. -/
def shortFiles : Files := twoFiles shortText shortTableText

def shortParser : Rapidjson :=
  twoTexts shortText shortTableText [ruleOf [str "1", str "2"]] shortTable

theorem expected_short : Expected shortFiles shortParser [ruleOf [str "1", str "2"]] :=
  expected_ruleOf (ruleIds_ruleOf (by decide)) (by decide) (by decide)

theorem route_short :
    route [ruleOf [str "1", str "2"]] (str "1") (str "2") = some [str "1", str "2"] := by
  decide

theorem isLast_short :
    IsLast [str "1", str "2"] (str "1") 0 ∧ IsLast [str "1", str "2"] (str "2") 1 :=
  ⟨isLast_cons_zero.mpr ⟨rfl, by decide⟩,
    isLast_cons_succ.mpr (isLast_cons_zero.mpr ⟨rfl, List.not_mem_nil⟩)⟩

/-- Two files have to be opened on the way from the map 1 to the map 2. -/
theorem affordable_short_iff (free : Nat) :
    Affordable shortFiles shortParser free [ruleOf [str "1", str "2"]] (str "1") (str "2") ↔
      2 ≤ free := by
  obtain ⟨hfirst, hlast⟩ := isLast_short
  have hnot : ¬ Missing shortFiles shortParser [str "1", str "2"] 0 1 := by
    rw [← hopInfos_eq_none_iff]
    decide
  have hhops : hops 0 1 = 1 := rfl
  constructor
  · intro h
    have := (h _ 0 1 route_short hfirst hlast).resolve_right hnot
    omega
  · intro hfree ids a b hids ha hb
    obtain rfl := Option.some.inj (route_short.symm.trans hids)
    obtain rfl := hfirst.unique ha
    obtain rfl := hlast.unique hb
    exact Or.inl (by omega)

theorem sameSign_short : SameSign [ruleOf [str "1", str "2"]] (str "1") (str "2") := by
  refine sameSign_of_length (List.forall_mem_singleton.mpr fun ids hids => ?_) _ _
  rw [ruleIds_ruleOf (by decide)] at hids
  cases hids
  decide

theorem cross_map_short :
    testCrossMap shortFiles shortParser 2 (str "1") (str "2") = some (some [str "p"]) := by
  have hfollows := (cross_map_iff expected_short 2 (str "1") (str "2")).1.mpr
    ⟨Or.inr sameSign_short, (affordable_short_iff 2).mpr (le_refl 2)⟩
  obtain ⟨hfirst, hlast⟩ := isLast_short
  exact (hfollows.2 [str "1", str "2"] 0 1 route_short hfirst hlast).trans (by decide)

/-! ## A rule that is too long -/

/-- The ids of a rule from `a` to `b`, with `n` other maps between them. -/
def longIds (n : Nat) : List (List Byte) := str "a" :: (List.replicate n (str "x") ++ [str "b"])

/-- The text of the rule. -/
def longText (n : Nat) : List Byte :=
  str "[\x7b\"rule\":[\"a\"," ++ (List.replicate n (str "\"x\",")).flatten ++ str "\"b\"]\x7d]"

theorem isLast_longIds (n : Nat) :
    IsLast (longIds n) (str "a") 0 ∧ IsLast (longIds n) (str "b") (n + 1) := by
  have hax : str "a" ≠ str "x" := by decide
  have hab : str "a" ≠ str "b" := by decide
  refine ⟨isLast_cons_zero.mpr ⟨rfl, ?_⟩, isLast_cons_succ.mpr ⟨?_, fun j hj => ?_⟩⟩
  · simp [List.mem_replicate, hax, hab]
  · rw [List.getElem?_append_right (by simp), List.length_replicate, Nat.sub_self]
    rfl
  · rw [List.getElem?_eq_none (by simp; omega)]
    exact (Option.some_ne_none _).symm

theorem ruleIds_longIds (n : Nat) : ruleIds (ruleOf (longIds n)) = some (longIds n) := by
  have ha : (str "a").takeWhile (· ≠ 0) = str "a" := by decide
  have hx : (str "x").takeWhile (· ≠ 0) = str "x" := by decide
  have hb : (str "b").takeWhile (· ≠ 0) = str "b" := by decide
  refine ruleIds_ruleOf fun id hid => ?_
  rcases List.mem_cons.mp hid with rfl | hid
  · exact ha
  rcases List.mem_append.mp hid with hid | hid
  · rw [List.eq_of_mem_replicate hid, hx]
  · rw [List.mem_singleton.mp hid, hb]

/-- The fourth character tells the texts apart. -/
theorem shortTableText_ne_longText (n : Nat) : shortTableText ≠ longText n := by
  intro h
  have hchar := congrArg (fun text : List Byte => text[3]?) h
  rw [longText, List.append_assoc, List.getElem?_append_left (by decide)] at hchar
  exact absurd hchar (by decide)

/-- The files with the long rule. -/
def longFiles (n : Nat) : Files := twoFiles (longText n) shortTableText

def longParser (n : Nat) : Rapidjson :=
  twoTexts (longText n) shortTableText [ruleOf (longIds n)] shortTable

theorem expected_longIds {n : Nat} (hn : n + 2 < 2 ^ 32) :
    Expected (longFiles n) (longParser n) [ruleOf (longIds n)] :=
  expected_ruleOf (ruleIds_longIds n) (by simpa [longIds] using hn) (shortTableText_ne_longText n)

theorem route_longIds (n : Nat) :
    route [ruleOf (longIds n)] (str "a") (str "b") = some (longIds n) := by
  rw [route, List.filterMap_cons_some (ruleIds_longIds n), List.find?_cons_of_pos]
  obtain ⟨ha, hb⟩ := isLast_longIds n
  simpa using ⟨ha.mem, hb.mem⟩

theorem not_follows_longIds {n free : Nat} (hn : n + 1 = 2 ^ 31) (hfree : free ≠ 0) :
    ¬ Follows (longFiles n) (longParser n) free [ruleOf (longIds n)] (str "a") (str "b") := by
  rw [follows_iff (expected_longIds (by omega)), or_iff_right hfree]
  obtain ⟨ha, hb⟩ := isLast_longIds n
  rintro ⟨hsign, -⟩
  have := hsign _ 0 (n + 1) (route_longIds n) ha hb
  omega

/-- With `2^31` hops the way is not looked for, however many files may be open. With only one
descriptor, left over from earlier calls, a way of one hop is not found either. -/
theorem long_rule_not_followed :
    (Expected (longFiles (2 ^ 31 - 1)) (longParser (2 ^ 31 - 1))
        [ruleOf (longIds (2 ^ 31 - 1))] ∧
      ¬ Follows (longFiles (2 ^ 31 - 1)) (longParser (2 ^ 31 - 1)) (2 ^ 32)
        [ruleOf (longIds (2 ^ 31 - 1))] (str "a") (str "b")) ∧
    Expected shortFiles shortParser [ruleOf [str "1", str "2"]] ∧
      ¬ Follows shortFiles shortParser 1 [ruleOf [str "1", str "2"]] (str "1") (str "2") := by
  refine ⟨⟨expected_longIds (by omega), not_follows_longIds (by omega) (by omega)⟩,
    expected_short, fun hfollows => ?_⟩
  have hafford := ((follows_iff expected_short 1).mp hfollows).2
  exact absurd ((affordable_short_iff 1).mp hafford) (by decide)

end BazelPro.Tmp
