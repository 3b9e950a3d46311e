import BazelPro.Print.BufferLaw
import BazelPro.Print.Prefix

/-!
# One call or several

However a format is cut into several, as long as no directive is cut, the calls of
`bufprintf_asyncsignalsafe` with the parts do to the buffer what one call with the whole format does
(`printed_at_once`): wherever the end of the array is, and with the same fault if there is one. What
`%n` counts is another matter, because each call counts from where its own text begins.
-/

namespace BazelPro.Print

open C Sink

/-! ## The text of two formats -/

section

variable {a b : CStr} {ap : VaList} {n : Nat}

theorem chars_append (es es' : List Event) : chars (es ++ es') = chars es ++ chars es' :=
  List.filterMap_append

/-- What is put out for two formats. -/
theorem events_append (h : a.args ap = some n) (b : CStr) :
    format (a.append b) ap ([] : List Event) = (format a ap ([] : List Event) >>= fun es =>
      (format b (behind ap n) ([] : List Event)).map fun es' => es ++ es') := by
  rw [format_append h]
  refine bind_congr fun es => ?_
  have hhom := format_hom (Hom.putAll es) b (behind ap n) ([] : List Event)
  rw [putAll_nil, funext (putAll_list es)] at hhom
  exact hhom

end

/-! ## Two calls -/

/-- The buffer has gone on by `text`; what the bytes `other` hold is left open. -/
structure Advanced (other : List Nat) (s s' : Buffer × Ram) (text : List Byte) : Prop where
  data : s'.1.data = s.1.data + min text.length (s.1.available.toNat - 1)
  available : s'.1.available.toNat =
    s.1.available.toNat - min text.length (s.1.available.toNat - 1)
  bytes : ∀ i ∉ other,
    s'.2.bytes i = storeAt s.2.bytes s.1.data (truncated s.1.available.toNat text) i

section

variable {other : List Nat} {s s' s'' : Buffer × Ram} {text text' : List Byte}

theorem Advanced.append (havailable : 0 < s.1.available.toNat) (h : Advanced other s s' text)
    (h' : Advanced other s' s'' text') : Advanced other s s'' (text ++ text') := by
  have hdata := h.data
  have hleft := h.available
  refine ⟨?_, ?_, fun i hi => ?_⟩
  · rw [h'.data, List.length_append]
    omega
  · rw [h'.available, List.length_append]
    omega
  · -- the second call overwrites the NUL of the first
    have hlength : (text.take (s.1.available.toNat - 1)).length =
        min text.length (s.1.available.toNat - 1) := by
      rw [List.length_take, Nat.min_comm]
    rw [h'.bytes i hi, storeAt_congr (h.bytes i hi), hdata, hleft, truncated_append havailable,
      truncated, ← hlength]
    refine congrFun (storeAt_over _ _ _ _ _ ?_) i
    rw [length_truncated]
    exact Nat.le_add_left _ _

/-- The same buffer, and the same memory apart from the bytes `other`. -/
def SameBut (other : List Nat) (s s' : Buffer × Ram) : Prop :=
  s.1 = s'.1 ∧ ∀ i ∉ other, s.2.bytes i = s'.2.bytes i

theorem Advanced.sameBut (h : Advanced other s s' text) (h' : Advanced other s s'' text) :
    SameBut other s' s'' := by
  refine ⟨?_, fun i hi => (h.bytes i hi).trans (h'.bytes i hi).symm⟩
  obtain ⟨⟨data, available⟩, ram⟩ := s'
  obtain ⟨⟨data', available'⟩, ram'⟩ := s''
  have hdata : data = data' := h.data.trans h'.data.symm
  have havailable : available = available' :=
    BitVec.eq_of_toNat_eq (h.available.trans h'.available.symm)
  rw [hdata, havailable]

/-- Both runs have come to the same fault, or to such states. -/
inductive SameOutcome (other : List Nat) :
    Except Fault (Buffer × Ram) → Except Fault (Buffer × Ram) → Prop where
  | fault (fault : Fault) : SameOutcome other (.error fault) (.error fault)
  | ok {r r' : Buffer × Ram} (h : SameBut other r r') : SameOutcome other (.ok r) (.ok r')

end

section

variable {fmt : CStr} {ap : VaList} {s : Buffer × Ram}

theorem bufprintf_of_fault {fault : Fault}
    (h : format fmt ap ([] : List Event) = .error fault) (s : Buffer × Ram) :
    bufprintfAsyncsignalsafe s.1 s.2 fmt ap = .error fault := by
  rw [bufprintfAsyncsignalsafe, bufprintfWith, vsnprintf_asyncsignalsafe_events, h]
  rfl

theorem bufprintf_of_events {es : List Event} (h : format fmt ap ([] : List Event) = .ok es)
    (s : Buffer × Ram) : ∃ r, bufprintfAsyncsignalsafe s.1 s.2 fmt ap = .ok r := by
  rw [bufprintfAsyncsignalsafe, bufprintfWith, vsnprintf_asyncsignalsafe_events, h]
  exact ⟨_, rfl⟩

/-- A call without a fault. -/
theorem bufprintf_advanced {es : List Event} (h : format fmt ap ([] : List Event) = .ok es)
    {other : List Nat} (hother : ∀ i ∈ counted es, i ∈ other)
    (havailable : 0 < s.1.available.toNat) (hint : (chars es).length < 2 ^ 31) :
    ∃ r, bufprintfAsyncsignalsafe s.1 s.2 fmt ap = .ok r ∧ Advanced other s r.1 (chars es) := by
  obtain ⟨ram', hprint, hbytes, -⟩ :=
    vsnprintf_asyncsignalsafe_of_events h hother s.2 s.1.data havailable
  have hnc : (BitVec.ofNat 32 (chars es).length).toNat = (chars es).length := by
    rw [BitVec.toNat_ofNat, Nat.mod_eq_of_lt (by omega)]
  obtain ⟨buf, ret, hrun, hdata, hleft, -⟩ := bufprintfWith_eq havailable hprint hnc hint
  exact ⟨_, hrun, hdata, hleft, hbytes⟩

end

/-! ## Any number of calls -/

/-- Some formats, one behind the other. -/
def CStr.joined : CStr → List CStr → CStr
  | fmt, [] => fmt
  | fmt, fmt' :: fmts => fmt.append (joined fmt' fmts)

/-- The calls that print them one after the other, each with the arguments that those before it
have left. -/
def callsFor : CStr → List CStr → VaList → List Call
  | fmt, [], ap => [.bufprintfAsyncsignalsafe fmt ap]
  | fmt, fmt' :: fmts, ap =>
      .bufprintfAsyncsignalsafe fmt ap :: callsFor fmt' fmts (behind ap ((fmt.args ap).getD 0))

/-- None of the formats ends inside a directive, but for the last one perhaps. -/
def BetweenDirectives : CStr → List CStr → VaList → Prop
  | _, [], _ => True
  | fmt, fmt' :: fmts, ap => ∃ n, fmt.args ap = some n ∧ BetweenDirectives fmt' fmts (behind ap n)

section

variable {vsnprintf : StringFormatter} {fmt : CStr} {fmts : List CStr} {ap : VaList}
  {s : Buffer × Ram}

theorem runCalls_cons (vsnprintf : StringFormatter) (fmt : CStr) (ap : VaList) (calls : List Call)
    (s : Buffer × Ram) :
    runCalls vsnprintf (.bufprintfAsyncsignalsafe fmt ap :: calls) s =
      bufprintfAsyncsignalsafe s.1 s.2 fmt ap >>= fun r => runCalls vsnprintf calls r.1 := by
  show ((bufprintfAsyncsignalsafe s.1 s.2 fmt ap >>= fun r => pure r.1) >>= _) = _
  rw [bind_assoc]
  rfl

/-- What the first format and the others put out. -/
theorem events_joined {fmt' : CStr} {n : Nat} (h : fmt.args ap = some n) :
    format (fmt.joined (fmt' :: fmts)) ap ([] : List Event) =
      (format fmt ap ([] : List Event) >>= fun es =>
        (format (fmt'.joined fmts) (behind ap n) ([] : List Event)).map fun es' => es ++ es') :=
  events_append h _

theorem callsFor_cons {fmt' : CStr} {n : Nat} (h : fmt.args ap = some n) :
    callsFor fmt (fmt' :: fmts) ap =
      .bufprintfAsyncsignalsafe fmt ap :: callsFor fmt' fmts (behind ap n) := by
  rw [callsFor, h]
  rfl

/-- The calls come to the fault of the one call. -/
theorem runCalls_of_fault (vsnprintf : StringFormatter) (hbetween : BetweenDirectives fmt fmts ap)
    {fault : Fault} (h : format (fmt.joined fmts) ap ([] : List Event) = .error fault)
    (s : Buffer × Ram) : runCalls vsnprintf (callsFor fmt fmts ap) s = .error fault := by
  induction fmts generalizing fmt ap s with
  | nil =>
      have h : format fmt ap ([] : List Event) = .error fault := h
      rw [callsFor, runCalls_cons, bufprintf_of_fault h]
      rfl
  | cons fmt' fmts ih =>
      obtain ⟨n, hargs, hbetween⟩ := hbetween
      rw [callsFor_cons hargs, runCalls_cons]
      rw [events_joined hargs] at h
      cases hfirst : format fmt ap ([] : List Event) with
      | error fault' =>
          rw [hfirst] at h
          cases h
          rw [bufprintf_of_fault hfirst]
          rfl
      | ok es =>
          rw [hfirst] at h
          obtain ⟨r, hr⟩ := bufprintf_of_events hfirst s
          rw [hr]
          refine ih hbetween ?_ r.1
          cases hrest : format (fmt'.joined fmts) (behind ap n) ([] : List Event) with
          | error fault' =>
              rw [hrest] at h
              cases h
              rfl
          | ok es' =>
              rw [hrest] at h
              cases h

/-- The calls append the text of the one call. -/
theorem runCalls_advanced (vsnprintf : StringFormatter) (hbetween : BetweenDirectives fmt fmts ap)
    {es : List Event} (h : format (fmt.joined fmts) ap ([] : List Event) = .ok es)
    {other : List Nat} (hother : ∀ i ∈ counted es, i ∈ other)
    (havailable : 0 < s.1.available.toNat) (hint : (chars es).length < 2 ^ 31) :
    ∃ s', runCalls vsnprintf (callsFor fmt fmts ap) s = .ok s' ∧
      Advanced other s s' (chars es) := by
  induction fmts generalizing fmt ap s es with
  | nil =>
      have h : format fmt ap ([] : List Event) = .ok es := h
      obtain ⟨r, hr, hadvanced⟩ := bufprintf_advanced h hother havailable hint
      rw [callsFor, runCalls_cons, hr]
      exact ⟨r.1, rfl, hadvanced⟩
  | cons fmt' fmts ih =>
      obtain ⟨n, hargs, hbetween⟩ := hbetween
      rw [callsFor_cons hargs, runCalls_cons]
      rw [events_joined hargs] at h
      cases hfirst : format fmt ap ([] : List Event) with
      | error fault =>
          rw [hfirst] at h
          cases h
      | ok es₁ =>
          cases hrest : format (fmt'.joined fmts) (behind ap n) ([] : List Event) with
          | error fault =>
              rw [hfirst, hrest] at h
              cases h
          | ok es₂ =>
              rw [hfirst, hrest] at h
              obtain rfl : es₁ ++ es₂ = es := Except.ok.inj h
              rw [chars_append, List.length_append] at hint
              rw [counted_append, List.forall_mem_append] at hother
              obtain ⟨r, hr, hadvanced⟩ :=
                bufprintf_advanced hfirst hother.1 havailable (by omega)
              have hroom : 0 < r.1.1.available.toNat := by
                rw [hadvanced.available]
                omega
              obtain ⟨s', hrun, hothers⟩ := ih hbetween hrest hother.2 hroom (by omega)
              rw [hr, chars_append]
              exact ⟨s', hrun, hadvanced.append havailable hothers⟩

end

/-- Whatever the formats are, faults included: printed one after the other, none of them cut inside
a directive, they leave the buffer and the memory as one call with all of them does, from any
state in which there is room, apart from the counts that `%n` stores. -/
theorem printed_at_once (vsnprintf : StringFormatter) (fmt : CStr) (fmts : List CStr) (ap : VaList)
    (s : Buffer × Ram) (hbetween : BetweenDirectives fmt fmts ap)
    (havailable : 0 < s.1.available.toNat)
    (hint : (fullText (fmt.joined fmts) ap).length < 2 ^ 31) :
    SameOutcome ((fmt.joined fmts).counted ap) (runCalls vsnprintf (callsFor fmt fmts ap) s)
      ((bufprintfAsyncsignalsafe s.1 s.2 (fmt.joined fmts) ap).map Prod.fst) := by
  cases h : format (fmt.joined fmts) ap ([] : List Event) with
  | error fault =>
      rw [runCalls_of_fault vsnprintf hbetween h s, bufprintf_of_fault h]
      exact .fault fault
  | ok es =>
      rw [fullText, h] at hint
      have hother : ∀ i ∈ counted es, i ∈ (fmt.joined fmts).counted ap := by
        rw [counted_format h]
        exact fun i hi => hi
      obtain ⟨s', hs', hcalls⟩ := runCalls_advanced vsnprintf hbetween h hother havailable hint
      obtain ⟨r, hr, hcall⟩ := bufprintf_advanced h hother havailable hint
      rw [hs', hr]
      exact .ok (hcalls.sameBut hcall)

/-- `"%d-"` and `"%.3d"`, in an array of five bytes. -/
theorem printed_at_once_cut :
    SameOutcome [] (runCalls plainVsnprintf (callsFor (cstr ['%', 'd', '-'] (by decide))
        [cstr ['%', '.', '3', 'd'] (by decide)] (words [42, 7]))
        (bufinit ⟨fun _ => 0, []⟩ 100 5))
      ((bufprintfAsyncsignalsafe ⟨100, 5⟩ (bufinit ⟨fun _ => 0, []⟩ 100 5).2
        (cstr ['%', 'd', '-', '%', '.', '3', 'd'] (by decide)) (words [42, 7])).map Prod.fst) ∧
    (bufprintfAsyncsignalsafe ⟨100, 5⟩ (bufinit ⟨fun _ => 0, []⟩ 100 5).2
        (cstr ['%', 'd', '-', '%', '.', '3', 'd'] (by decide)) (words [42, 7])).map
          (fun r => load r.1.2.bytes 100 5) = .ok (['4', '2', '-', '0'].map chr ++ [0]) :=
  ⟨printed_at_once plainVsnprintf (cstr ['%', 'd', '-'] (by decide))
    [cstr ['%', '.', '3', 'd'] (by decide)] (words [42, 7]) (bufinit ⟨fun _ => 0, []⟩ 100 5)
    ⟨1, by decide, trivial⟩ (by decide) (by decide), by decide +kernel⟩

end BazelPro.Print
