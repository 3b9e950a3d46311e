import BazelPro.Hk.Run
import BazelPro.Jw.Answers

/-!
# Where the replies go

Both servers start with an address length of 0, so the first receive stores no address; every
later receive finds the length 16 that the one before left behind. All replies go to the sender
of the datagram they are for except those to the first datagram, which go to whatever the
address buffer held at the start.
-/

namespace BazelPro

open C

/-- Every message sent while a datagram is handled is addressed to its sender. -/
def ToSenders (ds : List Datagram) (outs : List (List Sent)) : Prop :=
  ∀ p ∈ ds.zip outs, ∀ x ∈ p.2, x.dest = p.1.sender.bytes

theorem toSenders_nil (outs : List (List Sent)) : ToSenders [] outs := by
  simp [ToSenders]

theorem toSenders_cons (d : Datagram) (ds : List Datagram) (out : List Sent)
    (outs : List (List Sent)) :
    ToSenders (d :: ds) (out :: outs) ↔
      (∀ x ∈ out, x.dest = d.sender.bytes) ∧ ToSenders ds outs := by
  simp [ToSenders]

/-! ## The HK server -/

namespace Hk.Server

/-- The destination of everything that one iteration sends. -/
theorem step_dest (s : Server) (d : Datagram) :
    ∀ x ∈ (s.step d).2, x.dest = load (s.receive d).clientAddr 0 16 := by
  by_cases hempty : d.payload = []
  · rw [s.step_empty hempty]
    exact nofun
  obtain ⟨sendbuffer, hstep⟩ := s.step_spec hempty
  have hlen : (s.receive d).clientLen = 16 :=
    recvfrom_addrlen s.buffer 1024 s.clientAddr s.clientLen d
  rw [hstep]
  intro x hx
  obtain ⟨g, -, rfl⟩ := List.mem_map.mp hx
  rw [Server.sent, hlen]

theorem step_clientLen {s s' : Server} {d : Datagram} (h : (s.step d).1 = some s') :
    s'.clientLen = 16 := by
  by_cases hempty : d.payload = []
  · rw [s.step_empty hempty] at h
    cases h
  · obtain ⟨sendbuffer, hstep⟩ := s.step_spec hempty
    rw [hstep] at h
    rw [← Option.some.inj h]

/-- What goes out behind the first datagram goes to the senders if what goes out for it does,
provided that this holds of every run which finds the length 16. -/
theorem run_cons_toSenders (s : Server) (d : Datagram) {ds : List Datagram}
    (hrest : ∀ s' : Server, s'.clientLen = 16 → ToSenders ds (s'.run ds).2) :
    ToSenders (d :: ds) (s.run (d :: ds)).2 ↔ ∀ x ∈ (s.step d).2, x.dest = d.sender.bytes := by
  rw [run]
  rcases hstep : s.step d with ⟨_ | s', sent⟩
  · exact (toSenders_cons d ds sent []).trans (and_iff_left (by simp [ToSenders]))
  · have hlen : s'.clientLen = 16 := step_clientLen (congrArg Prod.fst hstep)
    exact (toSenders_cons d ds sent _).trans (and_iff_left (hrest s' hlen))

/-- Once the length is 16, all replies go to the senders. -/
theorem run_toSenders (s : Server) (hlen : s.clientLen = 16) (ds : List Datagram) :
    ToSenders ds (s.run ds).2 := by
  induction ds generalizing s with
  | nil => exact toSenders_nil _
  | cons d ds ih =>
      refine (s.run_cons_toSenders d ih).mpr fun x hx => ?_
      rw [s.step_dest d x hx, Server.receive, hlen]
      exact recvfrom_addr s.buffer 1024 s.clientAddr d

/-- The first iteration answers exactly the handled types, unless the datagram is empty; the
interrupt command is not due yet. -/
theorem init_step_eq_nil_iff (buffer clientAddr : Mem) (d : Datagram) :
    ((init buffer clientAddr).step d).2 = [] ↔
      (d.payload ≠ [] → typeOf (storeAt buffer 0 (d.payload.take 1024)) ∉ handledTypes) := by
  by_cases hempty : d.payload = []
  · rw [step_empty _ hempty]
    exact iff_of_true rfl fun h => absurd hempty h
  obtain ⟨sendbuffer, hstep⟩ := (init buffer clientAddr).step_spec hempty
  have hdue : interruptDue ((init buffer clientAddr).tick + 1) = false :=
    (by decide : interruptDue (0 + 1) = false)
  rw [hstep, outputs, hdue, forall_prop_of_true hempty]
  simp only [Bool.false_eq_true, if_false, List.append_nil, List.map_eq_nil_iff]
  exact answers_eq_nil_iff _ _

end Hk.Server

/-- All replies of a run of the HK server go to the right senders if and only if there is no
reply to the first datagram or its sender is what the address buffer holds anyway. -/
theorem hk_toSenders_iff (buffer clientAddr : Mem) (ds : List Datagram) :
    ToSenders ds ((Hk.Server.init buffer clientAddr).run ds).2 ↔
      ∀ d, ds.head? = some d → d.payload ≠ [] →
        Hk.typeOf (storeAt buffer 0 (d.payload.take 1024)) ∈ Hk.handledTypes →
        load clientAddr 0 16 = d.sender.bytes := by
  cases ds with
  | nil => simp [toSenders_nil]
  | cons d ds =>
      -- after one datagram the length is 16, so only the first can go wrong
      have hdest := (Hk.Server.init buffer clientAddr).step_dest d
      have haddr : ((Hk.Server.init buffer clientAddr).receive d).clientAddr = clientAddr :=
        recvfrom_addr_zero buffer 1024 clientAddr d
      have hnil := Hk.Server.init_step_eq_nil_iff buffer clientAddr d
      rw [haddr] at hdest
      rw [Hk.Server.run_cons_toSenders _ d fun s' hlen => s'.run_toSenders hlen ds]
      simp only [List.head?_cons, Option.some.injEq, forall_eq']
      constructor
      · intro hall hempty htype
        have hne : ((Hk.Server.init buffer clientAddr).step d).2 ≠ [] :=
          fun h => hnil.mp h hempty htype
        obtain ⟨x, hx⟩ := List.exists_mem_of_ne_nil _ hne
        rw [← hdest x hx, hall x hx]
      · intro hcond x hx
        have hanswered : ¬ (d.payload ≠ [] →
            Hk.typeOf (storeAt buffer 0 (d.payload.take 1024)) ∉ Hk.handledTypes) := by
          intro h
          rw [hnil.mpr h] at hx
          cases hx
        obtain ⟨hempty, htype⟩ := Classical.not_imp.mp hanswered
        rw [hdest x hx, hcond hempty (not_not.mp htype)]

/-! ## The JW server -/

namespace Jw.Server

variable (json : Rapidjson)

/-- Once the length is 16, all replies go to the senders. -/
theorem run_toSenders (s : Server) (hlen : s.clientLen = 16) (arrivals : List Arrival) :
    ToSenders (arrivals.map Arrival.datagram) (s.run json arrivals) := by
  induction arrivals generalizing s with
  | nil => exact toSenders_nil _
  | cons a arrivals ih =>
      rw [run]
      cases hstep : s.step json a with
      | none => simp [ToSenders]
      | some r =>
          obtain ⟨s', out⟩ := r
          obtain ⟨hlen', hdest⟩ := step_dest json hstep
          refine (toSenders_cons _ _ _ _).mpr ⟨fun x hx => ?_, ih s' hlen'⟩
          rw [hdest x hx, receive, hlen]
          exact recvfrom_addr s.buffer 1024 s.clientAddr a.datagram

end Jw.Server

/-- All replies of a run of the JW server go to the right senders if and only if there is no
reply to the first datagram. -/
theorem jw_toSenders_iff (json : Jw.Rapidjson) (arrivals : List Jw.Arrival) :
    ToSenders (arrivals.map Jw.Arrival.datagram) (Jw.Server.init.run json arrivals) ↔
      ∀ a, arrivals.head? = some a → ¬ Jw.Answered json a.text := by
  cases arrivals with
  | nil => simp [toSenders_nil]
  | cons a arrivals =>
      simp only [List.head?_cons, Option.some.injEq, forall_eq', Jw.Server.run]
      rw [← Jw.Server.first_step_answers json a]
      cases hstep : Jw.Server.init.step json a with
      | none => simp [ToSenders]
      | some r =>
          obtain ⟨s', out⟩ := r
          obtain ⟨hlen, hdest⟩ := Jw.Server.step_dest json hstep
          have htail := Jw.Server.run_toSenders json s' hlen arrivals
          simp only [List.map_cons, toSenders_cons, htail, and_true]
          have hhead : (∃ s'' out', some (s', out) = some (s'', out') ∧ out' ≠ []) ↔ out ≠ [] := by
            simp
          rw [hhead]
          have haddr : (Jw.Server.init.receive a).clientAddr = fun _ => 0 :=
            recvfrom_addr_zero (fun _ => 0) 1024 (fun _ => 0) a.datagram
          rw [haddr] at hdest
          constructor
          · intro hall hne
            obtain ⟨x, hx⟩ := List.exists_mem_of_ne_nil _ hne
            have hzero := (hdest x hx).symm.trans (hall x hx)
            -- no sender has the address of all zeros
            have hfamily := a.datagram.sender.family
            rw [← hzero] at hfamily
            exact absurd hfamily (by decide)
          · intro hnil x hx
            rw [not_not.mp hnil] at hx
            cases hx

/-! ## Both -/

/-- The exact condition for both servers. The HK server must not answer its first datagram, for
instance because it is empty and ends the server, unless the sender of it happens to be what the
uninitialised address buffer holds; the JW server, whose address buffer is cleared, must not answer
its first datagram. -/
theorem toSenders_iff (buffer clientAddr : Mem) (ds : List Datagram) (json : Jw.Rapidjson)
    (arrivals : List Jw.Arrival) :
    (ToSenders ds ((Hk.Server.init buffer clientAddr).run ds).2 ↔
      ∀ d, ds.head? = some d → d.payload ≠ [] →
        Hk.typeOf (storeAt buffer 0 (d.payload.take 1024)) ∈ Hk.handledTypes →
        load clientAddr 0 16 = d.sender.bytes) ∧
    (ToSenders (arrivals.map Jw.Arrival.datagram) (Jw.Server.init.run json arrivals) ↔
      ∀ a, arrivals.head? = some a → ¬ Jw.Answered json a.text) :=
  ⟨hk_toSenders_iff buffer clientAddr ds, jw_toSenders_iff json arrivals⟩

/-- The reply to a status request that arrives first does not go to its sender. -/
theorem first_status_request_misaddressed :
    ¬ ∀ (buffer clientAddr : Mem) (ds : List Datagram),
      ToSenders ds ((Hk.Server.init buffer clientAddr).run ds).2 := by
  intro hall
  have h := (hk_toSenders_iff (fun _ => 0) (fun _ => 0) [Hk.statusRequest]).mp (hall _ _ _)
    Hk.statusRequest rfl (by decide)
  exact absurd h (by decide)

end BazelPro
