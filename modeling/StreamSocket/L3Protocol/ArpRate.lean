import StreamSocket.L3Protocol.ArpRun

/-!
# The rate of ARP requests

The age of a pending entry counts from the first request and is not reset by
the next one: from 5 seconds on, every datagram submitted for the address
enqueues a request of its own.

* `rate_limit_iff`: the requests for each address are 5 seconds apart in a run
  exactly when the datagrams submitted to overdue entries are.
* `rate_limit_broken`: two datagrams after 5 seconds, and two requests at the
  same time.
-/
namespace StreamSocket.L3.ArpRun

open L1 L2

/-! ## The requests among the frames -/

theorem asksFor_requestFrame (n : NetworkInterface) (ip x : UInt32) :
    asksFor x (n.requestFrame ip) = decide (ip = x) := by
  unfold asksFor
  rw [if_pos (show (n.requestFrame ip).header.type = EthernetHeader.TYPE_ARP from rfl),
    show (n.requestFrame ip).payload = [(n.arpRequest ip).bytes] from rfl,
    ARPMessage.parse_buffers (n.arpRequest_supported ip)]
  show decide (ARPMessage.OPCODE_REQUEST = ARPMessage.OPCODE_REQUEST ∧ ip = x) = _
  simp only [true_and]

theorem asksFor_dgramFrame {n : NetworkInterface} {mac : EthernetAddress} {dgram : IPv4Datagram}
    {frame : EthernetFrame} (h : n.dgramFrame mac dgram = some frame) (x : UInt32) :
    asksFor x frame = false := by
  obtain ⟨payload, -, rfl⟩ := Option.map_eq_some_iff.mp h
  rfl

theorem overdue_iff {n : NetworkInterface} {ip : UInt32} :
    Overdue n ip ↔ n.ipAddrToEthernetAddr ip = none ∧
      ∃ queue age, n.ipAddrToEthernetDatagramQueue ip = some (queue, age) ∧ age ≥ 5000 := by
  unfold Overdue
  rw [decide_eq_true_iff]
  refine and_congr_right fun _ => ⟨fun ⟨e, he, ha⟩ => ⟨e.1, e.2, he, ha⟩, ?_⟩
  rintro ⟨queue, age, hq, ha⟩
  exact ⟨(queue, age), hq, ha⟩

theorem not_overdue_of_known {n : NetworkInterface} {ip : UInt32} {e : EthernetAddress × UInt32}
    (hc : n.ipAddrToEthernetAddr ip = some e) : ¬ Overdue n ip := fun h => by
  rw [(overdue_iff.mp h).1] at hc
  cases hc

theorem not_overdue_of_idle {n : NetworkInterface} {ip : UInt32}
    (hq : n.ipAddrToEthernetDatagramQueue ip = none) : ¬ Overdue n ip := fun h => by
  obtain ⟨-, queue, age, hq', -⟩ := overdue_iff.mp h
  rw [hq] at hq'
  cases hq'

theorem not_overdue_of_young {n : NetworkInterface} {ip age : UInt32}
    {queue : List IPv4Datagram} (hq : n.ipAddrToEthernetDatagramQueue ip = some (queue, age))
    (ha : ¬ age ≥ 5000) : ¬ Overdue n ip := fun h => by
  obtain ⟨-, queue', age', hq', ha'⟩ := overdue_iff.mp h
  rw [hq] at hq'
  cases hq'
  exact ha ha'

/-- The requests of one call, with what was there before. -/
theorem submitted_requests {s : State} {dgram : IPv4Datagram} {ip : UInt32}
    {n' : NetworkInterface} (h : s.n.Sends dgram ip n') :
    (submitted s dgram ip n').requests =
      if s.n.ipAddrToEthernetAddr ip = none ∧
          (s.n.ipAddrToEthernetDatagramQueue ip = none ∨ Overdue s.n ip)
        then Function.update s.requests ip (s.clock :: s.requests ip) else s.requests := by
  have hreq : ∀ n', newFrames s.n n' = [s.n.requestFrame ip] →
      (submitted s dgram ip n').requests =
        Function.update s.requests ip (s.clock :: s.requests ip) := by
    intro n' hn
    funext x
    show List.replicate ((newFrames s.n n').countP (asksFor x)) s.clock ++ s.requests x = _
    rw [hn, List.countP_singleton, asksFor_requestFrame]
    by_cases hx : ip = x
    · subst hx
      rw [decide_eq_true rfl, Function.update_self]
      rfl
    · rw [decide_eq_false hx, Function.update_of_ne (Ne.symm hx)]
      rfl
  have hnone : ∀ n', (∀ frame ∈ newFrames s.n n', ∀ x, asksFor x frame = false) →
      (submitted s dgram ip n').requests = s.requests := by
    intro n' hn
    funext x
    show List.replicate ((newFrames s.n n').countP (asksFor x)) s.clock ++ s.requests x = _
    rw [List.countP_eq_zero.mpr fun f hf => by rw [hn f hf x]; decide]
    rfl
  cases h with
  | now mac age frame hc hf =>
    rw [if_neg fun h0 => by rw [hc] at h0; cases h0.1]
    refine hnone _ fun f hm x => ?_
    rw [newFrames_push rfl, List.mem_singleton] at hm
    rw [hm]
    exact asksFor_dgramFrame hf x
  | wait queue age hc hq ha =>
    rw [if_neg]
    · exact hnone _ fun f hm => by rw [newFrames_self] at hm; cases hm
    · rintro ⟨-, h0 | h0⟩
      · rw [hq] at h0; cases h0
      · exact not_overdue_of_young hq ha h0
  | again queue age hc hq ha =>
    rw [if_pos ⟨hc, .inr (overdue_iff.mpr ⟨hc, queue, age, hq, ha⟩)⟩]
    exact hreq _ (newFrames_push rfl)
  | ask hc hq =>
    rw [if_pos ⟨hc, .inl hq⟩]
    exact hreq _ (newFrames_push rfl)

/-! ## The law and the condition -/

/-- Any two requests for an address that was not learned in between are 5
seconds apart. -/
def RateLimit (s : State) : Prop :=
  ∀ x, (s.requests x).Pairwise fun later earlier => earlier + 5000 ≤ later

/-- A datagram submitted to an entry that is overdue comes 5 seconds after
the last such datagram, if there was one. -/
def LateApart (s : State) (l : Label) (_ : State) : Prop :=
  match l with
  | .sendDatagram _ nextHop => Overdue s.n nextHop.ipv4Numeric →
      ∀ t ∈ s.late nextHop.ipv4Numeric, t + 5000 ≤ s.clock
  | _ => True

instance (s : State) (l : Label) (s' : State) : Decidable (LateApart s l s') :=
  match l with
  | .sendDatagram _ nextHop => inferInstanceAs (Decidable (Overdue s.n nextHop.ipv4Numeric →
      ∀ t ∈ s.late nextHop.ipv4Numeric, t + 5000 ≤ s.clock))
  | .tick _ | .recvFrame _ | .maybeSend => inferInstanceAs (Decidable True)

/-- What is known of an address: the age of its entry counts from the first
request, and the last request is the last late datagram's. -/
structure Asked (s : State) (x : UInt32) : Prop where
  idle : s.n.ipAddrToEthernetDatagramQueue x = none → s.requests x = [] ∧ s.late x = none
  pending : ∀ queue age, s.n.ipAddrToEthernetDatagramQueue x = some (queue, age) →
    ∃ t₀ later, s.requests x = later ++ [t₀] ∧ t₀ ≤ s.clock ∧
      age.toNat = (s.clock - t₀) % 2 ^ 32 ∧ later.head? = s.late x

theorem Asked.congr {s s' : State} {x : UInt32} (h : Asked s x)
    (hq : s'.n.ipAddrToEthernetDatagramQueue x = s.n.ipAddrToEthernetDatagramQueue x)
    (hr : s'.requests x = s.requests x) (hl : s'.late x = s.late x) (hc : s'.clock = s.clock) :
    Asked s' x := by
  refine ⟨fun hn => ?_, fun queue age hs => ?_⟩
  · rw [hr, hl]
    exact h.idle (hq ▸ hn)
  · rw [hr, hl, hc]
    exact h.pending queue age (hq ▸ hs)

theorem Asked.submitted {s : State} (h : ∀ x, Asked s x) {dgram : IPv4Datagram} {ip : UInt32}
    {n' : NetworkInterface} (hs : s.n.Sends dgram ip n') (x : UInt32) :
    Asked (submitted s dgram ip n') x := by
  have hreq := submitted_requests hs
  have hlate : (ArpRun.submitted s dgram ip n').late =
    if Overdue s.n ip then Function.update s.late ip (some s.clock) else s.late := rfl
  cases hs with
  | now mac age frame hc hf =>
    rw [if_neg fun h0 => by rw [hc] at h0; cases h0.1] at hreq
    rw [if_neg (not_overdue_of_known hc)] at hlate
    exact (h x).congr rfl (congrFun hreq x) (congrFun hlate x) rfl
  | wait queue age hc hq ha =>
    have hover := not_overdue_of_young hq ha
    rw [if_neg fun h0 => h0.2.elim (fun h1 => by rw [hq] at h1; cases h1) hover] at hreq
    rw [if_neg hover] at hlate
    exact (h x).congr rfl (congrFun hreq x) (congrFun hlate x) rfl
  | again queue age hc hq ha =>
    have hover : Overdue s.n ip := overdue_iff.mpr ⟨hc, queue, age, hq, ha⟩
    rw [if_pos ⟨hc, .inr hover⟩] at hreq
    rw [if_pos hover] at hlate
    by_cases hx : x = ip
    · subst hx
      refine ⟨fun h0 => ?_, fun queue' age' h0 => ?_⟩
      · change s.n.ipAddrToEthernetDatagramQueue x = _ at h0
        rw [hq] at h0
        cases h0
      · obtain ⟨t₀, later, e1, e2, e3, -⟩ := (h x).pending queue' age' h0
        refine ⟨t₀, s.clock :: later, ?_, e2, e3, ?_⟩
        · rw [hreq, Function.update_self, e1]
          rfl
        · rw [hlate, Function.update_self]
          rfl
    · exact (h x).congr rfl (by rw [hreq, Function.update_of_ne hx])
        (by rw [hlate, Function.update_of_ne hx]) rfl
  | ask hc hq =>
    rw [if_pos ⟨hc, .inl hq⟩] at hreq
    rw [if_neg (not_overdue_of_idle hq)] at hlate
    by_cases hx : x = ip
    · subst hx
      obtain ⟨hr0, hl0⟩ := (h x).idle hq
      refine ⟨fun h0 => ?_, fun queue' age' h0 => ?_⟩
      · change Function.update s.n.ipAddrToEthernetDatagramQueue x _ x = _ at h0
        rw [Function.update_self] at h0
        cases h0
      · change Function.update s.n.ipAddrToEthernetDatagramQueue x _ x = _ at h0
        rw [Function.update_self] at h0
        cases h0
        refine ⟨s.clock, [], ?_, Nat.le_refl _, ?_, ?_⟩
        · rw [hreq, Function.update_self, hr0]
          rfl
        · show 0 = (s.clock - s.clock) % 2 ^ 32
          rw [Nat.sub_self, Nat.zero_mod]
        · rw [hlate, hl0]
          rfl
    · exact (h x).congr (Function.update_of_ne hx ..) (by rw [hreq, Function.update_of_ne hx])
        (congrFun hlate x) rfl

theorem Asked.learned {s : State} (h : ∀ x, Asked s x) {recv : ARPMessage} {n' : NetworkInterface}
    {frames reply : List EthernetFrame} (hl : s.n.Learns recv n' frames reply) (x : UInt32) :
    Asked (learned s recv n') x := by
  have hq : (ArpRun.learned s recv n').n.ipAddrToEthernetDatagramQueue =
    Function.update s.n.ipAddrToEthernetDatagramQueue recv.senderIpAddress none := hl.pending
  by_cases hx : x = recv.senderIpAddress
  · refine ⟨fun _ => ⟨?_, ?_⟩, fun queue age h0 => ?_⟩
    · show Function.update s.requests _ [] x = []
      rw [hx, Function.update_self]
    · show Function.update s.late _ none x = none
      rw [hx, Function.update_self]
    · rw [hq, hx, Function.update_self] at h0
      cases h0
  · exact (h x).congr (by rw [hq, Function.update_of_ne hx]) (Function.update_of_ne hx ..)
      (Function.update_of_ne hx ..) rfl

theorem Asked.tick {s : State} {x : UInt32} (h : Asked s x) (ms : Nat) :
    Asked { s with n := s.n.tick ms, clock := s.clock + ms } x := by
  have hq : (s.n.tick ms).ipAddrToEthernetDatagramQueue x =
      (s.n.ipAddrToEthernetDatagramQueue x).map fun e => (e.1, e.2 + UInt32.ofNat ms) := rfl
  refine ⟨fun h0 => h.idle (Option.map_eq_none_iff.mp (hq ▸ h0)), fun queue age h0 => ?_⟩
  obtain ⟨⟨queue', age'⟩, h1, he⟩ := Option.map_eq_some_iff.mp (hq ▸ h0)
  obtain ⟨t₀, later, e1, e2, e3, e4⟩ := h.pending queue' age' h1
  cases he
  refine ⟨t₀, later, e1, Nat.le_trans e2 (Nat.le_add_right ..), ?_, e4⟩
  show (age' + UInt32.ofNat ms).toNat = (s.clock + ms - t₀) % 2 ^ 32
  rw [UInt32.toNat_add, e3, UInt32.toNat_ofNat', ← Nat.add_mod]
  congr 1
  omega

theorem Asked.step {s s' : State} {l : Label} (h : ∀ x, Asked s x) (hs : step s l = some s') :
    ∀ x, Asked s' x := by
  cases l with
  | sendDatagram dgram nextHop =>
    obtain ⟨n', hn, rfl⟩ := step_sendDatagram hs
    exact Asked.submitted h hn
  | recvFrame frame =>
    rcases step_recvFrame hs with ⟨-, rfl⟩ | ⟨recv, n', frames, reply, -, hl, rfl⟩
    · exact h
    · exact Asked.learned h hl
  | tick ms =>
    cases hs
    exact fun x => (h x).tick ms
  | maybeSend =>
    cases hs
    intro x
    refine (h x).congr ?_ rfl rfl rfl
    show s.n.maybeSend.2.ipAddrToEthernetDatagramQueue x = _
    rw [NetworkInterface.maybeSend_snd]

/-! ## Exactly when the limit holds -/

/-- One more request keeps the distance from all if it keeps it from the last
of the late ones. -/
theorem pairwise_cons_iff {clock t₀ : Nat} {later : List Nat} (h₀ : t₀ + 5000 ≤ clock)
    (hp : (later ++ [t₀]).Pairwise fun l e => e + 5000 ≤ l) :
    ((clock :: (later ++ [t₀])).Pairwise fun l e => e + 5000 ≤ l) ↔
      ∀ t ∈ later.head?, t + 5000 ≤ clock := by
  rw [List.pairwise_cons, and_iff_left hp]
  cases later with
  | nil => simpa using h₀
  | cons t later =>
    rw [List.cons_append, List.pairwise_cons] at hp
    simp only [List.cons_append, List.forall_mem_cons, List.head?_cons, Option.mem_def,
      Option.some.injEq, forall_eq']
    refine and_iff_left_of_imp fun ht r hr => ?_
    have := hp.1 r hr
    omega

theorem rateLimit_step_iff {s s' : State} {l : Label} (h : ∀ x, Asked s x) (hr : RateLimit s)
    (hs : step s l = some s') : LateApart s l s' ↔ RateLimit s' := by
  cases l with
  | sendDatagram dgram nextHop =>
    obtain ⟨n', hn, rfl⟩ := step_sendDatagram hs
    have hreq := submitted_requests hn
    unfold LateApart RateLimit
    rw [hreq]
    by_cases hover : Overdue s.n nextHop.ipv4Numeric
    · obtain ⟨hc, queue, age, hq, ha⟩ := overdue_iff.mp hover
      obtain ⟨t₀, later, e1, e2, e3, e4⟩ := (h _).pending queue age hq
      have hage : t₀ + 5000 ≤ s.clock := by
        have h1 : (5000 : UInt32).toNat ≤ age.toNat := ha
        have h2 := Nat.mod_le (s.clock - t₀) (2 ^ 32)
        rw [show (5000 : UInt32).toNat = 5000 from rfl] at h1
        omega
      have hp := hr nextHop.ipv4Numeric
      rw [e1] at hp
      have hiff := pairwise_cons_iff hage hp
      rw [if_pos ⟨hc, .inr hover⟩]
      simp only [hover, forall_const, ← e4]
      rw [← hiff]
      refine ⟨fun hcons x => ?_, fun hall => ?_⟩
      · by_cases hx : x = nextHop.ipv4Numeric
        · rw [hx, Function.update_self, e1]
          exact hcons
        · rw [Function.update_of_ne hx]
          exact hr x
      · have := hall nextHop.ipv4Numeric
        rwa [Function.update_self, e1] at this
    · refine iff_of_true (fun h0 => absurd h0 hover) fun x => ?_
      split
      · next hask =>
        by_cases hx : x = nextHop.ipv4Numeric
        · have hq := hask.2.resolve_right hover
          rw [hx, Function.update_self, ((h _).idle hq).1]
          exact List.pairwise_singleton ..
        · rw [Function.update_of_ne hx]
          exact hr x
      · exact hr x
  | recvFrame frame =>
    refine iff_of_true trivial ?_
    rcases step_recvFrame hs with ⟨-, rfl⟩ | ⟨recv, n', frames, reply, -, hl, rfl⟩
    · exact hr
    · intro x
      show (Function.update s.requests recv.senderIpAddress [] x).Pairwise _
      by_cases hx : x = recv.senderIpAddress
      · rw [hx, Function.update_self]
        exact .nil
      · rw [Function.update_of_ne hx]
        exact hr x
  | tick ms =>
    cases hs
    exact iff_of_true trivial hr
  | maybeSend =>
    cases hs
    exact iff_of_true trivial hr

/-- **When the rate is limited.** All steps of a run leave the requests for
each address 5 seconds apart exactly when in all of them the datagrams
submitted to overdue entries are. -/
theorem rate_limit_iff (s₀ : State) (h0 : lts.init s₀) (ls : List Label) (s : State) :
    (lts.restrict LateApart).Run s₀ ls s ↔
      (lts.restrict fun _ _ s' => RateLimit s').Run s₀ ls s := by
  refine LTS.run_restrict_iff (M := lts) (I := fun s => (∀ x, Asked s x) ∧ RateLimit s)
    (fun s l s' h hs hc => ⟨Asked.step h.1 hs, (rateLimit_step_iff h.1 h.2 hs).mp hc⟩)
    (fun s l s' h hs => rateLimit_step_iff h.1 h.2 hs) ?_
  obtain ⟨e, i, rfl⟩ := h0
  exact ⟨fun x => ⟨fun _ => ⟨rfl, rfl⟩, fun _ _ h => nomatch h⟩, fun x => .nil⟩

def lateStep (s : State) (l : Label) : Option State :=
  (step s l).filter fun s' => decide (LateApart s l s')

/-- Three requests, 5 seconds apart. -/
theorem rate_limit_iff_run : ∃ s, (lts.restrict fun _ _ s' => RateLimit s').Run (.start {} {})
    [.sendDatagram {} ⟨7, 0⟩, .tick 5000, .sendDatagram {} ⟨7, 0⟩, .tick 4999, .tick 1,
      .sendDatagram {} ⟨7, 0⟩] s := by
  obtain ⟨s, hs⟩ := Option.isSome_iff_exists.mp (show (LTS.exec lateStep (.start {} {})
    [.sendDatagram {} ⟨7, 0⟩, .tick 5000, .sendDatagram {} ⟨7, 0⟩, .tick 4999, .tick 1,
      .sendDatagram {} ⟨7, 0⟩]).isSome = true by decide +kernel)
  exact ⟨s, (rate_limit_iff _ ⟨{}, {}, rfl⟩ _ s).mp
    (LTS.run_of_filter (M := lts.restrict LateApart) (fun _ _ _ h hc => ⟨h, hc⟩) hs)⟩

/-- Two datagrams at 5 seconds, and two requests at once. -/
theorem rate_limit_broken : ∃ s, lts.Run (.start {} {}) [.sendDatagram {} ⟨7, 0⟩, .tick 5000,
    .sendDatagram {} ⟨7, 0⟩, .sendDatagram {} ⟨7, 0⟩] s ∧
    s.requests 7 = [5000, 5000, 0] ∧ ¬ RateLimit s := by
  have hx : (LTS.exec step (.start {} {}) [.sendDatagram {} ⟨7, 0⟩, .tick 5000,
      .sendDatagram {} ⟨7, 0⟩, .sendDatagram {} ⟨7, 0⟩]).map (fun s => s.requests 7) =
      some [5000, 5000, 0] := by decide +kernel
  obtain ⟨s, hs, hr⟩ := Option.map_eq_some_iff.mp hx
  refine ⟨s, LTS.run_of_exec hs, hr, fun h => ?_⟩
  have := h 7
  rw [hr] at this
  exact absurd this (by decide)

end StreamSocket.L3.ArpRun
