import StreamSocket.L2Machine.NetworkInterface

/-!
# Runs of a NetworkInterface: the freshness of the cache

The calls of a `NetworkInterface` in any order, with ghosts beside it: a
millisecond clock, the last ARP claim for each address, the times at which it
was asked for, and the datagrams that were submitted for it but not sent.

A call that throws is no step. It is a `recv_frame` that flushes a datagram whose
version is not 4, or a `send_datagram` that writes one.

* `recvFrame_total`: if only datagrams of version 4 are submitted, every ARP
  message that is received is a step.
* `cache_fresh`: as long as no tick is so long that a 32-bit age could wrap,
  the cache holds for each address the last Ethernet address claimed for it,
  if that was less than 30 seconds ago, and nothing else; a datagram that is
  sent at once goes there; no address is cached and waited for.
-/
namespace StreamSocket.L3.ArpRun

open L1 L2

/-- `requests`, `late` and `unsent` begin anew when the address is learned. -/
structure State where
  n : NetworkInterface
  clock : Nat := 0
  /-- The last Ethernet address claimed, and when. -/
  claimed : UInt32 → Option (EthernetAddress × Nat) := fun _ => none
  /-- When ARP requests were enqueued, the last one first. -/
  requests : UInt32 → List Nat := fun _ => []
  /-- When a datagram was last submitted to a pending entry 5 seconds old. -/
  late : UInt32 → Option Nat := fun _ => none
  /-- Submitted while the address was not in the cache, and not sent yet. -/
  unsent : UInt32 → List IPv4Datagram := fun _ => []

inductive Label where
  | sendDatagram (dgram : IPv4Datagram) (nextHop : Address)
  | recvFrame (frame : EthernetFrame)
  | tick (ms : Nat)
  | maybeSend

/-! ## What a call enqueues -/

/-- The frames that a call appends to the queue. -/
def newFrames (n n' : NetworkInterface) : List EthernetFrame :=
  n'.maybeSendQueue.drop n.maybeSendQueue.length

/-- A frame that carries a datagram. -/
def isIPv4 (frame : EthernetFrame) : Bool := frame.header.type = EthernetHeader.TYPE_IPv4

/-- A frame that asks for the Ethernet address of `ip`, by what it holds. -/
def asksFor (ip : UInt32) (frame : EthernetFrame) : Bool :=
  if frame.header.type = EthernetHeader.TYPE_ARP then
    match (L1.parse (ARPMessage.parse {}) frame.payload).join with
    | none => false
    | some m => m.opcode = ARPMessage.OPCODE_REQUEST ∧ m.targetIpAddress = ip
  else false

/-- What is left of the unsent datagrams when `frames` went out to `mac`. -/
def stillUnsent (n : NetworkInterface) (mac : EthernetAddress) (frames : List EthernetFrame)
    (dgrams : List IPv4Datagram) : List IPv4Datagram :=
  frames.foldl (fun ds frame => ds.eraseP fun d => n.dgramFrame mac d = some frame) dgrams

/-! ## The machine -/

/-- The pending entry of an address that is not cached is 5 seconds old. -/
def Overdue (n : NetworkInterface) (ip : UInt32) : Bool :=
  n.ipAddrToEthernetAddr ip = none ∧
    ∃ e ∈ n.ipAddrToEthernetDatagramQueue ip, e.2 ≥ 5000

def submitted (s : State) (dgram : IPv4Datagram) (ip : UInt32) (n' : NetworkInterface) : State :=
  { s with
    n := n'
    requests := fun x =>
      List.replicate ((newFrames s.n n').countP (asksFor x)) s.clock ++ s.requests x
    late := if Overdue s.n ip then Function.update s.late ip (some s.clock) else s.late
    unsent := if s.n.ipAddrToEthernetAddr ip = none then
        Function.update s.unsent ip (s.unsent ip ++ [dgram])
      else s.unsent }

def learned (s : State) (recv : ARPMessage) (n' : NetworkInterface) : State :=
  let ip := recv.senderIpAddress
  { s with
    n := n'
    claimed := Function.update s.claimed ip (some (recv.senderEthernetAddress, s.clock))
    requests := Function.update s.requests ip []
    late := Function.update s.late ip none
    unsent := Function.update s.unsent ip
      (stillUnsent s.n recv.senderEthernetAddress (newFrames s.n n') (s.unsent ip)) }

def step (s : State) : Label → Option State
  | .sendDatagram dgram nextHop =>
    (s.n.sendDatagram dgram nextHop).map (submitted s dgram nextHop.ipv4Numeric)
  | .recvFrame frame =>
    (s.n.recvFrame frame).map fun (_, n') =>
      ((s.n.processed frame).map fun recv => learned s recv n').getD { s with n := n' }
  | .tick ms => some { s with n := s.n.tick ms, clock := s.clock + ms }
  | .maybeSend => some { s with n := s.n.maybeSend.2 }

/-- mirrors src/src/network_interface.cc:11-16 -/
def State.start (ethernetAddress : EthernetAddress) (ipAddress : Address) : State :=
  { n := { ethernetAddress := ethernetAddress, ipAddress := ipAddress } }

def lts : LTS State Label := LTS.ofFn (fun s => ∃ e i, s = .start e i) step

/-! ## What a step does -/

theorem newFrames_push {n n' : NetworkInterface} {frames : List EthernetFrame}
    (h : n'.maybeSendQueue = n.maybeSendQueue ++ frames) : newFrames n n' = frames := by
  unfold newFrames
  rw [h, List.drop_left]

@[simp] theorem newFrames_self (n : NetworkInterface) : newFrames n n = [] := by
  unfold newFrames
  rw [List.drop_length]

theorem step_sendDatagram {s s' : State} {dgram : IPv4Datagram} {nextHop : Address}
    (h : step s (.sendDatagram dgram nextHop) = some s') :
    ∃ n', s.n.Sends dgram nextHop.ipv4Numeric n' ∧
      s' = submitted s dgram nextHop.ipv4Numeric n' := by
  obtain ⟨n', hn, rfl⟩ := Option.map_eq_some_iff.mp h
  exact ⟨n', NetworkInterface.sendDatagram_cases hn, rfl⟩

theorem step_recvFrame {s s' : State} {frame : EthernetFrame}
    (h : step s (.recvFrame frame) = some s') :
    (s.n.processed frame = none ∧ s' = s) ∨
      ∃ recv n' frames reply, s.n.processed frame = some recv ∧
        s.n.Learns recv n' frames reply ∧ s' = learned s recv n' := by
  obtain ⟨⟨dgram, n'⟩, hn, rfl⟩ := Option.map_eq_some_iff.mp h
  rcases NetworkInterface.recvFrame_cases hn with ⟨hp, rfl⟩ | ⟨recv, frames, reply, hp, hl⟩
  · exact .inl ⟨hp, by simp only [hp, Option.map_none, Option.getD_none]⟩
  · exact .inr ⟨recv, n', frames, reply, hp, hl, by
      simp only [hp, Option.map_some, Option.getD_some]⟩

/-! ## Calls that do not throw -/

/-- Datagrams are submitted with version 4. -/
def Version4 (_ : State) (l : Label) (_ : State) : Prop :=
  match l with
  | .sendDatagram dgram _ => dgram.header.ver = 4
  | _ => True

/-- So do those that wait. -/
def WaitingVersion4 (s : State) : Prop := ∀ ip, ∀ d ∈ s.n.waiting ip, d.header.ver = 4

theorem WaitingVersion4.step {s s' : State} {l : Label} (h : WaitingVersion4 s)
    (hv : Version4 s l s') (hs : step s l = some s') : WaitingVersion4 s' := by
  cases l with
  | sendDatagram dgram nextHop =>
    obtain ⟨n', hn, rfl⟩ := step_sendDatagram hs
    cases hn with
    | ask _ _ =>
      intro ip d hd
      change d ∈ ((Function.update s.n.ipAddrToEthernetDatagramQueue _ _ ip).map Prod.fst).getD []
        at hd
      by_cases hip : ip = nextHop.ipv4Numeric
      · rw [hip, Function.update_self] at hd
        rw [List.mem_singleton.mp hd]
        exact hv
      · rw [Function.update_of_ne hip] at hd
        exact h ip d hd
    | _ => exact h
  | recvFrame frame =>
    rcases step_recvFrame hs with ⟨-, rfl⟩ | ⟨recv, n', frames, reply, -, hl, rfl⟩
    · exact h
    · intro ip d hd
      change d ∈ ((n'.ipAddrToEthernetDatagramQueue ip).map Prod.fst).getD [] at hd
      rw [hl.pending] at hd
      by_cases hip : ip = recv.senderIpAddress
      · rw [hip, Function.update_self] at hd
        cases hd
      · rw [Function.update_of_ne hip] at hd
        exact h ip d hd
  | tick ms =>
    cases hs
    intro ip d hd
    refine h ip d ?_
    change d ∈ (((s.n.ipAddrToEthernetDatagramQueue ip).map _).map Prod.fst).getD [] at hd
    rw [Option.map_map] at hd
    exact hd
  | maybeSend =>
    cases hs
    rw [WaitingVersion4, NetworkInterface.maybeSend_snd]
    exact h

/-- An ARP message is received, whatever waits for its sender. -/
theorem recvFrame_total {s : State} (hr : (lts.restrict Version4).Reachable s)
    {frame : EthernetFrame} {recv : ARPMessage} (hp : s.n.processed frame = some recv) :
    ∃ s', step s (.recvFrame frame) = some s' := by
  have hw : WaitingVersion4 s := by
    refine (LTS.Inductive.restrict (P := WaitingVersion4) (fun _ hi => ?_)
      fun _ _ _ h hc hs => h.step hc hs).reachable s hr
    obtain ⟨_, _, rfl⟩ := hi
    exact fun _ _ hd => nomatch hd
  obtain ⟨n', hn⟩ := NetworkInterface.recvArp_isSome (hw recv.senderIpAddress)
  unfold NetworkInterface.processed at hp
  split at hp
  · rename_i hframe
    have hparse := Option.join_eq_some_iff.mp hp
    have hrecv : s.n.recvFrame frame = some (none, n') := by
      unfold NetworkInterface.recvFrame
      rw [if_pos hframe.1, if_neg hframe.2, hparse]
      exact Option.map_eq_some_iff.mpr ⟨n', hn, rfl⟩
    exact ⟨_, Option.map_eq_some_iff.mpr ⟨_, hrecv, rfl⟩⟩
  · cases hp

/-! ## Ages and claims -/

/-- No tick is so long that the age of an entry, below 30000 before it, could
wrap. -/
def ShortTicks (_ : State) (l : Label) (_ : State) : Prop :=
  match l with
  | .tick ms => ms < 2 ^ 32 - 30000
  | _ => True

instance (s : State) (l : Label) (s' : State) : Decidable (ShortTicks s l s') :=
  match l with
  | .tick ms => inferInstanceAs (Decidable (ms < 2 ^ 32 - 30000))
  | .sendDatagram _ _ | .recvFrame _ | .maybeSend => inferInstanceAs (Decidable True)

/-- The cache entry that a claim leaves at time `clock`. -/
def entryOf (clock : Nat) (claim : EthernetAddress × Nat) : Option (EthernetAddress × UInt32) :=
  if clock < claim.2 + 30000 then some (claim.1, UInt32.ofNat (clock - claim.2)) else none

structure CacheInv (s : State) : Prop where
  past : ∀ x mac t, s.claimed x = some (mac, t) → t ≤ s.clock
  cached : ∀ x, s.n.ipAddrToEthernetAddr x = (s.claimed x).bind (entryOf s.clock)
  apart : ∀ x, s.n.ipAddrToEthernetAddr x ≠ none → s.n.ipAddrToEthernetDatagramQueue x = none

theorem cacheInv_start (e : EthernetAddress) (i : Address) : CacheInv (.start e i) where
  past := fun _ _ _ h => nomatch h
  cached := fun _ => rfl
  apart := fun _ _ => rfl

theorem entryOf_now (clock : Nat) (mac : EthernetAddress) :
    entryOf clock (mac, clock) = some (mac, 0) := by
  unfold entryOf
  rw [if_pos (show clock < clock + 30000 by omega), Nat.sub_self]
  rfl

/-- An entry ages by the tick, and expires with the claim. -/
theorem entryOf_tick {clock ms : Nat} {claim : EthernetAddress × Nat} (hp : claim.2 ≤ clock)
    (hms : ms < 2 ^ 32 - 30000) :
    (entryOf clock claim).bind (NetworkInterface.tickAddr ms) = entryOf (clock + ms) claim := by
  unfold entryOf
  by_cases h : clock < claim.2 + 30000
  · rw [if_pos h, Option.bind_some]
    unfold NetworkInterface.tickAddr
    have hsum : UInt32.ofNat (clock - claim.2) + UInt32.ofNat ms =
        UInt32.ofNat (clock + ms - claim.2) := by
      rw [← UInt32.ofNat_add]
      congr 1
      omega
    have hage : (UInt32.ofNat (clock + ms - claim.2)).toNat = clock + ms - claim.2 := by
      rw [UInt32.toNat_ofNat', Nat.mod_eq_of_lt (by omega)]
    simp only [hsum, ge_iff_le, UInt32.le_iff_toNat_le, hage,
      show (30000 : UInt32).toNat = 30000 from rfl]
    by_cases h' : clock + ms < claim.2 + 30000
    · rw [if_pos h', if_neg (by omega)]
    · rw [if_neg h', if_pos (by omega)]
  · rw [if_neg h, if_neg (by omega)]
    rfl

theorem CacheInv.submitted {s : State} (h : CacheInv s) {dgram : IPv4Datagram} {ip : UInt32}
    {n' : NetworkInterface} (hs : s.n.Sends dgram ip n') : CacheInv (submitted s dgram ip n') := by
  refine ⟨h.past, ?_, ?_⟩
  · cases hs <;> exact h.cached
  · cases hs with
    | ask hc hq =>
      intro x hx
      by_cases hxi : x = ip
      · subst hxi
        exact absurd hc hx
      · show Function.update s.n.ipAddrToEthernetDatagramQueue _ _ x = none
        rw [Function.update_of_ne hxi]
        exact h.apart x hx
    | _ => exact h.apart

theorem CacheInv.learned {s : State} (h : CacheInv s) {recv : ARPMessage} {n' : NetworkInterface}
    {frames reply : List EthernetFrame} (hl : s.n.Learns recv n' frames reply) :
    CacheInv (learned s recv n') := by
  refine ⟨fun x mac t hx => ?_, fun x => ?_, fun x hx => ?_⟩
  · change Function.update s.claimed _ _ x = _ at hx
    by_cases hxi : x = recv.senderIpAddress
    · rw [hxi, Function.update_self] at hx
      cases hx
      exact Nat.le_refl _
    · rw [Function.update_of_ne hxi] at hx
      exact h.past x mac t hx
  · show n'.ipAddrToEthernetAddr x = (Function.update s.claimed _ _ x).bind _
    rw [hl.addr]
    by_cases hxi : x = recv.senderIpAddress
    · rw [hxi, Function.update_self, Function.update_self, Option.bind_some]
      exact (entryOf_now _ _).symm
    · rw [Function.update_of_ne hxi, Function.update_of_ne hxi]
      exact h.cached x
  · change n'.ipAddrToEthernetAddr x ≠ none at hx
    show n'.ipAddrToEthernetDatagramQueue x = none
    rw [hl.addr] at hx
    rw [hl.pending]
    by_cases hxi : x = recv.senderIpAddress
    · rw [hxi, Function.update_self]
    · rw [Function.update_of_ne hxi] at hx ⊢
      exact h.apart x hx

theorem CacheInv.tick {s : State} (h : CacheInv s) {ms : Nat} (hms : ms < 2 ^ 32 - 30000) :
    CacheInv { s with n := s.n.tick ms, clock := s.clock + ms } := by
  have hcached : ∀ x, (s.n.tick ms).ipAddrToEthernetAddr x =
      (s.claimed x).bind (entryOf (s.clock + ms)) := by
    intro x
    show (s.n.ipAddrToEthernetAddr x).bind _ = _
    rw [h.cached x]
    cases hx : s.claimed x with
    | none => rfl
    | some claim =>
      rw [Option.bind_some, Option.bind_some]
      exact entryOf_tick (h.past x claim.1 claim.2 hx) hms
  refine ⟨fun x mac t hx => ?_, hcached, fun x hx => ?_⟩
  · have := h.past x mac t hx
    show t ≤ s.clock + ms
    omega
  · have : s.n.ipAddrToEthernetAddr x ≠ none := fun h0 => hx (by
      show (s.n.ipAddrToEthernetAddr x).bind _ = none
      rw [h0]
      rfl)
    show (s.n.ipAddrToEthernetDatagramQueue x).map _ = none
    rw [h.apart x this]
    rfl

theorem CacheInv.step {s s' : State} {l : Label} (h : CacheInv s) (hc : ShortTicks s l s')
    (hs : step s l = some s') : CacheInv s' := by
  cases l with
  | sendDatagram dgram nextHop =>
    obtain ⟨n', hn, rfl⟩ := step_sendDatagram hs
    exact h.submitted hn
  | recvFrame frame =>
    rcases step_recvFrame hs with ⟨-, rfl⟩ | ⟨recv, n', frames, reply, -, hl, rfl⟩
    · exact h
    · exact h.learned hl
  | tick ms =>
    cases hs
    exact h.tick hc
  | maybeSend =>
    cases hs
    rw [NetworkInterface.maybeSend_snd]
    exact ⟨h.past, h.cached, h.apart⟩

theorem cacheInv_reachable {s : State} (hr : (lts.restrict ShortTicks).Reachable s) : CacheInv s :=
  (LTS.Inductive.restrict (fun _ ⟨e, i, hi⟩ => hi ▸ cacheInv_start e i)
    (fun _ _ _ h hc hs => h.step hc hs)).reachable s hr

/-- The cache at an address, in terms of its claims. -/
theorem CacheInv.cached_iff {s : State} (h : CacheInv s) (x : UInt32) (mac : EthernetAddress) :
    (∃ age, s.n.ipAddrToEthernetAddr x = some (mac, age)) ↔
      ∃ t, s.claimed x = some (mac, t) ∧ s.clock < t + 30000 := by
  rw [h.cached x]
  cases s.claimed x with
  | none => simp
  | some claim =>
    rw [Option.bind_some]
    unfold entryOf
    by_cases hf : s.clock < claim.2 + 30000
    · rw [if_pos hf]
      constructor
      · rintro ⟨age, ha⟩
        cases ha
        exact ⟨_, rfl, hf⟩
      · rintro ⟨t, ht, -⟩
        cases ht
        exact ⟨_, rfl⟩
    · rw [if_neg hf]
      constructor
      · rintro ⟨age, ha⟩
        cases ha
      · rintro ⟨t, ht, hlt⟩
        cases ht
        exact absurd hlt hf

/-- **The cache is fresh.** An address is mapped to `mac` exactly when `mac`
was claimed for it last, less than 30 seconds ago; a datagram sent at once
goes to that `mac`; and an address in the cache has no pending entry. -/
theorem cache_fresh {s : State} (hr : (lts.restrict ShortTicks).Reachable s) :
    (∀ x mac, (∃ age, s.n.ipAddrToEthernetAddr x = some (mac, age)) ↔
      ∃ t, s.claimed x = some (mac, t) ∧ s.clock < t + 30000) ∧
    (∀ dgram nextHop s', step s (.sendDatagram dgram nextHop) = some s' →
      ∀ frame ∈ newFrames s.n s'.n, isIPv4 frame → ∃ t,
        s.claimed nextHop.ipv4Numeric = some (frame.header.dst, t) ∧ s.clock < t + 30000) ∧
    ∀ x, ¬ (s.n.ipAddrToEthernetAddr x ≠ none ∧
      s.n.ipAddrToEthernetDatagramQueue x ≠ none) := by
  have h := cacheInv_reachable hr
  refine ⟨h.cached_iff, ?_, fun x ⟨hx, hq⟩ => hq (h.apart x hx)⟩
  intro dgram nextHop s' hs frame hm hip
  obtain ⟨n', hn, rfl⟩ := step_sendDatagram hs
  change frame ∈ newFrames s.n n' at hm
  have hreq : ∀ ip, isIPv4 (s.n.requestFrame ip) = false := fun _ => rfl
  cases hn with
  | now mac age f hc hf =>
    rw [newFrames_push rfl, List.mem_singleton] at hm
    subst hm
    obtain ⟨payload, -, rfl⟩ := Option.map_eq_some_iff.mp hf
    exact (h.cached_iff _ _).mp ⟨age, hc⟩
  | wait => rw [newFrames_self] at hm; cases hm
  | again =>
    rw [newFrames_push rfl, List.mem_singleton] at hm
    rw [hm, hreq] at hip
    cases hip
  | ask =>
    rw [newFrames_push rfl, List.mem_singleton] at hm
    rw [hm, hreq] at hip
    cases hip

def shortStep (s : State) (l : Label) : Option State :=
  (step s l).filter fun s' => decide (ShortTicks s l s')

/-- An ARP reply from `ip` at `mac`. -/
def replyFrom (ip : UInt32) (mac : EthernetAddress) : EthernetFrame :=
  { header := { dst := ETHERNET_BROADCAST, src := mac, type := EthernetHeader.TYPE_ARP }
    payload := [(NetworkInterface.makeArp ARPMessage.OPCODE_REPLY mac ip {} 0).bytes] }

/-- 20 seconds after a reply, a datagram is sent to the address claimed. -/
theorem cache_fresh_reply : ∃ s s' t, (lts.restrict ShortTicks).Run (.start {} {})
    [.recvFrame (replyFrom 7 ⟨1, 2, 3, 4, 5, 6⟩), .tick 20000] s ∧
    step s (.sendDatagram {} ⟨7, 0⟩) = some s' ∧
    (newFrames s.n s'.n).map (·.header.dst) = [⟨1, 2, 3, 4, 5, 6⟩] ∧
    s.claimed 7 = some (⟨1, 2, 3, 4, 5, 6⟩, t) ∧ s.clock < t + 30000 := by
  have hx : ((LTS.exec shortStep (.start {} {}) [.recvFrame (replyFrom 7 ⟨1, 2, 3, 4, 5, 6⟩),
      .tick 20000]).bind fun s => (step s (.sendDatagram {} ⟨7, 0⟩)).map fun s' =>
        (newFrames s.n s'.n).map fun frame => (frame.header.dst, isIPv4 frame)) =
      some [(⟨1, 2, 3, 4, 5, 6⟩, true)] := by decide +kernel
  obtain ⟨s, hs, hx⟩ := Option.bind_eq_some_iff.mp hx
  obtain ⟨s', hs', hx⟩ := Option.map_eq_some_iff.mp hx
  obtain ⟨frame, hf, he⟩ := List.map_eq_singleton_iff.mp hx
  obtain ⟨hd, hip⟩ := Prod.mk.inj he
  have hrun := LTS.run_of_filter (M := lts.restrict ShortTicks) (fun _ _ _ h hc => ⟨h, hc⟩) hs
  obtain ⟨t, ht, hlt⟩ := (cache_fresh ⟨_, _, ⟨{}, {}, rfl⟩, hrun⟩).2.1 _ _ s' hs' frame
    (by rw [hf]; exact List.mem_singleton.mpr rfl) hip
  rw [hd] at ht
  exact ⟨s, s', t, hrun, hs', by rw [hf, List.map_singleton, hd], ht, hlt⟩

end StreamSocket.L3.ArpRun
