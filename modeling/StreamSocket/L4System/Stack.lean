import StreamSocket.L4System.Internet
import StreamSocket.L4System.Wire

/-!
# TCP over IP over Ethernet, across routers

Two hosts, each a peer behind a `TCPOverIPv4OverEthernetAdapter`, are nodes of an
internet of any shape. All the rest of it (routers, other hosts and what they
send, caches that expire, frames that are lost, repeated or late) is in between.

The other nodes may send what they like, but not in the name of the two hosts;
and while an adapter listens, the first connection that it takes is the one of
the other host.

* `stack_refines`: what the hosts then do is a run of `Wire`, so the two streams
  are carried as `Network.both_ways_safe` says.
-/
namespace StreamSocket.L4.Stack

open L1 L2 L3 Link
open L3.PeerPair (Side ofApp)
open Internet (Plan Submission)

variable {ν σ : Type}

/-- The interface of a host is that of its node in `net`. -/
structure State (ν σ : Type) where
  peer : Side → PeerRun.State
  got : Side → Bytes
  base : Side → TCPOverIPv4Adapter
  net : Internet.State (Side ⊕ ν) σ

/-- `receive y j` brings to `y` the frame that was sent `j`-th on its link. -/
inductive Label (ν : Type) where
  | app (y : Side) (l : PeerRun.Label)
  | send (y : Side)
  | receive (y : Side) (j : Nat)
  | tick (y : Side) (ms : Nat)
  | other (l : Internet.Label ν)
  deriving DecidableEq, Repr

/-- What another node does. -/
def lift : Internet.Label ν → Internet.Label (Side ⊕ ν)
  | .submit v k d nextHop => .submit (.inr v) k d nextHop
  | .release v k => .release (.inr v) k
  | .deliver v k i => .deliver (.inr v) k i
  | .route v fuel => .route (.inr v) fuel
  | .take v k => .take (.inr v) k
  | .tick v k ms => .tick (.inr v) k ms

def State.setPeer (s : State ν σ) (y : Side) (q : PeerRun.State) : State ν σ :=
  { s with peer := Function.update s.peer y q }

def State.interface (s : State ν σ) (y : Side) : Option AsyncNetworkInterface :=
  (s.net.node (.inl y)).interfaces[0]?

/-- The packet that a host sends is under way. -/
def State.declare (s : State ν σ) (y : Side) (d : IPv4Datagram) (nextHop : Address) :
    State ν σ :=
  { s with net := { s.net with submitted := s.net.submitted ++
      [{ node := .inl y, interfaceNum := 0, packet := packet d
         nextHop := nextHop.ipv4Numeric }] } }

variable [DecidableEq ν] [DecidableEq σ]

/-- A host whose adapter has written frames. -/
def State.put (P : Plan (Side ⊕ ν) σ) (s : State ν σ) (y : Side) (i : AsyncNetworkInterface)
    (written : List Bytes) (a : TCPOverIPv4OverEthernetAdapter) : State ν σ :=
  { s with
    base := Function.update s.base y a.base
    net := { s.net.setNode (.inl y)
        (Internet.set (s.net.node (.inl y)) 0 { i with base := a.interface }) with
      air := Function.update s.net.air (P.link (.inl y) 0)
        (s.net.air (P.link (.inl y) 0) ++ written) } }

/-- `hop y` is the router, or the other host, that `y` sends everything to. -/
def step (P : Plan (Side ⊕ ν) σ) (hop : Side → Address) (s : State ν σ) :
    Label ν → Option (State ν σ)
  | .app y l =>
    if ofApp l then
      (PeerRun.step (s.peer y) l).map fun q =>
        { s.setPeer y q with
          got := Function.update s.got y (s.got y ++ Network.taken (s.peer y).peer q.peer) }
    else none
  | .send y =>
    (PeerRun.step (s.peer y) .maybeSend).bind fun q =>
      match q.returned.getD none with
      | none => some (s.setPeer y q)
      | some seg =>
        (s.interface y).bind fun i =>
          ((s.base y).wrapTcpInIp seg).bind fun (d, _) =>
            (TCPOverIPv4OverEthernetAdapter.write
              { base := s.base y, interface := i.base, nextHop := hop y } seg).map
                fun (written, a) => ((s.declare y d (hop y)).put P y i written a).setPeer y q
  | .receive y j =>
    (s.interface y).bind fun i =>
      (s.net.air (P.link (.inl y) 0))[j]?.bind fun bytes =>
        (TCPOverIPv4OverEthernetAdapter.read
          { base := s.base y, interface := i.base, nextHop := hop y } bytes).bind
            fun (seg, written, a) =>
              match seg with
              | none => some (s.put P y i written a)
              | some seg => (PeerRun.step (s.peer y) (.receive seg)).map fun q =>
                  (s.put P y i written a).setPeer y q
  | .tick y ms =>
    (s.interface y).bind fun i =>
      (TCPOverIPv4OverEthernetAdapter.tick
        { base := s.base y, interface := i.base, nextHop := hop y } ms).map
          fun (written, a) => s.put P y i written a
  | .other l => (Internet.step P s.net (lift l)).map fun net => { s with net := net }

omit [DecidableEq ν] [DecidableEq σ] in
def start (P : Plan (Side ⊕ ν) σ) (cfg : Side → TCPConfig) (isn : Side → Wrap32)
    (base : Side → TCPOverIPv4Adapter) : State ν σ :=
  { peer := fun y => .start (cfg y) (isn y), got := fun _ => [], base := base
    net := Internet.start P }

def machine (P : Plan (Side ⊕ ν) σ) (hop : Side → Address) : LTS (State ν σ) (Label ν) :=
  LTS.ofFn (fun s => ∃ cfg isn base, (∀ y, (cfg y).sendCapacity < 2 ^ 64 ∧
    (cfg y).recvCapacity < 2 ^ 63) ∧ Wire.Wired base ∧ s = start P cfg isn base) (step P hop)

/-- Neither of the two hosts, by its source address. -/
def Elsewhere (s : State ν σ) (h : IPv4Header) : Prop :=
  h.src ≠ (s.base .left).source.ipv4Numeric ∧ h.src ≠ (s.base .left).destination.ipv4Numeric

/-- Fewer than `2^31` bytes in each direction, and who listens does not push; no
other node sends in the name of a host, and who listens is called by the other
host first. -/
structure Undisturbed (s : State ν σ) (l : Label ν) (s' : State ν σ) : Prop where
  short : ∀ y, (s'.peer y).written.length < 2 ^ 31
  passive : ∀ y, l = .app y .push → (s.base y).listening = false
  foreign : ∀ v k d nextHop, l = .other (.submit v k d nextHop) →
    Plain (packet d) ∧ Elsewhere s d.header
  opened : ∀ y, (s.base y).listening = true → (s'.base y).listening = false →
    (s'.base y).destination.ipv4Numeric = (s.base y.other).source.ipv4Numeric

/-! ## What an adapter writes and reads -/

/-- The datagram that carries a segment is plain, and its bytes are those that
would be written to a TUN device. -/
theorem wrap_plain {a : TCPOverIPv4Adapter} {seg : TCPSegment}
    (hp : seg.senderMessage.payload.length ≤ maxPayloadSize) :
    ∃ d, a.wrapTcpInIp seg = some (d, a.wrapped seg) ∧ Plain (packet d) ∧
      a.write seg = some ((packet d).header.bytes ++ (packet d).bytes) := by
  obtain ⟨h, hc, ⟨c, hh⟩, hwrap⟩ := a.wrap_eq seg
  obtain ⟨h', hc', -, hwrite⟩ := a.write_eq seg
  rw [hc, Option.some.injEq] at hc'
  subst hc'
  obtain ⟨hown, hver⟩ := IPv4Header.computeChecksum_of_own (h := a.wrapHeader seg) rfl hc
  have hflat : (a.wrapped seg).buffers.flatten = (a.wrapped seg).bytes :=
    TCPSegment.buffers_flatten _
  obtain ⟨k, hk⟩ := a.wrapped_eq seg
  refine ⟨_, hwrap, ⟨⟨hver, ?_, ?_, ?_, hown⟩, ?_, ?_⟩, ?_⟩
  · show 5 ≤ h.hlen
    rw [hh]
    exact UInt8.le_refl 5
  · show h.hlen &&& 0x0f = h.hlen
    rw [hh]
    show (5 : UInt8) &&& 0x0f = 5
    decide
  · show h.offset &&& 0x1fff = h.offset
    rw [hh]
    show (0 : UInt16) &&& 0x1fff = 0
    decide
  · show h.hlen = 5
    rw [hh]
    rfl
  · show 20 + (a.wrapped seg).buffers.flatten.length ≤ _
    rw [hflat, TCPSegment.bytes_length, hk]
    have hsize : maxPayloadSize = 1000 := rfl
    have hread : FileDescriptor.kReadBufferSize = 16384 := rfl
    show 20 + (20 + seg.senderMessage.payload.length) ≤ _
    omega
  · rw [hwrite]
    unfold packet
    rw [hflat]

/-- The bytes of a plain packet, read from a TUN device. -/
theorem read_plain (b : TCPOverIPv4Adapter) {o : Packet} (hp : Plain o) :
    b.read (o.header.bytes ++ o.bytes) =
      b.unwrapTcpInIp { header := o.header, payload := leftOver [] [o.bytes] } := by
  have hb := IPv4Datagram.buffers_spaced (d := { header := o.header, payload := [o.bytes] })
    hp.canonical.ver
  have hparse := IPv4Datagram.parse_cut (d := { header := o.header, payload := [o.bytes] })
    hp.canonical hp.hlen hb
  rw [List.flatten_cons, Serializer.spaced_flatten, List.flatten_singleton] at hparse
  have hshort := hp.short
  unfold TCPOverIPv4Adapter.read TCPOverIPv4Adapter.unwrapBuffers
  rw [TCPOverIPv4Adapter.readBuffers_short, hparse]
  · rfl
  · rw [List.length_append, IPv4Header.bytes_length]
    omega

/-- Routers change nothing that `unwrap_tcp_in_ip` looks at. -/
theorem unwrap_travelled (b : TCPOverIPv4Adapter) {o : Packet} {n : Nat} {d : IPv4Datagram}
    (ho : Plain o) (ht : Internet.Travelled o n (packet d)) (hpay : ∃ bytes,
      d.payload = leftOver [] [bytes]) :
    b.unwrapTcpInIp d = b.read (o.header.bytes ++ o.bytes) := by
  obtain ⟨ttl, cksum, hh⟩ := ht.header
  obtain ⟨bytes, hpay⟩ := hpay
  have hbytes := ht.bytes
  unfold packet at hh hbytes
  dsimp only at hh hbytes
  rw [hpay, leftOver_flatten, List.nil_append, List.flatten_singleton] at hbytes
  subst hbytes
  rw [read_plain b ho]
  cases d
  subst hh
  subst hpay
  rfl

/-! ## What an operation does to the internet -/

variable {P : Plan (Side ⊕ ν) σ} {hop : Side → Address}

variable (hop) in
/-- A segment is wrapped, and goes out or waits for an address. -/
theorem writes {s : State ν σ} (h : Internet.Inv P s.net) {y : Side} {i : AsyncNetworkInterface}
    (hi : s.interface y = some i) {seg : TCPSegment}
    (hp : seg.senderMessage.payload.length ≤ maxPayloadSize) :
    ∃ d written a, (s.base y).wrapTcpInIp seg = some (d, (s.base y).wrapped seg) ∧
      TCPOverIPv4OverEthernetAdapter.write
        { base := s.base y, interface := i.base, nextHop := hop y } seg = some (written, a) ∧
      a.base = s.base y ∧ Internet.Inv P ((s.declare y d (hop y)).put P y i written a).net ∧
      (s.base y).write seg = some ((packet d).header.bytes ++ (packet d).bytes) := by
  obtain ⟨d, hwrap, hplain, hbytes⟩ := wrap_plain (a := s.base y) hp
  have hdecl := h.declare
    { node := .inl y, interfaceNum := 0, packet := packet d, nextHop := (hop y).ipv4Numeric } hplain
  have hask : Internet.Asked P (s.net.submitted ++ [{ node := .inl y, interfaceNum := 0
                                                      packet := packet d
                                                      nextHop := (hop y).ipv4Numeric }])
      (P.link (.inl y) 0) (packet d) (hop y).ipv4Numeric :=
    ⟨_, 0, .submitted (Sum.inl y) 0 _ (List.mem_append_right _ List.mem_cons_self)⟩
  obtain ⟨n, h1, h2, h3, h4⟩ := ((hdecl.node (Sum.inl y)).truthful 0 i hi).sendDatagram hplain hask
  refine ⟨d, n.maybeSendQueue.map fun frame : EthernetFrame => frame.buffers.flatten,
    { base := s.base y, interface := { n with maybeSendQueue := [] }, nextHop := hop y },
    hwrap, ?_, rfl, hdecl.exchange hi h2 h3 h4, hbytes⟩
  unfold TCPOverIPv4OverEthernetAdapter.write
  rw [hwrap, Option.bind_some]
  dsimp only
  rw [h1, Option.bind_some, TCPOverIPv4OverEthernetAdapter.sendAll_eq, Option.map_some]

/-- A packet of the internet that `unwrap_tcp_in_ip` gets to see. -/
def Unwraps (s : State ν σ) (y : Side) (seg : Option TCPSegment) (b : TCPOverIPv4Adapter) :
    Prop :=
  ∃ sub ∈ s.net.submitted, ∃ n d, Internet.Travelled sub.packet n (packet d) ∧
    (∃ bytes, d.payload = leftOver [] [bytes]) ∧ (s.base y).unwrapTcpInIp d = some (seg, b)

/-- A frame of the link is received, and what it carries is unwrapped, if anything. -/
theorem reads {s : State ν σ} (h : Internet.Inv P s.net) (hP : P.Sound) {y : Side}
    {i : AsyncNetworkInterface} (hi : s.interface y = some i) {bytes : Bytes}
    (hb : bytes ∈ s.net.air (P.link (.inl y) 0)) {seg : Option TCPSegment}
    {written : List Bytes} {a : TCPOverIPv4OverEthernetAdapter}
    (hr : TCPOverIPv4OverEthernetAdapter.read
      { base := s.base y, interface := i.base, nextHop := hop y } bytes =
        some (seg, written, a)) :
    Internet.Inv P (s.put P y i written a).net ∧
      ((seg = none ∧ a.base = s.base y) ∨ Unwraps s y seg a.base) := by
  obtain ⟨frame, rfl, hg⟩ := h.air _ _ hb
  obtain ⟨r, n, hrecv, ht, hmac, hip, hup⟩ :=
    ((h.node (Sum.inl y)).truthful 0 i hi).recvFrame (fun ip => hP.cast) hg
  have hinv := h.exchange hi ht hmac hip
  unfold TCPOverIPv4OverEthernetAdapter.read at hr
  rw [Internet.genuine_reads hg, Option.bind_some] at hr
  dsimp only at hr
  rw [hrecv, Option.bind_some] at hr
  dsimp only at hr
  rw [TCPOverIPv4OverEthernetAdapter.sendAll_eq, Option.bind_some] at hr
  cases r with
  | none =>
    cases hr
    exact ⟨hinv, .inl ⟨rfl, rfl⟩⟩
  | some d =>
    obtain ⟨⟨seg', b⟩, hun, hr⟩ := Option.map_eq_some_iff.mp hr
    cases hr
    obtain ⟨-, -, hpay, ip, ⟨o, m, hhead⟩, -⟩ := hup d rfl
    obtain ⟨sub, hm, rfl⟩ := hhead.submission
    exact ⟨hinv, .inr ⟨sub, hm, m, d, hhead.travelled h.plain, hpay, hun⟩⟩

theorem ticks {s : State ν σ} (h : Internet.Inv P s.net) {y : Side} {i : AsyncNetworkInterface}
    (hi : s.interface y = some i) (ms : Nat) {written : List Bytes}
    {a : TCPOverIPv4OverEthernetAdapter} (ht : TCPOverIPv4OverEthernetAdapter.tick
      { base := s.base y, interface := i.base, nextHop := hop y } ms = some (written, a)) :
    a.base = s.base y ∧ Internet.Inv P (s.put P y i written a).net := by
  unfold TCPOverIPv4OverEthernetAdapter.tick at ht
  rw [TCPOverIPv4OverEthernetAdapter.sendAll_eq, Option.map_some] at ht
  cases ht
  exact ⟨rfl, h.exchange hi (((h.node (Sum.inl y)).truthful 0 i hi).tick ms) rfl rfl⟩

/-! ## The simulation -/

/-- What the hosts have submitted is on the wire, and nobody else speaks for them. -/
structure Refines (s : State ν σ) (w : Wire.State) : Prop where
  peer : s.peer = w.peer
  got : s.got = w.got
  base : s.base = w.adapter
  ours : ∀ sub ∈ s.net.submitted, ∀ y, sub.node = .inl y →
    sub.packet.header.bytes ++ sub.packet.bytes ∈ w.wire y
  foreign : ∀ sub ∈ s.net.submitted, ∀ v, sub.node = .inr v → Elsewhere s sub.packet.header

/-- The wire can take the step too, or has nothing to do. -/
def Follows (s' : State ν σ) (w : Wire.State) : Prop :=
  Refines s' w ∨ ∃ l w', Wire.machine.step w l w' ∧
    (∀ y, l = .app y .push → (w.adapter y).listening = false) ∧ Refines s' w'

omit [DecidableEq ν] [DecidableEq σ] in
/-- Between two adapters that are connected, or will be. -/
theorem Refines.elsewhere {s : State ν σ} {w : Wire.State} (h : Refines s w)
    (hw : Wire.Wired w.adapter) {y : Side} {d : IPv4Datagram} (he : Elsewhere s d.header)
    {seg : Option TCPSegment} {b : TCPOverIPv4Adapter}
    (hun : (s.base y).unwrapTcpInIp d = some (seg, b))
    (hopened : (s.base y).listening = true → b.listening = false →
      b.destination.ipv4Numeric = (s.base y.other).source.ipv4Numeric) :
    seg = none ∧ b = s.base y := by
  cases hl : (s.base y).listening with
  | false =>
    obtain ⟨hb, hseg⟩ := ConnectionLatch.unwrap_connected hl hun
    refine ⟨?_, hb⟩
    cases seg with
    | none => rfl
    | some seg =>
      have hsrc := ((hseg seg).mp rfl).src
      unfold Elsewhere at he
      rw [h.base] at hsrc hl he
      cases y with
      | left => exact absurd hsrc he.2
      | right =>
        rcases hw.there with hm | hlis
        · rw [hm.destination] at hsrc
          exact absurd hsrc he.1
        · rw [hlis.there] at hl
          cases hl
  | true =>
    rcases ConnectionLatch.unwrap_listening hl hun with ⟨-, hs, hb⟩ | ⟨seg', -, -, hb⟩
    · exact ⟨hs, hb⟩
    · -- who is listening is the right one, and the left one has called first
      have hsrc := hopened hl (by rw [hb]; rfl)
      rw [hb] at hsrc
      have hsrc : d.header.src = (s.base y.other).source.ipv4Numeric := hsrc
      unfold Elsewhere at he
      cases y with
      | left =>
        rw [h.base, hw.here] at hl
        cases hl
      | right => exact absurd hsrc he.1

omit [DecidableEq ν] [DecidableEq σ] in
theorem Elsewhere.congr {s s' : State ν σ} (hb : s'.base .left = s.base .left) {h : IPv4Header}
    (he : Elsewhere s h) : Elsewhere s' h := by
  unfold Elsewhere
  rw [hb]
  exact he

theorem Refines.app {s s' : State ν σ} {w : Wire.State} (h : Refines s w) {y : Side}
    {l : PeerRun.Label} (hs : step P hop s (.app y l) = some s')
    (hu : Undisturbed s (.app y l) s') : Follows s' w := by
  simp only [step] at hs
  split at hs
  · rename_i happ
    obtain ⟨q, hq, rfl⟩ := Option.map_eq_some_iff.mp hs
    refine .inr ⟨.app y l, { w.setPeer y q with
        got := Function.update w.got y (w.got y ++ Network.taken (w.peer y).peer q.peer) },
      ?_, fun z hz => ?_, ?_, ?_, h.base, h.ours, h.foreign⟩
    · show Wire.step w (.app y l) = _
      simp only [Wire.step, if_pos happ, ← h.peer, hq, Option.map_some]
    · cases hz
      rw [← h.base]
      exact hu.passive _ rfl
    · simp only [State.setPeer, Wire.State.setPeer, h.peer]
    · simp only [h.got, h.peer]
  · cases hs

/-- What the hosts add to the internet, they add to the wire. -/
theorem Refines.send {s s' : State ν σ} {w : Wire.State} (h : Refines s w)
    (hnet : Internet.Inv P s.net) {n : Network.State} (hn : Network.Inv n)
    (hwn : w.peer = n.peer) {y : Side} (hs : step P hop s (.send y) = some s') :
    Follows s' w ∧ Internet.Inv P s'.net := by
  obtain ⟨q, hq, hs⟩ := Option.bind_eq_some_iff.mp hs
  have hqw := hq
  rw [h.peer] at hqw
  cases hr : q.returned.getD none with
  | none =>
    simp only [hr] at hs
    cases hs
    refine ⟨.inr ⟨.send y, w.setPeer y q, ?_, fun z hz => (nomatch hz), ?_, h.got, h.base, h.ours,
      h.foreign⟩, hnet⟩
    · show Wire.step w (.send y) = _
      simp only [Wire.step, hqw, Option.bind_some, hr]
    · simp only [State.setPeer, Wire.State.setPeer, h.peer]
  | some seg =>
    simp only [hr] at hs
    obtain ⟨i, hi, hs⟩ := Option.bind_eq_some_iff.mp hs
    have hshort := Wire.sent_short hn (hwn ▸ hqw) hr
    obtain ⟨d, written, a, h1, h2, h3, h4, h5⟩ := writes hop hnet hi hshort
    rw [h1, Option.bind_some] at hs
    simp only [h2, Option.map_some, Option.some.injEq] at hs
    subst hs
    refine ⟨.inr ⟨.send y, { w.setPeer y q with
        wire := Function.update w.wire y
          (w.wire y ++ [(packet d).header.bytes ++ (packet d).bytes]) },
      ?_, fun z hz => (nomatch hz), ?_, h.got, ?_, fun sub hm z hz => ?_, fun sub hm v hv => ?_⟩,
      h4⟩
    · show Wire.step w (.send y) = _
      rw [h.base] at h5
      simp only [Wire.step, hqw, Option.bind_some, hr, h5, Option.map_some]
    · simp only [State.setPeer, State.put, State.declare, Wire.State.setPeer, h.peer]
    · simp only [State.setPeer, State.put, State.declare, Wire.State.setPeer, h3,
        Function.update_eq_self]
      exact h.base
    · dsimp only
      rcases List.mem_append.mp hm with hm | hm
      · have hold := h.ours sub hm z hz
        by_cases hzy : z = y
        · subst hzy
          rw [Function.update_self]
          exact List.mem_append_left _ hold
        · rw [Function.update_of_ne hzy]
          exact hold
      · rw [List.mem_singleton.mp hm] at hz ⊢
        cases hz
        rw [Function.update_self]
        exact List.mem_append_right _ List.mem_cons_self
    · rcases List.mem_append.mp hm with hm | hm
      · refine (h.foreign sub hm v hv).congr ?_
        simp only [State.setPeer, State.put, State.declare, h3, Function.update_eq_self]
      · rw [List.mem_singleton.mp hm] at hv
        cases hv

omit [DecidableEq ν] [DecidableEq σ] in
/-- The left adapter does not change. -/
theorem left_fixed {w : Wire.State} (hw : Wire.Wired w.adapter) {d : IPv4Datagram}
    {seg : Option TCPSegment} {b : TCPOverIPv4Adapter}
    (hun : (w.adapter .left).unwrapTcpInIp d = some (seg, b)) : b = w.adapter .left :=
  (ConnectionLatch.unwrap_connected hw.here hun).1

/-- A frame brings nothing, or a datagram of the other host, or of this one. -/
theorem Refines.receive {s s' : State ν σ} {w : Wire.State} (h : Refines s w)
    (hP : P.Sound) (hnet : Internet.Inv P s.net) (hw : Wire.Wired w.adapter) {y : Side} {j : Nat}
    (hs : step P hop s (.receive y j) = some s') (hu : Undisturbed s (.receive y j) s') :
    Follows s' w ∧ Internet.Inv P s'.net := by
  obtain ⟨i, hi, hs⟩ := Option.bind_eq_some_iff.mp hs
  obtain ⟨bytes, hb, hs⟩ := Option.bind_eq_some_iff.mp hs
  obtain ⟨⟨seg, written, a⟩, hread, hs⟩ := Option.bind_eq_some_iff.mp hs
  obtain ⟨hinv, hcases⟩ := reads hnet hP hi (List.mem_of_getElem? hb) hread
  -- what is left in the state is the same, whatever is made of the segment
  have hnet' : s'.net = (s.put P y i written a).net ∧ s'.base = (s.put P y i written a).base := by
    cases seg with
    | none =>
      cases hs
      exact ⟨rfl, rfl⟩
    | some seg =>
      obtain ⟨q, -, rfl⟩ := Option.map_eq_some_iff.mp hs
      exact ⟨rfl, rfl⟩
  refine ⟨?_, hnet'.1 ▸ hinv⟩
  have hbase : s'.base y = a.base := by
    rw [hnet'.2]
    exact Function.update_self ..
  have hstutter : seg = none → a.base = s.base y → Follows s' w := by
    rintro rfl hab
    cases hs
    refine .inl ⟨h.peer, h.got, ?_, h.ours, fun sub hm v hv => (h.foreign sub hm v hv).congr ?_⟩
    · simp only [State.put, hab, Function.update_eq_self]
      exact h.base
    · simp only [State.put, hab, Function.update_eq_self]
  rcases hcases with ⟨hseg, hab⟩ | ⟨sub, hm, n, d, htrav, hpay, hun⟩
  · exact hstutter hseg hab
  cases hnode : sub.node with
  | inr v =>
    -- not from a host
    have he : Elsewhere s d.header := by
      obtain ⟨ttl, cksum, hh⟩ := htrav.header
      have hf := h.foreign sub hm v hnode
      unfold Elsewhere at hf ⊢
      rw [show d.header = _ from hh]
      exact hf
    obtain ⟨hseg, hab⟩ := h.elsewhere hw he hun fun hl hl' => by
      have := hu.opened y hl (by rw [hbase]; exact hl')
      rwa [hbase] at this
    exact hstutter hseg hab
  | inl z =>
    -- on the wire there are the same bytes
    obtain ⟨k, hk⟩ := List.mem_iff_getElem?.mp (h.ours sub hm z hnode)
    have hrd : (w.adapter y).read (sub.packet.header.bytes ++ sub.packet.bytes) =
        some (seg, a.base) := by
      rw [← h.base, ← unwrap_travelled (s.base y) (hnet.plain sub hm) htrav hpay]
      exact hun
    have hleft : s'.base .left = s.base .left := by
      cases y with
      | left =>
        rw [hbase, h.base]
        rw [h.base] at hun
        exact left_fixed hw hun
      | right =>
        rw [hnet'.2]
        show Function.update s.base .right a.base .left = _
        exact Function.update_of_ne (by decide) ..
    have hfor : ∀ sub ∈ s'.net.submitted, ∀ v, sub.node = .inr v →
        Elsewhere s' sub.packet.header := fun sub hm v hv => by
      rw [hnet'.1] at hm
      exact (h.foreign sub hm v hv).congr hleft
    have hbases : s'.base = Function.update w.adapter y a.base := by
      rw [hnet'.2, ← h.base]
      rfl
    have hours : ∀ sub ∈ s'.net.submitted, ∀ y, sub.node = .inl y →
        sub.packet.header.bytes ++ sub.packet.bytes ∈ w.wire y := fun sub hm => by
      rw [hnet'.1] at hm
      exact h.ours sub hm
    cases seg with
    | none =>
      cases hs
      refine .inr ⟨.receive y z k, w.setAdapter y a.base, ?_, fun _ hz => (nomatch hz), h.peer,
        h.got, hbases, hours, hfor⟩
      show Wire.step w (.receive y z k) = _
      simp only [Wire.step, hk, Option.bind_some, Wire.State.read, hrd]
    | some seg =>
      obtain ⟨q, hq, rfl⟩ := Option.map_eq_some_iff.mp hs
      rw [h.peer] at hq
      refine .inr ⟨.receive y z k, (w.setAdapter y a.base).setPeer y q, ?_,
        fun _ hz => (nomatch hz), ?_, h.got, hbases, hours, hfor⟩
      · show Wire.step w (.receive y z k) = _
        simp only [Wire.step, hk, Option.bind_some, Wire.State.read, hrd, hq, Option.map_some]
      · simp only [State.setPeer, State.put, Wire.State.setPeer, Wire.State.setAdapter, h.peer]

theorem Refines.tick {s s' : State ν σ} {w : Wire.State} (h : Refines s w)
    (hnet : Internet.Inv P s.net) {y : Side} {ms : Nat}
    (hs : step P hop s (.tick y ms) = some s') : Follows s' w ∧ Internet.Inv P s'.net := by
  obtain ⟨i, hi, hs⟩ := Option.bind_eq_some_iff.mp hs
  obtain ⟨⟨written, a⟩, ht, rfl⟩ := Option.map_eq_some_iff.mp hs
  obtain ⟨hab, hinv⟩ := ticks hnet hi ms ht
  refine ⟨.inl ⟨h.peer, h.got, ?_, h.ours, fun sub hm v hv => (h.foreign sub hm v hv).congr ?_⟩,
    hinv⟩
  · simp only [State.put, hab, Function.update_eq_self]
    exact h.base
  · simp only [State.put, hab, Function.update_eq_self]

/-- Another node submits a packet of its own, or none. -/
theorem lift_submitted {net net' : Internet.State (Side ⊕ ν) σ} {l : Internet.Label ν}
    (hs : Internet.step P net (lift l) = some net') : net'.submitted = net.submitted ∨
      ∃ v k d nextHop, l = .submit v k d nextHop ∧ net'.submitted = net.submitted ++
        [{ node := .inr v, interfaceNum := k, packet := packet d
           nextHop := nextHop.ipv4Numeric }] := by
  cases l with
  | submit v k d nextHop =>
    obtain ⟨i, -, hs⟩ := Option.bind_eq_some_iff.mp hs
    obtain ⟨base, -, rfl⟩ := Option.map_eq_some_iff.mp hs
    exact .inr ⟨v, k, d, nextHop, rfl, rfl⟩
  | release v k =>
    obtain ⟨i, -, hs⟩ := Option.bind_eq_some_iff.mp hs
    obtain ⟨frame, -, rfl⟩ := Option.map_eq_some_iff.mp hs
    exact .inl rfl
  | deliver v k j =>
    obtain ⟨i, -, hs⟩ := Option.bind_eq_some_iff.mp hs
    obtain ⟨bytes, -, hs⟩ := Option.bind_eq_some_iff.mp hs
    obtain ⟨frame, -, hs⟩ := Option.bind_eq_some_iff.mp hs
    cases frame with
    | none =>
      cases hs
      exact .inl rfl
    | some frame =>
      obtain ⟨i', -, rfl⟩ := Option.map_eq_some_iff.mp hs
      exact .inl rfl
  | route v fuel =>
    obtain ⟨r, -, rfl⟩ := Option.map_eq_some_iff.mp hs
    exact .inl rfl
  | take v k =>
    obtain ⟨i, -, hs⟩ := Option.bind_eq_some_iff.mp hs
    obtain ⟨d, -, rfl⟩ := Option.map_eq_some_iff.mp hs
    exact .inl rfl
  | tick v k ms =>
    obtain ⟨i, -, rfl⟩ := Option.map_eq_some_iff.mp hs
    exact .inl rfl

theorem Refines.other {s s' : State ν σ} {w : Wire.State} (h : Refines s w) (hP : P.Sound)
    (hnet : Internet.Inv P s.net) {l : Internet.Label ν}
    (hs : step P hop s (.other l) = some s') (hu : Undisturbed s (.other l) s') :
    Follows s' w ∧ Internet.Inv P s'.net := by
  obtain ⟨net, hn, rfl⟩ := Option.map_eq_some_iff.mp hs
  refine ⟨.inl ⟨h.peer, h.got, h.base, fun sub hm y hy => ?_, fun sub hm v hv => ?_⟩,
    hnet.step hP hn ?_⟩
  · rcases lift_submitted hn with he | ⟨v, k, d, nextHop, rfl, he⟩
    · exact h.ours sub (he ▸ hm) y hy
    · rw [he] at hm
      rcases List.mem_append.mp hm with hm | hm
      · exact h.ours sub hm y hy
      · rw [List.mem_singleton.mp hm] at hy
        cases hy
  · rcases lift_submitted hn with he | ⟨v', k, d, nextHop, rfl, he⟩
    · exact h.foreign sub (he ▸ hm) v hv
    · rw [he] at hm
      rcases List.mem_append.mp hm with hm | hm
      · exact h.foreign sub hm v hv
      · rw [List.mem_singleton.mp hm]
        exact (hu.foreign v' k d nextHop rfl).2
  · cases l with
    | submit v k d nextHop => exact (hu.foreign v k d nextHop rfl).1
    | _ => exact trivial

/-! ## Runs -/

/-- What holds in every reachable state: the internet is as it should be, and the
hosts follow a run of the wire. -/
def Inv (P : Plan (Side ⊕ ν) σ) (s : State ν σ) : Prop :=
  Internet.Inv P s.net ∧ ∃ w, (Wire.machine.restrict Wire.Passive).Reachable w ∧ Refines s w

theorem Inv.step {s s' : State ν σ} {l : Label ν} (h : Inv P s) (hP : P.Sound)
    (hs : Stack.step P hop s l = some s') (hu : Undisturbed s l s') : Inv P s' := by
  obtain ⟨hnet, w, hw, href⟩ := h
  obtain ⟨n, hn, hwn⟩ := Wire.inductive_refines.reachable w hw
  have hfollows : Follows s' w ∧ Internet.Inv P s'.net := by
    cases l with
    | app y l =>
      refine ⟨href.app hs hu, ?_⟩
      simp only [Stack.step] at hs
      split at hs
      · obtain ⟨q, -, rfl⟩ := Option.map_eq_some_iff.mp hs
        exact hnet
      · cases hs
    | send y => exact href.send hnet (Network.inductive_inv.reachable n hn) hwn.peer hs
    | receive y j => exact href.receive hP hnet hwn.wired hs hu
    | tick y ms => exact href.tick hnet hs
    | other l => exact href.other hP hnet hs hu
  refine ⟨hfollows.2, ?_⟩
  rcases hfollows.1 with href' | ⟨l', w', hstep, hpassive, href'⟩
  · exact ⟨w, hw, href'⟩
  · refine ⟨w', hw.snoc ⟨hstep, fun y => ?_, hpassive⟩, href'⟩
    rw [← href'.peer]
    exact hu.short y

theorem inductive_inv (hP : P.Sound) :
    ((machine P hop).restrict Undisturbed).Inductive (Inv P) := by
  refine .restrict ?_ fun s l s' h hu hs => h.step hP hs hu
  rintro _ ⟨cfg, isn, base, hc, hw, rfl⟩
  refine ⟨Internet.inv_start, Wire.start cfg isn base, ⟨_, [], ⟨cfg, isn, base, hc, hw, rfl⟩,
    .nil _⟩, rfl, rfl, rfl, ?_, ?_⟩
  · exact fun sub hm => nomatch hm
  · exact fun sub hm => nomatch hm

/-- **The stack refines the wire.** Two hosts on an internet of any shape: whatever
the links lose, repeat or delay, whatever the routers and the other nodes do and
however often the addresses are asked for again, the hosts do only what two peers
on one wire can do. So what either application reads, with what it can still
read, is a prefix of what the other one wrote. -/
theorem stack_refines (hP : P.Sound) (s : State ν σ)
    (hr : ((machine P hop).restrict Undisturbed).Reachable s) :
    (∃ w, (Wire.machine.restrict Wire.Passive).Reachable w ∧ Refines s w) ∧
      ∀ y, s.got y ++ (s.peer y).peer.inboundStream.stream <+: (s.peer y.other).written := by
  obtain ⟨-, w, hw, href⟩ := (inductive_inv hP).reachable s hr
  refine ⟨⟨w, hw, href⟩, fun y => ?_⟩
  obtain ⟨n, hn, hwn⟩ := Wire.inductive_refines.reachable w hw
  rw [href.peer, href.got]
  exact (hwn.safe (Network.inductive_inv.reachable n hn) y).bytes

/-! ### Across a router -/

/-- The hosts in place of the client and the server of `Internet.smallPlan`. -/
def node : Side ⊕ Unit → Internet.Node
  | .inl .left => .client
  | .inl .right => .server
  | .inr _ => .router

def smallPlan : Plan (Side ⊕ Unit) Bool :=
  { ports := fun v => (node v).ports, link := fun v => (node v).link
    table := fun v => (node v).table }

theorem node_injective : Function.Injective node := by
  intro v w h
  match v, w with
  | .inl .left, .inl .left => rfl
  | .inl .right, .inl .right => rfl
  | .inr (), .inr () => rfl

theorem smallPlan_port {v : Side ⊕ Unit} {k : Nat} {g : Bool} {ip : UInt32}
    {mac : EthernetAddress} (h : smallPlan.Port v k g ip mac) :
    Internet.smallPlan.Port (node v) k g ip mac := ⟨h.port, h.link⟩

theorem smallPlan_sound : smallPlan.Sound where
  apart := by
    intro v k w l g ip jp mac h h'
    obtain ⟨hvw, hkl⟩ := Internet.smallPlan_sound.apart (smallPlan_port h) (smallPlan_port h')
    exact ⟨node_injective hvw, hkl⟩
  cast := by
    intro g ip hb
    obtain ⟨v, k, h⟩ := hb
    exact Internet.smallPlan_sound.cast ⟨_, k, smallPlan_port h⟩
  table := fun v => Internet.smallPlan_sound.table (node v)

def gateway : Side → Address
  | .left => ⟨0x0a000001, 0⟩
  | .right => ⟨0xac100001, 0⟩

/-- The client knows where to connect to, the server listens. -/
def ends : Side → TCPOverIPv4Adapter
  | .left => { source := ⟨0x0a000002, 4000⟩, destination := ⟨0xac100064, 80⟩ }
  | .right => { source := ⟨0xac100064, 80⟩, listening := true }

instance (s : State ν σ) (h : IPv4Header) : Decidable (Elsewhere s h) :=
  inferInstanceAs (Decidable (_ ∧ _))

instance decidableSubmit (s : State ν σ) (l : Label ν) : Decidable (∀ v k d nextHop,
    l = .other (.submit v k d nextHop) → Plain (packet d) ∧ Elsewhere s d.header) :=
  match l with
  | .other (.submit v k d nextHop) =>
    decidable_of_iff (Plain (packet d) ∧ Elsewhere s d.header)
      ⟨fun h _ _ _ _ he => by cases he; exact h, fun h => h v k d nextHop rfl⟩
  | .other (.release ..) | .other (.deliver ..) | .other (.route ..) | .other (.take ..)
  | .other (.tick ..) | .app .. | .send .. | .receive .. | .tick .. => .isTrue nofun

instance (s : State ν σ) (l : Label ν) (s' : State ν σ) : Decidable (Undisturbed s l s') :=
  decidable_of_iff
    ((∀ y, (s'.peer y).written.length < 2 ^ 31) ∧
      (∀ y, l = .app y .push → (s.base y).listening = false) ∧
      (∀ v k d nextHop, l = .other (.submit v k d nextHop) →
        Plain (packet d) ∧ Elsewhere s d.header) ∧
      ∀ y, (s.base y).listening = true → (s'.base y).listening = false →
        (s'.base y).destination.ipv4Numeric = (s.base y.other).source.ipv4Numeric)
    ⟨fun h => ⟨h.1, h.2.1, h.2.2.1, h.2.2.2⟩, fun h => ⟨h.1, h.2, h.3, h.4⟩⟩

/-- The address of the router, and of the server, are asked for; the SYN crosses. -/
def calling : List (Label Unit) :=
  [.app .left .push, .send .left, .other (.deliver () 0 0), .other (.release () 0),
    .receive .left 1, .other (.deliver () 0 2), .other (.route () 3), .other (.release () 1),
    .receive .right 0, .other (.deliver () 1 1), .other (.release () 1), .receive .right 2]

/-- The answer comes back, and a byte follows. -/
def answering : List (Label Unit) :=
  [.send .right, .other (.deliver () 1 3), .other (.route () 3), .other (.release () 0),
    .receive .left 3, .app .left (.write [97]), .send .left, .other (.deliver () 0 4),
    .other (.route () 3), .other (.release () 1), .receive .right 4, .receive .right 4,
    .app .right (.read 1)]

theorem stack_refines_call : ∃ s, ((machine smallPlan gateway).restrict Undisturbed).Run
    (start smallPlan (fun _ => Network.smallConfig) (fun _ => ⟨0⟩) ends) (calling ++ answering) s ∧
    s.got .right = [97] ∧
    ((∃ w, (Wire.machine.restrict Wire.Passive).Reachable w ∧ Refines s w) ∧
      ∀ y, s.got y ++ (s.peer y).peer.inboundStream.stream <+: (s.peer y.other).written) := by
  have hrun : (LTS.exec (fun s l => (step smallPlan gateway s l).filter fun s' =>
        decide (Undisturbed s l s'))
      (start smallPlan (fun _ => Network.smallConfig) (fun _ => ⟨0⟩) ends)
      (calling ++ answering)).map (fun s => s.got .right) = some [97] := by decide +kernel
  obtain ⟨s, hs, he⟩ := Option.map_eq_some_iff.mp hrun
  have hsteps := LTS.run_of_filter (M := (machine smallPlan gateway).restrict Undisturbed)
    (fun _ _ _ h hc => ⟨h, hc⟩) hs
  have hinit : ((machine smallPlan gateway).restrict Undisturbed).init
      (start smallPlan (fun _ => Network.smallConfig) (fun _ => ⟨0⟩) ends) :=
    ⟨_, _, _, fun _ => ⟨by decide, by decide⟩, ⟨rfl, by decide, .inr ⟨rfl, rfl, rfl⟩⟩, rfl⟩
  exact ⟨s, hsteps, he, stack_refines smallPlan_sound s ⟨_, _, hinit, hsteps⟩⟩

end StreamSocket.L4.Stack
