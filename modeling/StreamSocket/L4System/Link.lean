import StreamSocket.L2Machine.EthernetAdapter

/-!
# An interface among honest ones

What holds of a `NetworkInterface` on a link where every frame comes from an
interface of the link. `binds ip mac` says that an interface of the link has
these addresses, `asked p ip` that the packet `p` was handed to one of them for
the next hop `ip`. An interface is `Truthful` if all that it has learned, keeps
and wants to send agrees with the two.

* `Truthful.sendDatagram`, `recvFrame`, `tick`, `maybeSend`: every operation
  keeps it, and none fails.
* `Truthful.recvFrame` also says what comes up: a packet that was asked to go to
  an address of this interface.
-/
namespace StreamSocket.L4.Link

open L1 L2

/-- What a datagram says, however its payload is cut into buffers. -/
structure Packet where
  header : IPv4Header
  bytes : Bytes
  deriving DecidableEq, Repr

def packet (d : IPv4Datagram) : Packet := { header := d.header, bytes := d.payload.flatten }

/-- What is read back as it was written: a header that is accepted, without
options, in front of a payload that one read can hold. -/
structure Plain (p : Packet) : Prop where
  canonical : p.header.Canonical
  hlen : p.header.hlen = 5
  short : 20 + p.bytes.length ≤ FileDescriptor.kReadBufferSize

instance (p : Packet) : Decidable (Plain p) :=
  decidable_of_iff ((p.header.ver = 4 ∧ 5 ≤ p.header.hlen ∧ p.header.hlen &&& 0x0f = p.header.hlen ∧
      p.header.offset &&& 0x1fff = p.header.offset ∧ p.header.computeChecksum = some p.header) ∧
      p.header.hlen = 5 ∧ 20 + p.bytes.length ≤ FileDescriptor.kReadBufferSize)
    ⟨fun ⟨⟨h1, h2, h3, h4, h5⟩, h6, h7⟩ => ⟨⟨h1, h2, h3, h4, h5⟩, h6, h7⟩,
      fun h => ⟨⟨h.1.1, h.1.2, h.1.3, h.1.4, h.1.5⟩, h.2, h.3⟩⟩

/-- A plain datagram is written, and read as a datagram that says the same. -/
theorem Plain.reads {d : IPv4Datagram} (h : Plain (packet d)) : ∃ bufs, d.buffers = some bufs ∧
    bufs.flatten ≠ [] ∧ bufs.flatten.length ≤ FileDescriptor.kReadBufferSize ∧
    ∃ d', L1.parse (IPv4Datagram.parse {}) (TCPOverIPv4Adapter.headerAndRest bufs.flatten) =
      some (some d') ∧ packet d' = packet d ∧ d'.payload = leftOver [] [d.payload.flatten] := by
  have hb := IPv4Datagram.buffers_spaced h.canonical.ver
  have hlen : (d.header.bytes :: Serializer.spaced d.payload).flatten.length =
      20 + d.payload.flatten.length := by
    rw [List.flatten_cons, Serializer.spaced_flatten, List.length_append,
      IPv4Header.bytes_length]
  refine ⟨_, hb, fun h0 => ?_, ?_, _, IPv4Datagram.parse_cut h.canonical h.hlen hb, ?_, rfl⟩
  · rw [h0, List.length_nil] at hlen
    omega
  · rw [hlen]
    exact h.short
  · unfold packet
    simp only [leftOver_flatten, List.nil_append, List.flatten_singleton]

section

variable {binds : UInt32 → EthernetAddress → Prop} {asked asked' : Packet → UInt32 → Prop}

/-- A frame that belongs on the link: an ARP message that says the truth about
its sender, or a packet that goes to the owner of its next hop. -/
inductive Genuine (binds : UInt32 → EthernetAddress → Prop) (asked : Packet → UInt32 → Prop)
    (frame : EthernetFrame) : Prop
  | arp (m : ARPMessage) : frame.header.type = EthernetHeader.TYPE_ARP →
      frame.payload = [m.bytes] → m.supported → binds m.senderIpAddress m.senderEthernetAddress →
      Genuine binds asked frame
  | ipv4 (d : IPv4Datagram) (ip : UInt32) : frame.header.type = EthernetHeader.TYPE_IPv4 →
      d.buffers = some frame.payload → Plain (packet d) → asked (packet d) ip →
      binds ip frame.header.dst → Genuine binds asked frame

structure Truthful (binds : UInt32 → EthernetAddress → Prop) (asked : Packet → UInt32 → Prop)
    (n : NetworkInterface) : Prop where
  own : binds n.ipAddress.ipv4Numeric n.ethernetAddress
  cache : ∀ ip e, n.ipAddrToEthernetAddr ip = some e → binds ip e.1
  pending : ∀ ip e, n.ipAddrToEthernetDatagramQueue ip = some e →
    ∀ d ∈ e.1, Plain (packet d) ∧ asked (packet d) ip
  queue : ∀ frame ∈ n.maybeSendQueue, Genuine binds asked frame

theorem Genuine.mono {frame : EthernetFrame} (h : Genuine binds asked frame)
    (ha : ∀ p ip, asked p ip → asked' p ip) : Genuine binds asked' frame := by
  cases h with
  | arp m ht hp hs hb => exact .arp m ht hp hs hb
  | ipv4 d ip ht hd hpl hask hb => exact .ipv4 d ip ht hd hpl (ha _ _ hask) hb

/-- More packets may be under way. -/
theorem Truthful.mono {n : NetworkInterface} (h : Truthful binds asked n)
    (ha : ∀ p ip, asked p ip → asked' p ip) : Truthful binds asked' n where
  own := h.own
  cache := h.cache
  pending := fun ip e he d hd => ⟨(h.pending ip e he d hd).1, ha _ _ (h.pending ip e he d hd).2⟩
  queue := fun frame hf => (h.queue frame hf).mono ha

theorem truthful_new {mac : EthernetAddress} {addr : Address} (h : binds addr.ipv4Numeric mac) :
    Truthful binds asked { ethernetAddress := mac, ipAddress := addr } where
  own := h
  cache := by simp
  pending := by simp
  queue := by simp

/-- What is queued must be genuine. -/
theorem Truthful.push {n : NetworkInterface} (h : Truthful binds asked n)
    {frames : List EthernetFrame} (hf : ∀ frame ∈ frames, Genuine binds asked frame) :
    Truthful binds asked (n.push frames) where
  own := h.own
  cache := h.cache
  pending := h.pending
  queue := fun frame hm => (List.mem_append.mp hm).elim (h.queue frame) (hf frame)

theorem Truthful.maybeSend {n : NetworkInterface} (h : Truthful binds asked n) :
    Truthful binds asked n.maybeSend.2 := by
  rw [NetworkInterface.maybeSend_snd]
  exact ⟨h.own, h.cache, h.pending, fun frame hf => h.queue frame (List.mem_of_mem_tail hf)⟩

theorem Truthful.tick {n : NetworkInterface} (h : Truthful binds asked n) (ms : Nat) :
    Truthful binds asked (n.tick ms) where
  own := h.own
  cache := by
    intro ip e he
    obtain ⟨e', he', ht⟩ := Option.bind_eq_some_iff.mp he
    unfold NetworkInterface.tickAddr at ht
    dsimp only at ht
    split_ifs at ht
    cases ht
    exact h.cache ip e' he'
  pending := by
    intro ip e he
    obtain ⟨e', he', rfl⟩ := Option.map_eq_some_iff.mp he
    exact h.pending ip e' he'
  queue := h.queue

/-! ## Sending -/

theorem dgramFrame_eq (n : NetworkInterface) (mac : EthernetAddress) {d : IPv4Datagram}
    (hp : Plain (packet d)) : ∃ bufs, d.buffers = some bufs ∧ n.dgramFrame mac d =
      some (NetworkInterface.makeFrame n.ethernetAddress mac EthernetHeader.TYPE_IPv4 bufs) := by
  obtain ⟨bufs, hb, -⟩ := hp.reads
  refine ⟨bufs, hb, ?_⟩
  unfold NetworkInterface.dgramFrame
  rw [hb, Option.map_some]

/-- A datagram for `ip`, in a frame to its owner. -/
theorem genuine_dgram {n : NetworkInterface} {mac : EthernetAddress} {d : IPv4Datagram}
    {ip : UInt32} {frame : EthernetFrame} (hf : n.dgramFrame mac d = some frame)
    (hp : Plain (packet d)) (ha : asked (packet d) ip) (hb : binds ip mac) :
    Genuine binds asked frame := by
  obtain ⟨bufs, hbufs, rfl⟩ := Option.map_eq_some_iff.mp hf
  exact .ipv4 d ip rfl hbufs hp ha hb

theorem Truthful.request {n : NetworkInterface} (h : Truthful binds asked n) (ip : UInt32) :
    Genuine binds asked (n.requestFrame ip) :=
  .arp (n.arpRequest ip) rfl rfl (n.arpRequest_supported ip) h.own

/-- A plain datagram is taken, whatever is known about its next hop. -/
theorem Truthful.sendDatagram {n : NetworkInterface} (h : Truthful binds asked n)
    {d : IPv4Datagram} {nextHop : Address} (hp : Plain (packet d))
    (ha : asked (packet d) nextHop.ipv4Numeric) : ∃ n', n.sendDatagram d nextHop = some n' ∧
      Truthful binds asked n' ∧ n'.ethernetAddress = n.ethernetAddress ∧
      n'.ipAddress = n.ipAddress := by
  obtain ⟨n', hn⟩ := n.sendDatagram_isSome nextHop hp.canonical.ver
  refine ⟨n', hn, ?_⟩
  cases NetworkInterface.sendDatagram_cases hn with
  | now mac age frame hc hf =>
    refine ⟨h.push fun f hm => ?_, rfl, rfl⟩
    rw [List.mem_singleton.mp hm]
    exact genuine_dgram hf hp ha (h.cache _ _ hc)
  | wait queue age hc hq _ => exact ⟨h, rfl, rfl⟩
  | again queue age hc hq _ =>
    refine ⟨h.push fun f hm => ?_, rfl, rfl⟩
    rw [List.mem_singleton.mp hm]
    exact h.request _
  | ask hc hq =>
    have hwait : Truthful binds asked { n with
        ipAddrToEthernetDatagramQueue := Function.update n.ipAddrToEthernetDatagramQueue
          nextHop.ipv4Numeric (some ([d], 0)) } := by
      refine ⟨h.own, h.cache, fun ip e he => ?_, h.queue⟩
      dsimp only at he
      by_cases hip : ip = nextHop.ipv4Numeric
      · rw [hip, Function.update_self, Option.some.injEq] at he
        intro d' hd'
        rw [← he] at hd'
        rw [List.mem_singleton.mp hd', hip]
        exact ⟨hp, ha⟩
      · rw [Function.update_of_ne hip] at he
        exact h.pending ip e he
    refine ⟨hwait.push fun f hm => ?_, rfl, rfl⟩
    rw [List.mem_singleton.mp hm]
    exact h.request _

/-! ## Receiving -/

/-- The loop that empties a queue, for any part of it. -/
theorem Truthful.sendAll {n : NetworkInterface} (h : Truthful binds asked n) {ip : UInt32}
    {mac : EthernetAddress} (hb : binds ip mac) {ds : List IPv4Datagram}
    (hds : ∀ d ∈ ds, Plain (packet d) ∧ asked (packet d) ip) :
    ∃ frames, NetworkInterface.sendAll mac ds n = some (n.push frames) ∧
      Truthful binds asked (n.push frames) := by
  induction ds generalizing n with
  | nil =>
    refine ⟨[], ?_, h.push (by simp)⟩
    unfold NetworkInterface.sendAll NetworkInterface.push
    rw [List.append_nil]
  | cons d ds ih =>
    obtain ⟨hp, ha⟩ := hds d List.mem_cons_self
    obtain ⟨bufs, -, hf⟩ := dgramFrame_eq n mac hp
    have hpush : Truthful binds asked (n.push [_]) := h.push fun f hm => by
      rw [List.mem_singleton.mp hm]
      exact genuine_dgram hf hp ha hb
    obtain ⟨frames, h1, h2⟩ := ih hpush fun d' hd' => hds d' (List.mem_cons_of_mem _ hd')
    rw [NetworkInterface.push_push] at h1 h2
    refine ⟨_, ?_, h2⟩
    rw [NetworkInterface.sendAll, hf, Option.bind_some]
    exact h1

/-- What is learned is true, and what waited for it goes out. -/
theorem Truthful.learn {n : NetworkInterface} (h : Truthful binds asked n) {ip : UInt32}
    {mac : EthernetAddress} (hb : binds ip mac) : Truthful binds asked { n with
      ipAddrToEthernetAddr := Function.update n.ipAddrToEthernetAddr ip (some (mac, 0)) } := by
  refine ⟨h.own, fun x e he => ?_, h.pending, h.queue⟩
  dsimp only at he
  by_cases hx : x = ip
  · rw [hx, Function.update_self, Option.some.injEq] at he
    rw [hx, ← he]
    exact hb
  · rw [Function.update_of_ne hx] at he
    exact h.cache x e he

theorem Truthful.forget {n : NetworkInterface} (h : Truthful binds asked n) (ip : UInt32) :
    Truthful binds asked { n with
      ipAddrToEthernetDatagramQueue :=
        Function.update n.ipAddrToEthernetDatagramQueue ip none } := by
  refine ⟨h.own, h.cache, fun x e he => ?_, h.queue⟩
  dsimp only at he
  by_cases hx : x = ip
  · rw [hx, Function.update_self] at he
    cases he
  · rw [Function.update_of_ne hx] at he
    exact h.pending x e he

theorem Truthful.waiting {n : NetworkInterface} (h : Truthful binds asked n) (ip : UInt32) :
    ∀ d ∈ n.waiting ip, Plain (packet d) ∧ asked (packet d) ip := by
  intro d hd
  unfold NetworkInterface.waiting at hd
  cases he : n.ipAddrToEthernetDatagramQueue ip with
  | none =>
    rw [he] at hd
    cases hd
  | some e =>
    rw [he] at hd
    exact h.pending ip e he d hd

theorem Truthful.updateMaps {n : NetworkInterface} (h : Truthful binds asked n) {ip : UInt32}
    {mac : EthernetAddress} (hb : binds ip mac) : ∃ n', n.updateMaps ip mac = some n' ∧
      Truthful binds asked n' ∧ n'.ethernetAddress = n.ethernetAddress ∧
      n'.ipAddress = n.ipAddress := by
  obtain ⟨frames, h1, h2⟩ := (h.learn hb).sendAll hb (h.waiting ip)
  refine ⟨_, ?_, h2.forget ip, rfl, rfl⟩
  unfold NetworkInterface.updateMaps
  exact (congrArg (Option.map _) h1).trans rfl

theorem Truthful.recvArp {n : NetworkInterface} (h : Truthful binds asked n) {m : ARPMessage}
    (hb : binds m.senderIpAddress m.senderEthernetAddress) : ∃ n', n.recvArp m = some n' ∧
      Truthful binds asked n' ∧ n'.ethernetAddress = n.ethernetAddress ∧
      n'.ipAddress = n.ipAddress := by
  obtain ⟨n₁, h1, h2, h3, h4⟩ := h.updateMaps hb
  unfold NetworkInterface.recvArp
  rw [h1, Option.bind_some]
  split
  · have hs : (n₁.arpReply m).supported := n₁.arpReply_supported m
    rw [ARPMessage.buffers_eq hs, Option.map_some]
    refine ⟨_, rfl, h2.push fun f hm => ?_, h3, h4⟩
    rw [List.mem_singleton.mp hm]
    exact .arp _ rfl rfl hs h2.own
  · exact ⟨n₁, rfl, h2, h3, h4⟩

/-- A genuine frame is received: nothing that is not true is learned, and a packet
that comes up was asked to go to the owner of this interface's Ethernet address. -/
theorem Truthful.recvFrame {n : NetworkInterface} (h : Truthful binds asked n)
    (hcast : ∀ ip, ¬ binds ip ETHERNET_BROADCAST) {frame : EthernetFrame}
    (hg : Genuine binds asked frame) : ∃ r n', n.recvFrame (asRead frame) = some (r, n') ∧
      Truthful binds asked n' ∧ n'.ethernetAddress = n.ethernetAddress ∧
      n'.ipAddress = n.ipAddress ∧ ∀ d, r = some d → frame.header.dst = n.ethernetAddress ∧
        Plain (packet d) ∧ (∃ bytes, d.payload = leftOver [] [bytes]) ∧
        ∃ ip, asked (packet d) ip ∧ binds ip n.ethernetAddress := by
  unfold NetworkInterface.recvFrame
  by_cases hacc : n.accepts (asRead frame) = true
  · rw [if_pos hacc]
    cases hg with
    | arp m ht hp hs hb =>
      have hne : ¬ (asRead frame).header.type = EthernetHeader.TYPE_IPv4 := by
        intro he
        have he : frame.header.type = EthernetHeader.TYPE_IPv4 := he
        rw [ht] at he
        cases he
      have hpay : (asRead frame).payload = TCPOverIPv4Adapter.headerAndRest m.bytes := by
        unfold asRead
        dsimp only
        rw [hp, List.flatten_singleton, if_neg m.bytes_ne_nil]
      obtain ⟨n', h1, h2, h3, h4⟩ := h.recvArp hb
      rw [if_neg hne, hpay, ARPMessage.parse_cut hs, Option.bind_some]
      dsimp only
      rw [h1, Option.map_some]
      exact ⟨none, n', rfl, h2, h3, h4, nofun⟩
    | ipv4 d ip ht hd hp ha hb =>
      obtain ⟨bufs, hb', hne, -, d', hparse, hsame, hcut⟩ := hp.reads
      rw [hd, Option.some.injEq] at hb'
      subst hb'
      have hpay : (asRead frame).payload =
          TCPOverIPv4Adapter.headerAndRest frame.payload.flatten := if_neg hne
      have hdst : frame.header.dst = n.ethernetAddress := by
        rcases of_decide_eq_true hacc with hcst | hown
        · have hcst : frame.header.dst = ETHERNET_BROADCAST := hcst
          rw [hcst] at hb
          exact absurd hb (hcast ip)
        · exact hown
      have ht : (asRead frame).header.type = EthernetHeader.TYPE_IPv4 := ht
      rw [if_pos ht, hpay, hparse, Option.map_some]
      refine ⟨some d', n, rfl, h, rfl, rfl, fun d'' hd'' => ?_⟩
      cases hd''
      refine ⟨hdst, ?_, ⟨_, hcut⟩, ip, ?_, hdst ▸ hb⟩
      · rw [hsame]
        exact hp
      · rw [hsame]
        exact ha
  · rw [if_neg hacc]
    exact ⟨none, n, rfl, h, rfl, rfl, nofun⟩

end

end StreamSocket.L4.Link
