import StreamSocket.L3Protocol.ConnectionLatch
import StreamSocket.L4System.Network

/-!
# Two peers that exchange IPv4 datagrams as bytes

The peers of `Network`, each behind its TCP-over-IP adapter on one medium that
both hear. What is sent is the bytes of a datagram; whatever has been sent, by
either side, may be read by either side, in any order, any number of times, or
never. Datagrams from elsewhere (`foreign`) come in between; those in which an
adapter finds no segment for its connection are part of a run. The right
adapter may start listening: then it takes its peer from the first SYN.

* `read_write`, `read_own`, `read_listening`: what an adapter makes of the bytes
  that the other one wrote, or that it wrote itself.
* `wire_refines`: each state that the bytes can reach is one that the segments
  of `Network` can reach, so `Network.both_ways_safe` holds on the wire.
-/
namespace StreamSocket.L2

open L1

namespace TCPOverIPv4Adapter

/-- The bytes given to the device; `none`: an exception.
mirrors src/util/tuntap_adapter.hh:27 -/
def write (a : TCPOverIPv4Adapter) (seg : TCPSegment) : Option Bytes :=
  (a.wrapTcpInIp seg).bind fun (d, _) => d.buffers.map List.flatten

theorem Mirrored.symm {a b : TCPOverIPv4Adapter} (h : Mirrored a b) : Mirrored b a :=
  ⟨h.destination.symm, h.source.symm, h.there, h.here⟩

theorem write_eq (a : TCPOverIPv4Adapter) (seg : TCPSegment) :
    ∃ h, (a.wrapHeader seg).computeChecksum = some h ∧
      (∃ c, h = { a.wrapHeader seg with cksum := c }) ∧
      a.write seg = some (h.bytes ++ (a.wrapped seg).bytes) := by
  obtain ⟨h, hc, hh, hwrap⟩ := a.wrap_eq seg
  refine ⟨h, hc, hh, ?_⟩
  unfold write
  rw [hwrap]
  show (IPv4Datagram.buffers _).map _ = _
  rw [buffers_wrapped hh, Option.map_some, List.flatten_cons, Serializer.spaced_flatten,
    TCPSegment.buffers_flatten]

/-- A read takes all of a segment that a sender makes, and cuts it behind the header. -/
theorem read_datagram (b : TCPOverIPv4Adapter) {a : TCPOverIPv4Adapter} {seg : TCPSegment}
    (hp : seg.senderMessage.payload.length ≤ maxPayloadSize) {h : IPv4Header}
    (hc : (a.wrapHeader seg).computeChecksum = some h)
    (hh : ∃ c, h = { a.wrapHeader seg with cksum := c }) :
    b.read (h.bytes ++ (a.wrapped seg).bytes) =
      b.unwrapTcpInIp { header := h, payload := [(a.wrapped seg).bytes] } := by
  have hshort : (a.wrapped seg).bytes.length ≤ FileDescriptor.kReadBufferSize := by
    obtain ⟨k, hk⟩ := a.wrapped_eq seg
    have hmax : maxPayloadSize = 1000 := rfl
    rw [TCPSegment.bytes_length, hk, show FileDescriptor.kReadBufferSize = 16384 from rfl]
    dsimp only
    omega
  unfold read
  rw [readBuffers_datagram, List.take_of_length_le hshort,
    unwrapBuffers_wrapped b hc hh (TCPSegment.bytes_ne_nil _)]

/-- The peer reads the segment that was written. -/
theorem read_write {a b : TCPOverIPv4Adapter} (hm : Mirrored a b) {seg : TCPSegment}
    (hp : seg.senderMessage.payload.length ≤ maxPayloadSize) {bytes : Bytes}
    (hw : a.write seg = some bytes) : b.read bytes = some (some (a.wrapped seg), b) := by
  obtain ⟨h, hc, hh, he⟩ := a.write_eq seg
  rw [he] at hw
  cases hw
  rw [b.read_datagram hp hc hh]
  exact unwrap_of_wrap hm (hp.trans (by decide)) hh

/-- An adapter ignores what it wrote itself. -/
theorem read_own {a : TCPOverIPv4Adapter} (hl : a.listening = false)
    (hne : a.source.ipv4Numeric ≠ a.destination.ipv4Numeric) {seg : TCPSegment}
    (hp : seg.senderMessage.payload.length ≤ maxPayloadSize) {bytes : Bytes}
    (hw : a.write seg = some bytes) : a.read bytes = some (none, a) := by
  obtain ⟨h, hc, hh, he⟩ := a.write_eq seg
  rw [he] at hw
  cases hw
  rw [a.read_datagram hp hc hh]
  obtain ⟨c, rfl⟩ := hh
  unfold unwrapTcpInIp
  exact if_pos ⟨by rw [hl]; decide, hne.symm⟩

/-- `b` listens on the port that `a` connects to. -/
structure Listens (a b : TCPOverIPv4Adapter) : Prop where
  here : a.listening = false
  there : b.listening = true
  port : b.source.port = a.destination.port

/-- A listening adapter takes a SYN, and then mirrors who sent it. -/
theorem read_listening {a b : TCPOverIPv4Adapter} (hl : Listens a b) {seg : TCPSegment}
    (hp : seg.senderMessage.payload.length ≤ maxPayloadSize) {bytes : Bytes}
    (hw : a.write seg = some bytes) : b.read bytes = some (none, b) ∨
      ∃ b', b.read bytes = some (some (a.wrapped seg), b') ∧ Mirrored a b' := by
  obtain ⟨h, hc, hh, he⟩ := a.write_eq seg
  rw [he] at hw
  cases hw
  rw [b.read_datagram hp hc hh]
  have hparse := (a.wrapped seg).parse_bytes (a.wrapHeader seg).pseudoChecksum
  rw [if_pos (wrapped_checks (hp.trans (by decide)))] at hparse
  obtain ⟨k, hk⟩ := a.wrapped_eq seg
  have hproto : h.proto = PROTO_TCP := by obtain ⟨c, rfl⟩ := hh; rfl
  have hsum : h.pseudoChecksum = (a.wrapHeader seg).pseudoChecksum := by
    obtain ⟨c, rfl⟩ := hh; rfl
  have haddr : h.dst = a.destination.ipv4Numeric ∧ h.src = a.source.ipv4Numeric := by
    obtain ⟨c, rfl⟩ := hh; exact ⟨rfl, rfl⟩
  have hunwrap : b.unwrapTcpInIp { header := h, payload := [(a.wrapped seg).bytes] } =
      some (b.accept { header := h, payload := [(a.wrapped seg).bytes] } (a.wrapped seg)) := by
    unfold unwrapTcpInIp
    rw [if_neg (fun hn => hn.1 hl.there), if_neg (fun hn => hn.1 hl.there),
      if_neg (fun hn => hn hproto)]
    dsimp only
    rw [hsum, hparse]
    rfl
  rw [hunwrap]
  unfold accept
  rw [if_neg (by rw [hk, hl.port]; simp)]
  split
  · exact .inl rfl
  · refine .inr ⟨_, congrArg some (Prod.ext ?_ rfl), ?_⟩
    · simp only [hl.there, if_true, hk, ne_eq, not_true_eq_false, if_false]
    · simp only [hl.there, if_true]
      refine ⟨?_, ?_, hl.here, rfl⟩
      · rw [haddr.1, hl.port]
      · rw [haddr.2, hk]

/-- A datagram in which no segment is found changes nothing. -/
theorem read_none {a a' : TCPOverIPv4Adapter} {bytes : Bytes}
    (h : a.read bytes = some (none, a')) : a' = a := by
  unfold read unwrapBuffers at h
  obtain ⟨o, -, h⟩ := Option.bind_eq_some_iff.mp h
  cases o with
  | none => cases h; rfl
  | some d =>
    cases hl : a.listening with
    | true =>
      rcases L3.ConnectionLatch.unwrap_listening hl h with ⟨-, -, rfl⟩ | ⟨seg, -, hr, -⟩
      · rfl
      · cases hr
    | false => exact (L3.ConnectionLatch.unwrap_connected hl h).1

end TCPOverIPv4Adapter

/-- A peer looks at the messages and the reset flag only. -/
theorem TCPPeer.receive_wrapped (p : TCPPeer) (a : TCPOverIPv4Adapter) (seg : TCPSegment) :
    p.receive (a.wrapped seg) = p.receive seg := by
  obtain ⟨c, hw⟩ := a.wrapped_eq seg
  rw [hw]
  rfl

end StreamSocket.L2

namespace StreamSocket.L4.Wire

open L1 L2 L3 TCPOverIPv4Adapter
open L3.PeerPair (Side ofApp)

/-- `wire y` is all that `y` has written to its device. -/
structure State where
  peer : Side → PeerRun.State
  got : Side → Bytes
  adapter : Side → TCPOverIPv4Adapter
  wire : Side → List Bytes

/-- `receive y src i` brings to `y` what `src` wrote `i`-th; `foreign y bytes`
brings what neither of them wrote. -/
inductive Label where
  | app (y : Side) (l : PeerRun.Label)
  | send (y : Side)
  | receive (y src : Side) (i : Nat)
  | foreign (y : Side) (bytes : Bytes)
  deriving DecidableEq, Repr

def State.setPeer (s : State) (y : Side) (q : PeerRun.State) : State :=
  { s with peer := Function.update s.peer y q }

def State.setAdapter (s : State) (y : Side) (a : TCPOverIPv4Adapter) : State :=
  { s with adapter := Function.update s.adapter y a }

/-- mirrors src/util/tcp_minnow_socket.cc:96-100 -/
def State.read (s : State) (y : Side) (bytes : Bytes) : Option State :=
  ((s.adapter y).read bytes).bind fun (seg, a) =>
    match seg with
    | none => some (s.setAdapter y a)
    | some seg =>
      (PeerRun.step (s.peer y) (.receive seg)).map fun q => (s.setAdapter y a).setPeer y q

/-- `none`: no step of a peer, an exception in an adapter, or a segment in a
foreign datagram. -/
def step (s : State) : Label → Option State
  | .app y l =>
    if ofApp l then
      (PeerRun.step (s.peer y) l).map fun q =>
        { s.setPeer y q with
          got := Function.update s.got y (s.got y ++ Network.taken (s.peer y).peer q.peer) }
    else none
  | .send y =>
    (PeerRun.step (s.peer y) .maybeSend).bind fun q =>
      match q.returned.getD none with
      | none => some (s.setPeer y q)
      | some seg => ((s.adapter y).write seg).map fun bytes =>
        { s.setPeer y q with wire := Function.update s.wire y (s.wire y ++ [bytes]) }
  | .receive y src i => (s.wire src)[i]?.bind (s.read y)
  | .foreign y bytes =>
    match (s.adapter y).read bytes with
    | some (none, a) => some (s.setAdapter y a)
    | _ => none

def start (cfg : Side → TCPConfig) (isn : Side → Wrap32) (adapter : Side → TCPOverIPv4Adapter) :
    State :=
  { peer := fun y => .start (cfg y) (isn y), got := fun _ => [], adapter := adapter,
    wire := fun _ => [] }

/-- The left adapter is connected to the right one, which mirrors it or listens. -/
structure Wired (adapter : Side → TCPOverIPv4Adapter) : Prop where
  here : (adapter .left).listening = false
  apart : (adapter .left).source.ipv4Numeric ≠ (adapter .left).destination.ipv4Numeric
  there : Mirrored (adapter .left) (adapter .right) ∨ Listens (adapter .left) (adapter .right)

def machine : LTS State Label :=
  LTS.ofFn (fun s => ∃ cfg isn adapter, (∀ y, (cfg y).sendCapacity < 2 ^ 64 ∧
    (cfg y).recvCapacity < 2 ^ 63) ∧ Wired adapter ∧ s = start cfg isn adapter) step

/-- Fewer than `2^31` bytes in each direction, and who listens does not push:
`listen_and_accept` leaves that to `maybe_send`. -/
def Passive (s : State) (l : Label) (s' : State) : Prop :=
  (∀ y, (s'.peer y).written.length < 2 ^ 31) ∧
    ∀ y, l = .app y .push → (s.adapter y).listening = false

/-! ## A listening peer says nothing -/

/-- A peer that nothing has reached and that has not pushed. -/
structure Fresh (p : PeerRun.State) : Prop where
  syn : p.peer.receiver.syn = false
  needSend : p.peer.needSend = false
  log : p.log = []

theorem fresh_start (cfg : TCPConfig) (isn : Wrap32) : Fresh (.start cfg isn) := ⟨rfl, rfl, rfl⟩

theorem Fresh.app {p q : PeerRun.State} {l : PeerRun.Label} (h : Fresh p)
    (hs : PeerRun.step p l = some q) (ha : ofApp l = true) (hl : l ≠ .push) : Fresh q := by
  cases PeerRun.step_cases hs with
  | push _ _ => exact absurd rfl hl
  | receive _ => cases ha
  | maybeSend _ _ => cases ha
  | _ => exact ⟨h.syn, h.needSend, h.log⟩

theorem Fresh.maybeSend {p q : PeerRun.State} (hi : PeerRun.Inv p) (h : Fresh p)
    (hs : PeerRun.step p .maybeSend = some q) : Fresh q ∧ q.returned.getD none = none := by
  have hempty : p.peer.sender.sendMessages = [] := by
    refine List.eq_nil_iff_forall_not_mem.mpr fun m hm => ?_
    have := hi.log.queued m hm
    rw [h.log] at this
    cases this
  cases PeerRun.step_cases hs with
  | @maybeSend p' seg hp hm =>
    obtain ⟨p₁, h1, rfl, hseg⟩ := TCPPeer.maybeSend_cases hp
    rcases TCPPeer.pushIfAlive_cases h1 with ⟨-, rfl⟩ | ⟨x', b', hne, -, -⟩
    · have hnone : p.peer.sender.maybeSend = (p.peer.sender, none) := by
        unfold TCPSender.maybeSend
        rw [hempty]
      rw [hnone] at hseg
      have hseg : seg = none := by
        rcases hseg with ⟨m, hm, -⟩ | ⟨-, hn, -⟩ | ⟨-, -, he⟩
        · cases hm
        · rw [h.needSend] at hn
          cases hn
        · exact he
      subst hseg
      refine ⟨⟨h.syn, rfl, ?_⟩, rfl⟩
      show p.log ++ _ = []
      rw [hnone, h.log]
      simp
    · refine absurd ?_ hne
      unfold TCPPeer.receiverMsg TCPReceiver.send
      simp [h.syn]

/-! ## The simulation -/

/-- The bytes on the wire are those of the segments in the network. -/
def Encodes (a : TCPOverIPv4Adapter) (bytes : Bytes) (seg : TCPSegment) : Prop :=
  a.write seg = some bytes ∧ seg.senderMessage.payload.length ≤ maxPayloadSize

structure Refines (s : State) (n : Network.State) : Prop where
  peer : s.peer = n.peer
  got : s.got = n.got
  wire : ∀ y, List.Forall₂ (Encodes (s.adapter y)) (s.wire y) (n.net y)
  wired : Wired s.adapter
  /-- Who listens has sent nothing. -/
  quiet : (s.adapter .right).listening = true → Fresh (n.peer .right) ∧ n.net .right = []

theorem Refines.mirrored {s : State} {n : Network.State} (h : Refines s n)
    (hl : (s.adapter .right).listening = false) (y : Side) :
    Mirrored (s.adapter y) (s.adapter y.other) := by
  have hm : Mirrored (s.adapter .left) (s.adapter .right) := by
    rcases h.wired.there with hm | hm
    · exact hm
    · rw [hm.there] at hl
      cases hl
  cases y with
  | left => exact hm
  | right => exact hm.symm

theorem Wired.right {adapter : Side → TCPOverIPv4Adapter} (h : Wired adapter) :
    Mirrored (adapter .left) (adapter .right) ∨ (adapter .right).listening = true :=
  h.there.imp_right fun hl => hl.there

/-- What is on the wire is read back as the segment it encodes, or dropped. -/
theorem Refines.reads {s : State} {n : Network.State} (h : Refines s n) (y : Side) {src : Side}
    {i : Nat} {bytes : Bytes} (hb : (s.wire src)[i]? = some bytes) :
    ∃ seg, (n.net src)[i]? = some seg ∧ ((s.adapter y).read bytes = some (none, s.adapter y) ∨
      (src = y.other ∧ ∃ a', (s.adapter y).read bytes =
        some (some ((s.adapter src).wrapped seg), a') ∧
          ((a' = s.adapter y ∧ (s.adapter .right).listening = false) ∨
            (y = .right ∧ n.net y = [] ∧ Mirrored (s.adapter .left) a')))) := by
  have hlen := (h.wire src).length_eq
  obtain ⟨hi, hbi⟩ := List.getElem?_eq_some_iff.mp hb
  have hi' : i < (n.net src).length := by omega
  obtain ⟨hw, hp⟩ : Encodes (s.adapter src) bytes (n.net src)[i] := by
    have := (h.wire src).get hi hi'
    rwa [List.get_eq_getElem, List.get_eq_getElem, hbi] at this
  refine ⟨_, List.getElem?_eq_getElem hi', ?_⟩
  cases hl : (s.adapter .right).listening with
  | false =>
    have hm := h.mirrored hl
    rcases y.eq_or_other src with rfl | rfl
    · -- its own datagram
      refine .inl (read_own ?_ ?_ hp hw)
      · exact (hm src).here
      · have hne := h.wired.apart
        cases src with
        | left => exact hne
        | right =>
          have hlr : Mirrored (s.adapter .left) (s.adapter .right) := hm .left
          rw [hlr.source, hlr.destination]
          exact hne.symm
    · have hm' := hm y.other
      rw [Side.other_other] at hm'
      exact .inr ⟨rfl, _, read_write hm' hp hw, .inl ⟨rfl, rfl⟩⟩
  | true =>
    obtain ⟨-, hnil⟩ := h.quiet hl
    cases src with
    | right =>
      rw [hnil] at hi'
      cases hi'
    | left =>
      cases y with
      | left => exact .inl (read_own h.wired.here h.wired.apart hp hw)
      | right =>
        have hlis : Listens (s.adapter .left) (s.adapter .right) := by
          rcases h.wired.there with hm | hm
          · rw [hm.there] at hl
            cases hl
          · exact hm
        rcases read_listening hlis hp hw with hr | ⟨b', hr, hm⟩
        · exact .inl hr
        · exact .inr ⟨rfl, b', hr, .inr ⟨rfl, hnil, hm⟩⟩

theorem Encodes.congr {a : TCPOverIPv4Adapter} {ws : List Bytes} {segs : List TCPSegment}
    (h : List.Forall₂ (Encodes a) ws segs) {a' : TCPOverIPv4Adapter} (ha : a' = a ∨ segs = []) :
    List.Forall₂ (Encodes a') ws segs := by
  rcases ha with rfl | rfl
  · exact h
  · cases h
    exact .nil

/-- The adapter that has read a segment does not listen any more. -/
theorem Refines.adapter {s : State} {n : Network.State} (h : Refines s n) {y : Side}
    {a' : TCPOverIPv4Adapter} (ha : (a' = s.adapter y ∧ (s.adapter .right).listening = false) ∨
      (y = .right ∧ n.net y = [] ∧ Mirrored (s.adapter .left) a')) :
    (∀ z, List.Forall₂ (Encodes (Function.update s.adapter y a' z)) (s.wire z) (n.net z)) ∧
      Wired (Function.update s.adapter y a') ∧
      (Function.update s.adapter y a' .right).listening = false := by
  rcases ha with ⟨rfl, hl⟩ | ⟨rfl, hnil, hm⟩
  · rw [Function.update_eq_self]
    exact ⟨h.wire, h.wired, hl⟩
  · have hleft : Function.update s.adapter .right a' .left = s.adapter .left :=
      Function.update_of_ne (by decide) ..
    have hright : Function.update s.adapter .right a' .right = a' := Function.update_self ..
    refine ⟨fun z => ?_, ⟨?_, ?_, .inl ?_⟩, ?_⟩
    · cases z with
      | left => exact hleft ▸ h.wire .left
      | right => exact Encodes.congr (h.wire .right) (.inr hnil)
    · exact hleft ▸ h.wired.here
    · exact hleft ▸ h.wired.apart
    · rw [hleft, hright]
      exact hm
    · rw [hright]
      exact hm.there

/-- The network can take the step too, or has nothing to do. -/
def Follows (s' : State) (n : Network.State) : Prop :=
  Refines s' n ∨ ∃ l n', Network.machine.step n l n' ∧ Refines s' n'

theorem Refines.app {s s' : State} {n : Network.State} (h : Refines s n) {y : Side}
    {l : PeerRun.Label} (hs : step s (.app y l) = some s') (hp : Passive s (.app y l) s') :
    Follows s' n := by
  simp only [step] at hs
  split at hs
  · rename_i happ
    obtain ⟨q, hq, rfl⟩ := Option.map_eq_some_iff.mp hs
    refine .inr ⟨.app y l, n.set y q (n.got y ++ Network.taken (n.peer y).peer q.peer) (n.net y),
      ?_, ?_, ?_, ?_, h.wired, fun hl => ?_⟩
    · show Network.step n (.app y l) = _
      simp only [Network.step, if_pos happ, ← h.peer, hq, Option.map_some]
    · simp only [State.setPeer, Network.State.set, h.peer]
    · simp only [Network.State.set, h.got, h.peer]
    · simp only [Network.State.set, Function.update_eq_self]
      exact h.wire
    · obtain ⟨hf, hn⟩ := h.quiet hl
      simp only [Network.State.set, Function.update_eq_self]
      refine ⟨?_, hn⟩
      rcases y.eq_or_other .right with he | he
      · subst he
        rw [Function.update_self]
        rw [h.peer] at hq
        refine hf.app hq happ fun hpush => ?_
        have := hp.2 .right (by rw [hpush])
        change (s.adapter .right).listening = true at hl
        rw [hl] at this
        cases this
      · rw [he, Function.update_of_ne y.other_ne, ← he]
        exact hf
  · cases hs

/-- What a peer sends is short. -/
theorem sent_short {n : Network.State} (hi : Network.Inv n) {y : Side} {q : PeerRun.State}
    {seg : TCPSegment} (hq : PeerRun.step (n.peer y) .maybeSend = some q)
    (hr : q.returned.getD none = some seg) :
    seg.senderMessage.payload.length ≤ maxPayloadSize := by
  have hret : q.returned = some (some seg) := by
    cases hx : q.returned with
    | none =>
      rw [hx] at hr
      cases hr
    | some o =>
      rw [hx] at hr
      exact congrArg some hr
  rcases (hi.sends hq hret).1 with hm | ⟨w, hm⟩
  · exact ((hi.peer y).step hq).log.short _ hm
  · rw [hm]
    exact Nat.zero_le _

theorem Refines.send {s s' : State} {n : Network.State} (h : Refines s n)
    (hi : Network.Inv n) {y : Side} (hs : step s (.send y) = some s') : Follows s' n := by
  obtain ⟨q, hq, hs⟩ := Option.bind_eq_some_iff.mp hs
  rw [h.peer] at hq
  refine .inr ⟨.send y, n.set y q (n.got y) (n.net y ++ Network.sent q), ?_, ?_⟩
  · show Network.step n (.send y) = _
    simp only [Network.step, hq, Option.map_some]
  have hquiet : (s.adapter .right).listening = true →
      Fresh ((n.set y q (n.got y) (n.net y ++ Network.sent q)).peer .right) ∧
      (n.set y q (n.got y) (n.net y ++ Network.sent q)).net .right = [] := by
    intro hl
    obtain ⟨hf, hn⟩ := h.quiet hl
    simp only [Network.State.set]
    rcases y.eq_or_other .right with he | he
    · subst he
      obtain ⟨hf', hr⟩ := hf.maybeSend (hi.peer _) hq
      rw [Function.update_self, Function.update_self, hn, Network.sent, hr]
      exact ⟨hf', rfl⟩
    · rw [he, Function.update_of_ne y.other_ne, Function.update_of_ne y.other_ne, ← he]
      exact ⟨hf, hn⟩
  cases hr : q.returned.getD none with
  | none =>
    rw [hr] at hs
    cases hs
    have hnil : n.net y ++ Network.sent q = n.net y := by
      rw [Network.sent, hr, Option.toList_none, List.append_nil]
    rw [hnil] at hquiet ⊢
    refine ⟨?_, ?_, ?_, h.wired, hquiet⟩
    · simp only [State.setPeer, Network.State.set, h.peer]
    · simp only [Network.State.set, Function.update_eq_self]
      exact h.got
    · simp only [Network.State.set, Function.update_eq_self]
      exact h.wire
  | some seg =>
    rw [hr] at hs
    obtain ⟨bytes, hb, rfl⟩ := Option.map_eq_some_iff.mp hs
    have hshort := sent_short hi hq hr
    refine ⟨?_, ?_, fun z => ?_, h.wired, hquiet⟩
    · simp only [State.setPeer, Network.State.set, h.peer]
    · simp only [Network.State.set, Function.update_eq_self]
      exact h.got
    · simp only [Network.State.set]
      rcases y.eq_or_other z with rfl | rfl
      · rw [Function.update_self, Function.update_self, Network.sent, hr, Option.toList_some]
        exact List.rel_append (h.wire _) (.cons ⟨hb, hshort⟩ .nil)
      · rw [Function.update_of_ne y.other_ne, Function.update_of_ne y.other_ne]
        exact h.wire _

theorem Refines.receive {s s' : State} {n : Network.State} (h : Refines s n) {y src : Side}
    {i : Nat} (hs : step s (.receive y src i) = some s') : Follows s' n := by
  obtain ⟨bytes, hb, hread⟩ := Option.bind_eq_some_iff.mp hs
  obtain ⟨seg, hseg, hr | ⟨rfl, a', hr, ha⟩⟩ := h.reads y hb
  · unfold State.read at hread
    rw [hr] at hread
    cases hread
    unfold State.setAdapter
    rw [Function.update_eq_self]
    exact .inl h
  · unfold State.read at hread
    rw [hr] at hread
    obtain ⟨q, hq, rfl⟩ := Option.map_eq_some_iff.mp hread
    rw [h.peer] at hq
    have hq : PeerRun.step (n.peer y) (.receive seg) = some q := by
      simpa only [PeerRun.step, TCPPeer.receive_wrapped] using hq
    obtain ⟨h1, h2, h3⟩ := h.adapter ha
    refine .inr ⟨.receive y i, n.set y q (n.got y) (n.net y), ?_, ?_, ?_, ?_, h2, fun hl => ?_⟩
    · show Network.step n (.receive y i) = _
      simp only [Network.step, hseg, Option.bind_some, hq, Option.map_some]
    · simp only [State.setPeer, State.setAdapter, Network.State.set, h.peer]
    · simp only [State.setPeer, State.setAdapter, Network.State.set, Function.update_eq_self]
      exact h.got
    · simp only [State.setPeer, State.setAdapter, Network.State.set, Function.update_eq_self]
      exact h1
    · change (Function.update s.adapter y a' .right).listening = true at hl
      rw [h3] at hl
      cases hl

theorem Refines.foreign {s s' : State} {n : Network.State} (h : Refines s n) {y : Side}
    {bytes : Bytes} (hs : step s (.foreign y bytes) = some s') : Follows s' n := by
  simp only [step] at hs
  split at hs
  · rename_i a' hr
    cases hs
    unfold State.setAdapter
    rw [read_none hr, Function.update_eq_self]
    exact .inl h
  · cases hs

theorem Refines.step {s s' : State} {n : Network.State} {l : Label} (h : Refines s n)
    (hi : Network.Inv n) (hs : Wire.step s l = some s') (hp : Passive s l s') : Follows s' n := by
  cases l with
  | app y l => exact h.app hs hp
  | send y => exact h.send hi hs
  | receive y src i => exact h.receive hs
  | foreign y bytes => exact h.foreign hs

/-- Each reachable state refines a reachable one of the network. -/
theorem inductive_refines : (machine.restrict Passive).Inductive fun s =>
    ∃ n, (Network.machine.restrict Network.Short).Reachable n ∧ Refines s n := by
  refine .restrict ?_ ?_
  · rintro _ ⟨cfg, isn, adapter, hc, hw, rfl⟩
    refine ⟨Network.start cfg isn, ⟨_, [], ⟨cfg, isn, hc, rfl⟩, .nil _⟩, rfl, rfl,
      fun _ => .nil, hw, fun _ => ⟨fresh_start _ _, rfl⟩⟩
  · rintro s l s' ⟨n, hn, h⟩ hp hs
    rcases h.step (Network.inductive_inv.reachable n hn) hs hp with h' | ⟨l', n', hstep, h'⟩
    · exact ⟨n, hn, h'⟩
    · refine ⟨n', hn.snoc ⟨hstep, fun y => ?_⟩, h'⟩
      rw [← h'.peer]
      exact hp.1 y

/-! ## Safety on the wire -/

/-- What holds of the bytes that the applications read and the datagrams that
the peers exchange. -/
structure Safe (s : State) (y : Side) : Prop where
  bytes : s.got y ++ (s.peer y).peer.inboundStream.stream <+: (s.peer y.other).written
  /-- Whatever is on the wire, from either side, can be read. -/
  reads : ∀ src i, i < (s.wire src).length → ∃ s', step s (.receive y src i) = some s'
  /-- Whatever `maybe_send` returns can be wrapped and written. -/
  writes : ∀ q, PeerRun.step (s.peer y) .maybeSend = some q → ∃ s', step s (.send y) = some s'

theorem Refines.safe {s : State} {n : Network.State} (h : Refines s n)
    (hi : Network.Inv n) (y : Side) : Safe s y := by
  have hsafe := hi.safe y
  refine ⟨?_, fun src i hlt => ?_, fun q hq => ?_⟩
  · rw [h.peer, h.got]
    exact hsafe.bytes
  · have hb := List.getElem?_eq_getElem hlt
    obtain ⟨seg, hseg, hr | ⟨rfl, a', hr, ha⟩⟩ := h.reads y hb
    · refine ⟨s.setAdapter y (s.adapter y), ?_⟩
      show ((s.wire src)[i]?).bind (s.read y) = _
      rw [hb, Option.bind_some, State.read, hr, Option.bind_some]
    · obtain ⟨q, hq⟩ := hsafe.takes seg (List.mem_of_getElem? hseg)
      have hq : PeerRun.step (s.peer y) (.receive ((s.adapter y.other).wrapped seg)) = some q := by
        rw [h.peer]
        simpa only [PeerRun.step, TCPPeer.receive_wrapped] using hq
      refine ⟨(s.setAdapter y a').setPeer y q, ?_⟩
      show ((s.wire y.other)[i]?).bind (s.read y) = _
      rw [hb, Option.bind_some, State.read, hr, Option.bind_some]
      dsimp only
      rw [hq, Option.map_some]
  · simp only [Wire.step, hq, Option.bind_some]
    cases q.returned.getD none with
    | none => exact ⟨_, rfl⟩
    | some seg =>
      obtain ⟨_, -, -, he⟩ := (s.adapter y).write_eq seg
      simp only [he, Option.map_some, Option.some.injEq, exists_eq']

/-- **The wire refines the network.** Whatever the bytes on the medium do, and
whatever other datagrams come in between, each state is one that the network of
segments can reach, with the same peers; so both applications read prefixes of
what was written, and nothing that is exchanged makes an adapter or a peer fail. -/
theorem wire_refines (s : State) (hr : (machine.restrict Passive).Reachable s) :
    (∃ n, (Network.machine.restrict Network.Short).Reachable n ∧ Refines s n) ∧
      ∀ y, Safe s y := by
  obtain ⟨n, hn, h⟩ := inductive_refines.reachable s hr
  exact ⟨⟨n, hn, h⟩, fun y => h.safe (Network.inductive_inv.reachable n hn) y⟩

instance (s : State) (l : Label) (s' : State) : Decidable (Passive s l s') :=
  inferInstanceAs (Decidable ((∀ _, _) ∧ ∀ _, _ → _))

def client : TCPOverIPv4Adapter := { source := ⟨0x0a000001, 4000⟩, destination := ⟨0x0a000002, 80⟩ }

def server : TCPOverIPv4Adapter := { source := ⟨0, 80⟩, listening := true }

def ends : Side → TCPOverIPv4Adapter
  | .left => client
  | .right => server

/-- Both hear the SYN, after a datagram that is none; the byte arrives twice. -/
theorem wire_refines_run : ∃ s, (machine.restrict Passive).Run
    (start (fun _ => Network.smallConfig) (fun _ => ⟨0⟩) ends)
    [.app .left .push, .send .left, .foreign .right [1, 2, 3], .receive .left .left 0,
      .receive .right .left 0, .send .right, .receive .left .right 0, .app .left (.write [97]),
      .send .left, .receive .right .left 1, .receive .right .left 1, .app .right (.read 1)] s ∧
    s.got .right = [97] ∧
    ((∃ n, (Network.machine.restrict Network.Short).Reachable n ∧ Refines s n) ∧
      ∀ y, Safe s y) := by
  have hrun : (LTS.exec (fun s l => (step s l).filter fun s' => decide (Passive s l s'))
      (start (fun _ => Network.smallConfig) (fun _ => ⟨0⟩) ends)
      [.app .left .push, .send .left, .foreign .right [1, 2, 3], .receive .left .left 0,
        .receive .right .left 0, .send .right, .receive .left .right 0,
        .app .left (.write [97]), .send .left, .receive .right .left 1,
        .receive .right .left 1, .app .right (.read 1)]).map (fun s => s.got .right) =
      some [97] := by decide +kernel
  obtain ⟨s, hs, he⟩ := Option.map_eq_some_iff.mp hrun
  have hsteps := LTS.run_of_filter (M := machine.restrict Passive) (fun _ _ _ h hc => ⟨h, hc⟩) hs
  have hinit : (machine.restrict Passive).init
      (start (fun _ => Network.smallConfig) (fun _ => ⟨0⟩) ends) :=
    ⟨_, _, _, fun _ => ⟨by decide, by decide⟩, ⟨rfl, by decide, .inr ⟨rfl, rfl, rfl⟩⟩, rfl⟩
  exact ⟨s, hsteps, he, wire_refines s ⟨_, _, hinit, hsteps⟩⟩

end StreamSocket.L4.Wire
