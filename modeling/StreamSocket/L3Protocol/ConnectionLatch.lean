import StreamSocket.L2Machine.TcpAccepted

/-!
# A listening adapter takes one connection

An adapter that listens is given datagrams one after the other, by anybody.
The first one that opens a connection to its port fixes both addresses and both
ports; the config is not written again.

Results:
* `unwrap_listening`, `unwrap_connected`: what one datagram does, before and
  after that.
* `connection_isolated`: what a run does.
* `run_total`: every sequence of datagrams is a run, unless one of them has an
  empty buffer in front of a byte of its TCP header.
-/
namespace StreamSocket.L3.ConnectionLatch

open L1 L2 TCPOverIPv4Adapter

/-- A datagram, and what `unwrap_tcp_in_ip` returns for it. -/
structure Delivery where
  datagram : IPv4Datagram
  returned : Option TCPSegment

def machine : LTS TCPOverIPv4Adapter Delivery where
  init a := a.listening = true
  step a l a' := a.unwrapTcpInIp l.datagram = some (l.returned, a')

/-- The payload is TCP, and is parsed as `seg` under its pseudo checksum. -/
structure Carries (d : IPv4Datagram) (seg : TCPSegment) : Prop where
  proto : d.header.proto = PROTO_TCP
  parses : L1.parse (TCPSegment.parse {} d.header.pseudoChecksum) d.payload = some (some seg)

/-- A SYN without RST to the port of `a`. -/
structure Opens (a : TCPOverIPv4Adapter) (d : IPv4Datagram) (seg : TCPSegment) : Prop
    extends Carries d seg where
  port : seg.udinfo.dstPort = a.source.port
  SYN : seg.senderMessage.SYN = true
  reset : seg.reset = false

/-- Both addresses and both ports are those of the connection. -/
structure Belongs (a : TCPOverIPv4Adapter) (d : IPv4Datagram) (seg : TCPSegment) : Prop
    extends Carries d seg where
  dst : d.header.dst = a.source.ipv4Numeric
  src : d.header.src = a.destination.ipv4Numeric
  dstPort : seg.udinfo.dstPort = a.source.port
  srcPort : seg.udinfo.srcPort = a.destination.port

/-- The connection that `seg` opens. -/
def opened (a : TCPOverIPv4Adapter) (d : IPv4Datagram) (seg : TCPSegment) : TCPOverIPv4Adapter :=
  { source := { ipv4Numeric := d.header.dst, port := a.source.port }
    destination := { ipv4Numeric := d.header.src, port := seg.udinfo.srcPort }
    listening := false }

/-! ## One datagram -/

theorem Carries.unique {d : IPv4Datagram} {seg seg' : TCPSegment} (h : Carries d seg)
    (h' : Carries d seg') : seg = seg' := by
  have he := h.parses.symm.trans h'.parses
  rwa [Option.some.injEq, Option.some.injEq] at he

/-- Past the addresses, the payload decides. -/
theorem unwrap_cases {a a' : TCPOverIPv4Adapter} {d : IPv4Datagram} {r : Option TCPSegment}
    (h : a.unwrapTcpInIp d = some (r, a')) :
    (a.listening = false ∧ ¬ (d.header.dst = a.source.ipv4Numeric ∧
      d.header.src = a.destination.ipv4Numeric) ∧ r = none ∧ a' = a) ∨
    ((∀ seg, ¬ Carries d seg) ∧ r = none ∧ a' = a) ∨
    ∃ seg, Carries d seg ∧ a.accept d seg = (r, a') ∧ (a.listening = true ∨
      d.header.dst = a.source.ipv4Numeric ∧ d.header.src = a.destination.ipv4Numeric) := by
  unfold TCPOverIPv4Adapter.unwrapTcpInIp at h
  split_ifs at h with hdst hsrc hproto
  · cases h
    exact .inl ⟨Bool.eq_false_iff.mpr hdst.1, fun hc => hdst.2 hc.1, rfl, rfl⟩
  · cases h
    exact .inl ⟨Bool.eq_false_iff.mpr hsrc.1, fun hc => hsrc.2 hc.2, rfl, rfl⟩
  · cases h
    exact .inr (.inl ⟨fun seg hc => hproto hc.proto, rfl, rfl⟩)
  · obtain ⟨o, ho, h⟩ := Option.map_eq_some_iff.mp h
    cases o with
    | none =>
      cases h
      refine .inr (.inl ⟨fun seg hc => ?_, rfl, rfl⟩)
      have he := hc.parses
      rw [ho] at he
      cases he
    | some seg =>
      refine .inr (.inr ⟨seg, ⟨not_not.mp hproto, ho⟩, h, ?_⟩)
      by_cases hl : a.listening = true
      · exact .inl hl
      · exact .inr ⟨not_not.mp fun hne => hdst ⟨hl, hne⟩, not_not.mp fun hne => hsrc ⟨hl, hne⟩⟩

theorem unwrap_listening {a a' : TCPOverIPv4Adapter} {d : IPv4Datagram} {r : Option TCPSegment}
    (hl : a.listening = true) (h : a.unwrapTcpInIp d = some (r, a')) :
    ((∀ seg, ¬ Opens a d seg) ∧ r = none ∧ a' = a) ∨
      ∃ seg, Opens a d seg ∧ r = some seg ∧ a' = opened a d seg := by
  rcases unwrap_cases h with ⟨hf, -⟩ | ⟨hn, hr⟩ | ⟨seg, hc, hacc, -⟩
  · rw [hl] at hf
    cases hf
  · exact .inl ⟨fun seg ho => hn seg ho.toCarries, hr⟩
  · unfold TCPOverIPv4Adapter.accept at hacc
    split_ifs at hacc with hport hsyn
    · cases hacc
      exact .inl ⟨fun s ho => hport (by rw [hc.unique ho.toCarries]; exact ho.port), rfl, rfl⟩
    · cases hacc
      refine .inl ⟨fun s ho => hsyn.2 ?_, rfl, rfl⟩
      rw [hc.unique ho.toCarries, ho.SYN, ho.reset]
      exact ⟨rfl, Bool.false_ne_true⟩
    · -- the port has just been taken from this segment
      dsimp only at hacc
      rw [if_neg (not_not_intro rfl), Prod.mk.injEq] at hacc
      obtain ⟨hSYN, hreset⟩ := not_not.mp fun hne => hsyn ⟨hl, hne⟩
      refine .inr ⟨seg, ⟨hc, not_not.mp hport, hSYN, Bool.eq_false_iff.mpr hreset⟩, ?_, ?_⟩
      · exact hacc.1.symm
      · exact hacc.2.symm

theorem unwrap_connected {a a' : TCPOverIPv4Adapter} {d : IPv4Datagram} {r : Option TCPSegment}
    (hl : a.listening = false) (h : a.unwrapTcpInIp d = some (r, a')) :
    a' = a ∧ ∀ seg, r = some seg ↔ Belongs a d seg := by
  rcases unwrap_cases h with ⟨-, hn, rfl, rfl⟩ | ⟨hn, rfl, rfl⟩ | ⟨seg, hc, hacc, haddr⟩
  · exact ⟨rfl, fun seg => ⟨fun he => (nomatch he), fun hb => absurd ⟨hb.dst, hb.src⟩ hn⟩⟩
  · exact ⟨rfl, fun seg => ⟨fun he => (nomatch he), fun hb => absurd hb.toCarries (hn seg)⟩⟩
  · obtain ⟨hdst, hsrc⟩ := haddr.resolve_left (by rw [hl]; exact Bool.false_ne_true)
    unfold TCPOverIPv4Adapter.accept at hacc
    rw [hl] at hacc
    simp only [Bool.false_eq_true, false_and, if_false] at hacc
    split_ifs at hacc with hport hpeer
    · cases hacc
      refine ⟨rfl, fun s => ⟨fun he => (nomatch he), fun hb => ?_⟩⟩
      exact absurd (hc.unique hb.toCarries ▸ hb.dstPort) hport
    · cases hacc
      refine ⟨rfl, fun s => ⟨fun he => (nomatch he), fun hb => ?_⟩⟩
      exact absurd (hc.unique hb.toCarries ▸ hb.srcPort) hpeer
    · cases hacc
      refine ⟨rfl, fun s => ⟨?_, fun hb => by rw [hc.unique hb.toCarries]⟩⟩
      rintro ⟨⟩
      exact ⟨hc, hdst, hsrc, not_not.mp hport, not_not.mp hpeer⟩

/-! ## Runs -/

/-- The datagram leaves `a` as it is, and does not open a connection. -/
def Ignored (a : TCPOverIPv4Adapter) (l : Delivery) : Prop :=
  l.returned = none ∧ a.unwrapTcpInIp l.datagram = some (none, a) ∧
    ∀ seg, ¬ Opens a l.datagram seg

/-- The datagram leaves `a` as it is, and is returned if it belongs to the
connection. -/
def Filtered (a : TCPOverIPv4Adapter) (l : Delivery) : Prop :=
  a.unwrapTcpInIp l.datagram = some (l.returned, a) ∧
    ∀ seg, l.returned = some seg ↔ Belongs a l.datagram seg

/-- A connection is not left. -/
theorem run_connected {a a' : TCPOverIPv4Adapter} {ls : List Delivery}
    (hr : machine.Run a ls a') (hl : a.listening = false) : a' = a ∧ ∀ l ∈ ls, Filtered a l := by
  induction hr with
  | nil => exact ⟨rfl, fun l h => absurd h List.not_mem_nil⟩
  | cons hs _ ih =>
    obtain ⟨rfl, hb⟩ := unwrap_connected hl hs
    obtain ⟨he, hall⟩ := ih hl
    refine ⟨he, fun l hm => ?_⟩
    rcases List.mem_cons.mp hm with rfl | hm
    · exact ⟨hs, hb⟩
    · exact hall l hm

/-- **Isolation.** Nothing is returned and nothing changes up to the first datagram
that opens a connection. That one is returned and fixes the addresses and ports;
the config is never written again, and what is returned after it has these
addresses and ports. -/
theorem connection_isolated {a a' : TCPOverIPv4Adapter} {ls : List Delivery}
    (hl : a.listening = true) (hr : machine.Run a ls a') :
    ((∀ l ∈ ls, Ignored a l) ∧ a' = a) ∨
    ∃ before d seg after, ls = before ++ ⟨d, some seg⟩ :: after ∧ (∀ l ∈ before, Ignored a l) ∧
      Opens a d seg ∧ a.unwrapTcpInIp d = some (some seg, a') ∧ a' = opened a d seg ∧
      ∀ l ∈ after, Filtered a' l := by
  induction hr with
  | nil => exact .inl ⟨fun l h => absurd h List.not_mem_nil, rfl⟩
  | @cons a a₁ a' l ls hs hr ih =>
    obtain ⟨d, r⟩ := l
    change a.unwrapTcpInIp d = some (r, a₁) at hs
    rcases unwrap_listening hl hs with ⟨hn, rfl, rfl⟩ | ⟨seg, ho, rfl, rfl⟩
    · have hi : Ignored a₁ ⟨d, none⟩ := ⟨rfl, hs, hn⟩
      rcases ih hl with ⟨hall, he⟩ | ⟨before, d', seg, after, rfl, hall, hrest⟩
      · refine .inl ⟨fun l hm => ?_, he⟩
        rcases List.mem_cons.mp hm with rfl | hm
        · exact hi
        · exact hall l hm
      · refine .inr ⟨⟨d, none⟩ :: before, d', seg, after, rfl, fun l hm => ?_, hrest⟩
        rcases List.mem_cons.mp hm with rfl | hm
        · exact hi
        · exact hall l hm
    · obtain ⟨rfl, hall⟩ := run_connected hr rfl
      exact .inr ⟨[], d, seg, ls, rfl, fun l h => absurd h List.not_mem_nil, ho, hs, rfl, hall⟩

/-- A corrupted SYN to port 80, one from 10.0.0.2, and one from 10.0.0.3. -/
theorem connection_isolated_syn :
    let a : TCPOverIPv4Adapter := { source := ⟨0, 80⟩, listening := true }
    let d : IPv4Datagram :=
      { header := { len := 40, cksum := 59085, src := 0x0a000002, dst := 0x0a000001 }
        payload := [[15, 160, 0, 80, 0, 0, 0, 7, 0, 0, 0, 0, 80, 2, 0, 0, 139, 233, 0, 0]] }
    let bad : IPv4Datagram := { d with payload := [[15, 160, 0, 80, 0, 0, 0, 8]] }
    let other : IPv4Datagram :=
      { header := { d.header with src := 0x0a000003, cksum := 59084 }
        payload := [[15, 160, 0, 80, 0, 0, 0, 7, 0, 0, 0, 0, 80, 2, 0, 0, 139, 232, 0, 0]] }
    let seg : TCPSegment :=
      { senderMessage := { seqno := ⟨7⟩, SYN := true }
        udinfo := { srcPort := 4000, dstPort := 80, cksum := 35817 } }
    let ls : List Delivery := [⟨bad, none⟩, ⟨d, some seg⟩, ⟨other, none⟩]
    machine.Run a ls (opened a d seg) ∧
      ∃ before d' seg' after, ls = before ++ ⟨d', some seg'⟩ :: after ∧
        (∀ l ∈ before, Ignored a l) ∧ Opens a d' seg' ∧
        a.unwrapTcpInIp d' = some (some seg', opened a d seg) ∧
        opened a d seg = opened a d' seg' ∧ ∀ l ∈ after, Filtered (opened a d seg) l := by
  intro a d bad other seg ls
  have h₁ : machine.step a ⟨bad, none⟩ a := show a.unwrapTcpInIp bad = some (none, a) by decide
  have h₂ : machine.step a ⟨d, some seg⟩ (opened a d seg) :=
    show a.unwrapTcpInIp d = some (some seg, opened a d seg) by decide
  have h₃ : machine.step (opened a d seg) ⟨other, none⟩ (opened a d seg) :=
    show (opened a d seg).unwrapTcpInIp other = some (none, opened a d seg) by decide
  have hr : machine.Run a ls (opened a d seg) := .cons h₁ (.cons h₂ (.cons h₃ (.nil _)))
  refine ⟨hr, (connection_isolated rfl hr).resolve_left fun h => ?_⟩
  have hnone := (h.1 ⟨d, some seg⟩ (by simp [ls])).1
  cases hnone

/-! ## Every sequence is a run -/

theorem unwrap_clear {a : TCPOverIPv4Adapter} {d : IPv4Datagram}
    (h : Clear d.payload 0 (min 20 d.payload.flatten.length)) :
    ∃ r a', a.unwrapTcpInIp d = some (r, a') := by
  unfold TCPOverIPv4Adapter.unwrapTcpInIp
  rw [TCPSegment.parse_clear _ _ h, TCPSegment.parse_one]
  split_ifs <;> exact ⟨_, _, rfl⟩

/-- As long as no empty buffer stands in front of one of the first twenty bytes. -/
theorem run_total (a : TCPOverIPv4Adapter) (ds : List IPv4Datagram)
    (h : ∀ d ∈ ds, Clear d.payload 0 (min 20 d.payload.flatten.length)) :
    ∃ ls a', ls.map Delivery.datagram = ds ∧ machine.Run a ls a' := by
  induction ds generalizing a with
  | nil => exact ⟨[], a, rfl, .nil a⟩
  | cons d ds ih =>
    obtain ⟨r, a₁, hs⟩ := unwrap_clear (a := a) (h d List.mem_cons_self)
    obtain ⟨ls, a', hm, hr⟩ := ih a₁ fun d' hd => h d' (List.mem_cons_of_mem _ hd)
    have hstep : machine.step a ⟨d, r⟩ a₁ := hs
    exact ⟨⟨d, r⟩ :: ls, a', by rw [List.map_cons, hm], .cons hstep hr⟩

end StreamSocket.L3.ConnectionLatch
