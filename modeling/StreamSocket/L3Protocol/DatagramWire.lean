import StreamSocket.L1Encoding.Ipv4Codec
import StreamSocket.L2Machine.Router
import StreamSocket.L2Machine.TcpAccepted

/-!
# Datagrams on their way

A router writes the datagram it has read, with one hop less to live; a link
may pad the frame that carries one. `parse` goes by the header length, which
`serialize` keeps although it writes no options, and takes all that follows
for payload, whatever the total length says.

Results:
* `readsBack_iff`: what is read back from a canonical header.
* `forwarding_stable_iff`: writing what was read loses payload behind a header
  with options, and only there.
* `padding_ignored_iff`: padding is taken for payload.
-/
namespace StreamSocket.L3

open L1 L2

/-- The bytes in `bufs` are read as `d`. -/
def ReadsBack (d : IPv4Datagram) (bufs : List Bytes) : Prop :=
  ∀ d₀ : IPv4Datagram, ∃ d', L1.parse d₀.parse bufs = some (some d') ∧ d'.header = d.header ∧
    d'.payload.flatten = d.payload.flatten

/-- The header and the payload are read as they are, unless payload bytes are
skipped as options, or others follow. -/
theorem readsBack_iff {d : IPv4Datagram} (hc : d.header.Canonical) (zs : Bytes)
    (rest : List Bytes) : ReadsBack d ((d.header.bytes ++ zs) :: rest) ↔
      (zs ++ rest.flatten).drop (d.header.hlen.toNat * 4 - 20) = d.payload.flatten := by
  constructor
  · intro h
    obtain ⟨d', e, -, hp⟩ := h {}
    obtain ⟨d₁, e₁, -, hp₁⟩ := IPv4Datagram.parse_canonical {} hc zs rest
    rw [e, Option.some.injEq, Option.some.injEq] at e₁
    rw [← hp₁, ← e₁, hp]
  · intro h d₀
    obtain ⟨d', e, hh, hp⟩ := IPv4Datagram.parse_canonical d₀ hc zs rest
    exact ⟨d', e, hh, hp.trans h⟩

/-! ## Forwarding -/

/-- What is written is read back, in the buffers it is written in and in one. -/
def Stable (d : IPv4Datagram) : Prop :=
  ∃ out, d.buffers = some out ∧ ReadsBack d out ∧ ReadsBack d [out.flatten]

theorem stable_iff {d : IPv4Datagram} (hc : d.header.Canonical) :
    Stable d ↔ d.header.hlen = 5 ∨ d.payload.flatten = [] := by
  obtain ⟨rest, hb, hrest⟩ := IPv4Datagram.buffers_eq hc.ver
  have hlist : ReadsBack d (d.header.bytes :: rest) ↔
      d.payload.flatten.drop (d.header.hlen.toNat * 4 - 20) = d.payload.flatten := by
    have h := readsBack_iff hc [] rest
    rwa [List.append_nil, List.nil_append, hrest] at h
  have hone : ReadsBack d [(d.header.bytes :: rest).flatten] ↔
      d.payload.flatten.drop (d.header.hlen.toNat * 4 - 20) = d.payload.flatten := by
    have h := readsBack_iff hc d.payload.flatten []
    rwa [List.flatten_nil, List.append_nil, ← hrest, ← List.flatten_cons, hrest] at h
  have hl := UInt8.le_iff_toNat_le.mp hc.long
  rw [show (5 : UInt8).toNat = 5 from rfl] at hl
  unfold Stable
  constructor
  · rintro ⟨out, ho, hr, -⟩
    rw [hb, Option.some.injEq] at ho
    subst ho
    have hd := congrArg List.length (hlist.mp hr)
    rw [List.length_drop] at hd
    by_cases h5 : d.header.hlen.toNat = 5
    · exact .inl (UInt8.toNat_inj.mp h5)
    · exact .inr (List.length_eq_zero_iff.mp (by omega))
  · intro h
    have hd : d.payload.flatten.drop (d.header.hlen.toNat * 4 - 20) = d.payload.flatten := by
      rcases h with h5 | h0
      · rw [h5]
        rfl
      · rw [h0, List.drop_nil]
    exact ⟨_, hb, hlist.mpr hd, hone.mpr hd⟩

/-- What `route` makes of a datagram can be written and is read back. -/
def StableForwarded (d : IPv4Datagram) : Prop :=
  ∃ header, IPv4Header.computeChecksum { d.header with ttl := d.header.ttl - 1 } = some header ∧
    Stable { d with header := header }

theorem forwarding_stable_iff {d₀ d : IPv4Datagram} {bufs : List Bytes}
    (h : L1.parse d₀.parse bufs = some (some d)) :
    Stable d ∧ StableForwarded d ↔ d.header.hlen = 5 ∨ d.payload.flatten = [] := by
  have hc := IPv4Datagram.canonical_of_parse h
  rw [stable_iff hc]
  refine ⟨And.left, fun hcond => ⟨hcond, ?_⟩⟩
  obtain ⟨h', hcomp, hc', hl⟩ := hc.withTtl (d.header.ttl - 1)
  refine ⟨h', hcomp, (stable_iff (d := { d with header := h' }) hc').mpr ?_⟩
  rwa [hl]

/-- A header of five words, and two bytes of payload. -/
theorem forwarding_stable_plain :
    let d : IPv4Datagram :=
      { header := { len := 22, ttl := 64, proto := 17, cksum := 13003, src := 0x01020304,
                    dst := 0x01020305 }
        payload := [[7, 8]] }
    Stable d ∧ StableForwarded d := by
  intro d
  have h : L1.parse (IPv4Datagram.parse {}) [[0x45, 0, 0, 22, 0, 0, 64, 0, 64, 17, 50, 203, 1, 2,
      3, 4, 1, 2, 3, 5, 7, 8]] = some (some d) := by decide
  exact (forwarding_stable_iff h).mpr (.inl rfl)

/-- One word of options, all zero, and five bytes of payload, the first four of
which are taken for options the next time. -/
theorem options_shift_payload :
    let d : IPv4Datagram :=
      { header := { len := 29, hlen := 6, ttl := 64, proto := 17, cksum := 12740,
                    src := 0x01020304, dst := 0x01020305 }
        payload := [[7, 8, 9, 10, 11]] }
    L1.parse (IPv4Datagram.parse {}) [[0x46, 0, 0, 29, 0, 0, 64, 0, 64, 17, 49, 196, 1, 2, 3, 4,
      1, 2, 3, 5, 0, 0, 0, 0, 7, 8, 9, 10, 11]] = some (some d) ∧ ¬ Stable d := by
  intro d
  have h : L1.parse (IPv4Datagram.parse {}) [[0x46, 0, 0, 29, 0, 0, 64, 0, 64, 17, 49, 196, 1, 2,
      3, 4, 1, 2, 3, 5, 0, 0, 0, 0, 7, 8, 9, 10, 11]] = some (some d) := by decide
  refine ⟨h, fun hs => ?_⟩
  rcases (stable_iff (IPv4Datagram.canonical_of_parse h)).mp hs with h5 | h0
  · cases h5
  · cases h0

/-! ## Padding -/

/-- Whatever segment an adapter receives from the one list of buffers or from the
other, it carries the same. -/
def SameSegment (bufs padded : List Bytes) : Prop :=
  ∀ (a a₁ a₂ : TCPOverIPv4Adapter) (d₁ d₂ : IPv4Datagram) (s₁ s₂ : TCPSegment),
    L1.parse (IPv4Datagram.parse {}) bufs = some (some d₁) →
    L1.parse (IPv4Datagram.parse {}) padded = some (some d₂) →
    a.unwrapTcpInIp d₁ = some (some s₁, a₁) → a.unwrapTcpInIp d₂ = some (some s₂, a₂) →
    s₁.senderMessage.payload = s₂.senderMessage.payload ∧
      s₁.senderMessage.sequenceLength = s₂.senderMessage.sequenceLength

/-- With `t` appended, in a buffer of its own or not, `d` is read all the same. -/
def PaddingIgnored (d : IPv4Datagram) (t : Bytes) : Prop :=
  ∃ out, d.buffers = some out ∧ ∀ padded, padded = out ++ [t] ∨ padded = [out.flatten ++ t] →
    ReadsBack d padded ∧ SameSegment out padded

/-- Only the bits of the offset that are sent are read back. -/
def sent (h : IPv4Header) : IPv4Header := { h with offset := h.offset &&& 0x1fff }

theorem sent_bytes (h : IPv4Header) : (sent h).bytes = h.bytes := by
  have hf : (sent h).foVal = h.foVal := by
    unfold IPv4Header.foVal sent
    rw [UInt16.and_assoc, show (0x1fff : UInt16) &&& 0x1fff = 0x1fff by decide]
  unfold IPv4Header.bytes
  rw [hf]
  rfl

theorem sent_canonical {h : IPv4Header} (hl : h.hlen = 5) (hc : h.computeChecksum = some h) :
    (sent h).Canonical := by
  have hv := IPv4Header.ver_of_computeChecksum hc
  refine ⟨hv, ?_, ?_, ?_, ?_⟩
  · show 5 ≤ h.hlen
    rw [hl]
    decide
  · show h.hlen &&& 0x0f = h.hlen
    rw [hl]
    decide
  · exact (UInt16.and_assoc ..).trans (congrArg _ (by decide))
  · have hs : { sent h with cksum := 0 }.summed = { h with cksum := 0 }.summed := by
      unfold IPv4Header.summed
      rw [show { sent h with cksum := 0 } = sent { h with cksum := 0 } from rfl, sent_bytes]
    rw [IPv4Header.computeChecksum_eq hv, Option.some.injEq] at hc
    rw [IPv4Header.computeChecksum_eq (h := sent h) hv, hs]
    exact congrArg (fun h' : IPv4Header => some { sent h with cksum := h'.cksum }) hc

theorem accept_some {a : TCPOverIPv4Adapter} {d : IPv4Datagram} {seg s : TCPSegment}
    (h : (a.accept d seg).1 = some s) : s = seg := by
  unfold TCPOverIPv4Adapter.accept at h
  split_ifs at h <;> simp_all

/-- The segment that an adapter receives is made of the bytes of the payload. -/
theorem eq_ofBytes_of_unwrap {a a' : TCPOverIPv4Adapter} {d : IPv4Datagram} {s : TCPSegment}
    (h : a.unwrapTcpInIp d = some (some s, a')) : s = TCPSegment.ofBytes d.payload.flatten := by
  unfold TCPOverIPv4Adapter.unwrapTcpInIp at h
  split_ifs at h
  · cases h
  · cases h
  · cases h
  · obtain ⟨r, hr, h⟩ := Option.map_eq_some_iff.mp h
    cases r with
    | none => cases h
    | some seg =>
      rw [accept_some (congrArg Prod.fst h)]
      exact TCPSegment.eq_ofBytes_of_parse hr

/-- What is appended is payload. -/
theorem eq_nil_of_paddingIgnored {d : IPv4Datagram} {t : Bytes} (hl : d.header.hlen = 5)
    (hc : d.header.computeChecksum = some d.header) (h : PaddingIgnored d t) :
    t = [] ∧ d.header.offset &&& 0x1fff = d.header.offset := by
  have hsent := sent_canonical hl hc
  obtain ⟨rest, hb, hrest⟩ :=
    IPv4Datagram.buffers_eq (d := d) (IPv4Header.ver_of_computeChecksum hc)
  obtain ⟨out, ho, h⟩ := h
  rw [hb, Option.some.injEq] at ho
  subst ho
  obtain ⟨d', e', hh', hp'⟩ := (h _ (.inr rfl)).1 {}
  obtain ⟨d₁, e₁, hh₁, hp₁⟩ := IPv4Datagram.parse_canonical {} hsent (rest.flatten ++ t) []
  rw [sent_bytes, ← List.append_assoc, ← List.flatten_cons, e', Option.some.injEq,
    Option.some.injEq] at e₁
  subst e₁
  rw [hh'] at hh₁
  rw [hp', hrest, show (sent d.header).hlen = 5 from hl] at hp₁
  refine ⟨?_, congrArg IPv4Header.offset hh₁.symm⟩
  simpa using congrArg List.length hp₁

theorem readsBack_plain {d : IPv4Datagram} (hc : d.header.Canonical) (hl : d.header.hlen = 5)
    {zs : Bytes} {rest : List Bytes} (h : zs ++ rest.flatten = d.payload.flatten) :
    ReadsBack d ((d.header.bytes ++ zs) :: rest) := by
  apply (readsBack_iff hc zs rest).mpr
  rw [hl, h]
  rfl

/-- Two lists of buffers that are read as one datagram give one segment. -/
theorem sameSegment_of_readsBack {d : IPv4Datagram} {bufs padded : List Bytes}
    (h₁ : ReadsBack d bufs) (h₂ : ReadsBack d padded) : SameSegment bufs padded := by
  intro a a₁ a₂ d₁ d₂ s₁ s₂ e₁ e₂ u₁ u₂
  obtain ⟨d₁', e₁', -, hp₁⟩ := h₁ {}
  obtain ⟨d₂', e₂', -, hp₂⟩ := h₂ {}
  rw [e₁, Option.some.injEq, Option.some.injEq] at e₁'
  rw [e₂, Option.some.injEq, Option.some.injEq] at e₂'
  subst e₁' e₂'
  have hs : s₁ = s₂ := by
    rw [eq_ofBytes_of_unwrap u₁, eq_ofBytes_of_unwrap u₂, hp₁, hp₂]
  rw [hs]
  exact ⟨rfl, rfl⟩

theorem padding_ignored_iff {d : IPv4Datagram} (t : Bytes) (hl : d.header.hlen = 5)
    (hc : d.header.computeChecksum = some d.header) :
    PaddingIgnored d t ↔ t = [] ∧ d.header.offset &&& 0x1fff = d.header.offset := by
  refine ⟨eq_nil_of_paddingIgnored hl hc, ?_⟩
  rintro ⟨rfl, ho⟩
  have hcan : d.header.Canonical := by
    have hsent := sent_canonical hl hc
    have heq : sent d.header = d.header := by
      unfold sent
      rw [ho]
    rwa [heq] at hsent
  obtain ⟨rest, hb, hrest⟩ := IPv4Datagram.buffers_eq hcan.ver
  have hback : ReadsBack d (d.header.bytes :: rest) := by
    have h : [] ++ rest.flatten = d.payload.flatten := hrest
    simpa using readsBack_plain hcan hl h
  have hpadded : ∀ padded, padded = d.header.bytes :: rest ++ [[]] ∨
      padded = [(d.header.bytes :: rest).flatten ++ []] → ReadsBack d padded := by
    rintro padded (rfl | rfl)
    · have h : [] ++ (rest ++ [[]]).flatten = d.payload.flatten := by simp [hrest]
      simpa using readsBack_plain hcan hl h
    · have h : rest.flatten ++ [].flatten = d.payload.flatten := by simp [hrest]
      simpa using readsBack_plain hcan hl h
  exact ⟨_, hb, fun padded hpad =>
    ⟨hpadded padded hpad, sameSegment_of_readsBack hback (hpadded padded hpad)⟩⟩

/-- A datagram that carries the two bytes 1 and 2 of a stream. -/
theorem padding_ignored_none :
    let d : IPv4Datagram :=
      { header := { len := 42, cksum := 59083, src := 0x0a000001, dst := 0x0a000002 }
        payload := [[15, 160, 0, 80, 0, 0, 0, 7, 0, 0, 0, 0, 80, 0, 0, 0, 138, 231, 0, 0, 1, 2]] }
    PaddingIgnored d [] := by
  intro d
  exact (padding_ignored_iff [] rfl (by decide)).mpr ⟨rfl, by decide⟩

/-- The same datagram with two bytes of zeros behind it, which are received as a
part of the stream. -/
theorem padding_received :
    let d : IPv4Datagram :=
      { header := { len := 42, cksum := 59083, src := 0x0a000001, dst := 0x0a000002 }
        payload := [[15, 160, 0, 80, 0, 0, 0, 7, 0, 0, 0, 0, 80, 0, 0, 0, 138, 231, 0, 0, 1, 2]] }
    d.header.len.toNat = 20 + d.payload.flatten.length ∧
      d.header.computeChecksum = some d.header ∧ ¬ PaddingIgnored d [0, 0] ∧
      ¬ SameSegment (d.header.bytes :: d.payload) (d.header.bytes :: d.payload ++ [[0, 0]]) := by
  intro d
  refine ⟨by decide, by decide, fun h => ?_, fun h => ?_⟩
  · have hnil := (eq_nil_of_paddingIgnored (d := d) rfl (by decide) h).1
    cases hnil
  · let a : TCPOverIPv4Adapter :=
      { source := ⟨0x0a000002, 80⟩, destination := ⟨0x0a000001, 4000⟩ }
    let seg : TCPSegment :=
      { senderMessage := { seqno := ⟨7⟩, payload := [1, 2] }
        udinfo := { srcPort := 4000, dstPort := 80, cksum := 35559 } }
    have hlen := (h a a a d { d with payload := d.payload ++ [[0, 0]] } seg
      { seg with senderMessage := { seg.senderMessage with payload := [1, 2, 0, 0] } }
      (by decide) (by decide) (by decide) (by decide)).2
    revert hlen
    decide

end StreamSocket.L3
