import StreamSocket.L1Encoding.FixedWidth
import StreamSocket.L1Encoding.Ipv4

/-!
# IPv4 headers: what is accepted

A header that `parse` accepts is canonical: its fields fit their widths and
it carries the checksum computed from them. The other way round, a canonical
header is read back, and as much of what follows as its length field says is
skipped.

Results:
* `IPv4Datagram.canonical_of_parse`: what is accepted is canonical.
* `IPv4Datagram.parse_canonical`: what is read from a canonical header and
  any bytes behind it.
-/
namespace StreamSocket.L1

namespace IPv4Header

/-- The header in the first twenty bytes. -/
def ofBytes (ys : Bytes) : IPv4Header :=
  let firstByte := UInt8.ofNat (field ys 0 1)
  let foVal := UInt16.ofNat (field ys 6 2)
  { ver := firstByte >>> 4, hlen := firstByte &&& 0x0f, tos := .ofNat (field ys 1 1),
    len := .ofNat (field ys 2 2), id := .ofNat (field ys 4 2), df := foVal &&& 0x4000 != 0,
    mf := foVal &&& 0x2000 != 0, offset := foVal &&& 0x1fff, ttl := .ofNat (field ys 8 1),
    proto := .ofNat (field ys 9 1), cksum := .ofNat (field ys 10 2),
    src := .ofNat (field ys 12 4), dst := .ofNat (field ys 16 4) }

theorem parseFields_reads (h : IPv4Header) : Reads (parseFields h) 20 ofBytes := by
  have hr := (Parser.u8_reads 0).bind (by decide) fun firstByte =>
    (Parser.u8_reads h.tos).bind (by decide) fun tos =>
    (Parser.u16_reads h.len).bind (by decide) fun len =>
    (Parser.u16_reads h.id).bind (by decide) fun id =>
    (Parser.u16_reads 0).bind (by decide) fun foVal =>
    (Parser.u8_reads h.ttl).bind (by decide) fun ttl =>
    (Parser.u8_reads h.proto).bind (by decide) fun proto =>
    (Parser.u16_reads h.cksum).bind (by decide) fun cksum =>
    (Parser.u32_reads h.src).bind (by decide) fun src =>
    (Parser.u32_reads h.dst).bind (by decide) fun dst =>
    Reads.pure ({ ver := firstByte >>> 4, hlen := firstByte &&& 0x0f, tos := tos, len := len,
                  id := id, df := foVal &&& 0x4000 != 0, mf := foVal &&& 0x2000 != 0,
                  offset := foVal &&& 0x1fff, ttl := ttl, proto := proto, cksum := cksum,
                  src := src, dst := dst } : IPv4Header)
  exact hr.congr fun ys _ => by simp [ofBytes, field_take]

/-- What a header that is accepted looks like. -/
structure Canonical (h : IPv4Header) : Prop where
  ver : h.ver = 4
  long : 5 ≤ h.hlen
  hlen : h.hlen &&& 0x0f = h.hlen
  offset : h.offset &&& 0x1fff = h.offset
  own : h.computeChecksum = some h

theorem canonical_of_parse {h₀ h : IPv4Header} {p p' : Parser} {xs : Bytes} (hp : p.Holds xs)
    (e : parse h₀ p = some (h, p')) (he : p'.error = false) : h.Canonical := by
  obtain ⟨hv, hl, hown, p₁, hf, he₁⟩ := checked_of_parse e he
  obtain ⟨ys, -, -, -, rfl, -⟩ := (parseFields_reads h₀).sound hp hf he₁
  refine ⟨hv, hl, ?_, ?_, hown⟩
  · exact (UInt8.and_assoc ..).trans (congrArg _ (by decide))
  · exact (UInt16.and_assoc ..).trans (congrArg _ (by decide))

theorem Canonical.parse_at (h₀ : IPv4Header) {h : IPv4Header} (hc : h.Canonical) {p : Parser}
    {zs : Bytes} {rest : List Bytes} (hp : p.At (h.bytes ++ zs) rest) :
    ∃ p', parse h₀ p = some (h, p') ∧
      p'.Holds ((zs ++ rest.flatten).drop (h.hlen.toNat * 4 - 20)) := by
  obtain ⟨p₁, e, hp₁⟩ := parseFields_at h₀ hc.ver hc.hlen hc.offset hp
  have hskip := hp₁.input.holds.removePrefix (h.hlen.toNat * 4 - 20)
  have herr : Parser.hasError p₁ = some (false, p₁) := by
    unfold Parser.hasError
    rw [hp₁.ok]
  have hno : ¬ (h.ver ≠ 4 ∨ h.hlen < 5) := by
    rintro (hv | hl)
    · exact hv hc.ver
    · exact UInt8.not_lt.mpr hc.long hl
  refine ⟨{ p₁ with input := p₁.input.removePrefix (h.hlen.toNat * 4 - 20) }, ?_, hp₁.ok, hskip⟩
  unfold parse
  rw [bind_of_some e, if_neg hno, bind_of_some herr, if_neg (by decide), bind_of_some rfl]
  unfold checkChecksum
  rw [hc.own]
  simp only [Option.map_some, ne_eq, not_true_eq_false, if_false]

/-- With another ttl, and the checksum computed again. -/
theorem Canonical.withTtl {h : IPv4Header} (hc : h.Canonical) (ttl : UInt8) :
    ∃ h', computeChecksum { h with ttl := ttl } = some h' ∧ h'.Canonical ∧ h'.hlen = h.hlen := by
  have hcomp := computeChecksum_eq (h := { h with ttl := ttl }) hc.ver
  obtain ⟨hown, hver⟩ := computeChecksum_of_own (h := { h with ttl := ttl }) hc.ver hcomp
  exact ⟨_, hcomp, ⟨hver, hc.long, hc.hlen, hc.offset, hown⟩, rfl⟩

end IPv4Header

namespace IPv4Datagram

theorem canonical_of_parse {d₀ d : IPv4Datagram} {bufs : List Bytes}
    (h : L1.parse (parse d₀) bufs = some (some d)) : d.header.Canonical := by
  obtain ⟨p, e, he⟩ := parse_eq_some.mp h
  obtain ⟨⟨h₁, p₁⟩, hp₁, e⟩ := Option.bind_eq_some_iff.mp e
  obtain ⟨rfl, rfl⟩ := Prod.mk.inj (Option.some.inj e)
  exact IPv4Header.canonical_of_parse (.new bufs) hp₁ he

/-- The bytes behind a header, as far as it does not skip them. -/
theorem parse_canonical (d₀ : IPv4Datagram) {h : IPv4Header} (hc : h.Canonical) (zs : Bytes)
    (rest : List Bytes) : ∃ d, L1.parse (parse d₀) ((h.bytes ++ zs) :: rest) = some (some d) ∧
      d.header = h ∧ d.payload.flatten = (zs ++ rest.flatten).drop (h.hlen.toNat * 4 - 20) := by
  have hne : h.bytes ++ zs ≠ [] := fun h0 => by
    have := congrArg List.length h0
    rw [List.length_append, h.bytes_length, List.length_nil] at this
    omega
  obtain ⟨p, e, hp⟩ := hc.parse_at d₀.header (Parser.At.new _ rest hne)
  refine ⟨{ header := h, payload := p.input.dumpAll }, ?_, rfl, hp.input.dumpAll⟩
  exact parse_eq_some.mpr ⟨p, by unfold parse; rw [bind_of_some e]; rfl, hp.ok⟩

end IPv4Datagram
end StreamSocket.L1
