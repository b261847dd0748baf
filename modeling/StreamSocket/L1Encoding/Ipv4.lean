import StreamSocket.L1Encoding.Checksum
import StreamSocket.L1Encoding.Parser

/-!
# IPv4 headers and datagrams

`serialize` writes 20 bytes and throws on a version other than 4; `parse`
reads them back, skips options and compares the checksum with the one it
computes itself.

Results:
* `computeChecksum_eq`: the checksum is a function of the other fields.
* `checksum_own`: a header with its own checksum sums to checksum 0.
* `IPv4Header.parse_at`: a header without options that carries its own
  checksum is read back from its bytes.
* `IPv4Datagram.header_of_parse`: what is accepted has version 4 and a whole header.
-/
namespace StreamSocket.L1

/-- An `Address` by what its accessors return.
mirrors src/util/address.hh:56-59 -/
structure Address where
  ipv4Numeric : UInt32 := 0
  port : UInt16 := 0
  deriving DecidableEq, Repr

/-- `Address::from_ipv4_numeric`.
mirrors src/util/address.cc:142-149 -/
def Address.fromIpv4Numeric (ipAddress : UInt32) : Address := { ipv4Numeric := ipAddress }

/-- mirrors src/util/ipv4_header.hh:36-49 -/
structure IPv4Header where
  ver : UInt8 := 4
  hlen : UInt8 := 5
  tos : UInt8 := 0
  len : UInt16 := 0
  id : UInt16 := 0
  df : Bool := true
  mf : Bool := false
  offset : UInt16 := 0
  ttl : UInt8 := 128
  proto : UInt8 := 6
  cksum : UInt16 := 0
  src : UInt32 := 0
  dst : UInt32 := 0
  deriving DecidableEq, Repr

namespace IPv4Header

/-- mirrors src/util/ipv4_header.cc:64 -/
def firstByte (h : IPv4Header) : UInt8 := (h.ver <<< 4) ||| (h.hlen &&& 0xf)

/-- mirrors src/util/ipv4_header.cc:70 -/
def foVal (h : IPv4Header) : UInt16 :=
  (if h.df then 0x4000 else 0) ||| (if h.mf then 0x2000 else 0) ||| (h.offset &&& 0x1fff)

/-- `none`: "wrong IP version" is thrown.
mirrors src/util/ipv4_header.cc:57-80 -/
def serialize (h : IPv4Header) (s : Serializer) : Option Serializer :=
  if h.ver ≠ 4 then none
  else
    let s := s.integer 1 h.firstByte.toNat
    let s := s.integer 1 h.tos.toNat
    let s := s.integer 2 h.len.toNat
    let s := s.integer 2 h.id.toNat
    let s := s.integer 2 h.foVal.toNat
    let s := s.integer 1 h.ttl.toNat
    let s := s.integer 1 h.proto.toNat
    let s := s.integer 2 h.cksum.toNat
    let s := s.integer 4 h.src.toNat
    some (s.integer 4 h.dst.toNat)

/-- In the 16 bits of the return type.
mirrors src/util/ipv4_header.cc:82-85 -/
def payloadLength (h : IPv4Header) : UInt16 := h.len - 4 * h.hlen.toUInt16

/-- Six 16-bit numbers, which fit in the 32 bits of the sum.
mirrors src/util/ipv4_header.cc:98-105 -/
def pseudoChecksum (h : IPv4Header) : Nat :=
  h.src.toNat / 2 ^ 16 + h.src.toNat % 2 ^ 16 + (h.dst.toNat / 2 ^ 16 + h.dst.toNat % 2 ^ 16) +
    h.proto.toNat + h.payloadLength.toNat

/-- mirrors src/util/ipv4_header.cc:107-117 -/
def computeChecksum (h : IPv4Header) : Option IPv4Header :=
  (serialize { h with cksum := 0 } {}).map fun s =>
    { h with cksum := (({} : InternetChecksum).addBuffers s.finish).value }

/-- The fields of the header, before any check.
mirrors src/util/ipv4_header.cc:14-32 -/
def parseFields (h : IPv4Header) : Parse IPv4Header := do
  let firstByte ← Parser.u8 0
  let tos ← Parser.u8 h.tos
  let len ← Parser.u16 h.len
  let id ← Parser.u16 h.id
  let foVal ← Parser.u16 0
  let ttl ← Parser.u8 h.ttl
  let proto ← Parser.u8 h.proto
  let cksum ← Parser.u16 h.cksum
  let src ← Parser.u32 h.src
  let dst ← Parser.u32 h.dst
  return { ver := firstByte >>> 4, hlen := firstByte &&& 0x0f, tos := tos, len := len, id := id,
           df := foVal &&& 0x4000 != 0, mf := foVal &&& 0x2000 != 0, offset := foVal &&& 0x1fff,
           ttl := ttl, proto := proto, cksum := cksum, src := src, dst := dst }

/-- The checksum given must be the one computed.
mirrors src/util/ipv4_header.cc:49-53 -/
def checkChecksum (h : IPv4Header) : Parse IPv4Header := fun p =>
  h.computeChecksum.map fun h' =>
    (h', if h'.cksum ≠ h.cksum then { p with error := true } else p)

/-- mirrors src/util/ipv4_header.cc:34-54 -/
def parse (h : IPv4Header) : Parse IPv4Header := do
  let h ← parseFields h
  if h.ver ≠ 4 ∨ h.hlen < 5 then
    Parser.setError
    return h
  else if ← Parser.hasError then return h
  else
    Parser.removePrefix (h.hlen.toNat * 4 - 20)
    checkChecksum h

/-! ## The bytes of a header -/

def bytes (h : IPv4Header) : Bytes :=
  beBytes 1 h.firstByte.toNat ++ beBytes 1 h.tos.toNat ++ beBytes 2 h.len.toNat ++
    beBytes 2 h.id.toNat ++ beBytes 2 h.foVal.toNat ++ beBytes 1 h.ttl.toNat ++
    beBytes 1 h.proto.toNat ++ beBytes 2 h.cksum.toNat ++ beBytes 4 h.src.toNat ++
    beBytes 4 h.dst.toNat

@[simp] theorem bytes_length (h : IPv4Header) : h.bytes.length = 20 := by simp [bytes]

theorem serialize_eq {h : IPv4Header} (hv : h.ver = 4) (s : Serializer) :
    h.serialize s = some { s with buffer := s.buffer ++ h.bytes } := by
  unfold serialize
  rw [if_neg (not_not_intro hv)]
  simp only [Serializer.integer, bytes, List.append_assoc]

/-- The sum over the header, with `cksum` in its place. -/
def headerSum (h : IPv4Header) : Nat := wordSum false h.bytes

/-- The checksum field is one of the words summed. -/
theorem headerSum_cksum (h : IPv4Header) :
    h.headerSum = { h with cksum := 0 }.headerSum + h.cksum.toNat := by
  have h0 : ∀ c : UInt16, { h with cksum := c }.headerSum =
      wordSum false (beBytes 1 h.firstByte.toNat ++ beBytes 1 h.tos.toNat ++
        beBytes 2 h.len.toNat ++ beBytes 2 h.id.toNat ++ beBytes 2 h.foVal.toNat ++
        beBytes 1 h.ttl.toNat ++ beBytes 1 h.proto.toNat) + c.toNat +
      wordSum false (beBytes 4 h.src.toNat ++ beBytes 4 h.dst.toNat) := by
    intro c
    have := c.toNat_lt
    unfold headerSum bytes
    rw [List.append_assoc _ (beBytes 4 h.src.toNat), wordSum_append (by simp),
      wordSum_append (by simp), wordSum_beBytes _ this]
    rfl
  have h1 := h0 h.cksum
  have h2 := h0 0
  rw [show (0 : UInt16).toNat = 0 from rfl] at h2
  change h.headerSum = _ at h1
  omega

theorem headerSum_lt (h : IPv4Header) : h.headerSum < 2 ^ 32 := by
  have := wordSum_le false h.bytes
  rw [bytes_length] at this
  unfold headerSum
  omega

/-- What `compute_checksum` sums. -/
def summed (h : IPv4Header) : InternetChecksum :=
  ({} : InternetChecksum).addBuffers [h.bytes]

theorem summed_sum (h : IPv4Header) : h.summed.sum = h.headerSum := by
  unfold summed
  rw [InternetChecksum.addBuffers_eq, InternetChecksum.add_sum _ _ (by decide),
    List.flatten_singleton, Nat.zero_add]
  exact Nat.mod_eq_of_lt h.headerSum_lt

theorem computeChecksum_eq {h : IPv4Header} (hv : h.ver = 4) :
    h.computeChecksum = some { h with cksum := { h with cksum := 0 }.summed.value } := by
  unfold computeChecksum
  rw [serialize_eq (h := { h with cksum := 0 }) hv]
  rfl

theorem ver_of_computeChecksum {h h' : IPv4Header} (hc : h.computeChecksum = some h') :
    h.ver = 4 := by
  obtain ⟨s, hs, -⟩ := Option.map_eq_some_iff.mp hc
  by_contra hv
  have hnone : serialize { h with cksum := 0 } {} = none := if_pos hv
  rw [hs] at hnone
  cases hnone

/-- A header with its own checksum passes any check of the sum. -/
theorem checksum_own {h h' : IPv4Header} (hv : h.ver = 4) (hc : h.computeChecksum = some h') :
    h'.summed.value = 0 := by
  rw [computeChecksum_eq hv, Option.some.injEq] at hc
  subst hc
  refine InternetChecksum.value_of_own (c := { h with cksum := 0 }.summed) ?_ ?_ ?_
  · rw [summed_sum]; exact headerSum_lt _
  · rw [summed_sum, summed_sum, headerSum_cksum]
  · rw [summed_sum]; exact headerSum_lt _

/-- Only the other fields matter. -/
theorem computeChecksum_of_own {h h' : IPv4Header} (hv : h.ver = 4)
    (hc : h.computeChecksum = some h') : h'.computeChecksum = some h' ∧ h'.ver = 4 := by
  rw [computeChecksum_eq hv, Option.some.injEq] at hc
  subst hc
  exact ⟨computeChecksum_eq hv, hv⟩

/-! ## Reading a header back -/

theorem firstByte_ver {h : IPv4Header} (hv : h.ver = 4) : h.firstByte >>> 4 = h.ver := by
  unfold firstByte
  rw [hv]
  apply UInt8.toBitVec_inj.mp
  have hz : (15#8 >>> 4 : BitVec 8) = 0#8 := by decide
  simp only [UInt8.toBitVec_shiftRight, UInt8.toBitVec_or, UInt8.toBitVec_and]
  show ((64#8 ||| (h.hlen.toBitVec &&& 15#8)) >>> 4 : BitVec 8) = 4#8
  rw [BitVec.ushiftRight_or_distrib, BitVec.ushiftRight_and_distrib, hz, BitVec.and_zero]
  decide

theorem firstByte_hlen {h : IPv4Header} (hv : h.ver = 4) (hl : h.hlen &&& 0x0f = h.hlen) :
    h.firstByte &&& 0x0f = h.hlen := by
  unfold firstByte
  rw [hv]
  apply UInt8.toBitVec_inj.mp
  have hl' : h.hlen.toBitVec &&& 15#8 = h.hlen.toBitVec := congrArg UInt8.toBitVec hl
  show (64#8 ||| (h.hlen.toBitVec &&& 15#8)) &&& 15#8 = h.hlen.toBitVec
  have hz : (64#8 &&& 15#8 : BitVec 8) = 0#8 := by decide
  rw [hl', BitVec.and_or_distrib_right, hz, hl', BitVec.zero_or]

/-- The flag bits lie above the offset. -/
theorem foVal_and (h : IPv4Header) (mask : UInt16) : h.foVal &&& mask =
    ((if h.df then 0x4000 else 0) &&& mask) ||| ((if h.mf then 0x2000 else 0) &&& mask) |||
      (h.offset &&& (0x1fff &&& mask)) := by
  unfold foVal
  apply UInt16.toBitVec_inj.mp
  simp only [UInt16.toBitVec_and, UInt16.toBitVec_or, BitVec.and_or_distrib_right,
    BitVec.and_assoc]

theorem foVal_df (h : IPv4Header) : (h.foVal &&& 0x4000 != 0) = h.df := by
  rw [foVal_and, show (0x1fff : UInt16) &&& 0x4000 = 0 by decide, UInt16.and_zero]
  cases h.df <;> cases h.mf <;> decide

theorem foVal_mf (h : IPv4Header) : (h.foVal &&& 0x2000 != 0) = h.mf := by
  rw [foVal_and, show (0x1fff : UInt16) &&& 0x2000 = 0 by decide, UInt16.and_zero]
  cases h.df <;> cases h.mf <;> decide

theorem foVal_offset {h : IPv4Header} (ho : h.offset &&& 0x1fff = h.offset) :
    h.foVal &&& 0x1fff = h.offset := by
  rw [foVal_and, show (0x1fff : UInt16) &&& 0x1fff = 0x1fff by decide, ho]
  have : ((if h.df then 0x4000 else 0 : UInt16) &&& 0x1fff) |||
      ((if h.mf then 0x2000 else 0) &&& 0x1fff) = 0 := by
    cases h.df <;> cases h.mf <;> decide
  rw [this, UInt16.zero_or]

theorem parseFields_at (h₀ : IPv4Header) {h : IPv4Header} (hv : h.ver = 4)
    (hl : h.hlen &&& 0x0f = h.hlen) (ho : h.offset &&& 0x1fff = h.offset) {p : Parser}
    {zs : Bytes} {rest : List Bytes} (hp : p.At (h.bytes ++ zs) rest) :
    ∃ p', parseFields h₀ p = some (h, p') ∧ p'.At zs rest := by
  unfold bytes at hp
  simp only [List.append_assoc] at hp
  obtain ⟨p₁, e₁, hp⟩ := Parser.u8_at 0 hp
  obtain ⟨p₂, e₂, hp⟩ := Parser.u8_at h₀.tos hp
  obtain ⟨p₃, e₃, hp⟩ := Parser.u16_at h₀.len hp
  obtain ⟨p₄, e₄, hp⟩ := Parser.u16_at h₀.id hp
  obtain ⟨p₅, e₅, hp⟩ := Parser.u16_at 0 hp
  obtain ⟨p₆, e₆, hp⟩ := Parser.u8_at h₀.ttl hp
  obtain ⟨p₇, e₇, hp⟩ := Parser.u8_at h₀.proto hp
  obtain ⟨p₈, e₈, hp⟩ := Parser.u16_at h₀.cksum hp
  obtain ⟨p₉, e₉, hp⟩ := Parser.u32_at h₀.src hp
  obtain ⟨p', e', hp⟩ := Parser.u32_at h₀.dst hp
  refine ⟨p', ?_, hp⟩
  unfold parseFields
  rw [bind_of_some e₁, bind_of_some e₂, bind_of_some e₃, bind_of_some e₄, bind_of_some e₅,
    bind_of_some e₆, bind_of_some e₇, bind_of_some e₈, bind_of_some e₉, bind_of_some e',
    firstByte_ver hv, firstByte_hlen hv hl, foVal_df, foVal_mf, foVal_offset ho]
  rfl

/-- A header without options that carries its own checksum is read back. -/
theorem parse_at (h₀ : IPv4Header) {h : IPv4Header} (hv : h.ver = 4) (hl : h.hlen = 5)
    (ho : h.offset &&& 0x1fff = h.offset) (hc : h.computeChecksum = some h) {p : Parser}
    {zs : Bytes} {rest : List Bytes} (hp : p.At (h.bytes ++ zs) rest) :
    ∃ p', parse h₀ p = some (h, p') ∧ p'.At zs rest := by
  obtain ⟨p', e, hp'⟩ := parseFields_at h₀ hv (by rw [hl]; decide) ho hp
  have hrem : Parser.removePrefix (h.hlen.toNat * 4 - 20) p' = some ((), p') := by
    unfold Parser.removePrefix
    rw [hl, show (5 : UInt8).toNat * 4 - 20 = 0 by decide, BufferList.removePrefix_zero]
  have herr : Parser.hasError p' = some (false, p') := by
    unfold Parser.hasError
    rw [hp'.ok]
  have hcheck : checkChecksum h p' = some (h, p') := by
    unfold checkChecksum
    rw [hc]
    simp only [Option.map_some, ne_eq, not_true_eq_false, if_false]
  have hno : ¬ (h.ver ≠ 4 ∨ h.hlen < 5) := by rw [hv, hl]; decide
  refine ⟨p', ?_, hp'⟩
  unfold parse
  rw [bind_of_some e, if_neg hno, bind_of_some herr, if_neg (by decide), bind_of_some hrem, hcheck]

theorem eq_of_cksum {h h' : IPv4Header} (hc : h.computeChecksum = some h')
    (he : h'.cksum = h.cksum) : h' = h := by
  obtain ⟨s, -, rfl⟩ := Option.map_eq_some_iff.mp hc
  simp only at he
  rw [he]

/-- A header that is read without an error passed the checks of `parse`, and
carries its own checksum. -/
theorem checked_of_parse {h₀ h : IPv4Header} {p p' : Parser} (hp : parse h₀ p = some (h, p'))
    (hok : p'.error = false) : h.ver = 4 ∧ 5 ≤ h.hlen ∧ h.computeChecksum = some h ∧
      ∃ p₁, parseFields h₀ p = some (h, p₁) ∧ p₁.error = false := by
  obtain ⟨⟨h₁, p₁⟩, hf, hp⟩ := Option.bind_eq_some_iff.mp hp
  by_cases hbad : h₁.ver ≠ 4 ∨ h₁.hlen < 5
  · simp only [if_pos hbad] at hp
    cases hp
    cases hok
  · simp only [if_neg hbad] at hp
    obtain ⟨hv, hl⟩ := not_or.mp hbad
    rw [bind_of_some (show Parser.hasError p₁ = some (p₁.error, p₁) from rfl)] at hp
    by_cases he : p₁.error = true
    · rw [if_pos he] at hp
      cases hp
      rw [he] at hok
      cases hok
    · rw [if_neg he] at hp
      rw [bind_of_some rfl] at hp
      obtain ⟨h₂, hc, hp⟩ := Option.map_eq_some_iff.mp hp
      obtain ⟨rfl, rfl⟩ := Prod.mk.inj hp
      have hown : h₂ = h₁ := by
        by_cases hne : h₂.cksum ≠ h₁.cksum
        · rw [if_pos hne] at hok
          cases hok
        · exact eq_of_cksum hc (not_not.mp hne)
      subst hown
      exact ⟨not_not.mp hv, UInt8.not_lt.mp hl, hc, p₁, hf, Bool.eq_false_iff.mpr he⟩

end IPv4Header

/-! ## Datagrams -/

/-- mirrors src/util/ipv4_datagram.hh:11-14 -/
structure IPv4Datagram where
  header : IPv4Header := {}
  payload : List Bytes := []
  deriving DecidableEq, Repr

namespace IPv4Datagram

/-- mirrors src/util/ipv4_datagram.hh:22-28 -/
def serialize (d : IPv4Datagram) (s : Serializer) : Option Serializer :=
  (d.header.serialize s).map fun s => s.pushBuffers d.payload

/-- `serialize( dgram )`.
mirrors src/util/parser.hh:208-214 -/
def buffers (d : IPv4Datagram) : Option (List Bytes) :=
  (d.serialize {}).map Serializer.finish

/-- mirrors src/util/ipv4_datagram.hh:16-20 -/
def parse (d : IPv4Datagram) : Parse IPv4Datagram := do
  let header ← IPv4Header.parse d.header
  let payload ← Parser.allRemaining
  return { header := header, payload := payload }

/-- What is accepted has version 4 and a whole header. -/
theorem header_of_parse {d₀ d : IPv4Datagram} {bufs : List Bytes}
    (h : L1.parse (parse d₀) bufs = some (some d)) : d.header.ver = 4 ∧ 5 ≤ d.header.hlen := by
  obtain ⟨p, hp, herr⟩ := parse_eq_some.mp h
  obtain ⟨⟨h₁, p₁⟩, hp₁, hp⟩ := Option.bind_eq_some_iff.mp hp
  obtain ⟨rfl, rfl⟩ := Prod.mk.inj (Option.some.inj hp)
  obtain ⟨hv, hl, -⟩ := IPv4Header.checked_of_parse hp₁ herr
  exact ⟨hv, hl⟩

theorem buffers_spaced {d : IPv4Datagram} (hv : d.header.ver = 4) :
    d.buffers = some (d.header.bytes :: Serializer.spaced d.payload) := by
  unfold buffers serialize
  rw [IPv4Header.serialize_eq hv]
  exact congrArg some (Serializer.finish_pushBuffers d.payload { buffer := d.header.bytes })

theorem buffers_eq {d : IPv4Datagram} (hv : d.header.ver = 4) : ∃ rest,
    d.buffers = some (d.header.bytes :: rest) ∧ rest.flatten = d.payload.flatten :=
  ⟨_, buffers_spaced hv, Serializer.spaced_flatten d.payload⟩

/-- Read back from a buffer that begins with the header's bytes. -/
theorem parse_split (d₀ : IPv4Datagram) {h : IPv4Header} (hv : h.ver = 4) (hl : h.hlen = 5)
    (ho : h.offset &&& 0x1fff = h.offset) (hc : h.computeChecksum = some h) (zs : Bytes)
    (rest : List Bytes) : L1.parse (parse d₀) ((h.bytes ++ zs) :: rest) =
      some (some { header := h, payload := leftOver zs rest }) := by
  have hne : h.bytes ++ zs ≠ [] := fun h0 => by
    have := congrArg List.length h0
    rw [List.length_append, h.bytes_length, List.length_nil] at this
    omega
  obtain ⟨p, e, hp⟩ := IPv4Header.parse_at d₀.header hv hl ho hc (Parser.At.new _ rest hne)
  refine parse_eq_some.mpr ⟨p, ?_, hp.ok⟩
  unfold parse
  rw [bind_of_some e, bind_of_some (Parser.allRemaining_at hp)]
  rfl

end IPv4Datagram
end StreamSocket.L1
