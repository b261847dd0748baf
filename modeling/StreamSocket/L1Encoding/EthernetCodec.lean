import StreamSocket.L1Encoding.Ethernet
import StreamSocket.L1Encoding.FixedWidth

/-!
# Ethernet and ARP: what is written and what is accepted

The writer and the reader of each format against each other, in both
directions. An address is six bytes, a header fourteen; an ARP message is
eight bytes that say whether it is supported, and twenty of addresses, which
are only read if it is.

Results:
* `EthernetFrame.parse_buffers`: a frame is read back, however its bytes are
  cut behind the header.
* `ARPMessage.bytes_of_parse`: what is accepted starts with the bytes of the
  message read.
* `codecs_inverse`: both formats, both directions.
-/
namespace StreamSocket.L1

/-! ## Addresses -/

namespace EthernetAddress

def ofBytes (ys : Bytes) : EthernetAddress :=
  ⟨.ofNat (field ys 0 1), .ofNat (field ys 1 1), .ofNat (field ys 2 1), .ofNat (field ys 3 1),
    .ofNat (field ys 4 1), .ofNat (field ys 5 1)⟩

theorem parse_reads (a : EthernetAddress) : Reads (parse a) 6 ofBytes :=
  ((Parser.u8_reads a.b0).bind (by decide) fun b0 =>
    (Parser.u8_reads a.b1).bind (by decide) fun b1 =>
    (Parser.u8_reads a.b2).bind (by decide) fun b2 =>
    (Parser.u8_reads a.b3).bind (by decide) fun b3 =>
    (Parser.u8_reads a.b4).bind (by decide) fun b4 =>
    (Parser.u8_reads a.b5).bind (by decide) fun b5 =>
    .pure (⟨b0, b1, b2, b3, b4, b5⟩ : EthernetAddress)).congr fun ys _ => by
    simp [ofBytes, field_take]

theorem bytes_ofBytes {ys : Bytes} (h : ys.length = 6) : (ofBytes ys).bytes = ys := by
  unfold bytes ofBytes
  rw [beBytes_u8 (by omega), beBytes_u8 (by omega), beBytes_u8 (by omega), beBytes_u8 (by omega),
    beBytes_u8 (by omega), beBytes_u8 (by omega), List.drop_zero]
  simp only [← List.take_add]
  exact List.take_of_length_le (Nat.le_of_eq h)

@[simp] theorem bytes_length (a : EthernetAddress) : a.bytes.length = 6 := by
  simp [bytes]

end EthernetAddress

/-! ## Frames -/

namespace EthernetHeader

def bytes (h : EthernetHeader) : Bytes := h.dst.bytes ++ h.src.bytes ++ beBytes 2 h.type.toNat

theorem bytes_ne_nil (h : EthernetHeader) : h.bytes ≠ [] := by
  intro h0
  have := congrArg List.length h0
  simp [bytes] at this

theorem serialize_eq (h : EthernetHeader) (s : Serializer) :
    h.serialize s = { s with buffer := s.buffer ++ h.bytes } := by
  simp only [serialize, EthernetAddress.serialize_eq, Serializer.integer, bytes,
    List.append_assoc]

theorem parse_at (h h₀ : EthernetHeader) {p : Parser} {zs : Bytes} {rest : List Bytes}
    (hp : p.At (h.bytes ++ zs) rest) : ∃ p', parse h₀ p = some (h, p') ∧ p'.At zs rest := by
  unfold bytes at hp
  simp only [List.append_assoc] at hp
  obtain ⟨p₁, e₁, hp⟩ := EthernetAddress.parse_at h.dst h₀.dst hp
  obtain ⟨p₂, e₂, hp⟩ := EthernetAddress.parse_at h.src h₀.src hp
  obtain ⟨p', e', hp⟩ := Parser.u16_at h₀.type hp
  refine ⟨p', ?_, hp⟩
  unfold parse
  rw [bind_of_some e₁, bind_of_some e₂, bind_of_some e']
  rfl

end EthernetHeader

namespace EthernetFrame

/-- The header has a buffer of its own. -/
theorem buffers_eq (f : EthernetFrame) :
    f.buffers = f.header.bytes :: Serializer.spaced f.payload := by
  unfold buffers serialize
  rw [EthernetHeader.serialize_eq, Serializer.finish_pushBuffers]
  rfl

/-- Read back from a buffer that begins with the header's bytes. -/
theorem parse_buffers (f₀ : EthernetFrame) (h : EthernetHeader) (zs : Bytes)
    (rest : List Bytes) : L1.parse (parse f₀) ((h.bytes ++ zs) :: rest) =
      some (some { header := h, payload := leftOver zs rest }) := by
  have hne : h.bytes ++ zs ≠ [] := by simp [h.bytes_ne_nil]
  obtain ⟨p, e, hp⟩ := EthernetHeader.parse_at h f₀.header (Parser.At.new _ rest hne)
  refine parse_eq_some.mpr ⟨p, ?_, hp.ok⟩
  unfold parse
  rw [bind_of_some e, bind_of_some (Parser.allRemaining_at hp)]
  rfl

end EthernetFrame

/-! ## ARP -/

namespace ARPMessage

/-- The four addresses behind the head. -/
def parseAddresses (m : ARPMessage) : Parse ARPMessage := do
  let senderEthernetAddress ← m.senderEthernetAddress.parse
  let senderIpAddress ← Parser.u32 m.senderIpAddress
  let targetEthernetAddress ← m.targetEthernetAddress.parse
  let targetIpAddress ← Parser.u32 m.targetIpAddress
  return { m with
    senderEthernetAddress := senderEthernetAddress
    senderIpAddress := senderIpAddress
    targetEthernetAddress := targetEthernetAddress
    targetIpAddress := targetIpAddress }

def headOf (m : ARPMessage) (ys : Bytes) : ARPMessage :=
  { m with
    hardwareType := .ofNat (field ys 0 2)
    protocolType := .ofNat (field ys 2 2)
    hardwareAddressSize := .ofNat (field ys 4 1)
    protocolAddressSize := .ofNat (field ys 5 1)
    opcode := .ofNat (field ys 6 2) }

def addressesOf (m : ARPMessage) (ys : Bytes) : ARPMessage :=
  { m with
    senderEthernetAddress := .ofBytes (ys.take 6)
    senderIpAddress := .ofNat (field ys 6 4)
    targetEthernetAddress := .ofBytes ((ys.drop 10).take 6)
    targetIpAddress := .ofNat (field ys 16 4) }

theorem parseHead_reads (m : ARPMessage) : Reads (parseHead m) 8 m.headOf := by
  have h := (Parser.u16_reads m.hardwareType).bind (by decide) fun hardwareType =>
    (Parser.u16_reads m.protocolType).bind (by decide) fun protocolType =>
    (Parser.u8_reads m.hardwareAddressSize).bind (by decide) fun hardwareAddressSize =>
    (Parser.u8_reads m.protocolAddressSize).bind (by decide) fun protocolAddressSize =>
    (Parser.u16_reads m.opcode).bind (by decide) fun opcode =>
    Reads.pure { m with
      hardwareType := hardwareType
      protocolType := protocolType
      hardwareAddressSize := hardwareAddressSize
      protocolAddressSize := protocolAddressSize
      opcode := opcode }
  exact h.congr fun ys _ => by simp [headOf, field_take]

theorem parseAddresses_reads (m : ARPMessage) : Reads (parseAddresses m) 20 m.addressesOf := by
  have h := m.senderEthernetAddress.parse_reads.bind (by decide) fun senderEthernetAddress =>
    (Parser.u32_reads m.senderIpAddress).bind (by decide) fun senderIpAddress =>
    m.targetEthernetAddress.parse_reads.bind (by decide) fun targetEthernetAddress =>
    (Parser.u32_reads m.targetIpAddress).bind (by decide) fun targetIpAddress =>
    Reads.pure { m with
      senderEthernetAddress := senderEthernetAddress
      senderIpAddress := senderIpAddress
      targetEthernetAddress := targetEthernetAddress
      targetIpAddress := targetIpAddress }
  exact h.congr fun ys _ => by simp [addressesOf, field_take]

/-- A message made of 28 bytes is written as them. -/
theorem bytes_of {m : ARPMessage} {ys zs : Bytes} (hy : ys.length = 8) (hz : zs.length = 20) :
    ((m.headOf ys).addressesOf zs).bytes = ys ++ zs := by
  have hs : (zs.take 6).length = 6 := by rw [List.length_take]; omega
  have ht : ((zs.drop 10).take 6).length = 6 := by
    rw [List.length_take, List.length_drop]; omega
  unfold bytes addressesOf headOf
  simp only
  rw [beBytes_u16 (by omega), beBytes_u16 (by omega), beBytes_u8 (by omega),
    beBytes_u8 (by omega), beBytes_u16 (by omega), EthernetAddress.bytes_ofBytes hs,
    beBytes_u32 (by omega), EthernetAddress.bytes_ofBytes ht, beBytes_u32 (by omega),
    List.drop_zero]
  have hhead : ys.take 2 ++ (ys.drop 2).take 2 ++ (ys.drop 4).take 1 ++ (ys.drop 5).take 1 ++
      (ys.drop 6).take 2 = ys := by
    simp only [← List.take_add]
    exact List.take_of_length_le (Nat.le_of_eq hy)
  have haddr : zs.take 6 ++ (zs.drop 6).take 4 ++ (zs.drop 10).take 6 ++ (zs.drop 16).take 4 =
      zs := by
    simp only [← List.take_add]
    exact List.take_of_length_le (Nat.le_of_eq hz)
  rw [hhead]
  simp only [List.append_assoc] at haddr ⊢
  rw [haddr]

/-- What is accepted starts with the bytes of the message read. -/
theorem bytes_of_parse {m m₀ : ARPMessage} {bufs : List Bytes}
    (h : L1.parse (parse m₀) bufs = some (some m)) :
    m.supported ∧ m.bytes <+: bufs.flatten := by
  obtain ⟨p', e, he⟩ := parse_eq_some.mp h
  obtain ⟨⟨m₁, p₁⟩, e₁, e⟩ := Option.bind_eq_some_iff.mp e
  by_cases hs : m₁.supported
  · have e₂ : parseAddresses m₁ p₁ = some (m, p') :=
      (congrFun (if_neg (not_not_intro hs)) p₁).symm.trans e
    have hreads := parseAddresses_reads m₁
    obtain ⟨ys, xs, hxs, hy, rfl, hp₁⟩ :=
      (parseHead_reads m₀).sound (.new bufs) e₁ (hreads.ok e₂ he)
    obtain ⟨zs, ws, rfl, hz, rfl, -⟩ := hreads.sound hp₁ e₂ he
    exact ⟨hs, ws, by rw [hxs, bytes_of hy hz, List.append_assoc]⟩
  · have e₂ := (congrFun (if_pos hs) p₁).symm.trans e
    cases e₂
    cases he

theorem bytes_length (m : ARPMessage) : m.bytes.length = 28 := by
  simp [bytes]

end ARPMessage

/-! ## Both formats -/

theorem codecs_inverse :
    (∀ (f f₀ : EthernetFrame) (bufs : List Bytes),
      bufs = f.buffers ∨ bufs = [f.buffers.flatten] →
      ∃ f', L1.parse f₀.parse bufs = some (some f') ∧ f'.header = f.header ∧
        f'.payload.flatten = f.payload.flatten) ∧
    (∀ (m m₀ : ARPMessage) (t : Bytes) (rest : List Bytes), m.supported →
      ∃ bufs, m.buffers = some bufs ∧
        L1.parse m₀.parse ((bufs.flatten ++ t) :: rest) = some (some m)) ∧
    (∀ (m m₀ : ARPMessage) (bufs : List Bytes), L1.parse m₀.parse bufs = some (some m) →
      ∃ out, m.buffers = some out ∧ out.flatten.length = 28 ∧
        out.flatten = bufs.flatten.take 28) := by
  refine ⟨?_, ?_, ?_⟩
  · intro f f₀ bufs hbufs
    have hf := f.buffers_eq
    rcases hbufs with rfl | rfl
    · have e := EthernetFrame.parse_buffers f₀ f.header [] (Serializer.spaced f.payload)
      rw [List.append_nil, ← hf] at e
      refine ⟨_, e, rfl, ?_⟩
      rw [leftOver_flatten, List.nil_append, Serializer.spaced_flatten]
    · have e := EthernetFrame.parse_buffers f₀ f.header f.payload.flatten []
      have hflat : f.buffers.flatten = f.header.bytes ++ f.payload.flatten := by
        rw [hf, List.flatten_cons, Serializer.spaced_flatten]
      rw [← hflat] at e
      refine ⟨_, e, rfl, ?_⟩
      rw [leftOver_flatten, List.flatten_nil, List.append_nil]
  · intro m m₀ t rest hs
    refine ⟨_, ARPMessage.buffers_eq hs, ?_⟩
    rw [List.flatten_singleton]
    have hne : m.bytes ++ t ≠ [] := by simp [m.bytes_ne_nil]
    obtain ⟨p, e, hp⟩ := ARPMessage.parse_at m₀ hs (Parser.At.new _ rest hne)
    exact parse_eq_some.mpr ⟨p, e, hp.ok⟩
  · intro m m₀ bufs h
    obtain ⟨hs, hm⟩ := ARPMessage.bytes_of_parse h
    refine ⟨_, ARPMessage.buffers_eq hs, ?_, ?_⟩
    · rw [List.flatten_singleton, m.bytes_length]
    · rw [List.flatten_singleton, List.prefix_iff_eq_take.mp hm, m.bytes_length]

/-- A padded reply is read back, and starts with its own 28 bytes. -/
theorem codecs_inverse_padded :
    let m : ARPMessage := { opcode := ARPMessage.OPCODE_REPLY, senderIpAddress := 0x0a000001 }
    L1.parse (ARPMessage.parse {}) [m.bytes ++ [0, 0]] = some (some m) ∧
      m.bytes = (m.bytes ++ [0, 0]).take 28 := by
  intro m
  have hm : m.buffers = some [m.bytes] := ARPMessage.buffers_eq (by decide)
  obtain ⟨bufs, hb, hp⟩ := codecs_inverse.2.1 m {} [0, 0] [] (by decide)
  rw [hm, Option.some.injEq] at hb
  subst hb
  rw [List.flatten_singleton] at hp
  obtain ⟨out, ho, -, hout⟩ := codecs_inverse.2.2 m {} _ hp
  rw [hm, Option.some.injEq] at ho
  subst ho
  rw [List.flatten_singleton, List.flatten_singleton] at hout
  exact ⟨hp, hout⟩

end StreamSocket.L1
