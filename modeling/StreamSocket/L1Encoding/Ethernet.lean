import StreamSocket.L1Encoding.Ipv4

/-!
# Ethernet frames and ARP messages

A frame is a 14-byte header and the payload's buffers. An ARP message has a
fixed length; only Ethernet over IPv4, and only requests and replies, are
supported: the rest is refused on the way in and throws on the way out.

Results:
* `ARPMessage.buffers_eq`: a supported message is written as `bytes`.
* `ARPMessage.parse_at`: and read back from them, whatever follows.
-/
namespace StreamSocket.L1

/-- mirrors src/util/ethernet_header.hh:9-10 -/
structure EthernetAddress where
  b0 : UInt8 := 0
  b1 : UInt8 := 0
  b2 : UInt8 := 0
  b3 : UInt8 := 0
  b4 : UInt8 := 0
  b5 : UInt8 := 0
  deriving DecidableEq, Repr

/-- mirrors src/util/ethernet_header.hh:13 -/
def ETHERNET_BROADCAST : EthernetAddress := ⟨0xff, 0xff, 0xff, 0xff, 0xff, 0xff⟩

namespace EthernetAddress

/-- mirrors src/util/ethernet_header.cc:65-67 -/
def serialize (a : EthernetAddress) (s : Serializer) : Serializer :=
  let s := s.integer 1 a.b0.toNat
  let s := s.integer 1 a.b1.toNat
  let s := s.integer 1 a.b2.toNat
  let s := s.integer 1 a.b3.toNat
  let s := s.integer 1 a.b4.toNat
  s.integer 1 a.b5.toNat

/-- mirrors src/util/ethernet_header.cc:48-50 -/
def parse (a : EthernetAddress) : Parse EthernetAddress := do
  let b0 ← Parser.u8 a.b0
  let b1 ← Parser.u8 a.b1
  let b2 ← Parser.u8 a.b2
  let b3 ← Parser.u8 a.b3
  let b4 ← Parser.u8 a.b4
  let b5 ← Parser.u8 a.b5
  return ⟨b0, b1, b2, b3, b4, b5⟩

def bytes (a : EthernetAddress) : Bytes :=
  beBytes 1 a.b0.toNat ++ beBytes 1 a.b1.toNat ++ beBytes 1 a.b2.toNat ++
    beBytes 1 a.b3.toNat ++ beBytes 1 a.b4.toNat ++ beBytes 1 a.b5.toNat

theorem serialize_eq (a : EthernetAddress) (s : Serializer) :
    a.serialize s = { s with buffer := s.buffer ++ a.bytes } := by
  simp only [serialize, Serializer.integer, bytes, List.append_assoc]

theorem parse_at (a a₀ : EthernetAddress) {p : Parser} {zs : Bytes} {rest : List Bytes}
    (hp : p.At (a.bytes ++ zs) rest) : ∃ p', parse a₀ p = some (a, p') ∧ p'.At zs rest := by
  unfold bytes at hp
  simp only [List.append_assoc] at hp
  obtain ⟨p₀, e₀, hp⟩ := Parser.u8_at a₀.b0 hp
  obtain ⟨p₁, e₁, hp⟩ := Parser.u8_at a₀.b1 hp
  obtain ⟨p₂, e₂, hp⟩ := Parser.u8_at a₀.b2 hp
  obtain ⟨p₃, e₃, hp⟩ := Parser.u8_at a₀.b3 hp
  obtain ⟨p₄, e₄, hp⟩ := Parser.u8_at a₀.b4 hp
  obtain ⟨p', e', hp⟩ := Parser.u8_at a₀.b5 hp
  refine ⟨p', ?_, hp⟩
  unfold parse
  rw [bind_of_some e₀, bind_of_some e₁, bind_of_some e₂, bind_of_some e₃, bind_of_some e₄,
    bind_of_some e']
  rfl

end EthernetAddress

/-- mirrors src/util/ethernet_header.hh:19-34 -/
structure EthernetHeader where
  dst : EthernetAddress := {}
  src : EthernetAddress := {}
  type : UInt16 := 0
  deriving DecidableEq, Repr

namespace EthernetHeader

/-- mirrors src/util/ethernet_header.hh:22-23 -/
def TYPE_IPv4 : UInt16 := 0x800
def TYPE_ARP : UInt16 := 0x806

/-- mirrors src/util/ethernet_header.cc:45-59 -/
def parse (h : EthernetHeader) : Parse EthernetHeader := do
  let dst ← h.dst.parse
  let src ← h.src.parse
  let type ← Parser.u16 h.type
  return { dst := dst, src := src, type := type }

/-- mirrors src/util/ethernet_header.cc:61-75 -/
def serialize (h : EthernetHeader) (s : Serializer) : Serializer :=
  (h.src.serialize (h.dst.serialize s)).integer 2 h.type.toNat

end EthernetHeader

/-- mirrors src/util/ethernet_frame.hh:9-13 -/
structure EthernetFrame where
  header : EthernetHeader := {}
  payload : List Bytes := []
  deriving DecidableEq, Repr

namespace EthernetFrame

/-- mirrors src/util/ethernet_frame.hh:14-18 -/
def parse (f : EthernetFrame) : Parse EthernetFrame := do
  let header ← f.header.parse
  let payload ← Parser.allRemaining
  return { header := header, payload := payload }

/-- mirrors src/util/ethernet_frame.hh:20-24 -/
def serialize (f : EthernetFrame) (s : Serializer) : Serializer :=
  (f.header.serialize s).pushBuffers f.payload

/-- `serialize( frame )`.
mirrors src/util/parser.hh:208-214 -/
def buffers (f : EthernetFrame) : List Bytes := (f.serialize {}).finish

end EthernetFrame

/-! ## ARP -/

/-- mirrors src/util/arp_message.hh:10-26 -/
structure ARPMessage where
  hardwareType : UInt16 := 1
  protocolType : UInt16 := EthernetHeader.TYPE_IPv4
  hardwareAddressSize : UInt8 := 6
  protocolAddressSize : UInt8 := 4
  opcode : UInt16 := 0
  senderEthernetAddress : EthernetAddress := {}
  senderIpAddress : UInt32 := 0
  targetEthernetAddress : EthernetAddress := {}
  targetIpAddress : UInt32 := 0
  deriving DecidableEq, Repr

namespace ARPMessage

/-- mirrors src/util/arp_message.hh:11-13 -/
def TYPE_ETHERNET : UInt16 := 1
def OPCODE_REQUEST : UInt16 := 1
def OPCODE_REPLY : UInt16 := 2

/-- mirrors src/util/arp_message.cc:9-15 -/
def supported (m : ARPMessage) : Bool :=
  m.hardwareType = TYPE_ETHERNET ∧ m.protocolType = EthernetHeader.TYPE_IPv4 ∧
    m.hardwareAddressSize = 6 ∧ m.protocolAddressSize = 4 ∧
    (m.opcode = OPCODE_REQUEST ∨ m.opcode = OPCODE_REPLY)

/-- The five fields in front, which decide whether the rest is read.
mirrors src/util/arp_message.cc:36-40 -/
def parseHead (m : ARPMessage) : Parse ARPMessage := do
  let hardwareType ← Parser.u16 m.hardwareType
  let protocolType ← Parser.u16 m.protocolType
  let hardwareAddressSize ← Parser.u8 m.hardwareAddressSize
  let protocolAddressSize ← Parser.u8 m.protocolAddressSize
  let opcode ← Parser.u16 m.opcode
  return { m with
    hardwareType := hardwareType
    protocolType := protocolType
    hardwareAddressSize := hardwareAddressSize
    protocolAddressSize := protocolAddressSize
    opcode := opcode }

/-- mirrors src/util/arp_message.cc:34-58 -/
def parse (m : ARPMessage) : Parse ARPMessage := do
  let m ← parseHead m
  if ¬ m.supported then
    Parser.setError
    return m
  else
    let senderEthernetAddress ← m.senderEthernetAddress.parse
    let senderIpAddress ← Parser.u32 m.senderIpAddress
    let targetEthernetAddress ← m.targetEthernetAddress.parse
    let targetIpAddress ← Parser.u32 m.targetIpAddress
    return { m with
      senderEthernetAddress := senderEthernetAddress
      senderIpAddress := senderIpAddress
      targetEthernetAddress := targetEthernetAddress
      targetIpAddress := targetIpAddress }

/-- `none`: "unsupported field combination" is thrown.
mirrors src/util/arp_message.cc:60-83 -/
def serialize (m : ARPMessage) (s : Serializer) : Option Serializer :=
  if ¬ m.supported then none
  else
    let s := s.integer 2 m.hardwareType.toNat
    let s := s.integer 2 m.protocolType.toNat
    let s := s.integer 1 m.hardwareAddressSize.toNat
    let s := s.integer 1 m.protocolAddressSize.toNat
    let s := s.integer 2 m.opcode.toNat
    let s := (m.senderEthernetAddress.serialize s).integer 4 m.senderIpAddress.toNat
    some ((m.targetEthernetAddress.serialize s).integer 4 m.targetIpAddress.toNat)

/-- `serialize( arp )`.
mirrors src/util/parser.hh:208-214 -/
def buffers (m : ARPMessage) : Option (List Bytes) := (m.serialize {}).map Serializer.finish

def bytes (m : ARPMessage) : Bytes :=
  beBytes 2 m.hardwareType.toNat ++ beBytes 2 m.protocolType.toNat ++
    beBytes 1 m.hardwareAddressSize.toNat ++ beBytes 1 m.protocolAddressSize.toNat ++
    beBytes 2 m.opcode.toNat ++ m.senderEthernetAddress.bytes ++
    beBytes 4 m.senderIpAddress.toNat ++ m.targetEthernetAddress.bytes ++
    beBytes 4 m.targetIpAddress.toNat

theorem bytes_ne_nil (m : ARPMessage) : m.bytes ≠ [] := by
  intro h
  have := congrArg List.length h
  simp [bytes] at this

theorem buffers_eq {m : ARPMessage} (h : m.supported) : m.buffers = some [m.bytes] := by
  unfold buffers serialize
  rw [if_neg (not_not_intro h)]
  simp only [Option.map_some, Serializer.finish, Serializer.flush, Serializer.integer,
    EthernetAddress.serialize_eq, bytes, List.append_assoc, List.nil_append]

theorem parseHead_at (m m₀ : ARPMessage) {p : Parser} {zs : Bytes} {rest : List Bytes}
    (hp : p.At (beBytes 2 m.hardwareType.toNat ++ (beBytes 2 m.protocolType.toNat ++
      (beBytes 1 m.hardwareAddressSize.toNat ++ (beBytes 1 m.protocolAddressSize.toNat ++
      (beBytes 2 m.opcode.toNat ++ zs))))) rest) :
    ∃ p', parseHead m₀ p = some ({ m₀ with
      hardwareType := m.hardwareType
      protocolType := m.protocolType
      hardwareAddressSize := m.hardwareAddressSize
      protocolAddressSize := m.protocolAddressSize
      opcode := m.opcode }, p') ∧ p'.At zs rest := by
  obtain ⟨p₀, e₀, hp⟩ := Parser.u16_at m₀.hardwareType hp
  obtain ⟨p₁, e₁, hp⟩ := Parser.u16_at m₀.protocolType hp
  obtain ⟨p₂, e₂, hp⟩ := Parser.u8_at m₀.hardwareAddressSize hp
  obtain ⟨p₃, e₃, hp⟩ := Parser.u8_at m₀.protocolAddressSize hp
  obtain ⟨p', e', hp⟩ := Parser.u16_at m₀.opcode hp
  refine ⟨p', ?_, hp⟩
  unfold parseHead
  rw [bind_of_some e₀, bind_of_some e₁, bind_of_some e₂, bind_of_some e₃, bind_of_some e']
  rfl

/-- A supported message is read back, whatever follows it. -/
theorem parse_at {m : ARPMessage} (m₀ : ARPMessage) (h : m.supported) {p : Parser} {zs : Bytes}
    {rest : List Bytes} (hp : p.At (m.bytes ++ zs) rest) :
    ∃ p', parse m₀ p = some (m, p') ∧ p'.At zs rest := by
  unfold bytes at hp
  simp only [List.append_assoc] at hp
  obtain ⟨p₀, e₀, hp⟩ := parseHead_at m m₀ hp
  obtain ⟨p₁, e₁, hp⟩ := EthernetAddress.parse_at _ m₀.senderEthernetAddress hp
  obtain ⟨p₂, e₂, hp⟩ := Parser.u32_at m₀.senderIpAddress hp
  obtain ⟨p₃, e₃, hp⟩ := EthernetAddress.parse_at _ m₀.targetEthernetAddress hp
  obtain ⟨p', e', hp⟩ := Parser.u32_at m₀.targetIpAddress hp
  refine ⟨p', ?_, hp⟩
  unfold parse
  rw [bind_of_some e₀]
  refine (congrFun (if_neg (not_not_intro h)) p₀).trans ?_
  rw [bind_of_some e₁, bind_of_some e₂, bind_of_some e₃, bind_of_some e']
  rfl

/-- The buffers that a supported message is sent in are read back. -/
theorem parse_buffers {m : ARPMessage} (h : m.supported) :
    L1.parse (parse {}) [m.bytes] = some (some m) := by
  have hp := Parser.At.new m.bytes [] m.bytes_ne_nil
  rw [← List.append_nil m.bytes] at hp
  obtain ⟨p', e, hp'⟩ := parse_at {} h hp
  rw [List.append_nil] at e
  exact parse_eq_some.mpr ⟨p', e, hp'.ok⟩

end ARPMessage
end StreamSocket.L1
