import StreamSocket.L1Encoding.Splitting
import StreamSocket.L2Machine.TcpOverIp

/-!
# Which segments are accepted

`TCPSegment::parse` against the format: a checksum over everything, twenty
bytes of fields, a data offset of five words or more, and the payload behind
it. Two strings that differ in one word of the checksum are not both
accepted.

Results:
* `parse_one`: what parsing one buffer gives, for every string of bytes.
* `parse_clear`, `parse_stuck`: what a list of buffers gives, without and with an
  empty one in front of the fields.
* `accepts_well_formed_iff`: it is what the format says, unless the data
  offset points behind the end.
* `one_word_detected`: a corrupted word, so a corrupted bit, is noticed.
-/
namespace StreamSocket.L2

open L1

namespace TCPSegment

/-- The data offset, in words. -/
def dataOffset (b : Bytes) : UInt8 := UInt8.ofNat (field b 12 1) >>> 4

/-- The segment that the fields of `b` describe. -/
def ofBytes (b : Bytes) : TCPSegment :=
  let flags := UInt8.ofNat (field b 13 1)
  { senderMessage :=
      { seqno := ⟨.ofNat (field b 4 4)⟩
        SYN := flags &&& 0b00000010 != 0
        payload := b.drop (4 * (dataOffset b).toNat)
        FIN := flags &&& 0b00000001 != 0 }
    receiverMessage :=
      { ackno := if flags &&& 0b00010000 = 0 then none else some ⟨.ofNat (field b 8 4)⟩
        windowSize := .ofNat (field b 14 2) }
    reset := flags &&& 0b00000100 != 0
    udinfo := { srcPort := .ofNat (field b 0 2), dstPort := .ofNat (field b 2 2),
                cksum := .ofNat (field b 16 2) } }

/-- What the code computes over `b`, started from `pseudo`. -/
def checksumOf (pseudo : Nat) (b : Bytes) : UInt16 :=
  (({ sum := pseudo } : InternetChecksum).add b).value

/-- The fields of the first twenty bytes, with the payload there was. -/
def fieldsOf (seg : TCPSegment) (ys : Bytes) : TCPSegment × UInt8 :=
  ({ ofBytes ys with senderMessage :=
    { (ofBytes ys).senderMessage with payload := seg.senderMessage.payload } }, dataOffset ys)

theorem parseFields_reads (seg : TCPSegment) : Reads (parseFields seg) 20 seg.fieldsOf := by
  have h := (Parser.u16_reads seg.udinfo.srcPort).bind (by decide) fun srcPort =>
    (Parser.u16_reads seg.udinfo.dstPort).bind (by decide) fun dstPort =>
    (Parser.u32_reads 0).bind (by decide) fun seqno =>
    (Parser.u32_reads seqno).bind (by decide) fun ackno =>
    (Parser.u8_reads 0).bind (by decide) fun dataOffset =>
    (Parser.u8_reads dataOffset).bind (by decide) fun octet =>
    (Parser.u16_reads seg.receiverMessage.windowSize).bind (by decide) fun windowSize =>
    (Parser.u16_reads seg.udinfo.cksum).bind (by decide) fun cksum =>
    (Parser.u16_reads 0).bind (by decide) fun _ =>
    Reads.pure ((
      { senderMessage :=
          { seg.senderMessage with
            seqno := ⟨seqno⟩
            SYN := octet &&& 0b00000010 != 0
            FIN := octet &&& 0b00000001 != 0 }
        receiverMessage :=
          { ackno := if octet &&& 0b00010000 = 0 then none else some ⟨ackno⟩
            windowSize := windowSize }
        reset := octet &&& 0b00000100 != 0
        udinfo := { srcPort := srcPort, dstPort := dstPort, cksum := cksum } },
      dataOffset >>> 4) : TCPSegment × UInt8)
  exact h.congr fun ys _ => by simp [fieldsOf, ofBytes, dataOffset, field_take]

theorem fieldsOf_take (seg : TCPSegment) (b : Bytes) :
    seg.fieldsOf (b.take 20) = seg.fieldsOf b := by
  simp [fieldsOf, ofBytes, dataOffset, field_take]

theorem badChecksum_holds {p : Parser} {xs : Bytes} (hp : p.Holds xs) (pseudo : Nat) :
    badChecksum pseudo p = some (checksumOf pseudo xs != 0, p) := by
  unfold badChecksum
  rw [hp.allRemainingBuffer]
  rfl

/-- The parser behind the options. -/
def skipped (offset : UInt8) (p : Parser) : Parser :=
  { input := p.input.removePrefix (subW 32 (offset.toNat * 4) 20)
    error := p.error || decide (offset.toNat < 5) }

theorem skipOptions_eq (offset : UInt8) (p : Parser) :
    skipOptions offset p = some ((), skipped offset p) := by
  unfold skipOptions skipped TCPHeaderMinLen
  by_cases h : offset.toNat < 5
  · simp only [h, decide_true, Bool.or_true]
    rfl
  · simp only [h, decide_false, Bool.or_false]
    rfl

theorem allRemainingBuffer_some (p : Parser) :
    ∃ payload, Parser.allRemainingBuffer p = some (payload, p) := by
  unfold Parser.allRemainingBuffer
  split
  · exact ⟨_, rfl⟩
  · exact ⟨_, rfl⟩

def withPayload (seg : TCPSegment) (payload : Bytes) : TCPSegment :=
  { seg with senderMessage := { seg.senderMessage with payload := payload } }

/-- `parse` once the checksum is right. -/
theorem parse_of_fields {seg a : TCPSegment} {offset : UInt8} {pseudo : Nat} {p p' : Parser}
    {payload : Bytes} (hbad : badChecksum pseudo p = some (false, p))
    (e : parseFields seg p = some ((a, offset), p'))
    (hrest : Parser.allRemainingBuffer (skipped offset p') = some (payload, skipped offset p')) :
    parse seg pseudo p = some (a.withPayload payload, skipped offset p') := by
  unfold parse
  rw [bind_of_some hbad, if_neg (by decide), bind_of_some e]
  show (skipOptions offset >>= _) p' = _
  rw [bind_of_some (skipOptions_eq offset p'), bind_of_some hrest]
  rfl

/-- What is left behind a header that is all there. -/
theorem skipped_holds {offset : UInt8} {p : Parser} {b : Bytes} (hp : p.Holds (b.drop 20))
    (ho : 5 ≤ offset.toNat) : (skipped offset p).Holds (b.drop (4 * offset.toNat)) := by
  have h := hp.input.removePrefix (subW 32 (offset.toNat * 4) 20)
  have hlt := offset.toNat_lt
  have hsub : subW 32 (offset.toNat * 4) 20 = 4 * offset.toNat - 20 := by
    unfold subW; omega
  rw [List.drop_drop, hsub,
    show 20 + (4 * offset.toNat - 20) = 4 * offset.toNat by omega] at h
  refine ⟨?_, by unfold skipped; rwa [hsub]⟩
  unfold skipped
  rw [hp.ok, decide_eq_false (by omega)]
  rfl

/-- Parsing one buffer, whatever is in it. -/
theorem parse_one (seg : TCPSegment) (pseudo : Nat) (b : Bytes) :
    L1.parse (parse seg pseudo) [b] = some
      (if 20 ≤ b.length ∧ 5 ≤ (dataOffset b).toNat ∧ checksumOf pseudo b = 0 then
        some (ofBytes b) else none) := by
  have hbad := badChecksum_holds (Parser.Holds.new [b]) pseudo
  rw [List.flatten_singleton] at hbad
  by_cases hc : checksumOf pseudo b = 0
  · rw [hc] at hbad
    by_cases hb : 20 ≤ b.length
    · have hne : b ≠ [] := fun h => by rw [h] at hb; cases hb
      obtain ⟨p, e, hp⟩ := (parseFields_reads seg).parse_whole hne hb
      rw [fieldsOf_take] at e
      by_cases h5 : 5 ≤ (dataOffset b).toNat
      · have hs := skipped_holds (by simpa using hp.holds) h5
        rw [if_pos ⟨hb, h5, hc⟩]
        exact parse_eq_some.mpr ⟨_, parse_of_fields hbad e hs.allRemainingBuffer, hs.ok⟩
      · obtain ⟨payload, hrest⟩ := allRemainingBuffer_some (skipped (dataOffset b) p)
        rw [if_neg fun h => h5 h.2.1]
        unfold L1.parse
        rw [parse_of_fields hbad e hrest]
        simp [skipped]
        omega
    · obtain ⟨⟨a, offset⟩, p, e, he⟩ := (parseFields_reads seg).parse_short (Nat.lt_of_not_le hb)
      obtain ⟨payload, hrest⟩ := allRemainingBuffer_some (skipped offset p)
      rw [if_neg fun h => hb h.1]
      unfold L1.parse
      rw [parse_of_fields hbad e hrest]
      simp [skipped, he]
  · rw [if_neg fun h => hc h.2.2]
    have hne : (checksumOf pseudo b != 0) = true := bne_iff_ne.mpr hc
    unfold L1.parse parse
    rw [bind_of_some hbad, hne]
    rfl

/-! ## A list of buffers -/

theorem parseFields_cutFree (seg : TCPSegment) : CutFree (parseFields seg) 20 :=
  (CutFree.u16 seg.udinfo.srcPort).bind fun _ =>
    (CutFree.u16 seg.udinfo.dstPort).bind fun _ =>
    (CutFree.u32 0).bind fun seqno =>
    (CutFree.u32 seqno).bind fun _ =>
    (CutFree.u8 0).bind fun dataOffset =>
    (CutFree.u8 dataOffset).bind fun _ =>
    (CutFree.u16 seg.receiverMessage.windowSize).bind fun _ =>
    (CutFree.u16 seg.udinfo.cksum).bind fun _ =>
    (CutFree.u16 0).bind fun _ => .pure _

/-- The payload and the error flag behind the fields. -/
theorem skipped_cursor (offset : UInt8) (c : Cursor) (bufs : List Bytes) :
    Parser.allRemainingBuffer (skipped offset (c.parser bufs)) =
      some (bufs.flatten.drop (c.k + subW 32 (offset.toNat * 4) 20),
        skipped offset (c.parser bufs)) := by
  apply BufferList.Holds.allRemainingBuffer
  show ((BufferList.after bufs c.k).removePrefix _).Holds _
  rw [BufferList.after_removePrefix]
  exact BufferList.after_holds bufs _

/-- With no empty buffer in front of the fields the cut makes no difference. -/
theorem parse_clear (seg : TCPSegment) (pseudo : Nat) {bufs : List Bytes}
    (h : Clear bufs 0 (min 20 bufs.flatten.length)) :
    L1.parse (parse seg pseudo) bufs = L1.parse (parse seg pseudo) [bufs.flatten] := by
  have hlist := badChecksum_holds (Parser.Holds.new bufs) pseudo
  have hone := badChecksum_holds (Parser.Holds.new [bufs.flatten]) pseudo
  rw [List.flatten_singleton] at hone
  unfold L1.parse
  by_cases hc : checksumOf pseudo bufs.flatten = 0
  · obtain ⟨⟨a, offset⟩, c, -, -, e, e'⟩ := parseFields_cutFree seg bufs {} h
    rw [← cursor_new] at e e'
    have hrest := skipped_cursor offset c [bufs.flatten]
    rw [List.flatten_singleton] at hrest
    rw [hc] at hlist hone
    rw [parse_of_fields hlist e (skipped_cursor offset c bufs), parse_of_fields hone e' hrest]
    rfl
  · have hne : (checksumOf pseudo bufs.flatten != 0) = true := bne_iff_ne.mpr hc
    unfold parse
    rw [bind_of_some hlist, bind_of_some hone, hne]
    rfl

/-- With an empty buffer at the front a segment whose sum checks is not read. -/
theorem parse_stuck (seg : TCPSegment) {pseudo : Nat} {bufs : List Bytes}
    (hc : checksumOf pseudo bufs.flatten = 0) (hlen : 2 ≤ bufs.flatten.length) :
    L1.parse (parse seg pseudo) ([] :: bufs) = none := by
  have hbad := badChecksum_holds (Parser.Holds.new ([] :: bufs)) pseudo
  rw [List.flatten_cons, List.nil_append, hc] at hbad
  have hn : 2 ≤ (([] : Bytes) :: bufs).flatten.length := hlen
  have hsrc := Parser.integer_stuck seg.udinfo.srcPort.toNat hn
    (not_clear.mpr ⟨0, Nat.le_refl _, Nat.zero_lt_two, .inl ⟨rfl, rfl⟩⟩)
  have hfields : parseFields seg (.new ([] :: bufs)) = none := bind_of_none (bind_of_none hsrc)
  unfold L1.parse parse
  rw [bind_of_some hbad, if_neg (by decide), bind_of_none hfields, Option.map_none]

/-- However the bytes are cut into buffers, a segment that is accepted is the one
that they describe. -/
theorem eq_ofBytes_of_parse {seg a : TCPSegment} {pseudo : Nat} {bufs : List Bytes}
    (h : L1.parse (parse seg pseudo) bufs = some (some a)) : a = ofBytes bufs.flatten := by
  obtain ⟨p', e, he⟩ := parse_eq_some.mp h
  have hbad := badChecksum_holds (Parser.Holds.new bufs) pseudo
  unfold parse at e
  rw [bind_of_some hbad] at e
  split_ifs at e with hc
  · cases e
    cases he
  obtain ⟨⟨⟨b, offset⟩, p⟩, hf, e⟩ := Option.bind_eq_some_iff.mp e
  change (skipOptions offset >>= _) p = _ at e
  rw [bind_of_some (skipOptions_eq offset p)] at e
  obtain ⟨⟨payload, p₂⟩, hrest, e⟩ := Option.bind_eq_some_iff.mp e
  obtain ⟨out, hout⟩ := allRemainingBuffer_some (skipped offset p)
  rw [hout] at hrest
  cases hrest
  cases e
  obtain ⟨hp, ho⟩ := Bool.or_eq_false_iff.mp he
  obtain ⟨ys, zs, hxs, hy, hab, hzs⟩ := (parseFields_reads seg).sound (.new bufs) hf hp
  have hys : ys = bufs.flatten.take 20 := by rw [hxs, List.take_left' hy]
  have hz : zs = bufs.flatten.drop 20 := by rw [hxs, List.drop_left' hy]
  rw [hys, fieldsOf_take] at hab
  cases hab
  have h5 : 5 ≤ (dataOffset bufs.flatten).toNat := Nat.le_of_not_lt (of_decide_eq_false ho)
  rw [(skipped_holds (hz ▸ hzs) h5).allRemainingBuffer] at hout
  cases hout
  rfl

/-! ## Well-formed segments -/

/-- The one's complement sum of `pseudo` and the words of `b` is all ones. -/
def ChecksumZero (pseudo : Nat) (b : Bytes) : Prop :=
  pseudo + wordSum false b ≠ 0 ∧ (pseudo + wordSum false b) % 0xffff = 0

/-- 32 bits hold the sum over a segment. -/
theorem checksumOf_eq_zero (h : IPv4Header) {b : Bytes} (hb : b.length ≤ 65535) :
    checksumOf h.pseudoChecksum b = 0 ↔ ChecksumZero h.pseudoChecksum b := by
  have hp := TCPOverIPv4Adapter.pseudoChecksum_lt h
  have hw := wordSum_le false b
  have hsum : (({ sum := h.pseudoChecksum } : InternetChecksum).add b).sum =
      h.pseudoChecksum + wordSum false b := by
    rw [InternetChecksum.add_sum _ _ (show h.pseudoChecksum < 2 ^ 32 by omega)]
    exact Nat.mod_eq_of_lt (show h.pseudoChecksum + wordSum false b < 2 ^ 32 by omega)
  have hlt : h.pseudoChecksum + wordSum false b < 2 ^ 32 := by omega
  have hv := InternetChecksum.value_toNat (hsum ▸ hlt)
  rw [hsum] at hv
  have hle := InternetChecksum.fold_le hlt
  have hmod := InternetChecksum.fold_mod (h.pseudoChecksum + wordSum false b)
  have hzero := InternetChecksum.fold_eq_zero (s := h.pseudoChecksum + wordSum false b)
  unfold ChecksumZero checksumOf
  rw [← UInt16.toNat_inj, hv, UInt16.toNat_zero]
  omega

/-- The format: a whole header, options included, under a right checksum. -/
def WellFormed (pseudo : Nat) (b : Bytes) : Prop :=
  20 ≤ b.length ∧ 5 ≤ (dataOffset b).toNat ∧ 4 * (dataOffset b).toNat ≤ b.length ∧
    ChecksumZero pseudo b

/-- The data offset points behind the end of a segment that is otherwise right. -/
def OptionsMissing (pseudo : Nat) (b : Bytes) : Prop :=
  20 ≤ b.length ∧ 5 ≤ (dataOffset b).toNat ∧ b.length < 4 * (dataOffset b).toNat ∧
    ChecksumZero pseudo b

/-- Parsing `b` ends, succeeds for the format's segments and for no others, and
gives the fields. -/
def AcceptsWellFormed (seg : TCPSegment) (pseudo : Nat) (b : Bytes) : Prop :=
  L1.parse (parse seg pseudo) [b] ≠ none ∧
    ((∃ a, L1.parse (parse seg pseudo) [b] = some (some a)) ↔ WellFormed pseudo b) ∧
    ∀ a, L1.parse (parse seg pseudo) [b] = some (some a) → a = ofBytes b

theorem accepts_well_formed_iff (seg : TCPSegment) (h : IPv4Header) (b : Bytes)
    (hb : b.length ≤ 65535) :
    AcceptsWellFormed seg h.pseudoChecksum b ↔ ¬ OptionsMissing h.pseudoChecksum b := by
  have hck := checksumOf_eq_zero h hb
  unfold AcceptsWellFormed
  rw [parse_one]
  constructor
  · rintro ⟨-, hiff, -⟩ ⟨h20, h5, hlt, hc⟩
    have hwf := hiff.mp ⟨ofBytes b, by rw [if_pos ⟨h20, h5, hck.mpr hc⟩]⟩
    have := hwf.2.2.1
    omega
  · intro hm
    refine ⟨by simp, ⟨?_, ?_⟩, ?_⟩
    · rintro ⟨a, ha⟩
      split_ifs at ha with hacc
      · obtain ⟨h20, h5, hc⟩ := hacc
        refine ⟨h20, h5, ?_, hck.mp hc⟩
        by_contra hle
        exact hm ⟨h20, h5, Nat.lt_of_not_le hle, hck.mp hc⟩
      · cases ha
    · rintro ⟨h20, h5, -, hc⟩
      exact ⟨ofBytes b, by rw [if_pos ⟨h20, h5, hck.mpr hc⟩]⟩
    · intro a ha
      split_ifs at ha
      · exact (Option.some.inj (Option.some.inj ha)).symm
      · cases ha

/-- A bare header is accepted. -/
theorem accepts_well_formed_bare :
    AcceptsWellFormed {} ({ len := 40 } : IPv4Header).pseudoChecksum
      [0, 0, 0, 0, 0, 0, 0, 0, 0, 0, 0, 0, 0x50, 0, 0, 0, 0xaf, 0xe5, 0, 0] := by
  refine (accepts_well_formed_iff {} { len := 40 } _ (by decide)).mpr ?_
  rintro ⟨-, -, hlt, -⟩
  revert hlt
  decide

/-- The same header is accepted when it says that ten words of options follow. -/
theorem options_missing_accepted :
    ¬ AcceptsWellFormed {} ({ len := 40 } : IPv4Header).pseudoChecksum
      [0, 0, 0, 0, 0, 0, 0, 0, 0, 0, 0, 0, 0xf0, 0, 0, 0, 0x0f, 0xe5, 0, 0] := by
  rintro ⟨-, hiff, -⟩
  rw [parse_one, if_pos (by decide)] at hiff
  have hle := (hiff.mp ⟨_, rfl⟩).2.2.1
  revert hle
  decide

/-! ## Corrupted words -/

/-- Accepted, in whatever buffers the bytes come. -/
def Accepts (pseudo : Nat) (b : Bytes) : Prop :=
  ∃ seg a bufs, bufs.flatten = b ∧ L1.parse (parse seg pseudo) bufs = some (some a)

/-- The aligned 16-bit word `i`, the last odd byte padded with zero. -/
def wordAt (b : Bytes) (i : Nat) : Nat :=
  256 * (b.getD (2 * i) 0).toNat + (b.getD (2 * i + 1) 0).toNat

theorem wordSum_at : ∀ (i : Nat) (b : Bytes), wordSum false b =
    wordSum false (b.take (2 * i)) + wordAt b i + wordSum false (b.drop (2 * i + 2))
  | _, [] => by simp [wordSum, wordAt]
  | 0, [x] => by simp [wordSum, wordAt, byteWeight, Nat.mul_comm]
  | 0, x :: y :: b => by simp [wordSum, wordAt, byteWeight, Nat.mul_comm, Nat.add_assoc]
  | i + 1, [x] => by simp [wordSum, wordAt, Nat.mul_succ]
  | i + 1, x :: y :: b => by
    have ih := wordSum_at i b
    have hw : wordAt (x :: y :: b) (i + 1) = wordAt b i := by simp [wordAt, Nat.mul_succ]
    rw [hw]
    simp only [Nat.mul_succ, wordSum, List.take_succ_cons, List.drop_succ_cons, Bool.not_false,
      Bool.not_true]
    omega

/-- Only a right checksum is accepted. -/
theorem Accepts.checksumZero {h : IPv4Header} {b : Bytes} (hb : b.length ≤ 65535)
    (ha : Accepts h.pseudoChecksum b) : ChecksumZero h.pseudoChecksum b := by
  obtain ⟨seg, a, bufs, rfl, e⟩ := ha
  obtain ⟨p, e, he⟩ := parse_eq_some.mp e
  apply (checksumOf_eq_zero h hb).mp
  by_contra hc
  unfold parse at e
  rw [bind_of_some (badChecksum_holds (.new bufs) _), if_pos (bne_iff_ne.mpr hc)] at e
  cases e
  cases he

theorem word_detected {h : IPv4Header} {b b' : Bytes} {i : Nat} (hlen : b.length = b'.length)
    (hb : b.length ≤ 65535) (htake : b.take (2 * i) = b'.take (2 * i))
    (hdrop : b.drop (2 * i + 2) = b'.drop (2 * i + 2)) (hne : wordAt b i ≠ wordAt b' i)
    (h₀ : ¬ (wordAt b i = 0 ∧ wordAt b' i = 0xffff))
    (h₁ : ¬ (wordAt b i = 0xffff ∧ wordAt b' i = 0)) :
    ¬ (Accepts h.pseudoChecksum b ∧ Accepts h.pseudoChecksum b') := by
  rintro ⟨ha, ha'⟩
  have hs := (ha.checksumZero hb).2
  have hs' := (ha'.checksumZero (hlen ▸ hb)).2
  have hlt : ∀ c, wordAt c i ≤ 0xffff := fun c => by
    have hx := (c.getD (2 * i) 0).toNat_lt
    have hy := (c.getD (2 * i + 1) 0).toNat_lt
    unfold wordAt
    omega
  have hu := hlt b
  have hv := hlt b'
  rw [wordSum_at i b] at hs
  rw [wordSum_at i b', ← htake, ← hdrop] at hs'
  omega

/-- A changed byte leaves the other byte of the word as it was. -/
theorem flipped_word (b : Bytes) {j : Nat} {x : UInt8} (hj : j < b.length)
    (hx : x ≠ b.getD j 0) :
    wordAt b (j / 2) ≠ wordAt (b.set j x) (j / 2) ∧
      ¬ (wordAt b (j / 2) = 0 ∧ wordAt (b.set j x) (j / 2) = 0xffff) ∧
      ¬ (wordAt b (j / 2) = 0xffff ∧ wordAt (b.set j x) (j / 2) = 0) := by
  have hget : ∀ k, (b.set j x).getD k 0 = if j = k then x else b.getD k 0 := by
    intro k
    rw [List.getD_eq_getElem?_getD, List.getD_eq_getElem?_getD, List.getElem?_set]
    split_ifs <;> simp_all
  have hx' : x.toNat ≠ (b.getD j 0).toNat := fun h => hx (UInt8.toNat_inj.mp h)
  have h₁ := (b.getD (2 * (j / 2)) 0).toNat_lt
  have h₂ := (b.getD (2 * (j / 2) + 1) 0).toNat_lt
  have h₃ := x.toNat_lt
  unfold wordAt
  rw [hget, hget]
  rcases Nat.mod_two_eq_zero_or_one j with hm | hm
  · have hj2 : 2 * (j / 2) = j := by omega
    rw [hj2] at h₁ h₂ ⊢
    rw [if_pos rfl, if_neg (by omega)]
    omega
  · have hj2 : 2 * (j / 2) + 1 = j := by omega
    rw [hj2] at h₂ ⊢
    rw [if_neg (by omega), if_pos rfl]
    omega

/-- A corrupted word is noticed, and so is any single bit turned over. -/
theorem one_word_detected (h : IPv4Header) :
    (∀ (b b' : Bytes) (i : Nat), b.length = b'.length → b.length ≤ 65535 →
      b.take (2 * i) = b'.take (2 * i) → b.drop (2 * i + 2) = b'.drop (2 * i + 2) →
      wordAt b i ≠ wordAt b' i → ¬ (wordAt b i = 0 ∧ wordAt b' i = 0xffff) →
      ¬ (wordAt b i = 0xffff ∧ wordAt b' i = 0) →
      ¬ (Accepts h.pseudoChecksum b ∧ Accepts h.pseudoChecksum b')) ∧
    (∀ (b : Bytes) (j k : Nat), b.length ≤ 65535 → j < b.length → k < 8 →
      Accepts h.pseudoChecksum b →
      ¬ Accepts h.pseudoChecksum (b.set j (b.getD j 0 ^^^ UInt8.ofNat (2 ^ k)))) := by
  refine ⟨fun b b' i hlen hb ht hd hne h₀ h₁ => word_detected hlen hb ht hd hne h₀ h₁, ?_⟩
  intro b j k hb hj hk ha ha'
  have hbit : UInt8.ofNat (2 ^ k) ≠ 0 := by
    interval_cases k <;> decide
  have hx : b.getD j 0 ^^^ UInt8.ofNat (2 ^ k) ≠ b.getD j 0 := by
    intro he
    exact hbit (by simpa using congrArg (b.getD j 0 ^^^ ·) he)
  obtain ⟨hne, h₀, h₁⟩ := flipped_word b hj hx
  refine word_detected ?_ hb ?_ ?_ hne h₀ h₁ ⟨ha, ha'⟩
  · rw [List.length_set]
  · rw [List.take_set_of_le (by omega)]
  · rw [List.drop_set_of_lt (by omega)]

/-- The bare header again, with a bit of its data offset turned over, and with its
ports changed. -/
theorem one_word_detected_bare :
    let b : Bytes := [0, 0, 0, 0, 0, 0, 0, 0, 0, 0, 0, 0, 0x50, 0, 0, 0, 0xaf, 0xe5, 0, 0]
    let pseudo := ({ len := 40 } : IPv4Header).pseudoChecksum
    Accepts pseudo b ∧ ¬ Accepts pseudo (b.set 12 (0x50 ^^^ 0x80)) ∧
      ¬ Accepts pseudo ([0, 1] ++ b.drop 2) := by
  intro b pseudo
  have ha : Accepts pseudo b :=
    ⟨{}, ofBytes b, [b], List.flatten_singleton, by rw [parse_one, if_pos (by decide)]⟩
  refine ⟨ha, ?_, fun ha' => ?_⟩
  · exact (one_word_detected { len := 40 }).2 b 12 7 (by decide) (by decide) (by decide) ha
  · exact (one_word_detected { len := 40 }).1 b ([0, 1] ++ b.drop 2) 0 (by decide) (by decide)
      (by decide) (by decide) (by decide) (by decide) (by decide) ⟨ha, ha'⟩

end TCPSegment
end StreamSocket.L2
