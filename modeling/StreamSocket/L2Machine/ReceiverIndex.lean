import StreamSocket.L2Machine.TcpReceiver

/-!
# From sequence numbers to stream indices

`receive` takes 1 off the absolute sequence number `a` of a segment unless it
is 0, whatever the segment holds. That is right if the SYN flag is set exactly
at `a = 0`: a SYN elsewhere takes a number of its own that the payload behind
it is not moved by, and without a SYN the byte at number 0 has no index, yet
is given the first.

Results:
* `offered_iff_dictated`: when the index of every byte is the one dictated.
* `index_mapping_iff`: then nothing is stored at another index.
-/
namespace StreamSocket.L2.TCPReceiver

open L1

/-- Byte `j` of the payload goes to the Reassembler as stream index `k`. -/
def Offered (t : TCPReceiver) (m : TCPSenderMessage) (inbound : ByteStream) (j k : Nat) : Prop :=
  j < m.payload.length ∧ k = streamIndex (t.absSeqno m inbound) + j

/-- Stream index `k` has absolute sequence number `k + 1`, and the payload comes
after the SYN. -/
def Dictated (t : TCPReceiver) (m : TCPSenderMessage) (inbound : ByteStream) (j k : Nat) : Prop :=
  j < m.payload.length ∧ k + 1 = t.absSeqno m inbound + m.SYN.toNat + j

instance (t : TCPReceiver) (m : TCPSenderMessage) (inbound : ByteStream) (j k : Nat) :
    Decidable (t.Offered m inbound j k) := inferInstanceAs (Decidable (_ ∧ _))

instance (t : TCPReceiver) (m : TCPSenderMessage) (inbound : ByteStream) (j k : Nat) :
    Decidable (t.Dictated m inbound j k) := inferInstanceAs (Decidable (_ ∧ _))

/-- What `receive` does with a segment that passes the window test: each byte is
offered at the index that is dictated, a byte without one is ignored, and
nothing is stored at another index (of 64 bits). -/
structure IndexMapping (t : TCPReceiver) (m : TCPSenderMessage) (r : Reassembler)
    (inbound : ByteStream) : Prop where
  call : t.receive m r inbound = (r.insert (streamIndex (t.absSeqno m inbound)) m.payload
    (t.recordFin m).fin inbound).map fun (r, out) => (t.recordFin m, r, out)
  offered : ∀ j k, t.Offered m inbound j k ↔ t.Dictated m inbound j k
  stored : ∀ r', r.store (streamIndex (t.absSeqno m inbound)) m.payload inbound = some r' →
    ∀ p : Nat, r'.flag[p]? = some true → r.flag[p]? ≠ some true → ∃ j k,
      t.Dictated m inbound j k ∧ r'.buffer[p]? = m.payload[j]? ∧
      (r.baseIndex + p) % 2 ^ 64 = k % 2 ^ 64

/-- One less than the payload's first number, SYN or not. -/
theorem streamIndex_eq_iff (a : Nat) (syn : Bool) :
    streamIndex a + 1 = a + syn.toNat ↔ (syn = true ↔ a = 0) := by
  unfold streamIndex
  cases syn <;> split <;> simp <;> omega

theorem offered_iff_dictated {t : TCPReceiver} {m : TCPSenderMessage} {inbound : ByteStream} :
    (∀ j k, t.Offered m inbound j k ↔ t.Dictated m inbound j k) ↔
      m.payload = [] ∨ (m.SYN = true ↔ t.absSeqno m inbound = 0) := by
  rw [← streamIndex_eq_iff]
  unfold Offered Dictated
  constructor
  · intro hall
    by_cases hp : m.payload = []
    · exact .inl hp
    · have hlen : 0 < m.payload.length := List.length_pos_iff.mpr hp
      exact .inr ((hall 0 _).mp ⟨hlen, rfl⟩).2
  · rintro (hp | he) j k
    · rw [hp]; simp
    · rw [and_congr_right_iff]
      omega

/-- **Sequence numbers dictate stream indices.** Once SYN is received, a segment
that passes the window test is mapped rightly if and only if it has no payload,
or its SYN flag is set exactly at absolute sequence number 0. -/
theorem index_mapping_iff (t : TCPReceiver) (m : TCPSenderMessage) (r : Reassembler)
    (inbound : ByteStream) (hsyn : t.syn = true) (ho : t.Overlaps m inbound) :
    t.IndexMapping m r inbound ↔
      m.payload = [] ∨ (m.SYN = true ↔ t.absSeqno m inbound = 0) := by
  rw [← offered_iff_dictated]
  refine ⟨fun h => h.offered, fun hoff => ⟨receive_overlaps hsyn ho r, hoff, ?_⟩⟩
  intro r' hst p hset hclear
  rcases Reassembler.store_sound hst hset with hold | ⟨j, hj, hbuf, hidx⟩
  · exact absurd hold hclear
  · exact ⟨j, _, (hoff j _).mp ⟨hj, rfl⟩, hbuf, hidx⟩

/-- The segment behind the SYN, and the SYN again with the first byte. -/
theorem index_mapping_plain :
    let t : TCPReceiver := { syn := true, isn := ⟨7⟩ }
    t.IndexMapping { seqno := ⟨8⟩, payload := [97, 98] } {} (.new 4) ∧
      t.IndexMapping { seqno := ⟨7⟩, SYN := true, payload := [97] } {} (.new 4) := by
  intro t
  exact ⟨(index_mapping_iff t _ {} (.new 4) rfl (by decide +kernel)).mpr (.inr (by decide +kernel)),
    (index_mapping_iff t _ {} (.new 4) rfl (by decide +kernel)).mpr (.inr (by decide +kernel))⟩

/-- After a SYN at 7, "ab" at 7 without SYN: the byte at number 0 is pushed as
index 0, and the one at number 1, which has index 0, as index 1. -/
theorem byte_of_syn_stored :
    let t : TCPReceiver := { syn := true, isn := ⟨7⟩ }
    let m : TCPSenderMessage := { seqno := ⟨7⟩, payload := [97, 98] }
    TCPReceiver.receive {} { seqno := ⟨7⟩, SYN := true } {} (.new 4) = some (t, {}, .new 4) ∧
      t.Overlaps m (.new 4) ∧ ¬ t.IndexMapping m {} (.new 4) ∧
      (t.receive m {} (.new 4)).map (fun (_, _, inbound) => inbound.stream) = some [97, 98] := by
  intro t m
  refine ⟨by decide +kernel, by decide +kernel, fun h => ?_, by decide +kernel⟩
  have hdict := (h.offered 0 0).mp (by decide +kernel)
  exact absurd hdict (by decide +kernel)

end StreamSocket.L2.TCPReceiver
