import StreamSocket.L3Protocol.ReceiverRun

/-!
# The same segment twice

One `TCPReceiver` with its `Reassembler` and inbound stream takes segments
without bounds on their positions, and pops of any length. The capacity is
below `2^31`, so that a number near one end of the window is read as the same
number from the other.

The first delivery moves `bytes_pushed`, from which the second unwraps the
sequence number and tests the window; what it inserts it has inserted before.

Results:
* `absSeqno_again`: the sequence number is unwrapped as before.
* `receive_twice`: the second delivery changes nothing.
-/
namespace StreamSocket.L3.ReceiverTwice

open L1 L2 ReceiverRun

def step (s : State) : Label → Option State
  | .segment m =>
    if m.payload.length < 2 ^ 63 then
      (s.t.receive m s.r s.inbound).map fun (t, r, inbound) => ⟨t, r, inbound⟩
    else none
  | .pop len => some { s with inbound := Reader.pop s.inbound len }

def machine : LTS State Label :=
  LTS.ofFn (fun s => ∃ c, c < 2 ^ 64 ∧ s = State.start c) step

/-! ## The invariant -/

/-- Of receivers of this capacity. -/
def Inv (s : State) : Prop := s.inbound.capacity < 2 ^ 31 → s.r.Inv s.inbound

theorem inv_start {c : Nat} (hc : c < 2 ^ 64) : Inv (.start c) :=
  fun _ => Reassembler.inv_new c hc

theorem receive_capacity {t t' : TCPReceiver} {m : TCPSenderMessage} {r r' : Reassembler}
    {inbound inbound' : ByteStream} (h : t.receive m r inbound = some (t', r', inbound')) :
    inbound'.capacity = inbound.capacity := by
  unfold TCPReceiver.receive at h
  dsimp only at h
  split_ifs at h
  · cases h; rfl
  · obtain ⟨⟨r₁, out⟩, hins, h⟩ := Option.map_eq_some_iff.mp h
    cases h
    exact Reassembler.insert_capacity hins
  · cases h; rfl

theorem receive_inv {t t' : TCPReceiver} {m : TCPSenderMessage} {r r' : Reassembler}
    {inbound inbound' : ByteStream} (hi : r.Inv inbound) (hc : inbound.capacity < 2 ^ 31)
    (hm : m.payload.length < 2 ^ 63) (h : t.receive m r inbound = some (t', r', inbound')) :
    r'.Inv inbound' := by
  rcases TCPReceiver.receive_cases hi m fun ho => ho.fits_of_capacity hi hc hm with
    ⟨-, -, he⟩ | ⟨-, -, he⟩ | ⟨-, -, tmp, r₁, out, he, hins⟩
  all_goals rw [he] at h; cases h
  · exact hi
  · exact hi
  · exact hins.inv

theorem Inv.step {s s' : State} {l : Label} (h : Inv s)
    (hs : ReceiverTwice.step s l = some s') : Inv s' := by
  intro hc
  cases l with
  | segment m =>
    simp only [ReceiverTwice.step] at hs
    split at hs
    · rename_i hm
      obtain ⟨⟨t, r, inbound⟩, hr, hs⟩ := Option.map_eq_some_iff.mp hs
      cases hs
      rw [receive_capacity hr] at hc
      exact receive_inv (h hc) hc hm hr
    · cases hs
  | pop len =>
    cases hs
    have hcap : (Reader.pop s.inbound len).capacity = s.inbound.capacity := by
      unfold Reader.pop; split <;> rfl
    exact (h (hcap ▸ hc)).pop len

theorem inductive_inv : machine.Inductive Inv where
  init := by rintro _ ⟨c, hc, rfl⟩; exact inv_start hc
  step := fun _ _ _ h hs => h.step hs

/-! ## The second delivery -/

/-- `t'` and `inbound'` are what a first delivery leaves. -/
theorem absSeqno_again {t t' : TCPReceiver} {m : TCPSenderMessage} {r r' : Reassembler}
    {inbound inbound' : ByteStream} {first : Nat} {tmp : Bytes} {last : Bool}
    (ho : t.Overlaps m inbound) (hi : r.Inv inbound)
    (hc : inbound.capacity + m.payload.length < 2 ^ 31 - 2) (hisn : t'.isn = t.isn)
    (hins : Reassembler.Inserted r inbound first m.payload last tmp r' inbound') :
    t'.absSeqno m inbound' = t.absSeqno m inbound := by
  obtain ⟨h1, h2, h3, h4⟩ := ho.bounds hi.out (by omega) (by omega)
  have hlen : m.sequenceLength = m.SYN.toNat + m.payload.length + m.FIN.toNat := rfl
  have hsyn := Bool.toNat_le m.SYN
  have hfin := Bool.toNat_le m.FIN
  have hedge := Bool.toNat_le (t.fin && inbound.close)
  have hp : Writer.bytesPushed inbound = r.baseIndex := hi.base.symm
  have hp' : Writer.bytesPushed inbound' = r'.baseIndex := hins.inv.base.symm
  have hbase := hins.base
  have hfits := hins.fits
  unfold TCPReceiver.absSeqno at *
  rw [hisn]
  exact Wrap32.unwrap_eq_of_near (by omega) (by omega) (by omega) (by omega)

theorem recordFin_again (t : TCPReceiver) (m : TCPSenderMessage) :
    (t.recordFin m).recordFin m = t.recordFin m := by
  unfold TCPReceiver.recordFin
  split <;> rfl

theorem receive_initialized {t t' : TCPReceiver} {m : TCPSenderMessage} {r r' : Reassembler}
    {inbound inbound' : ByteStream} (h : t.receive m r inbound = some (t', r', inbound'))
    (hsyn : (t.recordSyn m).syn = true) (ho : (t.recordSyn m).Overlaps m inbound) :
    r'.initialized = true := by
  have hopen : ¬ (!t.syn && !m.SYN) = true := by
    intro hno
    unfold TCPReceiver.recordSyn at hsyn
    simp_all
  rw [TCPReceiver.receive_of_opened hopen, TCPReceiver.receive_overlaps hsyn ho] at h
  obtain ⟨⟨r₁, out⟩, hins, h⟩ := Option.map_eq_some_iff.mp h
  cases h
  exact Reassembler.insert_initialized hins

/-- A segment that was inserted is not inserted again, or without effect. -/
theorem receive_inserted {t : TCPReceiver} {m : TCPSenderMessage} {r r' : Reassembler}
    {inbound inbound' : ByteStream} {tmp : Bytes} (hsyn : t.syn = true)
    (ho : t.Overlaps m inbound) (hi : r.Inv inbound)
    (hc : inbound.capacity + m.payload.length < 2 ^ 31 - 2) (hinit : r'.initialized = true)
    (hins : Reassembler.Inserted r inbound (TCPReceiver.streamIndex (t.absSeqno m inbound))
      m.payload (t.recordFin m).fin tmp r' inbound') :
    (t.recordFin m).receive m r' inbound' = some (t.recordFin m, r', inbound') := by
  have hsyn' : (t.recordFin m).syn = true := by rw [TCPReceiver.recordFin_syn, hsyn]
  have ha : (t.recordFin m).absSeqno m inbound' = t.absSeqno m inbound :=
    absSeqno_again ho hi hc (TCPReceiver.recordFin_isn t m) hins
  obtain ⟨hidx, hw, hlt⟩ := ho.fits_of_capacity hi (by omega) (by omega)
  -- the window still ends where it did
  have hfit : r'.Fits inbound' (TCPReceiver.streamIndex (t.absSeqno m inbound)) m.payload := by
    have hbase := hins.base
    have hcap := hins.cap
    have hfits := hins.fits
    have hstream : inbound'.stream.length = inbound.stream.length + tmp.length := by
      rw [hins.stream, List.length_append]
    unfold Reassembler.Fits
    rw [hins.inv.out.available]
    omega
  by_cases ho' : (t.recordFin m).Overlaps m inbound'
  · rw [TCPReceiver.receive_overlaps hsyn' ho', recordFin_again, ha,
      hins.again hi.sized.len hinit hfit hlt, Option.map_some]
  · exact TCPReceiver.receive_not_overlaps hsyn' ho' r'

/-- **Duplicate delivery is harmless.** In every reachable state, where the
capacity and the payload are below `2^31 - 2` together, a segment that is
received twice in a row leaves what it leaves if received once. -/
theorem receive_twice (s : State) (hr : machine.Reachable s) (m : TCPSenderMessage)
    (hc : s.inbound.capacity + m.payload.length < 2 ^ 31 - 2) : ∃ s' s'',
    step s (.segment m) = some s' ∧ step s' (.segment m) = some s'' ∧ s'' = s' ∧
      s''.t.send s''.inbound = s'.t.send s'.inbound := by
  have hi := inductive_inv.reachable s hr (by omega)
  have hm : m.payload.length < 2 ^ 63 := by omega
  suffices h : ∃ t' r' inbound', s.t.receive m s.r s.inbound = some (t', r', inbound') ∧
      t'.receive m r' inbound' = some (t', r', inbound') by
    obtain ⟨t', r', inbound', h1, h2⟩ := h
    refine ⟨⟨t', r', inbound'⟩, ⟨t', r', inbound'⟩, ?_, ?_, rfl, rfl⟩
    · simp only [step, if_pos hm, h1, Option.map_some]
    · simp only [step, if_pos hm, h2, Option.map_some]
  rcases TCPReceiver.receive_cases hi m fun ho => ho.fits_of_capacity hi (by omega) hm with
    ⟨h1, h2, he⟩ | ⟨hsyn, hno, he⟩ | ⟨hsyn, ho, tmp, r', inbound', he, hins⟩
  · exact ⟨_, _, _, he, he⟩
  · exact ⟨_, _, _, he, TCPReceiver.receive_not_overlaps hsyn hno s.r⟩
  · exact ⟨_, _, _, he, receive_inserted hsyn ho hi hc (receive_initialized he hsyn ho) hins⟩

/-- After "cd" behind a hole, "ab" with a FIN. -/
theorem receive_twice_hole : ∃ s, machine.Run (.start 4) [.segment { seqno := ⟨7⟩, SYN := true },
      .segment { seqno := ⟨10⟩, payload := [99, 100] }] s ∧ ∃ s' s'',
    step s (.segment { seqno := ⟨8⟩, payload := [97, 98], FIN := true }) = some s' ∧
    step s' (.segment { seqno := ⟨8⟩, payload := [97, 98], FIN := true }) = some s'' ∧ s'' = s' ∧
      s''.t.send s''.inbound = s'.t.send s'.inbound := by
  obtain ⟨s, hs⟩ := Option.isSome_iff_exists.mp (show (LTS.exec step (.start 4)
    [.segment { seqno := ⟨7⟩, SYN := true },
      .segment { seqno := ⟨10⟩, payload := [99, 100] }]).isSome = true by decide +kernel)
  have hcap : s.inbound.capacity = 4 := by
    have h : (LTS.exec step (.start 4) [.segment { seqno := ⟨7⟩, SYN := true },
        .segment { seqno := ⟨10⟩, payload := [99, 100] }]).map (·.inbound.capacity) = some 4 := by
      decide +kernel
    rw [hs] at h
    exact Option.some.inj h
  exact ⟨s, LTS.run_of_exec hs, receive_twice s (LTS.reachable_of_exec ⟨4, by decide, rfl⟩ hs) _
    (by rw [hcap]; decide)⟩

end StreamSocket.L3.ReceiverTwice
