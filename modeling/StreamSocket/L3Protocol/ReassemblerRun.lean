import StreamSocket.Core.LTS
import StreamSocket.L2Machine.ReassemblerInsert

/-!
# Runs of the Reassembler: first accepted byte wins, and when the end is seen

One `Reassembler` writes one `ByteStream`; the reader pops at most what is
buffered. `step` is partial: an insert is allowed when its first index is at
most `base_index + available_capacity()` and no end index reaches `2^64`.
Three ghosts record the history: the bytes popped, the map of accepted bytes
(`FirstWins.offer` with the window of the moment), and whether a last
substring has been inserted.

* `first_accepted_wins`: in every reachable state the bytes ever pushed are
  the accepted bytes below the least index not accepted, and the counters,
  the flags and the next insert agree with that.
* `closes_exactly_iff`: with substrings of one `S`, a run keeps "closed iff a
  last substring came and all of `S` is pushed" exactly when each insert with
  the end known leaves all of `S` accepted or a byte pending behind a hole.
* `last_before_data_closes`: the run that violates it.
-/
namespace StreamSocket.L3.ReassemblerRun

open L2 FirstWins

/-- `r` and `out` are the program's; the rest is history. -/
structure State where
  r : Reassembler
  out : ByteStream
  popped : Bytes
  acc : Nat → Option UInt8
  last : Bool

inductive Label where
  | insert (first : Nat) (data : Bytes) (last : Bool)
  | pop (len : Nat)
  deriving DecidableEq, Repr

def State.start (capacity : Nat) : State :=
  { r := {}, out := .new capacity, popped := [], acc := fun _ => none, last := false }

/-- The end of the window, `base_index + available_capacity()`. -/
def State.windowEnd (s : State) : Nat := s.r.baseIndex + Writer.availableCapacity s.out

/-- The bytes ever pushed to the Writer. -/
def State.pushed (s : State) : Bytes := s.popped ++ s.out.stream

/-- What `TCPReceiver::receive` guarantees, and no index at `2^64`. -/
def State.Allows (s : State) (first : Nat) (data : Bytes) : Prop :=
  first ≤ s.windowEnd ∧ s.windowEnd < 2 ^ 64 ∧ first + data.length < 2 ^ 64

instance (s : State) (first : Nat) (data : Bytes) : Decidable (s.Allows first data) :=
  inferInstanceAs (Decidable (_ ∧ _ ∧ _))

def step (s : State) : Label → Option State
  | .insert first data last =>
    if s.Allows first data then
      (s.r.insert first data last s.out).map fun (r', out') =>
        { s with r := r', out := out', last := s.last || last,
                 acc := offer s.acc s.r.baseIndex s.windowEnd first data }
    else none
  | .pop len =>
    if len ≤ Reader.bytesBuffered s.out then
      some { s with out := Reader.pop s.out len,
                    popped := s.popped ++ (Reader.peek s.out).take len }
    else none

def machine : LTS State Label :=
  LTS.ofFn (fun s => ∃ c, c < 2 ^ 64 ∧ s = State.start c) step

/-! ## The invariant -/

/-- The Reassembler's own invariant, exact counters, and the accepted bytes
are the bytes held. -/
structure Inv (s : State) : Prop where
  inv : s.r.Inv s.out
  popped : s.out.bytesRead = s.popped.length
  pushed : s.r.baseIndex = s.pushed.length
  acc : ∀ k, s.acc k = s.r.held s.pushed k
  eof : s.r.eof = s.last

theorem inv_start {c : Nat} (hc : c < 2 ^ 64) : Inv (.start c) where
  inv := Reassembler.inv_new c hc
  popped := rfl
  pushed := rfl
  acc := fun k => by simp [State.start, State.pushed, ByteStream.new, Reassembler.held,
    Reassembler.cell]
  eof := rfl

theorem Inv.windowEnd {s : State} (h : Inv s) :
    s.windowEnd = s.r.baseIndex + (s.out.capacity - s.out.stream.length) := by
  unfold State.windowEnd; rw [h.inv.out.available]

/-- An allowed insert succeeds; `tmp` is what it hands to the Writer. -/
theorem Inv.insert {s : State} (h : Inv s) {first : Nat} {data : Bytes} (last : Bool)
    (ha : s.Allows first data) : ∃ tmp r' out', s.r.insert first data last s.out = some (r', out') ∧
      Reassembler.Inserted s.r s.out first data last tmp r' out' := by
  obtain ⟨h1, h2, h3⟩ := ha
  rw [h.windowEnd] at h1 h2
  exact Reassembler.insert_spec h.inv first data last h1 h2 h3

/-- The two kinds of step. -/
theorem Inv.step_cases {s s' : State} {l : Label} (h : Inv s) (hs : step s l = some s') :
    (∃ first data last tmp r' out', l = .insert first data last ∧ s.Allows first data ∧
      Reassembler.Inserted s.r s.out first data last tmp r' out' ∧
      s' = { s with r := r', out := out', last := s.last || last,
                    acc := offer s.acc s.r.baseIndex s.windowEnd first data }) ∨
    (∃ len, l = .pop len ∧ len ≤ s.out.stream.length ∧
      s' = { s with out := Reader.pop s.out len
                    popped := s.popped ++ s.out.stream.take len }) := by
  cases l with
  | insert first data last =>
    simp only [step] at hs
    split at hs
    · rename_i ha
      obtain ⟨tmp, r', out', h1, h2⟩ := h.insert last ha
      rw [h1] at hs
      cases hs
      exact .inl ⟨first, data, last, tmp, r', out', rfl, ha, h2, rfl⟩
    · cases hs
  | pop len =>
    simp only [step, h.inv.out.buffered] at hs
    split at hs
    · rename_i hl
      cases hs
      exact .inr ⟨len, rfl, hl, rfl⟩
    · cases hs

/-- What an insert leaves, wherever it was called from. -/
theorem Inv.inserted {s : State} (h : Inv s) {first : Nat} {data tmp : Bytes} {last : Bool}
    {r' : Reassembler} {out' : ByteStream}
    (hi : Reassembler.Inserted s.r s.out first data last tmp r' out') :
    Inv { s with r := r', out := out', last := s.last || last,
                 acc := offer s.acc s.r.baseIndex s.windowEnd first data } := by
  have hp : s.popped ++ out'.stream = s.pushed ++ tmp := by
    rw [hi.stream]; simp [State.pushed]
  refine ⟨hi.inv, hi.read.trans h.popped, ?_, fun k => ?_, ?_⟩
  · show r'.baseIndex = (s.popped ++ out'.stream).length
    rw [hp, List.length_append, ← h.pushed, hi.base]
  · show offer s.acc s.r.baseIndex s.windowEnd first data k = r'.held (s.popped ++ out'.stream) k
    rw [hp, hi.held s.pushed h.pushed.symm, h.windowEnd]
    unfold offer
    rw [h.acc k]
  · rw [hi.eof, h.eof]

theorem Inv.took {s : State} (h : Inv s) {len : Nat} (hl : len ≤ s.out.stream.length) :
    Inv { s with out := Reader.pop s.out len, popped := s.popped ++ s.out.stream.take len } := by
  have hp : (s.popped ++ s.out.stream.take len) ++ s.out.stream.drop len = s.pushed := by
    simp [State.pushed]
  have hlt := h.inv.base_lt
  have hlen := h.pushed
  simp only [State.pushed, List.length_append] at hlen
  refine ⟨h.inv.pop len, ?_, ?_, fun k => ?_, h.eof⟩
  · rw [ByteStream.pop_eq hl]
    show add64 s.out.bytesRead len = (s.popped ++ s.out.stream.take len).length
    rw [h.popped, add64_of_lt (by omega), List.length_append, List.length_take]
    omega
  all_goals simp only [State.pushed, ByteStream.pop_eq hl, hp]
  · exact h.pushed
  · exact h.acc k

theorem Inv.step {s s' : State} {l : Label} (h : Inv s)
    (hs : ReassemblerRun.step s l = some s') : Inv s' := by
  rcases h.step_cases hs with ⟨first, data, last, tmp, r', out', -, -, hi, rfl⟩ | ⟨len, -, hl, rfl⟩
  · exact h.inserted hi
  · exact h.took hl

theorem inductive_inv : machine.Inductive Inv where
  init := by rintro _ ⟨c, hc, rfl⟩; exact inv_start hc
  step := fun _ _ _ h hs => h.step hs

/-! ## First accepted byte wins -/

/-- The pushed bytes are the front of the accepted map. -/
theorem Inv.front {s : State} (h : Inv s) : Front s.acc s.pushed where
  below := fun k hk => by rw [h.acc k]; unfold Reassembler.held; rw [if_pos hk]
  gap := by
    rw [h.acc _]
    unfold Reassembler.held Reassembler.cell
    rw [if_neg (by omega), Nat.sub_self, if_neg h.inv.gap]

/-- Above the front, accepted means flagged. -/
theorem Inv.acc_above {s : State} (h : Inv s) (j : Nat) :
    (s.acc (s.pushed.length + j)).isSome = true ↔ s.r.flag[j]? = some true := by
  rw [h.acc _]
  unfold Reassembler.held
  rw [if_neg (by omega), Nat.add_sub_cancel_left, Reassembler.cell_isSome h.inv.sized.len]

/-- The number of set flags, as the size of a set of positions. -/
theorem count_true_eq_ncard (l : List Bool) :
    l.count true = {j : Nat | l[j]? = some true}.ncard := by
  induction l with
  | nil => simp
  | cons b l ih =>
    have hfin : {j : Nat | l[j]? = some true}.Finite :=
      (Set.finite_lt_nat l.length).subset fun j hj => (List.getElem?_eq_some_iff.mp hj).1
    have hsucc : (Nat.succ '' {j | l[j]? = some true}).ncard = l.count true := by
      rw [Set.ncard_image_of_injective _ Nat.succ_injective, ih]
    cases b with
    | false =>
      have he : {j | (false :: l)[j]? = some true} = Nat.succ '' {j | l[j]? = some true} := by
        ext j; cases j <;> simp
      rw [he, hsucc]; simp
    | true =>
      have he : {j | (true :: l)[j]? = some true} =
          insert 0 (Nat.succ '' {j | l[j]? = some true}) := by
        ext j; cases j <;> simp
      rw [he, Set.ncard_insert_of_notMem (by simp) (hfin.image _), hsucc]; simp

/-- `bytes_pending()` counts the accepted indices above the front. -/
theorem Inv.pending {s : State} (h : Inv s) : s.r.bytesPending =
    {k | s.pushed.length < k ∧ (s.acc k).isSome = true}.ncard := by
  have he : {k | s.pushed.length < k ∧ (s.acc k).isSome = true} =
      (fun j => s.pushed.length + j) '' {j | s.r.flag[j]? = some true} := by
    ext k
    simp only [Set.mem_ofPred_eq, Set.mem_image]
    constructor
    · rintro ⟨hk, hs⟩
      refine ⟨k - s.pushed.length, ?_, by omega⟩
      rwa [← h.acc_above, Nat.add_sub_cancel' (by omega)]
    · rintro ⟨j, hj, rfl⟩
      refine ⟨?_, (h.acc_above j).mpr hj⟩
      have : j ≠ 0 := fun h0 => h.inv.gap (h0 ▸ hj)
      omega
  rw [he, Set.ncard_image_of_injective _ (fun a b hab => Nat.add_left_cancel hab),
    ← count_true_eq_ncard]
  exact h.inv.sized.count

/-- The program's state read through the map of accepted bytes; `n` is the
least index not accepted. `whole`: what an allowed insert hands to the Writer
is never truncated. -/
structure FirstAccepted (s : State) (n : Nat) : Prop where
  least : IsLeast {k | s.acc k = none} n
  bytes : s.pushed.map some = (List.range n).map s.acc
  base : s.r.baseIndex = n
  pushed : Writer.bytesPushed s.out = n
  pending : s.r.bytesPending = {k | n < k ∧ (s.acc k).isSome = true}.ncard
  flags : ∀ k, s.r.flag[k]? = some true → k < Writer.availableCapacity s.out
  whole : ∀ first data last, s.Allows first data → ∃ tmp s',
    step s (.insert first data last) = some s' ∧ s.r.handed first data s.out = some tmp ∧
      tmp.length ≤ Writer.availableCapacity s.out ∧ s'.out.stream = s.out.stream ++ tmp

/-- **First accepted byte wins.** In every reachable state the bytes ever
pushed are the accepted bytes below the least index not accepted, and the
counters, the flags and every next insert agree with it. -/
theorem first_accepted_wins (s : State) (h : machine.Reachable s) : ∃ n, FirstAccepted s n := by
  have hi := inductive_inv.reachable s h
  have hf := hi.front
  refine ⟨s.pushed.length, ⟨hf.gap, fun k hk => ?_⟩, ?_, hi.pushed, ?_, hi.pending, ?_, ?_⟩
  · by_contra hlt
    have := hf.isSome (Nat.lt_of_not_le hlt)
    rw [show s.acc k = none from hk] at this
    cases this
  · refine List.ext_getElem (by simp) fun k h1 h2 => ?_
    simp only [List.getElem_map, List.getElem_range]
    rw [hf.below k (by simpa using h2), List.getElem?_eq_getElem]
  · exact hi.inv.base.symm.trans hi.pushed
  · intro k hk
    rw [hi.inv.out.available]
    by_contra hlt
    exact hi.inv.window k (by omega) hk
  · intro first data last ha
    obtain ⟨tmp, r', out', h1, h2⟩ := hi.insert last ha
    refine ⟨tmp, _, by simp only [step, if_pos ha, h1]; rfl, h2.handed, ?_, h2.stream⟩
    rw [hi.inv.out.available]
    exact h2.fits

/-- Two contradicting inserts behind a hole, the byte that fills it, a pop. -/
theorem first_accepted_wins_run : ∃ s, machine.Run (.start 4)
    [.insert 1 [98, 99] false, .insert 2 [120, 100, 101] true, .insert 0 [97] false, .pop 2] s ∧
    ∃ n, FirstAccepted s n := by
  obtain ⟨s, hs⟩ := Option.isSome_iff_exists.mp (show (LTS.exec step (.start 4)
    [.insert 1 [98, 99] false, .insert 2 [120, 100, 101] true, .insert 0 [97] false,
      .pop 2]).isSome = true by decide +kernel)
  exact ⟨s, LTS.run_of_exec hs,
    first_accepted_wins s (LTS.reachable_of_exec ⟨4, by decide, rfl⟩ hs)⟩

/-! ## Closing -/

/-- Each substring is one of `S`, and "last" is set exactly when it ends at
`|S|`. -/
def Consistent (S : Bytes) : Label → Prop
  | .insert first data last =>
    first + data.length ≤ S.length ∧ data = (S.drop first).take data.length ∧
      (last = true ↔ first + data.length = S.length)
  | .pop _ => True

/-- The runs whose substrings are all of `S`. -/
def fed (S : Bytes) : LTS State Label := machine.restrict fun _ l _ => Consistent S l

/-- Closed exactly when a last substring came and all of `S` is pushed. -/
def ClosedExactly (S : Bytes) (s : State) : Prop :=
  s.out.close = true ↔ s.last = true ∧ Writer.bytesPushed s.out = S.length

/-- A step after which the Writer is closed exactly at the end, and that
pushes nothing if it was closed before. -/
def ClosesExactly (S : Bytes) (s : State) (_ : Label) (s' : State) : Prop :=
  ClosedExactly S s' ∧
    (s.out.close = true → Writer.bytesPushed s'.out = Writer.bytesPushed s.out)

/-- Index `k` is accepted, or this insert brings it inside the window. -/
def Covered (s : State) (first : Nat) (data : Bytes) (k : Nat) : Prop :=
  (s.acc k).isSome = true ∨
    (s.r.baseIndex ≤ k ∧ k < s.windowEnd ∧ first ≤ k ∧ k < first + data.length)

/-- Once a last substring has been seen, the bytes at hand are all of `S`, or
one of them lies behind a hole (so `unassembled_size` is not 0). -/
def EndVisible (S : Bytes) (s : State) : Label → State → Prop
  | .insert first data last, _ => s.last = true ∨ last = true →
    (∀ k, k < S.length → Covered s first data k) ∨
      ∃ j k, j < k ∧ ¬ Covered s first data j ∧ Covered s first data k
  | .pop _, _ => True

/-- What holds in every state that has closed exactly so far. -/
structure FedInv (S : Bytes) (s : State) : Prop where
  inv : Inv s
  agrees : Agrees s.acc S
  closed : ClosedExactly S s

theorem fedInv_start (S : Bytes) {c : Nat} (hc : c < 2 ^ 64) : FedInv S (.start c) where
  inv := inv_start hc
  agrees := fun k c hk => by cases hk
  closed := by simp [ClosedExactly, State.start, ByteStream.new]

theorem agrees_step {S : Bytes} {s s' : State} {l : Label} (hi : Inv s) (ha : Agrees s.acc S)
    (hc : Consistent S l) (hs : step s l = some s') : Agrees s'.acc S := by
  rcases hi.step_cases hs with ⟨first, data, last, tmp, r', out', rfl, -, -, rfl⟩ | ⟨_, -, -, rfl⟩
  · refine agrees_offer ha (fun j c hj => ?_) _ _
    rw [hc.2.1, List.getElem?_take] at hj
    split at hj
    · rwa [List.getElem?_drop] at hj
    · cases hj
  · exact ha

theorem Inv.bytesPushed {s : State} (h : Inv s) : Writer.bytesPushed s.out = s.pushed.length :=
  h.inv.base.symm.trans h.pushed

/-- The front reaches `|S|` exactly when all of `S` is accepted. -/
theorem Inv.front_eq {s : State} {S : Bytes} (h : Inv s) (ha : Agrees s.acc S) :
    s.pushed.length = S.length ↔ ∀ k, k < S.length → (s.acc k).isSome = true := by
  have hf := h.front
  have hle := (hf.isPrefix ha).length_le
  constructor
  · intro he k hk
    exact hf.isSome (by omega)
  · intro hall
    by_contra hne
    have := hall s.pushed.length (by omega)
    rw [hf.gap] at this
    cases this

/-- Something is unassembled exactly when an accepted index lies above one
that is not. -/
theorem Inv.pending_pos {s : State} (h : Inv s) : s.r.unassembledSize ≠ 0 ↔
    ∃ j k, j < k ∧ (s.acc j).isSome = false ∧ (s.acc k).isSome = true := by
  have hf := h.front
  rw [h.inv.sized.count, ← Nat.pos_iff_ne_zero, List.count_pos_iff, List.mem_iff_getElem?]
  constructor
  · rintro ⟨i, hi⟩
    refine ⟨s.pushed.length, s.pushed.length + i, ?_, by rw [hf.gap]; rfl, (h.acc_above i).mpr hi⟩
    have : i ≠ 0 := fun h0 => h.inv.gap (h0 ▸ hi)
    omega
  · rintro ⟨j, k, hjk, hj, hk⟩
    have hle : s.pushed.length ≤ j := by
      by_contra hlt
      rw [hf.isSome (Nat.lt_of_not_le hlt)] at hj
      cases hj
    refine ⟨k - s.pushed.length, (h.acc_above _).mp ?_⟩
    rwa [Nat.add_sub_cancel' (by omega)]

/-- After an insert that agrees with `S`: seeing the end means that the front
is complete or something is unassembled. -/
theorem Inv.endVisible_iff {S data tmp : Bytes} {s : State} {first : Nat} {last : Bool}
    {r' : Reassembler} {out' : ByteStream} (h : Inv s) (s' : State)
    (hin : Reassembler.Inserted s.r s.out first data last tmp r' out')
    (ha : Agrees (offer s.acc s.r.baseIndex s.windowEnd first data) S) :
    EndVisible S s (.insert first data last) s' ↔
      ((s.last || last) = true →
        (s.popped ++ out'.stream).length = S.length ∨ r'.unassembledSize ≠ 0) := by
  have hcov : ∀ k, Covered s first data k ↔
      (offer s.acc s.r.baseIndex s.windowEnd first data k).isSome = true := fun k =>
    offer_isSome.symm
  have h1 := (h.inserted hin).front_eq ha
  have h2 := (h.inserted hin).pending_pos
  unfold State.pushed at h1
  rw [h1, h2, Bool.or_eq_true]
  simp only [EndVisible, hcov, Bool.not_eq_true]

/-- Step by step, closing exactly is seeing the end. -/
theorem closesExactly_iff_endVisible {S : Bytes} {s s' : State} {l : Label} (h : FedInv S s)
    (hc : Consistent S l) (hs : step s l = some s') :
    ClosesExactly S s l s' ↔ EndVisible S s l s' := by
  have hi' := h.inv.step hs
  have ha' := agrees_step h.inv h.agrees hc hs
  have hclosed := h.closed
  have hle' := (hi'.front.isPrefix ha').length_le
  rcases h.inv.step_cases hs with ⟨first, data, last, tmp, r', out', rfl, hal, hin, he⟩ |
      ⟨len, rfl, hl, he⟩
  · have hlast : s'.last = (s.last || last) := by rw [he]
    have hpush : s'.pushed.length = s.pushed.length + tmp.length := by
      rw [he, State.pushed, State.pushed, hin.stream, ← List.append_assoc, List.length_append]
    have hclose : s'.out.close = true ↔ s.out.close = true ∨
        (s'.r.unassembledSize = 0 ∧ s'.last = true) := by
      rw [he, hin.close, hin.eof, h.inv.eof]
      simp
    -- a complete front leaves nothing unassembled
    have hzero : s'.pushed.length = S.length → s'.r.unassembledSize = 0 := by
      intro hp
      by_contra hne
      obtain ⟨j, k, hjk, hj, hk⟩ := hi'.pending_pos.mp hne
      have hkS := ha'.lt hk
      rw [(hi'.front_eq ha').mp hp j (by omega)] at hj
      cases hj
    have hend : EndVisible S s (.insert first data last) s' ↔
        (s'.last = true → s'.pushed.length = S.length ∨ s'.r.unassembledSize ≠ 0) := by
      subst he
      exact h.inv.endVisible_iff _ hin ha'
    rw [hend]
    unfold ClosesExactly ClosedExactly at *
    rw [hi'.bytesPushed, h.inv.bytesPushed, hclose]
    rw [h.inv.bytesPushed] at hclosed
    by_cases hcl : s.out.close = true
    · obtain ⟨hl, hp⟩ := hclosed.mp hcl
      have hl' : s'.last = true := by rw [hlast, hl]; rfl
      have hp' : s'.pushed.length = S.length := by omega
      simp only [hcl, true_or, hl', hp', hp, implies_true, and_self]
    · simp only [hcl, Bool.false_eq_true, false_or, false_implies, and_true]
      constructor
      · intro hiff hl
        by_cases hu : s'.r.unassembledSize = 0
        · exact .inl (hiff.mp ⟨hu, hl⟩).2
        · exact .inr hu
      · intro hv
        constructor
        · rintro ⟨hu, hl⟩
          exact ⟨hl, (hv hl).resolve_right fun hne => hne hu⟩
        · rintro ⟨hl, hp⟩
          exact ⟨hzero hp, hl⟩
  · have hclose : s'.out.close = s.out.close := by rw [he, ByteStream.pop_eq hl]
    have hpush : Writer.bytesPushed s'.out = Writer.bytesPushed s.out := by
      rw [he, ByteStream.pop_eq hl]; rfl
    have hlast : s'.last = s.last := by rw [he]
    simp only [ClosesExactly, ClosedExactly, EndVisible, hclose, hpush, hlast, implies_true,
      and_true, iff_true]
    exact hclosed

theorem fedInv_step {S : Bytes} {s s' : State} {l : Label} (h : FedInv S s)
    (hs : (fed S).step s l s') (hgood : ClosesExactly S s l s') : FedInv S s' where
  inv := h.inv.step hs.1
  agrees := agrees_step h.inv h.agrees hs.2 hs.1
  closed := hgood.1

/-- **Closing exactly at the end.** A run over substrings of `S` in which
each insert leaves the end visible is closed exactly when a last substring
came and all of `S` is pushed, and pushes nothing once closed; and the steps
of a run all do so exactly when they all leave the end visible. -/
theorem closes_exactly_iff (S : Bytes) :
    (∀ s, ((fed S).restrict (EndVisible S)).Reachable s → ClosedExactly S s) ∧
    ∀ s₀ ls s, (fed S).init s₀ →
      (((fed S).restrict (EndVisible S)).Run s₀ ls s ↔
        ((fed S).restrict (ClosesExactly S)).Run s₀ ls s) := by
  have hiff : ∀ s l s', FedInv S s → (fed S).step s l s' →
      (EndVisible S s l s' ↔ ClosesExactly S s l s') := fun s l s' h hs =>
    (closesExactly_iff_endVisible h hs.2 hs.1).symm
  have hinit : ∀ s, (fed S).init s → FedInv S s := by
    rintro _ ⟨c, hc, rfl⟩; exact fedInv_start S hc
  constructor
  · intro s hr
    refine (LTS.Inductive.reachable (P := FedInv S) (.restrict hinit ?_) s hr).closed
    exact fun s l s' h hv hs => fedInv_step h hs ((hiff s l s' h hs).mp hv)
  · intro s₀ ls s h0
    exact LTS.run_restrict_iff (I := FedInv S)
      (fun s l s' h hs hv => fedInv_step h hs ((hiff s l s' h hs).mp hv)) hiff (hinit s₀ h0)

/-- A run that sees the end: the last of two bytes comes first, and shows that the
other is missing. -/
theorem closes_exactly_one : ∃ s,
    ((fed [97, 98]).restrict (ClosesExactly [97, 98])).Run (.start 4)
      [.insert 1 [98] true, .insert 0 [97] false] s ∧
      s.out.close = true ∧ s.pushed = [97, 98] ∧ ClosedExactly [97, 98] s := by
  have hexec : ((step (.start 4) (.insert 1 [98] true)).bind fun s =>
      (step s (.insert 0 [97] false)).map fun s' =>
        (((s.acc 1).isSome, s.r.baseIndex, s.windowEnd), s'.out.close, s'.pushed)) =
      some ((true, 0, 4), true, [97, 98]) := by decide +kernel
  obtain ⟨s, h1, h2⟩ := Option.bind_eq_some_iff.mp hexec
  obtain ⟨s', h2, h3⟩ := Option.map_eq_some_iff.mp h2
  simp only [Prod.mk.injEq] at h3
  obtain ⟨⟨hacc, hbase, hend⟩, hclose, hpushed⟩ := h3
  have hstart : (State.start 4).windowEnd = 4 := by decide +kernel
  -- the byte at index 1 is there, the one at index 0 is not
  have hhole : EndVisible [97, 98] (.start 4) (.insert 1 [98] true) s := by
    refine fun _ => .inr ⟨0, 1, Nat.zero_lt_one, ?_, .inr ?_⟩
    · rintro (h | ⟨-, -, h, -⟩)
      · cases h
      · cases h
    · rw [hstart]
      exact ⟨Nat.zero_le _, by decide, Nat.le_refl _, by decide⟩
  have hall : EndVisible [97, 98] s (.insert 0 [97] false) s' := by
    refine fun _ => .inl fun k hk => ?_
    match k, hk with
    | 0, _ =>
      refine .inr ?_
      rw [hbase, hend]
      exact ⟨Nat.le_refl _, by decide, Nat.le_refl _, by decide⟩
    | 1, _ => exact .inl hacc
  have hrun : ((fed [97, 98]).restrict (EndVisible [97, 98])).Run (.start 4)
      [.insert 1 [98] true, .insert 0 [97] false] s' :=
    .cons ⟨⟨h1, by decide, by decide, by decide⟩, hhole⟩
      (.cons ⟨⟨h2, by decide, by decide, by decide⟩, hall⟩ (.nil s'))
  have hinit : (fed [97, 98]).init (.start 4) := ⟨4, by decide, rfl⟩
  exact ⟨s', ((closes_exactly_iff [97, 98]).2 _ _ _ hinit).mp hrun, hclose, hpushed,
    (closes_exactly_iff [97, 98]).1 s' ⟨_, _, hinit, hrun⟩⟩

/-- `S` is one byte. An empty last substring arrives before it: the Writer is
closed with nothing pushed, and then the byte goes to a closed Writer. -/
theorem last_before_data_closes : ∃ s s',
    (fed [97]).Run (.start 4) [.insert 1 [] true] s ∧ s.out.close = true ∧ s.pushed = [] ∧
      ¬ ClosedExactly [97] s ∧ (fed [97]).step s (.insert 0 [97] true) s' ∧ s'.pushed = [97] := by
  have hrun : ((step (.start 4) (.insert 1 [] true)).bind fun s =>
      (step s (.insert 0 [97] true)).map fun s' => (s.out.close, s.pushed, s'.pushed)) =
      some (true, [], [97]) := by decide +kernel
  obtain ⟨s, h1, h2⟩ := Option.bind_eq_some_iff.mp hrun
  obtain ⟨s', h2, h3⟩ := Option.map_eq_some_iff.mp h2
  simp only [Prod.mk.injEq] at h3
  obtain ⟨hc, hp, hp'⟩ := h3
  have hi : Inv s := (inv_start (by decide)).step h1
  refine ⟨s, s', .cons ⟨h1, by decide, by decide, by decide⟩ (.nil s), hc, hp, fun hx => ?_,
    ⟨h2, by decide, by decide, by decide⟩, hp'⟩
  have := (hx.mp hc).2
  rw [hi.bytesPushed, hp] at this
  cases this

end StreamSocket.L3.ReassemblerRun
