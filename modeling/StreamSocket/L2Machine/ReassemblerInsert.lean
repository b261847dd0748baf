import StreamSocket.Core.FirstWins
import StreamSocket.L2Machine.Reassembler

/-!
# One insert into the Reassembler

`Inv` couples the arrays to the Writer: `base_index` is `bytes_pushed()`,
`unassembled_size` counts the set flags, the front flag is clear and no flag
is set at or beyond the available capacity.

Results:
* `insert_of_fits`: from `Inv`, an insert whose first index is at most
  `base_index + available_capacity()` succeeds, keeps `Inv`, pushes only what
  fits, and changes the held bytes exactly as `FirstWins.offer` does with the
  window `[base_index, base_index + available_capacity())`. A window that
  reaches `2^64` needs the care that `Fits` and `Top` name; `insert_spec` is
  for one that does not.
* `Inserted.again`: the same insert again changes nothing.
-/
namespace StreamSocket.L2.Reassembler

open FirstWins

/-! ## The invariant and the copy phase -/

/-- The coupling with the Writer. `fresh`: before the first call there are no
arrays and the Writer has never been pushed to. -/
structure Inv (r : Reassembler) (output : ByteStream) : Prop where
  out : output.Inv
  sized : r.Sized
  cap : r.initialized = true → r.flag.length = output.capacity
  fresh : r.initialized = false → r.flag = [] ∧ output.stream = []
  base : r.baseIndex = output.bytesWrite
  gap : r.flag[0]? ≠ some true
  window : ∀ k, output.capacity - output.stream.length ≤ k → r.flag[k]? ≠ some true

theorem inv_new (c : Nat) (hc : c < 2 ^ 64) : Inv {} (ByteStream.new c) where
  out := ByteStream.inv_new c hc
  sized := ⟨rfl, by simp, rfl⟩
  cap := fun h => by cases h
  fresh := fun _ => ⟨rfl, rfl⟩
  base := rfl
  gap := by simp
  window := by simp

/-- Allocation adds only empty cells. -/
theorem allocate_spec {r : Reassembler} {output : ByteStream} (h : r.Inv output) :
    (r.allocate output).Sized ∧ (r.allocate output).flag.length = output.capacity ∧
      (r.allocate output).initialized = true ∧ (r.allocate output).baseIndex = r.baseIndex ∧
      (r.allocate output).eof = r.eof ∧ ∀ k, (r.allocate output).cell k = r.cell k := by
  cases hi : r.initialized with
  | true =>
    unfold allocate
    rw [if_pos hi]
    exact ⟨h.sized, h.cap hi, hi, rfl, rfl, fun _ => rfl⟩
  | false =>
    obtain ⟨hf, hs⟩ := h.fresh hi
    have hb : r.buffer = [] := by
      have := h.sized.len; rw [hf] at this; exact List.length_eq_zero_iff.mp this.symm
    have hav : Writer.availableCapacity output = output.capacity := by
      rw [h.out.available, hs, List.length_nil, Nat.sub_zero]
    have hc0 := h.sized.count
    have hcap := h.out.cap_lt
    unfold allocate
    rw [if_neg (by simp [hi]), hav, hf, hb]
    generalize output.capacity = c at hcap ⊢
    refine ⟨⟨by simp, by simpa using hcap, ?_⟩, by simp, rfl, rfl, rfl, fun k => ?_⟩
    · simpa [hf, List.count_replicate] using hc0
    · unfold cell
      rw [if_neg (by simp [List.getElem?_replicate]), if_neg (by simp [hf])]

theorem Inv.base_lt {r : Reassembler} {output : ByteStream} (h : r.Inv output) :
    r.baseIndex < 2 ^ 64 := by
  rw [h.base, h.out.write_eq]
  exact Nat.mod_lt _ (by decide)

/-- The data starts inside the window or at its end; a window that reaches
`2^64` is left alone by data that straddles `base_index`. -/
def Fits (r : Reassembler) (output : ByteStream) (first : Nat) (data : Bytes) : Prop :=
  first ≤ r.baseIndex + Writer.availableCapacity output ∧
    (r.baseIndex + Writer.availableCapacity output < 2 ^ 64 ∨ r.baseIndex < first ∨
      first + data.length ≤ r.baseIndex)

instance (r : Reassembler) (output : ByteStream) (first : Nat) (data : Bytes) :
    Decidable (r.Fits output first data) := inferInstanceAs (Decidable (_ ∧ _))

/-- The rounds of the first loop, though `base_index + available_capacity()`
may wrap. -/
theorem rounds_ahead {B A first n : Nat} (hB : B < 2 ^ 64) (hA : A < 2 ^ 64) (hgt : B < first)
    (hle : first ≤ B + A) (hn : first + n < 2 ^ 64) :
    min (sub64 (min (add64 B A) (first + n)) first) n = min (B + A) (first + n) - first := by
  by_cases hw : B + A < 2 ^ 64
  · rw [add64_of_lt hw, sub64_of_le (by omega) (by omega)]
    omega
  · have hadd : add64 B A = B + A - 2 ^ 64 := by
      rw [add64_eq]; omega
    have hsub : sub64 (B + A - 2 ^ 64) first = B + A - first := by
      unfold sub64 subW; omega
    rw [hadd, Nat.min_eq_left (show B + A - 2 ^ 64 ≤ first + n by omega), hsub]
    omega

/-- The copy phase runs over the cells of the window that `data` covers. -/
theorem store_eq_copyLoop {r : Reassembler} {output : ByteStream} (h : r.Inv output) {first : Nat}
    {data : Bytes} (hf : r.Fits output first data) (hd : first + data.length < 2 ^ 64) :
    ∃ pos src n p q, store r first data output =
        copyLoop data pos src n 0 (r.allocate output) ∧
      (∀ j, j < n → pos (0 + j) = p + j) ∧ (∀ j, j < n → src (0 + j) = q + j) ∧
      p + n ≤ output.capacity ∧ q + n ≤ data.length ∧
      (∀ k, p ≤ k ∧ k < p + n ↔
        r.baseIndex + k < r.baseIndex + (output.capacity - output.stream.length) ∧
          first ≤ r.baseIndex + k ∧ r.baseIndex + k < first + data.length) ∧
      ∀ k, p ≤ k → k < p + n → q + (k - p) = r.baseIndex + k - first := by
  obtain ⟨-, alen, -, abase, -, -⟩ := allocate_spec h
  obtain ⟨hf, hw⟩ := hf
  unfold store
  generalize r.allocate output = s at *
  have hfit := h.out.fits
  have hcap := h.out.cap_lt
  have hbase := h.base_lt
  rw [h.out.available] at hf hw
  simp only [h.out.available, abase, add64_of_lt hd]
  generalize hA : output.capacity - output.stream.length = A at *
  generalize hB : r.baseIndex = B at *
  split
  · -- first_index > base_index: the data starts inside the window
    rename_i hgt
    rw [Nat.max_eq_right (by omega), rounds_ahead hbase (by omega) hgt hf hd]
    generalize hn : min (B + A) (first + data.length) - first = n
    refine ⟨_, _, n, first - B, 0, rfl, fun j hj => ?_, fun j _ => rfl, by omega, by omega,
      fun k => by omega, fun k _ _ => by omega⟩
    rw [add64_of_lt (by omega), sub64_of_le (by omega) (by omega)]
    omega
  · rename_i hle
    split
    · -- the data starts at or before base_index and reaches beyond it
      rename_i hgt
      rw [add64_of_lt (by omega), Nat.max_eq_left (by omega), sub64_of_le (by omega) (by omega)]
      generalize hn : min (min (B + A) (first + data.length) - B) s.flag.length = n
      refine ⟨_, _, n, 0, B - first, rfl, fun j _ => rfl, fun j hj => ?_, by omega, by omega,
        fun k => by omega, fun k _ _ => by omega⟩
      rw [add64_of_lt (by omega), sub64_of_le (by omega) (by omega)]
      omega
    · -- everything lies before base_index
      exact ⟨id, id, 0, 0, 0, rfl, fun j hj => by omega, fun j hj => by omega, by omega, by omega,
        fun k => by omega, fun k _ _ => by omega⟩

/-- What the copy phase leaves: the part of `data` that falls in the window is
stored, and only in empty cells. -/
structure Stored (r : Reassembler) (output : ByteStream) (first : Nat) (data : Bytes)
    (r' : Reassembler) : Prop where
  eq : store r first data output = some r'
  sized : r'.Sized
  len : r'.flag.length = output.capacity
  init : r'.initialized = true
  base : r'.baseIndex = r.baseIndex
  eof : r'.eof = r.eof
  cell : ∀ k, r'.cell k = (r.cell k).or (piece r.baseIndex
    (r.baseIndex + (output.capacity - output.stream.length)) first data (r.baseIndex + k))

theorem store_spec {r : Reassembler} {output : ByteStream} (h : r.Inv output) (first : Nat)
    (data : Bytes) (hf : r.Fits output first data) (hd : first + data.length < 2 ^ 64) :
    ∃ r', Stored r output first data r' := by
  obtain ⟨a1, a2, a3, a4, a5, a6⟩ := allocate_spec h
  obtain ⟨pos, src, n, p, q, hst, hpos, hsrc, hp, hq, hrange, hidx⟩ := store_eq_copyLoop h hf hd
  obtain ⟨r', heq, hc, hcell⟩ := copyLoop_spec a1 hpos hsrc (by omega) hq
  obtain ⟨hsized, hlen⟩ := hc.sized a1
  refine ⟨r', hst.trans heq, hsized, hlen.trans a2, hc.init.trans a3, hc.base.trans a4,
    hc.eof.trans a5, fun k => ?_⟩
  rw [hcell k, a6 k]
  congr 1
  unfold piece
  by_cases hk : p ≤ k ∧ k < p + n
  · have hin := (hrange k).mp hk
    rw [if_pos hk, if_pos ⟨Nat.le_add_right _ _, hin.1, hin.2.1⟩, hidx k hk.1 hk.2]
  · rw [if_neg hk]
    split
    · rename_i hin
      have hout := mt (hrange k).mpr hk
      rw [List.getElem?_eq_none (by omega)]
    · rfl

/-- If all that `data` covers is stored, nothing is. -/
theorem store_full {r : Reassembler} {output : ByteStream} (h : r.Inv output) {first : Nat}
    {data : Bytes} (hf : r.Fits output first data) (hd : first + data.length < 2 ^ 64)
    (hinit : r.initialized = true)
    (hfull : ∀ k, r.baseIndex + k < r.baseIndex + (output.capacity - output.stream.length) →
      first ≤ r.baseIndex + k → r.baseIndex + k < first + data.length →
      r.flag[k]? = some true) : store r first data output = some r := by
  have ha : r.allocate output = r := by
    unfold allocate; rw [if_pos hinit]
  obtain ⟨pos, src, n, p, q, hst, hpos, -, -, -, hrange, -⟩ := store_eq_copyLoop h hf hd
  rw [hst, ha]
  refine copyLoop_full fun j hj => ?_
  obtain ⟨hw, hlo, hhi⟩ := (hrange (p + j)).mp ⟨by omega, by omega⟩
  rw [hpos j hj]
  exact hfull _ hw hlo hhi

theorem allocate_flag {r : Reassembler} {output : ByteStream} (h : r.Inv output) (k : Nat) :
    (r.allocate output).flag[k]? = some true ↔ r.flag[k]? = some true := by
  obtain ⟨ha, -, -, -, -, hcell⟩ := allocate_spec h
  rw [← cell_isSome ha.len, hcell, cell_isSome h.sized.len]

/-! ## One insert -/

/-- What one `insert` does; `tmp` is the string handed to `Writer::push`. -/
structure Inserted (r : Reassembler) (output : ByteStream) (first : Nat) (data : Bytes)
    (last : Bool) (tmp : Bytes) (r' : Reassembler) (output' : ByteStream) : Prop where
  inv : r'.Inv output'
  handed : r.handed first data output = some tmp
  stream : output'.stream = output.stream ++ tmp
  fits : tmp.length ≤ output.capacity - output.stream.length
  base : r'.baseIndex = r.baseIndex + tmp.length
  cap : output'.capacity = output.capacity
  read : output'.bytesRead = output.bytesRead
  error : output'.error = output.error
  eof : r'.eof = (r.eof || last)
  close : output'.close = (output.close || (r'.unassembledSize == 0 && r'.eof))
  held : ∀ pushed, pushed.length = r.baseIndex → ∀ k, r'.held (pushed ++ tmp) k =
    offer (r.held pushed) r.baseIndex
      (r.baseIndex + (output.capacity - output.stream.length)) first data k

theorem Inv.set_eof {r : Reassembler} {output : ByteStream} (h : r.Inv output) (b : Bool) :
    Inv { r with eof := b } output :=
  ⟨h.out, ⟨h.sized.len, h.sized.lt, h.sized.count⟩, h.cap, h.fresh, h.base, h.gap, h.window⟩

theorem Inv.close {r : Reassembler} {output : ByteStream} (h : r.Inv output) :
    Inv r (Writer.close output) :=
  ⟨ByteStream.inv_close h.out, h.sized, h.cap, h.fresh, h.base, h.gap, h.window⟩

/-- A pop of at most the buffered size only widens the window, and any other
sets the error flag. -/
theorem Inv.pop {r : Reassembler} {output : ByteStream} (h : r.Inv output) (len : Nat) :
    Inv r (Reader.pop output len) := by
  have hi := ByteStream.inv_pop h.out len
  by_cases hl : len ≤ output.stream.length
  case neg =>
    unfold Reader.pop at hi ⊢
    rw [if_pos (by omega)] at hi ⊢
    exact ⟨hi, h.sized, h.cap, h.fresh, h.base, h.gap, h.window⟩
  rw [ByteStream.pop_eq hl] at hi ⊢
  refine ⟨hi, h.sized, h.cap, fun hi => ?_, h.base, h.gap, fun k hk => h.window k ?_⟩
  · obtain ⟨hf, hs⟩ := h.fresh hi
    exact ⟨hf, by simp [hs]⟩
  · simp only [List.length_drop] at hk
    omega

/-- No byte is stored at the index `2^64 - 1`, the end of which is no index. -/
def Top (r : Reassembler) : Prop := ∀ k : Nat, r.flag[k]? = some true → r.baseIndex + k + 1 < 2 ^ 64

theorem Stored.flag_iff {r r' : Reassembler} {output : ByteStream} {first : Nat} {data : Bytes}
    (hs : Stored r output first data r') (h : r.Inv output) (k : Nat) :
    r'.flag[k]? = some true ↔ r.flag[k]? = some true ∨
      (r.baseIndex + k < r.baseIndex + (output.capacity - output.stream.length) ∧
        first ≤ r.baseIndex + k ∧ r.baseIndex + k < first + data.length) := by
  rw [← cell_isSome hs.sized.len, hs.cell, Option.isSome_or, Bool.or_eq_true,
    cell_isSome h.sized.len, piece_isSome, and_iff_right (Nat.le_add_right _ _)]

/-- No flag of the stored arrays lies at or beyond the available capacity. -/
theorem Stored.window {r r' : Reassembler} {output : ByteStream} {first : Nat} {data : Bytes}
    (hs : Stored r output first data r') (h : r.Inv output) {k : Nat}
    (hk : output.capacity - output.stream.length ≤ k) : r'.flag[k]? ≠ some true := by
  intro hset
  rcases (hs.flag_iff h k).mp hset with hold | hnew
  · exact h.window k hk hold
  · omega

theorem Stored.run_fits {r r' : Reassembler} {output : ByteStream} {first : Nat}
    {data tmp : Bytes} (hs : Stored r output first data r') (h : r.Inv output)
    (hrun : FrontRun r' tmp) : tmp.length ≤ output.capacity - output.stream.length := by
  by_contra hlt
  exact hs.window h (Nat.le_refl _) (hrun.flag (Nat.lt_of_not_le hlt))

/-- The last byte that is handed over was stored before, or comes from `data`. -/
theorem Stored.run_lt {r r' : Reassembler} {output : ByteStream} {first : Nat}
    {data tmp : Bytes} (hs : Stored r output first data r') (h : r.Inv output) (ht : r.Top)
    (hd : first + data.length < 2 ^ 64) (hrun : FrontRun r' tmp) :
    r.baseIndex + tmp.length < 2 ^ 64 := by
  by_cases hz : tmp.length = 0
  · rw [hz]; exact h.base_lt
  · rcases (hs.flag_iff h _).mp (hrun.flag (k := tmp.length - 1) (by omega)) with hold | hnew
    · have := ht _ hold
      omega
    · omega

/-- What handing over the run and sliding leave. -/
structure Slid (r : Reassembler) (output : ByteStream) (tmp : Bytes) (r' : Reassembler)
    (output' : ByteStream) : Prop where
  sized : r'.Sized
  len : r'.flag.length = output.capacity
  init : r'.initialized = r.initialized
  eof : r'.eof = r.eof
  base : r'.baseIndex = r.baseIndex + tmp.length
  cell : ∀ k, r'.cell k = r.cell (k + tmp.length)
  flag : ∀ k : Nat, r'.flag[k]? = some true ↔ r.flag[k + tmp.length]? = some true
  inv : output'.Inv
  stream : output'.stream = output.stream ++ tmp
  write : output'.bytesWrite = output.bytesWrite + tmp.length
  cap : output'.capacity = output.capacity
  read : output'.bytesRead = output.bytesRead
  error : output'.error = output.error
  close : output'.close = output.close

/-- Both are guarded by `if ( cnt )`. -/
theorem slide_push_spec {r : Reassembler} {output : ByteStream} {tmp : Bytes} (ho : output.Inv)
    (h : r.Sized) (hlen : r.flag.length = output.capacity) (hb : r.baseIndex = output.bytesWrite)
    (hrun : FrontRun r tmp) (hfit : tmp.length ≤ output.capacity - output.stream.length)
    (hw : r.baseIndex + tmp.length < 2 ^ 64) :
    Slid r output tmp (if tmp.length ≠ 0 then r.slide tmp.length else r)
      (if tmp.length ≠ 0 then Writer.push output tmp else output) := by
  by_cases hn : tmp.length = 0
  · have ht : tmp = [] := List.length_eq_zero_iff.mp hn
    rw [if_neg (fun h => h hn), if_neg (fun h => h hn)]
    subst ht
    exact ⟨h, hlen, rfl, rfl, rfl, fun _ => rfl, fun _ => Iff.rfl, ho, by simp, rfl, rfl, rfl, rfl,
      rfl⟩
  · rw [if_pos hn, if_pos hn]
    have hfits := ho.fits
    obtain ⟨s1, s2, s3, s4⟩ := slide_spec h hrun.le hrun.set
    refine ⟨s1, s2.trans hlen, rfl, rfl, ?_, s3, s4, ByteStream.inv_push ho tmp, ?_, ?_, rfl, rfl,
      rfl, rfl⟩
    · show add64 r.baseIndex tmp.length = _
      rw [add64_of_lt hw]
    · rw [ho.push_stream, List.take_of_length_le hfit]
    · rw [ho.push_write, List.take_of_length_le hfit, Nat.mod_eq_of_lt (by omega)]

theorem Slid.keeps_inv {r r₁ r₂ : Reassembler} {output output₂ : ByteStream} {first : Nat}
    {data tmp : Bytes} (hsl : Slid r₁ output tmp r₂ output₂) (hs : Stored r output first data r₁)
    (h : r.Inv output) (hrun : FrontRun r₁ tmp) : r₂.Inv output₂ := by
  refine ⟨hsl.inv, hsl.sized, fun _ => hsl.len.trans hsl.cap.symm, fun hi => ?_, ?_, ?_, ?_⟩
  · rw [hsl.init, hs.init] at hi; cases hi
  · rw [hsl.base, hs.base, hsl.write, h.base]
  · rw [ne_eq, hsl.flag 0, Nat.zero_add]; exact hrun.gap
  · intro k hk
    rw [ne_eq, hsl.flag k]
    apply hs.window h
    rw [hsl.stream, hsl.cap, List.length_append] at hk
    omega

/-- Read through the bytes pushed, storing and sliding are one offer. -/
theorem Slid.held {r r₁ r₂ : Reassembler} {output output₂ : ByteStream} {first : Nat}
    {data tmp : Bytes} (hsl : Slid r₁ output tmp r₂ output₂) (hs : Stored r output first data r₁)
    (hrun : FrontRun r₁ tmp) {pushed : Bytes} (hp : pushed.length = r.baseIndex) (k : Nat) :
    r₂.held (pushed ++ tmp) k = offer (r.held pushed) r.baseIndex
      (r.baseIndex + (output.capacity - output.stream.length)) first data k := by
  by_cases hk : k < pushed.length
  · unfold offer Reassembler.held
    rw [if_pos (by rw [List.length_append]; omega), if_pos hk, List.getElem?_append_left hk,
      List.getElem?_eq_getElem hk]
    rfl
  · have hoff : offer (r.held pushed) r.baseIndex
        (r.baseIndex + (output.capacity - output.stream.length)) first data k =
        r₁.cell (k - r.baseIndex) := by
      rw [hs.cell, Nat.add_sub_cancel' (by omega)]
      unfold offer Reassembler.held
      rw [if_neg hk, hp]
    rw [hoff]
    unfold Reassembler.held
    by_cases hk2 : k < pushed.length + tmp.length
    · rw [if_pos (by rw [List.length_append]; exact hk2), List.getElem?_append_right (by omega), hp,
        hrun.cell _ (by omega)]
    · rw [if_neg (by rw [List.length_append]; exact hk2), hsl.cell, List.length_append]
      congr 1
      omega

/-- An insert that fits succeeds and does what `Inserted` says. -/
theorem insert_of_fits {r : Reassembler} {output : ByteStream} (h : r.Inv output) (ht : r.Top)
    (first : Nat) (data : Bytes) (last : Bool) (hf : r.Fits output first data)
    (hd : first + data.length < 2 ^ 64) :
    ∃ tmp r' output', insert r first data last output = some (r', output') ∧
      Inserted r output first data last tmp r' output' := by
  obtain ⟨r₁, hs⟩ := store_spec h first data hf hd
  obtain ⟨tmp, hrun⟩ := exists_frontRun hs.sized
  have hfit := hs.run_fits h hrun
  have hsl := slide_push_spec h.out hs.sized hs.len (hs.base.trans h.base) hrun hfit
    (by rw [hs.base]; exact hs.run_lt h ht hd hrun)
  have hinv := hsl.keeps_inv hs h hrun
  unfold insert
  rw [hs.eq]
  simp only [hrun.assembled]
  generalize (if tmp.length ≠ 0 then r₁.slide tmp.length else r₁) = r₂ at *
  generalize (if tmp.length ≠ 0 then Writer.push output tmp else output) = out₂ at *
  have hlast : (if last = true then { r₂ with eof := true } else r₂) =
      { r₂ with eof := r.eof || last } := by
    cases last with
    | true => simp
    | false => simp [← hs.eof, ← hsl.eof]
  refine ⟨tmp, _, _, rfl, ?_⟩
  rw [hlast]
  refine ⟨?_, by simp [handed, hs.eq, hrun.assembled], ?_, hfit, hsl.base.trans (by rw [hs.base]),
    ?_, ?_, ?_, rfl, ?_, fun pushed hp => hsl.held hs hrun hp⟩
  · split
    · exact (hinv.set_eof _).close
    · exact hinv.set_eof _
  all_goals
    have h1 := hsl.stream
    have h2 := hsl.cap
    have h3 := hsl.read
    have h4 := hsl.error
    have h5 := hsl.close
    split <;> simp_all [Writer.close]

/-- An insert at an index the window allows, where it ends below `2^64`. -/
theorem insert_spec {r : Reassembler} {output : ByteStream} (h : r.Inv output) (first : Nat)
    (data : Bytes) (last : Bool)
    (hf : first ≤ r.baseIndex + (output.capacity - output.stream.length))
    (hw : r.baseIndex + (output.capacity - output.stream.length) < 2 ^ 64)
    (hd : first + data.length < 2 ^ 64) :
    ∃ tmp r' output', insert r first data last output = some (r', output') ∧
      Inserted r output first data last tmp r' output' := by
  refine insert_of_fits h (fun k hk => ?_) first data last ?_ hd
  · by_contra hlt
    exact h.window k (by omega) hk
  · unfold Fits
    rw [h.out.available]
    exact ⟨hf, .inl hw⟩

/-- The flags that an insert leaves: those that were set, and those of the cells
that `data` covers. -/
theorem Inserted.flag_iff {r r' : Reassembler} {output output' : ByteStream} {first : Nat}
    {data tmp : Bytes} {last : Bool} (h : Inserted r output first data last tmp r' output')
    (hl : r.flag.length = r.buffer.length) (k : Nat) : r'.flag[k]? = some true ↔
      r.flag[tmp.length + k]? = some true ∨
        (r'.baseIndex + k < r.baseIndex + (output.capacity - output.stream.length) ∧
          first ≤ r'.baseIndex + k ∧ r'.baseIndex + k < first + data.length) := by
  -- some bytes that were pushed, of which only the number matters
  let pushed : Bytes := List.replicate r.baseIndex 0
  have hlen : pushed.length = r.baseIndex := List.length_replicate ..
  have hbase := h.base
  have hafter : (r'.held (pushed ++ tmp) (r'.baseIndex + k)).isSome = true ↔
      r'.flag[k]? = some true := by
    rw [held_isSome h.inv.sized.len, List.length_append, hlen, ← hbase, Nat.add_sub_cancel_left]
    exact or_iff_right (by omega)
  have hbefore : (r.held pushed (r'.baseIndex + k)).isSome = true ↔
      r.flag[tmp.length + k]? = some true := by
    rw [held_isSome hl, hlen, show r'.baseIndex + k - r.baseIndex = tmp.length + k by omega]
    exact or_iff_right (by omega)
  rw [← hafter, h.held pushed hlen, offer_isSome, hbefore,
    and_iff_right (show r.baseIndex ≤ r'.baseIndex + k by omega)]

/-- The same insert again changes nothing: what it covers is stored, and it
cannot fill the hole at the front. -/
theorem Inserted.again {r r' : Reassembler} {output output' : ByteStream} {first : Nat}
    {data tmp : Bytes} {last : Bool} (h : Inserted r output first data last tmp r' output')
    (hl : r.flag.length = r.buffer.length) (hinit : r'.initialized = true)
    (hf : r'.Fits output' first data) (hd : first + data.length < 2 ^ 64) :
    insert r' first data last output' = some (r', output') := by
  have hstream : output'.stream.length = output.stream.length + tmp.length := by
    rw [h.stream, List.length_append]
  have hbase := h.base
  have hcap := h.cap
  have hfits := h.fits
  have hst : store r' first data output' = some r' := by
    refine store_full h.inv hf hd hinit fun k hw hlo hhi => ?_
    exact (h.flag_iff hl k).mpr (.inr ⟨by omega, hlo, hhi⟩)
  have heof : (if last = true then { r' with eof := true } else r') = r' := by
    split
    · rename_i hl
      have he : r'.eof = true := by rw [h.eof, hl, Bool.or_true]
      rw [← he]
    · rfl
  unfold insert
  rw [hst]
  simp only [assemble_of_gap _ h.inv.gap, List.length_nil, ne_eq, not_true_eq_false, if_false, heof]
  split
  · rename_i hend
    have hclose : output'.close = true := by
      rw [h.close, hend.1, hend.2]; simp
    unfold Writer.close
    rw [← hclose]
  · rfl

end StreamSocket.L2.Reassembler
