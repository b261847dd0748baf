import StreamSocket.L2Machine.ByteStream

/-!
# Reassembler: out-of-order substrings into a ByteStream

`insert` runs in three phases: the copy loops store the bytes that fit in the
window (`store`), the contiguous run at the front is collected (`assemble`)
and handed to the Writer while the arrays slide (`slide`), and the end of the
stream is decided from `eof` and `unassembled_size` alone. An out-of-range
subscript of `flag`, `buffer` or `data` is undefined behaviour in the source
and `none` here, so "every index is in range" is a theorem.

Results:
* `copyLoop_spec`: a loop over a range of cells fills the empty ones.
* `copyLoop_copied`: what a loop that ends has done, whatever its subscripts.
* `store_sound`: a stored byte comes from `data`, and goes to its own index.
* `exists_frontRun`, `slide_spec`: the run at the front, and what is left of it.
-/
namespace StreamSocket.L2

/-- mirrors src/src/reassembler.hh:10-15 -/
structure Reassembler where
  baseIndex : Nat := 0
  unassembledSize : Nat := 0
  buffer : Bytes := []
  flag : List Bool := []
  eof : Bool := false
  initialized : Bool := false
  deriving DecidableEq, Repr

namespace Reassembler

/-- The arrays are allocated on the first call.
mirrors src/src/reassembler.cc:9-13 -/
def allocate (r : Reassembler) (output : ByteStream) : Reassembler :=
  if r.initialized then r
  else { r with flag := r.flag ++ List.replicate (Writer.availableCapacity output) false,
                buffer := r.buffer ++ List.replicate (Writer.availableCapacity output) 0,
                initialized := true }

/-- The body of both copy loops.
mirrors src/src/reassembler.cc:27-29 and 37-39 -/
def put (r : Reassembler) (p : Nat) (b : UInt8) : Reassembler :=
  { r with flag := r.flag.set p true, buffer := r.buffer.set p b,
           unassembledSize := add64 r.unassembledSize 1 }

/-- `n` rounds of a copy loop from round `i`: `pos i` is the subscript of
`flag` and `buffer`, `src i` that of `data`. `none`: a subscript is out of
range.
mirrors src/src/reassembler.cc:25-31 and 35-41 -/
def copyLoop (data : Bytes) (pos src : Nat → Nat) : Nat → Nat → Reassembler → Option Reassembler
  | 0, _, r => some r
  | n + 1, i, r =>
    match r.flag[pos i]? with
    | none => none
    | some true => copyLoop data pos src n (i + 1) r
    | some false =>
      match data[src i]? with
      | none => none
      | some b =>
        if pos i < r.buffer.length then copyLoop data pos src n (i + 1) (r.put (pos i) b) else none

/-- The copy phase: allocation, then one of the two loops.
mirrors src/src/reassembler.cc:9-43 -/
def store (r : Reassembler) (firstIndex : Nat) (data : Bytes) (output : ByteStream) :
    Option Reassembler :=
  let r := r.allocate output
  let startIndex := max r.baseIndex firstIndex
  let endIndex := min (add64 r.baseIndex (Writer.availableCapacity output))
    (add64 firstIndex data.length)
  let len := sub64 endIndex startIndex
  if firstIndex > r.baseIndex then
    copyLoop data (fun i => sub64 (add64 i firstIndex) r.baseIndex) (fun i => i)
      (min len data.length) 0 r
  else if add64 firstIndex data.length > r.baseIndex then
    copyLoop data (fun i => i) (fun i => sub64 (add64 i r.baseIndex) firstIndex)
      (min len r.flag.length) 0 r
  else some r

/-- The string `tmp`: the bytes under the leading set flags.
mirrors src/src/reassembler.cc:45-50 -/
def assemble : List Bool → Bytes → Option Bytes
  | true :: fs, b :: bs => (assemble fs bs).map (b :: ·)
  | true :: _, [] => none
  | _, _ => some []

/-- The string an insert hands to `Writer::push` (empty: no call). -/
def handed (r : Reassembler) (firstIndex : Nat) (data : Bytes) (output : ByteStream) :
    Option Bytes :=
  (r.store firstIndex data output).bind fun r => assemble r.flag r.buffer

/-- `erase` the first `cnt` cells and `insert` as many empty ones.
mirrors src/src/reassembler.cc:53-56,59-60 -/
def slide (r : Reassembler) (cnt : Nat) : Reassembler :=
  { r with flag := r.flag.drop cnt ++ List.replicate cnt false,
           buffer := r.buffer.drop cnt ++ List.replicate cnt 0,
           unassembledSize := sub64 r.unassembledSize cnt,
           baseIndex := add64 r.baseIndex cnt }

/-- mirrors src/src/reassembler.cc:5-85 -/
def insert (r : Reassembler) (firstIndex : Nat) (data : Bytes) (isLastSubstring : Bool)
    (output : ByteStream) : Option (Reassembler × ByteStream) :=
  match r.store firstIndex data output with
  | none => none
  | some r =>
    match assemble r.flag r.buffer with
    | none => none
    | some tmp =>
      let r' := if tmp.length ≠ 0 then r.slide tmp.length else r
      let output := if tmp.length ≠ 0 then Writer.push output tmp else output
      let r' := if isLastSubstring then { r' with eof := true } else r'
      some (r', if r'.unassembledSize = 0 ∧ r'.eof then Writer.close output else output)

/-- mirrors src/src/reassembler.cc:87-90 -/
def bytesPending (r : Reassembler) : Nat := r.unassembledSize

/-! ## Cells -/

/-- The byte stored `k` cells after `base_index`, if its flag is set. -/
def cell (r : Reassembler) (k : Nat) : Option UInt8 :=
  if r.flag[k]? = some true then r.buffer[k]? else none

/-- What is held at an absolute stream index: a byte already pushed, or a
stored one. -/
def held (pushed : Bytes) (r : Reassembler) (k : Nat) : Option UInt8 :=
  if k < pushed.length then pushed[k]? else r.cell (k - pushed.length)

theorem cell_isSome {r : Reassembler} (hl : r.flag.length = r.buffer.length) (k : Nat) :
    (r.cell k).isSome = true ↔ r.flag[k]? = some true := by
  unfold cell
  split
  · rename_i h
    have := (List.getElem?_eq_some_iff.mp h).1
    simp only [h, iff_true]
    rw [List.getElem?_eq_getElem (by omega)]; rfl
  · rename_i h; simp [h]

theorem held_isSome {r : Reassembler} (hl : r.flag.length = r.buffer.length) (pushed : Bytes)
    (k : Nat) : (r.held pushed k).isSome = true ↔
      k < pushed.length ∨ r.flag[k - pushed.length]? = some true := by
  unfold held
  split
  · rename_i hk; simp [hk]
  · rename_i hk; rw [cell_isSome hl]; simp [hk]

/-- Well-formed arrays: one length, and a truthful count of the set flags. -/
structure Sized (r : Reassembler) : Prop where
  len : r.flag.length = r.buffer.length
  lt : r.flag.length < 2 ^ 64
  count : r.unassembledSize = r.flag.count true

theorem count_set_true {l : List Bool} {i : Nat} (h : l[i]? = some false) :
    (l.set i true).count true = l.count true + 1 := by
  obtain ⟨hi, he⟩ := List.getElem?_eq_some_iff.mp h
  rw [List.count_set hi, he]
  simp

@[simp] theorem put_flag_length (r : Reassembler) (p : Nat) (b : UInt8) :
    (r.put p b).flag.length = r.flag.length := by simp [put]

theorem sized_put {r : Reassembler} (h : r.Sized) {p : Nat} (hp : r.flag[p]? = some false)
    (b : UInt8) : (r.put p b).Sized := by
  have hc := count_set_true hp
  have hle := List.count_le_length (a := true) (l := r.flag.set p true)
  have hlt := h.lt
  refine ⟨by simpa [put] using h.len, by simpa using h.lt, ?_⟩
  simp only [List.length_set] at hle
  show add64 r.unassembledSize 1 = (r.flag.set p true).count true
  rw [h.count, add64_of_lt (by omega), hc]

/-! ## The copy loops -/

/-- What the `n` rounds of a copy loop from round `i` leave, whatever the
subscripts are. -/
structure Copied (data : Bytes) (pos src : Nat → Nat) (n i : Nat) (r r' : Reassembler) :
    Prop where
  base : r'.baseIndex = r.baseIndex
  eof : r'.eof = r.eof
  init : r'.initialized = r.initialized
  old : ∀ k : Nat, r.flag[k]? = some true → r'.flag[k]? = some true
  fresh : ∀ k : Nat, r'.flag[k]? = some true → r.flag[k]? = some true ∨ ∃ j, j < n ∧
    pos (i + j) = k ∧ src (i + j) < data.length ∧ r'.buffer[k]? = data[src (i + j)]?
  same : ∀ k : Nat, r.flag[k]? = some true → r'.buffer[k]? = r.buffer[k]?
  done : ∀ j, j < n → r'.flag[pos (i + j)]? = some true
  sized : r.Sized → r'.Sized ∧ r'.flag.length = r.flag.length

theorem put_flag (r : Reassembler) (p : Nat) (b : UInt8) (k : Nat)
    (hp : r.flag[p]? = some false) :
    (r.put p b).flag[k]? = some true ↔ k = p ∨ r.flag[k]? = some true := by
  have hlt := (List.getElem?_eq_some_iff.mp hp).1
  unfold put
  by_cases hk : k = p
  · subst hk; simp [hlt]
  · simp [hk, Ne.symm hk]

/-- A round at a set flag is skipped. -/
theorem Copied.skip {data : Bytes} {pos src : Nat → Nat} {n i : Nat} {r r' : Reassembler}
    (hf : r.flag[pos i]? = some true) (h : Copied data pos src n (i + 1) r r') :
    Copied data pos src (n + 1) i r r' := by
  refine ⟨h.base, h.eof, h.init, h.old, fun k hk => ?_, h.same, fun j hj => ?_, h.sized⟩
  · rcases h.fresh k hk with ho | ⟨j, hj, hp, hs, hb⟩
    · exact .inl ho
    · rw [Nat.add_assoc, Nat.add_comm 1 j] at hp hs hb
      exact .inr ⟨j + 1, by omega, hp, hs, hb⟩
  · cases j with
    | zero => exact h.old _ hf
    | succ j =>
      rw [show i + (j + 1) = i + 1 + j by omega]
      exact h.done j (by omega)

/-- A round at a clear flag stores its byte. -/
theorem Copied.put {data : Bytes} {pos src : Nat → Nat} {n i : Nat} {r r' : Reassembler}
    {b : UInt8} (hf : r.flag[pos i]? = some false) (hd : data[src i]? = some b)
    (hb : pos i < r.buffer.length) (h : Copied data pos src n (i + 1) (r.put (pos i) b) r') :
    Copied data pos src (n + 1) i r r' := by
  have hflag := put_flag r (pos i) b
  have hset : r'.flag[pos i]? = some true := h.old _ ((hflag _ hf).mpr (.inl rfl))
  have hne : ∀ k, r.flag[k]? = some true → k ≠ pos i := fun k hk he => by
    rw [he, hf] at hk; cases hk
  refine ⟨h.base, h.eof, h.init, fun k hk => h.old k ((hflag k hf).mpr (.inr hk)),
    fun k hk => ?_, fun k hk => ?_, fun j hj => ?_, fun hr => ?_⟩
  · rcases h.fresh k hk with ho | ⟨j, hj, hp, hs, hb'⟩
    · rcases (hflag k hf).mp ho with rfl | ho'
      · have hsame := h.same _ ho
        refine .inr ⟨0, by omega, rfl, (List.getElem?_eq_some_iff.mp hd).1, ?_⟩
        rw [hsame, Nat.add_zero, hd]
        simp [Reassembler.put, hb]
      · exact .inl ho'
    · rw [Nat.add_assoc, Nat.add_comm 1 j] at hp hs hb'
      exact .inr ⟨j + 1, by omega, hp, hs, hb'⟩
  · rw [h.same k ((hflag k hf).mpr (.inr hk))]
    simp [Reassembler.put, Ne.symm (hne k hk)]
  · cases j with
    | zero => exact hset
    | succ j =>
      rw [show i + (j + 1) = i + 1 + j by omega]
      exact h.done j (by omega)
  · obtain ⟨hs, hl⟩ := h.sized (sized_put hr hf b)
    exact ⟨hs, hl.trans (put_flag_length r (pos i) b)⟩

theorem copyLoop_copied {data : Bytes} {pos src : Nat → Nat} : ∀ {n i : Nat}
    {r r' : Reassembler}, copyLoop data pos src n i r = some r' → Copied data pos src n i r r'
  | 0, i, r, r', h => by
    cases h
    exact ⟨rfl, rfl, rfl, fun _ h => h, fun _ h => .inl h, fun _ _ => rfl, fun j hj => by omega,
      fun h => ⟨h, rfl⟩⟩
  | n + 1, i, r, r', h => by
    simp only [copyLoop] at h
    cases hf : r.flag[pos i]? with
    | none => simp [hf] at h
    | some f =>
      rw [hf] at h
      cases f with
      | true => exact (copyLoop_copied h).skip hf
      | false =>
        cases hd : data[src i]? with
        | none => simp [hd] at h
        | some b =>
          simp only [hd] at h
          split at h
          · rename_i hb
            exact (copyLoop_copied h).put hf hd hb
          · cases h

/-- A round whose flag is clear and whose byte is missing is reached, unless
one before it fails. -/
theorem copyLoop_eq_none {data : Bytes} {pos src : Nat → Nat} : ∀ {n i j : Nat}
    {r : Reassembler}, j < n → (∀ k, k < j → pos (i + k) ≠ pos (i + j)) →
    r.flag[pos (i + j)]? ≠ some true → data[src (i + j)]? = none →
    copyLoop data pos src n i r = none
  | n + 1, i, 0, r, _, _, hf, hd => by
    rw [Nat.add_zero] at hf hd
    rw [copyLoop]
    cases hfl : r.flag[pos i]? with
    | none => rfl
    | some f =>
      cases f with
      | true => exact absurd hfl hf
      | false => simp only [hd]
  | n + 1, i, j + 1, r, hj, hne, hf, hd => by
    have he : i + (j + 1) = i + 1 + j := by omega
    rw [he] at hf hd
    have hne' : ∀ k, k < j → pos (i + 1 + k) ≠ pos (i + 1 + j) := fun k hk => by
      have := hne (k + 1) (by omega)
      rwa [he, show i + (k + 1) = i + 1 + k by omega] at this
    rw [copyLoop]
    split
    · rfl
    · exact copyLoop_eq_none (by omega) hne' hf hd
    · rename_i hfalse
      split
      · rfl
      · split
        · refine copyLoop_eq_none (by omega) hne' (fun hset => ?_) hd
          rcases (put_flag r (pos i) _ _ hfalse).mp hset with heq | hset
          · exact hne 0 (by omega) (by rw [Nat.add_zero, he, heq])
          · exact hf hset
        · rfl

/-- Over set flags a copy loop does nothing. -/
theorem copyLoop_full {data : Bytes} {pos src : Nat → Nat} : ∀ {n i : Nat} {r : Reassembler},
    (∀ j, j < n → r.flag[pos (i + j)]? = some true) → copyLoop data pos src n i r = some r
  | 0, _, _, _ => rfl
  | n + 1, i, r, h => by
    have h0 : r.flag[pos i]? = some true := h 0 (by omega)
    rw [copyLoop, h0]
    refine copyLoop_full fun j hj => ?_
    rw [show i + 1 + j = i + (j + 1) by omega]
    exact h _ (by omega)

/-- With all subscripts in range the loop ends. -/
theorem copyLoop_isSome {data : Bytes} {pos src : Nat → Nat} {n i : Nat} {r : Reassembler}
    (hr : r.flag.length = r.buffer.length) (hpos : ∀ j, j < n → pos (i + j) < r.flag.length)
    (hsrc : ∀ j, j < n → src (i + j) < data.length) :
    ∃ r', copyLoop data pos src n i r = some r' := by
  induction n generalizing i r with
  | zero => exact ⟨r, rfl⟩
  | succ n ih =>
    have hsucc : ∀ j, i + 1 + j = i + (j + 1) := fun j => by omega
    have hpos' : ∀ j, j < n → pos (i + 1 + j) < r.flag.length := fun j hj => by
      rw [hsucc]; exact hpos _ (by omega)
    have hsrc' : ∀ j, j < n → src (i + 1 + j) < data.length := fun j hj => by
      rw [hsucc]; exact hsrc _ (by omega)
    have hp : pos i < r.flag.length := hpos 0 (by omega)
    have hs : src i < data.length := hsrc 0 (by omega)
    rw [copyLoop, List.getElem?_eq_getElem hp, List.getElem?_eq_getElem hs]
    cases r.flag[pos i] with
    | true => exact ih hr hpos' hsrc'
    | false =>
      simp only [if_pos (show pos i < r.buffer.length by omega)]
      exact ih (by simpa [put] using hr) (by simpa using hpos') hsrc'

/-- A copy loop over `[p, p + n)` reading `data` from `q` on: every subscript
is in range, and exactly the empty cells of that range are filled. -/
theorem copyLoop_spec {data : Bytes} {pos src : Nat → Nat} {n p q : Nat} {r : Reassembler}
    (hr : r.Sized) (hpos : ∀ j, j < n → pos (0 + j) = p + j)
    (hsrc : ∀ j, j < n → src (0 + j) = q + j) (hp : p + n ≤ r.flag.length)
    (hq : q + n ≤ data.length) :
    ∃ r', copyLoop data pos src n 0 r = some r' ∧ Copied data pos src n 0 r r' ∧
      ∀ k, r'.cell k = (r.cell k).or (if p ≤ k ∧ k < p + n then data[q + (k - p)]? else none) := by
  obtain ⟨r', h⟩ : ∃ r', copyLoop data pos src n 0 r = some r' :=
    copyLoop_isSome hr.len (fun j hj => by rw [hpos j hj]; omega)
      (fun j hj => by rw [hsrc j hj]; omega)
  have hc := copyLoop_copied h
  refine ⟨r', h, hc, fun k => ?_⟩
  by_cases hold : r.flag[k]? = some true
  · obtain ⟨c, hcell⟩ := Option.isSome_iff_exists.mp ((cell_isSome hr.len k).mpr hold)
    rw [hcell, Option.some_or, ← hcell]
    unfold cell
    rw [if_pos (hc.old k hold), if_pos hold, hc.same k hold]
  · have hnone : r.cell k = none := by unfold cell; rw [if_neg hold]
    rw [hnone, Option.none_or]
    unfold cell
    by_cases hk : p ≤ k ∧ k < p + n
    · have hset : r'.flag[k]? = some true := by
        have := hc.done (k - p) (by omega)
        rwa [hpos _ (by omega), show p + (k - p) = k by omega] at this
      rw [if_pos hset, if_pos hk]
      rcases hc.fresh k hset with ho | ⟨j, hj, hpk, -, hbuf⟩
      · exact absurd ho hold
      · rw [hpos j hj] at hpk
        rw [hbuf, hsrc j hj, show j = k - p by omega]
    · rw [if_neg hk, if_neg]
      intro hset
      rcases hc.fresh k hset with ho | ⟨j, hj, hpk, -, -⟩
      · exact hold ho
      · rw [hpos j hj] at hpk
        omega

/-! ## The parts of an insert, in any state -/

/-- In any state: a byte that is stored comes from `data`, and goes to its own
index. -/
theorem store_sound {r r' : Reassembler} {first : Nat} {data : Bytes} {output : ByteStream}
    (h : store r first data output = some r') {p : Nat} (hp : r'.flag[p]? = some true) :
    r.flag[p]? = some true ∨ ∃ j, j < data.length ∧ r'.buffer[p]? = data[j]? ∧
      (r.baseIndex + p) % 2 ^ 64 = (first + j) % 2 ^ 64 := by
  have hbase : (r.allocate output).baseIndex = r.baseIndex := by
    unfold allocate; split <;> rfl
  have hold : (r.allocate output).flag[p]? = some true → r.flag[p]? = some true := by
    unfold allocate
    split
    · exact id
    · intro hset
      rw [List.getElem?_append] at hset
      split at hset
      · exact hset
      · simp [List.getElem?_replicate] at hset
  unfold store at h
  simp only [hbase] at h
  split at h
  · refine ((copyLoop_copied h).fresh p hp).imp hold ?_
    rintro ⟨j, -, hpos, hsrc, hbuf⟩
    refine ⟨_, hsrc, hbuf, ?_⟩
    rw [← hpos, add_sub64, add64_eq, Nat.mod_mod, Nat.add_comm]
  · split at h
    · refine ((copyLoop_copied h).fresh p hp).imp hold ?_
      rintro ⟨j, -, rfl, hsrc, hbuf⟩
      refine ⟨_, hsrc, hbuf, ?_⟩
      rw [add_sub64, add64_eq, Nat.mod_mod, Nat.add_comm]
    · cases h
      exact .inl (hold hp)

/-- An empty string is stored nowhere, at any index. -/
theorem store_nil {r : Reassembler} {first : Nat} (hf : first < 2 ^ 64) (output : ByteStream) :
    store r first [] output = some (r.allocate output) := by
  unfold store
  simp only [List.length_nil, Nat.min_zero]
  split
  · rfl
  · rw [add64_of_lt (by omega), if_neg (by omega)]

theorem insert_nil {r : Reassembler} {first : Nat} (hf : first < 2 ^ 64)
    (hb : r.baseIndex < 2 ^ 64) (last : Bool) (output : ByteStream) :
    insert r first [] last output = insert r r.baseIndex [] last output := by
  unfold insert
  rw [store_nil hf, store_nil hb]

/-- `assemble` takes exactly the leading run of set flags. -/
theorem assemble_spec : ∀ (fs : List Bool) (bs : Bytes), fs.length = bs.length →
    ∃ tmp, assemble fs bs = some tmp ∧ tmp = bs.take tmp.length ∧
      fs.take tmp.length = List.replicate tmp.length true ∧ fs[tmp.length]? ≠ some true
  | [], bs, _ => ⟨[], by simp [assemble], by simp, by simp, by simp⟩
  | false :: fs, bs, _ => ⟨[], by simp [assemble], by simp, by simp, by simp⟩
  | true :: fs, [], h => by simp at h
  | true :: fs, b :: bs, h => by
    obtain ⟨tmp, h1, h2, h3, h4⟩ := assemble_spec fs bs (by simpa using h)
    refine ⟨b :: tmp, by simp [assemble, h1], ?_, ?_, by simpa using h4⟩
    · rw [List.length_cons, List.take_succ_cons, ← h2]
    · rw [List.length_cons, List.take_succ_cons, h3, List.replicate_succ]

theorem assemble_of_gap : ∀ {fs : List Bool} (bs : Bytes), fs[0]? ≠ some true →
    assemble fs bs = some []
  | [], _, _ => by simp [assemble]
  | false :: _, _, _ => by simp [assemble]
  | true :: _, _, h => absurd rfl h

theorem flag_of_take {fs : List Bool} {n k : Nat} (h : fs.take n = List.replicate n true)
    (hk : k < n) : fs[k]? = some true := by
  have := congrArg (·[k]?) h
  simpa [List.getElem?_take, List.getElem?_replicate, hk] using this

/-- `tmp` is the run of stored bytes at the front. -/
structure FrontRun (r : Reassembler) (tmp : Bytes) : Prop where
  assembled : assemble r.flag r.buffer = some tmp
  le : tmp.length ≤ r.flag.length
  set : r.flag.take tmp.length = List.replicate tmp.length true
  cell : ∀ k, k < tmp.length → r.cell k = tmp[k]?
  gap : r.flag[tmp.length]? ≠ some true

theorem exists_frontRun {r : Reassembler} (h : r.Sized) : ∃ tmp, FrontRun r tmp := by
  obtain ⟨tmp, h1, h2, h3, h4⟩ := assemble_spec r.flag r.buffer h.len
  have hle : tmp.length ≤ r.flag.length := by
    have := congrArg List.length h2
    rw [List.length_take] at this
    have := h.len; omega
  refine ⟨tmp, h1, hle, h3, fun k hk => ?_, h4⟩
  unfold cell
  rw [if_pos (flag_of_take h3 hk)]
  conv_rhs => rw [h2]
  rw [List.getElem?_take, if_pos hk]

theorem FrontRun.flag {r : Reassembler} {tmp : Bytes} (h : FrontRun r tmp) {k : Nat}
    (hk : k < tmp.length) : r.flag[k]? = some true := flag_of_take h.set hk

/-- Sliding by the length of the leading run renumbers the cells. -/
theorem slide_spec {r : Reassembler} (h : r.Sized) {n : Nat} (hn : n ≤ r.flag.length)
    (hrun : r.flag.take n = List.replicate n true) :
    (r.slide n).Sized ∧ (r.slide n).flag.length = r.flag.length ∧
      (∀ k, (r.slide n).cell k = r.cell (k + n)) ∧
      ∀ k, (r.slide n).flag[k]? = some true ↔ r.flag[k + n]? = some true := by
  have hl := h.len
  have hlt := h.lt
  have hflag : ∀ k, (r.slide n).flag[k]? = some true ↔ r.flag[k + n]? = some true := by
    intro k
    simp only [slide, List.getElem?_append, List.length_drop, List.getElem?_drop,
      List.getElem?_replicate]
    split
    · rw [Nat.add_comm]
    · rename_i hk
      rw [List.getElem?_eq_none (show r.flag.length ≤ k + n by omega)]
      split <;> simp
  refine ⟨⟨by simp [slide]; omega, by simp [slide]; omega, ?_⟩, by simp [slide]; omega, ?_, hflag⟩
  · have hc : r.flag.count true = n + (r.flag.drop n).count true := by
      conv_lhs => rw [← List.take_append_drop n r.flag, List.count_append, hrun]
      simp
    have hle := List.count_le_length (a := true) (l := r.flag)
    have hz : (List.replicate n false).count true = 0 := by simp [List.count_replicate]
    show sub64 r.unassembledSize n = (r.flag.drop n ++ List.replicate n false).count true
    rw [h.count, sub64_of_le (by omega) (by omega), List.count_append, hz]
    omega
  · intro k
    unfold cell
    simp only [hflag k]
    split
    · rename_i hk
      have := (List.getElem?_eq_some_iff.mp hk).1
      simp only [slide, List.getElem?_append, List.length_drop, List.getElem?_drop]
      rw [if_pos (by omega), Nat.add_comm]
    · rfl

theorem insert_initialized {r r' : Reassembler} {output output' : ByteStream} {first : Nat}
    {data : Bytes} {last : Bool} (h : insert r first data last output = some (r', output')) :
    r'.initialized = true := by
  have ha : (r.allocate output).initialized = true := by
    unfold allocate
    split
    · assumption
    · rfl
  unfold insert at h
  split at h
  case h_1 => cases h
  rename_i r₁ hst
  have h₁ : r₁.initialized = true := by
    unfold store at hst
    dsimp only at hst
    split_ifs at hst
    · rw [(copyLoop_copied hst).init, ha]
    · rw [(copyLoop_copied hst).init, ha]
    · cases hst; exact ha
  split at h
  · cases h
  · cases h
    split <;> split <;> exact h₁

theorem insert_capacity {r r' : Reassembler} {output output' : ByteStream} {first : Nat}
    {data : Bytes} {last : Bool} (h : insert r first data last output = some (r', output')) :
    output'.capacity = output.capacity := by
  unfold insert at h
  split at h
  case h_1 => cases h
  split at h
  · cases h
  · cases h
    split <;> split <;> split <;> rfl

end Reassembler
end StreamSocket.L2
