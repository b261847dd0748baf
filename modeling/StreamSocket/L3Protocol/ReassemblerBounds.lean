import StreamSocket.L3Protocol.ReassemblerRun

/-!
# Inserts at any index: subscripts and discarded bytes

The Reassembler under inserts at arbitrary indices and pops of arbitrary
lengths. `end_index - start_index` is unsigned: for data that starts beyond
the window it wraps, and the loop bound falls back to `data.size()`.

Results:
* `Inv.beyond_not_safe`: data that starts beyond the window leaves the arrays,
  or is stored beyond the window.
* `Inv.straddle_not_safe`: a window that ends at `2^64` or behind lets data
  that straddles `base_index` be read past its end.
* `index_safe_iff`: these are the only calls that are not safe.
-/
namespace StreamSocket.L3.ReassemblerBounds

open L2 ReassemblerRun

structure State where
  r : Reassembler
  out : ByteStream
  deriving DecidableEq, Repr

def State.start (capacity : Nat) : State := { r := {}, out := .new capacity }

/-- The first index that is discarded, `base_index + available_capacity()`. -/
def State.windowEnd (s : State) : Nat := s.r.baseIndex + Writer.availableCapacity s.out

def step (s : State) : Label → Option State
  | .insert first data last =>
    if first + data.length < 2 ^ 64 then
      (s.r.insert first data last s.out).map fun (r, out) => ⟨r, out⟩
    else none
  | .pop len => some { s with out := Reader.pop s.out len }

def machine : LTS State Label :=
  LTS.ofFn (fun s => ∃ c, c < 2 ^ 64 ∧ s = State.start c) step

/-- No byte at or beyond `hi` is pushed, stored or counted. -/
structure Below (hi : Nat) (r : Reassembler) : Prop where
  pushed : r.baseIndex ≤ hi
  stored : ∀ k : Nat, r.flag[k]? = some true → r.baseIndex + k < hi
  counted : r.bytesPending = r.flag.count true

/-- All subscripts are in range, and what lies beyond the window is discarded. -/
def IndexSafe (s : State) (first : Nat) (data : Bytes) (last : Bool) : Prop :=
  ∃ r' out', s.r.insert first data last s.out = some (r', out') ∧ Below s.windowEnd r'

/-- The inserts that are safe. -/
def Meets (s : State) : Label → State → Prop
  | .insert first data _, _ => data = [] ∨ s.r.Fits s.out first data
  | .pop _, _ => True

/-! ## The calls that are safe -/

structure Inv (s : State) : Prop where
  inv : s.r.Inv s.out
  top : s.r.Top

theorem inv_start {c : Nat} (hc : c < 2 ^ 64) : Inv (.start c) where
  inv := Reassembler.inv_new c hc
  top := fun k hk => by simp [State.start] at hk

/-- An empty string is inserted as it would be at `base_index`. -/
theorem Inv.inserted {s : State} (h : Inv s) {first : Nat} {data : Bytes} (last : Bool)
    (hd : first + data.length < 2 ^ 64) (hc : data = [] ∨ s.r.Fits s.out first data) :
    ∃ i tmp r' out', i + data.length < 2 ^ 64 ∧
      s.r.insert first data last s.out = some (r', out') ∧
      Reassembler.Inserted s.r s.out i data last tmp r' out' := by
  rcases hc with rfl | hfit
  · rw [List.length_nil, Nat.add_zero] at hd
    have hb := h.inv.base_lt
    have hb0 : s.r.baseIndex + ([] : Bytes).length < 2 ^ 64 := by
      rw [List.length_nil, Nat.add_zero]; exact hb
    have hfit : s.r.Fits s.out s.r.baseIndex [] := by
      unfold Reassembler.Fits
      rw [List.length_nil]
      omega
    obtain ⟨tmp, r', out', hins, hi⟩ := Reassembler.insert_of_fits h.inv h.top _ [] last hfit hb0
    rw [Reassembler.insert_nil hd hb]
    exact ⟨_, tmp, r', out', hb0, hins, hi⟩
  · obtain ⟨tmp, r', out', hins, hi⟩ := Reassembler.insert_of_fits h.inv h.top _ data last hfit hd
    exact ⟨_, tmp, r', out', hd, hins, hi⟩

/-- What is stored afterwards was stored before, or ends where `data` does. -/
theorem top_of_inserted {r r' : Reassembler} {out out' : ByteStream} {first : Nat}
    {data tmp : Bytes} {last : Bool} (h : r.Inv out) (ht : r.Top)
    (hd : first + data.length < 2 ^ 64)
    (hi : Reassembler.Inserted r out first data last tmp r' out') : r'.Top := by
  intro k hk
  have hbase := hi.base
  rcases (hi.flag_iff h.sized.len k).mp hk with hold | hnew
  · have := ht _ hold
    omega
  · omega

theorem below_of_inserted {r r' : Reassembler} {out out' : ByteStream} {first : Nat}
    {data tmp : Bytes} {last : Bool} (h : r.Inv out)
    (hi : Reassembler.Inserted r out first data last tmp r' out') :
    Below (r.baseIndex + Writer.availableCapacity out) r' := by
  have hbase := hi.base
  have hfits := hi.fits
  have hstream : out'.stream.length = out.stream.length + tmp.length := by
    rw [hi.stream, List.length_append]
  rw [h.out.available]
  refine ⟨by omega, fun k hk => ?_, hi.inv.sized.count⟩
  by_contra hge
  refine hi.inv.window k ?_ hk
  rw [hi.cap, hstream]
  omega

theorem Inv.step {s s' : State} {l : Label} (h : Inv s) (hm : Meets s l s')
    (hs : ReassemblerBounds.step s l = some s') : Inv s' := by
  cases l with
  | insert first data last =>
    simp only [ReassemblerBounds.step] at hs
    split at hs
    · rename_i hd
      obtain ⟨i, tmp, r', out', hlt, hins, hi⟩ := h.inserted last hd hm
      rw [hins] at hs
      cases hs
      exact ⟨hi.inv, top_of_inserted h.inv h.top hlt hi⟩
    · cases hs
  | pop len =>
    cases hs
    exact ⟨h.inv.pop len, h.top⟩

theorem inductive_inv : (machine.restrict Meets).Inductive Inv :=
  .restrict (by rintro _ ⟨c, hc, rfl⟩; exact inv_start hc) fun _ _ _ h hm hs => h.step hm hs

/-! ## The calls that are not -/

/-- Data that starts beyond the window: the first round is made, and stores a
byte beyond the window unless its subscript is out of range. -/
theorem Inv.beyond_not_safe {s : State} (h : Inv s) {first : Nat} {data : Bytes} (last : Bool)
    (hd : first + data.length < 2 ^ 64) (hne : data ≠ []) (hgt : s.windowEnd < first) :
    ¬ IndexSafe s first data last := by
  rintro ⟨r', out', hins, hb⟩
  have hlen : 0 < data.length := List.length_pos_iff.mpr hne
  obtain ⟨-, -, -, abase, -, -⟩ := Reassembler.allocate_spec h.inv
  have aflag := Reassembler.allocate_flag h.inv
  unfold State.windowEnd at hgt
  unfold Reassembler.insert at hins
  split at hins
  case h_1 => cases hins
  rename_i r₁ hst
  unfold Reassembler.store at hst
  generalize s.r.allocate s.out = a at *
  generalize hA : Writer.availableCapacity s.out = A at *
  generalize hB : s.r.baseIndex = B at *
  simp only [abase] at hst
  -- the length wraps
  have hrounds : min (sub64 (min (add64 B A) (add64 first data.length)) (max B first))
      data.length = data.length := by
    rw [add64_of_lt (show B + A < 2 ^ 64 by omega), add64_of_lt hd,
      Nat.min_eq_left (show B + A ≤ first + data.length by omega), Nat.max_eq_right (by omega)]
    apply Nat.min_eq_right
    unfold sub64 subW
    omega
  have hpos : ∀ j, j < data.length → sub64 (add64 (0 + j) first) B = first - B + j :=
    fun j hj => by
      rw [add64_of_lt (by omega), sub64_of_le (by omega) (by omega)]; omega
  rw [if_pos (by omega), hrounds] at hst
  have hcop := Reassembler.copyLoop_copied hst
  have hset : r₁.flag[first - B]? = some true := by
    have := hcop.done 0 hlen
    rwa [hpos 0 hlen] at this
  have hgap : r₁.flag[0]? ≠ some true := by
    intro hk
    rcases hcop.fresh 0 hk with hold | ⟨j, hj, hp, -⟩
    · exact h.inv.gap ((aflag 0).mp hold)
    · rw [hpos j hj] at hp
      omega
  have hbase : r₁.baseIndex = B := hcop.base.trans abase
  simp only [Reassembler.assemble_of_gap _ hgap, List.length_nil, ne_eq, not_true_eq_false,
    if_false] at hins
  have hr : r'.flag = r₁.flag ∧ r'.baseIndex = r₁.baseIndex := by
    cases hins
    split <;> exact ⟨rfl, rfl⟩
  have := hb.stored (first - B) (by rw [hr.1]; exact hset)
  rw [hr.2, hbase] at this
  unfold State.windowEnd at this
  omega

/-- A window that reaches `2^64`: the second loop runs over all of it, and the
flag at `2^64 - 1` is clear. -/
theorem Inv.straddle_not_safe {s : State} (h : Inv s) {first : Nat} {data : Bytes} (last : Bool)
    (hd : first + data.length < 2 ^ 64) (hw : 2 ^ 64 ≤ s.windowEnd)
    (hle : first ≤ s.r.baseIndex) (hgt : s.r.baseIndex < first + data.length) :
    ¬ IndexSafe s first data last := by
  rintro ⟨r', out', hins, -⟩
  have hcap := h.inv.out.cap_lt
  have hfits := h.inv.out.fits
  have hav := h.inv.out.available
  have hblt := h.inv.base_lt
  obtain ⟨-, alen, -, abase, -, -⟩ := Reassembler.allocate_spec h.inv
  have aflag := Reassembler.allocate_flag h.inv
  have htop := h.top
  unfold Reassembler.Top at htop
  unfold State.windowEnd at hw
  suffices hst : Reassembler.store s.r first data s.out = none by
    unfold Reassembler.insert at hins
    rw [hst] at hins
    cases hins
  unfold Reassembler.store
  generalize s.r.allocate s.out = a at *
  generalize hA : Writer.availableCapacity s.out = A at *
  generalize hB : s.r.baseIndex = B at *
  simp only [abase]
  obtain ⟨j, hj⟩ : ∃ j, B + j + 1 = 2 ^ 64 := ⟨2 ^ 64 - 1 - B, by omega⟩
  have hjA : j < A := by omega
  have hrounds : min (sub64 (min (add64 B A) (add64 first data.length)) (max B first))
      a.flag.length = A := by
    have hadd : add64 B A = B + A - 2 ^ 64 := by
      rw [add64_eq]; omega
    have hsub : sub64 (B + A - 2 ^ 64) B = A := by
      unfold sub64 subW; omega
    rw [hadd, add64_of_lt hd,
      Nat.min_eq_left (show B + A - 2 ^ 64 ≤ first + data.length by omega),
      Nat.max_eq_left hle, hsub, alen]
    omega
  rw [if_neg (by omega), if_pos (by rw [add64_of_lt hd]; omega), hrounds]
  have hclear : a.flag[j]? ≠ some true := fun hset => by
    have := htop j ((aflag j).mp hset)
    omega
  have hmissing : data[sub64 (add64 j B) first]? = none := by
    rw [add64_of_lt (by omega), sub64_of_le (by omega) (by omega)]
    exact List.getElem?_eq_none (by omega)
  apply Reassembler.copyLoop_eq_none (j := j)
  · exact hjA
  · intro k hk; simp only [Nat.zero_add]; omega
  · simpa only [Nat.zero_add] using hclear
  · simpa only [Nat.zero_add] using hmissing

/-- **Which inserts are safe.** In every state reached by safe calls, an insert
is safe if its data is empty, or starts at most at the end of the window; should
that end be at `2^64` or behind, the data must not straddle `base_index`. -/
theorem index_safe_iff (s : State) (hr : (machine.restrict Meets).Reachable s) (first : Nat)
    (data : Bytes) (last : Bool) (hd : first + data.length < 2 ^ 64) :
    IndexSafe s first data last ↔ data = [] ∨ s.r.Fits s.out first data := by
  have h := inductive_inv.reachable s hr
  constructor
  · intro hsafe
    by_contra hc
    rw [not_or] at hc
    obtain ⟨hne, hfit⟩ := hc
    by_cases hgt : s.windowEnd < first
    · exact h.beyond_not_safe last hd hne hgt hsafe
    · unfold Reassembler.Fits at hfit
      unfold State.windowEnd at hgt
      exact h.straddle_not_safe last hd (by unfold State.windowEnd; omega) (by omega) (by omega)
        hsafe
  · intro hc
    obtain ⟨i, tmp, r', out', -, hins, hi⟩ := h.inserted last hd hc
    exact ⟨r', out', hins, below_of_inserted h.inv hi⟩

/-- The byte before a stored one. -/
theorem index_safe_hole : ∃ s, (machine.restrict Meets).Run (.start 4) [.insert 1 [98] false] s ∧
    IndexSafe s 0 [97] false := by
  let s : State := ⟨{ unassembledSize := 1, initialized := true, buffer := [0, 98, 0, 0]
                      flag := [false, true, false, false] }, .new 4⟩
  have hs : step (.start 4) (.insert 1 [98] false) = some s := by decide +kernel
  have hrun : (machine.restrict Meets).Run (.start 4) [.insert 1 [98] false] s :=
    .cons ⟨hs, .inr (by decide +kernel)⟩ (.nil s)
  exact ⟨s, hrun, (index_safe_iff s ⟨_, _, ⟨4, by decide, rfl⟩, hrun⟩ 0 [97] false
    (by decide)).mpr (.inr (by decide +kernel))⟩

/-- One byte at index 3: with capacity 1 it is written behind the arrays, and
with capacity 4 and "ab" pushed, byte 5 is stored and counted, though byte 4 is
the first to be discarded. -/
theorem beyond_window_kept : machine.Reachable (.start 1) ∧ ¬ IndexSafe (.start 1) 3 [103] false ∧
    ∃ s, machine.Run (.start 4) [.insert 0 [97, 98] false] s ∧ s.windowEnd = 4 ∧
      ∃ r', s.r.insert 5 [103] false s.out = some (r', s.out) ∧ r'.baseIndex = 2 ∧
        r'.flag[3]? = some true ∧ r'.bytesPending = 1 := by
  refine ⟨⟨_, [], ⟨1, by decide, rfl⟩, .nil _⟩, ?_, ?_⟩
  · rintro ⟨r', out', hins, -⟩
    have hnone : Reassembler.insert {} 3 [103] false (.new 1) = none := by decide +kernel
    rw [show (State.start 1).r = {} from rfl, show (State.start 1).out = .new 1 from rfl, hnone]
      at hins
    cases hins
  · let s : State := ⟨{ baseIndex := 2, initialized := true, buffer := [0, 0, 0, 0]
                        flag := [false, false, false, false] },
      { capacity := 4, stream := [97, 98], bytesWrite := 2 }⟩
    have hs : step (.start 4) (.insert 0 [97, 98] false) = some s := by decide +kernel
    exact ⟨s, .cons hs (.nil s), by decide +kernel,
      { s.r with unassembledSize := 1, buffer := [0, 0, 0, 103]
                 flag := [false, false, false, true] }, by decide +kernel, rfl, rfl, rfl⟩

end StreamSocket.L3.ReassemblerBounds
