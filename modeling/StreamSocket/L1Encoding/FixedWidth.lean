import StreamSocket.L1Encoding.Parser

/-!
# Readers of a fixed width

A step of parsing that reads exactly `n` bytes and makes a value of them
(`Reads m n f`): where fewer bytes are left it ends in an error, and an error
stays. Headers are such readers, one field after the other. However the bytes
are cut into buffers (`Holds`), what is read without an error are the first
of them.

Results:
* `beBytes_beValue`: bytes are the big-endian form of the number they hold.
* `Holds.removePrefix`, `Holds.dumpAll`: buffers as the bytes they hold.
* `Reads.bind`: two readers in a row are a reader.
* `Reads.parse_whole`, `Reads.parse_short`: parsing one buffer.
-/
namespace StreamSocket.L1

/-! ## The number that bytes hold -/

theorem beValue_append (acc : Nat) (xs ys : Bytes) :
    beValue acc (xs ++ ys) = beValue (beValue acc xs) ys := by
  unfold beValue
  rw [List.foldl_append]

theorem beValue_lt (ys : Bytes) : beValue 0 ys < 256 ^ ys.length := by
  induction ys using List.reverseRecOn with
  | nil => decide
  | append_singleton ys y ih =>
    have hy := y.toNat_lt
    rw [beValue_append, List.length_append, List.length_singleton, Nat.pow_succ]
    show beValue 0 ys * 256 + y.toNat < _
    omega

/-- Only the low bytes are written. -/
theorem beBytes_add_mul (n a b : Nat) : beBytes n (a * 256 ^ n + b) = beBytes n b := by
  induction n generalizing a with
  | zero => rfl
  | succ n ih =>
    have hpow : 0 < 256 ^ n := Nat.pow_pos (by decide)
    have hsum : a * 256 ^ (n + 1) + b = a * 256 * 256 ^ n + b := by
      rw [Nat.pow_succ, Nat.mul_comm (256 ^ n), Nat.mul_assoc]
    have hhead : UInt8.ofNat ((a * 256 * 256 ^ n + b) / 256 ^ n) = UInt8.ofNat (b / 256 ^ n) := by
      apply UInt8.toNat_inj.mp
      rw [Nat.add_comm, Nat.add_mul_div_right _ _ hpow, UInt8.toNat_ofNat', UInt8.toNat_ofNat']
      omega
    rw [beBytes, beBytes, hsum, hhead, ih]

/-- `n` bytes are what is written for the number they hold. -/
theorem beBytes_beValue {n : Nat} {ys : Bytes} (h : ys.length = n) :
    beBytes n (beValue 0 ys) = ys := by
  induction n generalizing ys with
  | zero => rw [List.length_eq_zero_iff.mp h]; rfl
  | succ n ih =>
    obtain ⟨y, ys, rfl⟩ := List.exists_cons_of_length_eq_add_one h
    have hn : ys.length = n := Nat.succ.inj h
    have hlt := beValue_lt ys
    rw [hn] at hlt
    have hv : beValue 0 (y :: ys) = y.toNat * 256 ^ n + beValue 0 ys := by
      have hy : beValue y.toNat ys = y.toNat * 256 ^ n + beValue 0 ys := by
        conv_lhs => rw [← ih hn, beValue_beBytes, Nat.mod_eq_of_lt hlt]
      rw [← hy]
      unfold beValue
      rw [List.foldl_cons, Nat.zero_mul, Nat.zero_add]
    have hdiv : (y.toNat * 256 ^ n + beValue 0 ys) / 256 ^ n = y.toNat := by
      rw [Nat.add_comm, Nat.add_mul_div_right _ _ (Nat.pow_pos (by decide)),
        Nat.div_eq_of_lt hlt, Nat.zero_add]
    rw [beBytes, hv, hdiv, beBytes_add_mul, ih hn, UInt8.ofNat_toNat]

/-- The number in the `n` bytes from `i` on. -/
def field (ys : Bytes) (i n : Nat) : Nat := beValue 0 ((ys.drop i).take n)

@[simp] theorem field_drop (ys : Bytes) (i j n : Nat) :
    field (ys.drop i) j n = field ys (i + j) n := by
  simp [field]

@[simp] theorem field_tail (ys : Bytes) (j n : Nat) : field ys.tail j n = field ys (1 + j) n := by
  rw [← List.drop_one, field_drop]

theorem field_take {ys : Bytes} {i n k : Nat} (h : i + n ≤ k) :
    field (ys.take k) i n = field ys i n := by
  unfold field
  rw [List.drop_take, List.take_take, Nat.min_eq_left (by omega)]

/-! ## The bytes that buffers hold -/

/-- `xs` is what is left in the buffers, some of which may be empty. -/
structure BufferList.Holds (l : BufferList) (xs : Bytes) : Prop where
  size : l.size = xs.length
  view : l.buffer.flatten.drop l.skip = xs
  skip : l.skip ≤ (l.buffer.headD []).length

structure Parser.Holds (p : Parser) (xs : Bytes) : Prop where
  ok : p.error = false
  input : p.input.Holds xs

theorem Parser.Holds.new (bufs : List Bytes) : (Parser.new bufs).Holds bufs.flatten :=
  ⟨rfl, ⟨List.length_flatten.symm, rfl, Nat.zero_le _⟩⟩

theorem BufferList.At.holds {l : BufferList} {xs : Bytes} {rest : List Bytes} (h : l.At xs rest) :
    l.Holds (xs ++ rest.flatten) := by
  refine ⟨by rw [h.size, List.length_append, List.length_flatten], ?_, ?_⟩
  · rcases h.view with ⟨b, hb, hlt, hd⟩ | ⟨hn, hb, hk⟩
    · rw [hb, List.flatten_cons, List.drop_append_of_le_length (Nat.le_of_lt hlt), hd]
    · rw [hn, hb, hk, List.drop_zero, List.nil_append]
  · rcases h.view with ⟨b, hb, hlt, -⟩ | ⟨-, -, hk⟩
    · rw [hb, List.headD_cons]; exact Nat.le_of_lt hlt
    · rw [hk]; exact Nat.zero_le _

theorem Parser.At.holds {p : Parser} {xs : Bytes} {rest : List Bytes} (h : p.At xs rest) :
    p.Holds (xs ++ rest.flatten) :=
  ⟨h.ok, h.input.holds⟩

theorem BufferList.removeLoop_holds : ∀ (bs : List Bytes) (size len skip : Nat),
    size = bs.flatten.length - skip → skip ≤ (bs.headD []).length →
    (BufferList.removeLoop size len bs skip).Holds (bs.flatten.drop (skip + len))
  | [], size, len, skip, hs, hk => by
    have : size = 0 := by simpa using hs
    exact ⟨by simpa [removeLoop] using this, by simp [removeLoop], by simpa [removeLoop] using hk⟩
  | b :: bs, size, len, skip, hs, hk => by
    rw [List.headD_cons] at hk
    rw [List.flatten_cons, List.length_append] at hs
    have hlen : ∀ n, ((b :: bs).flatten.drop n).length = b.length + bs.flatten.length - n := by
      intro n
      rw [List.length_drop, List.flatten_cons, List.length_append]
    rw [removeLoop]
    by_cases h0 : len = 0
    · rw [if_pos h0, h0]
      exact ⟨by rw [hlen]; exact hs, rfl, hk⟩
    rw [if_neg h0]
    show BufferList.Holds (if skip + min len (b.length - skip) = b.length then _ else _) _
    by_cases hb : skip + min len (b.length - skip) = b.length
    · -- the first buffer goes
      have ih := removeLoop_holds bs (size - min len (b.length - skip))
        (len - min len (b.length - skip)) 0 (by omega) (Nat.zero_le _)
      rw [Nat.zero_add] at ih
      rwa [if_pos hb, List.flatten_cons, List.drop_append, List.drop_of_length_le (by omega),
        List.nil_append, show skip + len - b.length = len - min len (b.length - skip) by omega]
    · have hm : min len (b.length - skip) = len := by omega
      rw [hm] at hb
      rw [if_neg (by rwa [hm]), hm]
      exact ⟨by rw [hlen]; simp only; omega, rfl, by simp only [List.headD_cons]; omega⟩

theorem BufferList.Holds.removePrefix {l : BufferList} {xs : Bytes} (h : l.Holds xs) (n : Nat) :
    (l.removePrefix n).Holds (xs.drop n) := by
  have hs := h.size
  rw [← h.view, List.length_drop] at hs
  rw [← h.view, List.drop_drop]
  exact BufferList.removeLoop_holds l.buffer l.size n l.skip hs h.skip

theorem BufferList.Holds.dumpAll {l : BufferList} {xs : Bytes} (h : l.Holds xs) :
    l.dumpAll.flatten = xs := by
  have hs := h.size
  unfold BufferList.dumpAll
  split_ifs with h0
  · rw [h0] at hs
    exact (List.length_eq_zero_iff.mp hs.symm).symm
  · have hk := h.skip
    rw [← h.view]
    cases hb : l.buffer with
    | nil => simp
    | cons b bs =>
      rw [hb, List.headD_cons] at hk
      simp only [List.flatten_cons, List.drop_append_of_le_length hk]

theorem BufferList.Holds.front {l : BufferList} {xs : Bytes} (h : l.Holds xs) {x : UInt8}
    (hx : l.front = some x) : xs = x :: xs.drop 1 := by
  obtain ⟨v, hv, hx⟩ := Option.bind_eq_some_iff.mp hx
  have hk := h.skip
  have hview := h.view
  unfold BufferList.peek at hv
  cases hb : l.buffer with
  | nil => rw [hb] at hv; cases hv
  | cons b bs =>
    rw [hb] at hv hk hview
    rw [List.headD_cons] at hk
    cases hv
    rw [List.flatten_cons, List.drop_append_of_le_length hk] at hview
    rw [← hview]
    cases hd : b.drop l.skip with
    | nil => rw [hd] at hx; cases hx
    | cons y ys => rw [hd] at hx; cases hx; rfl

theorem Parser.readBytes_holds : ∀ {n acc : Nat} {l l' : BufferList} {xs : Bytes} {v : Nat},
    l.Holds xs → Parser.readBytes n acc l = some (v, l') →
    ∃ ys zs, xs = ys ++ zs ∧ ys.length = n ∧ v = beValue acc ys ∧ l'.Holds zs
  | 0, acc, l, l', xs, v, h, e => by
    cases e
    exact ⟨[], xs, rfl, rfl, rfl, h⟩
  | n + 1, acc, l, l', xs, v, h, e => by
    obtain ⟨y, hy, e⟩ := Option.bind_eq_some_iff.mp e
    have hx := h.front hy
    obtain ⟨ys, zs, hxs, hn, hv, h'⟩ := Parser.readBytes_holds (h.removePrefix 1) e
    refine ⟨y :: ys, zs, ?_, by rw [List.length_cons, hn], hv, h'⟩
    rw [hx, hxs, List.cons_append]

theorem BufferList.Holds.allRemainingBuffer {p : Parser} {xs : Bytes} (h : p.input.Holds xs) :
    Parser.allRemainingBuffer p = some (xs, p) := by
  have hd := h.dumpAll
  unfold Parser.allRemainingBuffer
  split
  · next b hb =>
    rw [hb, List.flatten_singleton] at hd
    rw [hd]
  · rw [hd]

theorem Parser.Holds.allRemainingBuffer {p : Parser} {xs : Bytes} (h : p.Holds xs) :
    Parser.allRemainingBuffer p = some (xs, p) :=
  h.input.allRemainingBuffer

/-! ## Readers -/

/-- `m` reads `n` bytes and returns `f` of them. -/
structure Reads {α : Type} (m : Parse α) (n : Nat) (f : Bytes → α) : Prop where
  whole : ∀ {p : Parser} {ys zs : Bytes} {rest : List Bytes}, ys.length = n →
    p.At (ys ++ zs) rest → ∃ p', m p = some (f ys, p') ∧ p'.At zs rest
  short : ∀ {p : Parser} {xs : Bytes}, xs.length < n → p.At xs [] →
    ∃ a p', m p = some (a, p') ∧ p'.error = true
  empty : ∀ {p : Parser}, 0 < n → p.input.size = 0 →
    ∃ a p', m p = some (a, p') ∧ p'.error = true
  stuck : ∀ {p : Parser}, p.error = true → ∃ a p', m p = some (a, p') ∧ p'.error = true
  sound : ∀ {p p' : Parser} {xs : Bytes} {a : α}, p.Holds xs → m p = some (a, p') →
    p'.error = false → ∃ ys zs, xs = ys ++ zs ∧ ys.length = n ∧ a = f ys ∧ p'.Holds zs

/-- An error at the start is an error at the end. -/
theorem Reads.ok {α : Type} {m : Parse α} {n : Nat} {f : Bytes → α} (h : Reads m n f)
    {p p' : Parser} {a : α} (e : m p = some (a, p')) (he : p'.error = false) :
    p.error = false := by
  by_contra hp
  obtain ⟨b, q, e', hq⟩ := h.stuck (Bool.not_eq_false _ ▸ hp)
  rw [e] at e'
  cases e'
  rw [hq] at he
  cases he

theorem Reads.congr {α : Type} {m : Parse α} {n : Nat} {f g : Bytes → α} (h : Reads m n f)
    (hfg : ∀ ys, ys.length = n → f ys = g ys) : Reads m n g where
  whole := fun hn hp => by rw [← hfg _ hn]; exact h.whole hn hp
  short := h.short
  empty := h.empty
  stuck := h.stuck
  sound := fun hp e he => by
    obtain ⟨ys, zs, hxs, hn, ha, hp'⟩ := h.sound hp e he
    exact ⟨ys, zs, hxs, hn, ha.trans (hfg ys hn), hp'⟩

theorem Reads.pure {α : Type} (a : α) : Reads (Pure.pure a) 0 fun _ => a where
  whole := fun {p ys zs _} hn hp => by
    rw [List.length_eq_zero_iff.mp hn, List.nil_append] at hp
    exact ⟨p, rfl, hp⟩
  short := fun hn => absurd hn (Nat.not_lt_zero _)
  empty := fun hn => absurd hn (Nat.lt_irrefl _)
  stuck := fun {p} he => ⟨a, p, rfl, he⟩
  sound := fun {p p' xs a'} hp e _ => by
    cases e
    exact ⟨[], xs, rfl, rfl, rfl, hp⟩

theorem Reads.bind {α β : Type} {m : Parse α} {n k : Nat} {f : Bytes → α} {g : α → Parse β}
    {h : α → Bytes → β} (hm : Reads m n f) (hn : 0 < n) (hg : ∀ a, Reads (g a) k (h a)) :
    Reads (m >>= g) (n + k) fun ys => h (f (ys.take n)) (ys.drop n) where
  whole := fun {p ys zs rest} hn hp => by
    rw [← List.take_append_drop n ys, List.append_assoc] at hp
    obtain ⟨p₁, e₁, hp₁⟩ := hm.whole (by rw [List.length_take]; omega) hp
    obtain ⟨p', e', hp'⟩ := (hg (f (ys.take n))).whole (by rw [List.length_drop]; omega) hp₁
    exact ⟨p', by rw [bind_of_some e₁, e'], hp'⟩
  short := fun {p xs} hn hp => by
    by_cases hx : xs.length < n
    · obtain ⟨a, p₁, e₁, he₁⟩ := hm.short hx hp
      obtain ⟨b, p', e', he'⟩ := (hg a).stuck he₁
      exact ⟨b, p', by rw [bind_of_some e₁, e'], he'⟩
    · rw [← List.take_append_drop n xs] at hp
      obtain ⟨p₁, e₁, hp₁⟩ := hm.whole (by rw [List.length_take]; omega) hp
      obtain ⟨b, p', e', he'⟩ :=
        (hg (f (xs.take n))).short (by rw [List.length_drop]; omega) hp₁
      exact ⟨b, p', by rw [bind_of_some e₁, e'], he'⟩
  empty := fun {p} _ hs => by
    obtain ⟨a, p₁, e₁, he₁⟩ := hm.empty hn hs
    obtain ⟨b, p', e', he'⟩ := (hg a).stuck he₁
    exact ⟨b, p', by rw [bind_of_some e₁, e'], he'⟩
  stuck := fun {p} he => by
    obtain ⟨a, p₁, e₁, he₁⟩ := hm.stuck he
    obtain ⟨b, p', e', he'⟩ := (hg a).stuck he₁
    exact ⟨b, p', by rw [bind_of_some e₁, e'], he'⟩
  sound := fun {p p' xs b} hp e he => by
    obtain ⟨⟨a, p₁⟩, e₁, e⟩ := Option.bind_eq_some_iff.mp e
    change g a p₁ = some (b, p') at e
    -- an error of the first reader would have stayed
    obtain ⟨ys, xs', rfl, hn', rfl, hp₁⟩ := hm.sound hp e₁ ((hg a).ok e he)
    obtain ⟨ys', zs, rfl, hk, rfl, hp'⟩ := (hg _).sound hp₁ e he
    refine ⟨ys ++ ys', zs, (List.append_assoc ..).symm, ?_, ?_, hp'⟩
    · rw [List.length_append, hn', hk]
    · rw [← hn', List.take_left', List.drop_left'] <;> rfl

/-! ## Integers -/

theorem Parser.integer_of_short {n : Nat} (out : Nat) {p : Parser} (h : p.input.size < n) :
    Parser.integer n out p = some (out, { p with error := true }) := by
  have hc : p.checkSize n = { p with error := true } := by
    unfold Parser.checkSize
    rw [if_pos (by omega)]
  unfold Parser.integer
  rw [hc, if_pos rfl]

theorem Parser.integer_reads (n out : Nat) : Reads (Parser.integer n out) n (beValue 0) where
  whole := fun {p ys zs rest} hn hp => by
    have hv := beValue_lt ys
    rw [hn] at hv
    rw [← beBytes_beValue hn] at hp
    have h := Parser.integer_at out hp
    rwa [Nat.mod_eq_of_lt hv] at h
  short := fun {p xs} hn hp => by
    have hs := hp.input.size
    rw [List.map_nil, List.sum_nil, Nat.add_zero] at hs
    exact ⟨out, _, Parser.integer_of_short out (by omega), rfl⟩
  empty := fun {p} hn hs => ⟨out, _, Parser.integer_of_short out (by omega), rfl⟩
  stuck := fun {p} he => by
    have hc : (p.checkSize n).error = true := by
      unfold Parser.checkSize
      split
      · rfl
      · exact he
    refine ⟨out, p.checkSize n, ?_, hc⟩
    unfold Parser.integer
    rw [if_pos hc]
  sound := fun {p p' xs v} hp e he => by
    unfold Parser.integer at e
    split_ifs at e with hc
    · cases e
      rw [hc] at he
      cases he
    · obtain ⟨⟨v', l'⟩, hr, e⟩ := Option.map_eq_some_iff.mp e
      cases e
      obtain ⟨ys, zs, hxs, hn, hv, h'⟩ := Parser.readBytes_holds hp.input hr
      exact ⟨ys, zs, hxs, hn, hv, hp.ok, h'⟩

theorem field_slice {ys : Bytes} {i n : Nat} (h : i + n ≤ ys.length) :
    field ys i n < 256 ^ n ∧ beBytes n (field ys i n) = (ys.drop i).take n := by
  have hn : ((ys.drop i).take n).length = n := by
    rw [List.length_take, List.length_drop]; omega
  have hlt := beValue_lt ((ys.drop i).take n)
  rw [hn] at hlt
  exact ⟨hlt, beBytes_beValue hn⟩

/-- An integer made of as many bytes as it is wide is written as these bytes. -/
theorem beBytes_u8 {ys : Bytes} {i : Nat} (h : i + 1 ≤ ys.length) :
    beBytes 1 (UInt8.ofNat (field ys i 1)).toNat = (ys.drop i).take 1 := by
  rw [UInt8.toNat_ofNat_of_lt' (field_slice h).1, (field_slice h).2]

theorem beBytes_u16 {ys : Bytes} {i : Nat} (h : i + 2 ≤ ys.length) :
    beBytes 2 (UInt16.ofNat (field ys i 2)).toNat = (ys.drop i).take 2 := by
  rw [UInt16.toNat_ofNat_of_lt' (field_slice h).1, (field_slice h).2]

theorem beBytes_u32 {ys : Bytes} {i : Nat} (h : i + 4 ≤ ys.length) :
    beBytes 4 (UInt32.ofNat (field ys i 4)).toNat = (ys.drop i).take 4 := by
  rw [UInt32.toNat_ofNat_of_lt' (field_slice h).1, (field_slice h).2]

theorem Parser.u8_reads (out : UInt8) :
    Reads (Parser.u8 out) 1 fun ys => UInt8.ofNat (field ys 0 1) :=
  (Parser.integer_reads 1 out.toNat).bind (by decide) fun v => .pure (UInt8.ofNat v)

theorem Parser.u16_reads (out : UInt16) :
    Reads (Parser.u16 out) 2 fun ys => UInt16.ofNat (field ys 0 2) :=
  (Parser.integer_reads 2 out.toNat).bind (by decide) fun v => .pure (UInt16.ofNat v)

theorem Parser.u32_reads (out : UInt32) :
    Reads (Parser.u32 out) 4 fun ys => UInt32.ofNat (field ys 0 4) :=
  (Parser.integer_reads 4 out.toNat).bind (by decide) fun v => .pure (UInt32.ofNat v)

/-! ## One buffer -/

/-- A reader at the front of one buffer. -/
theorem Reads.parse_whole {α : Type} {m : Parse α} {n : Nat} {f : Bytes → α} (h : Reads m n f)
    {b : Bytes} (hb : b ≠ []) (hn : n ≤ b.length) :
    ∃ p', m (.new [b]) = some (f (b.take n), p') ∧ p'.At (b.drop n) [] := by
  have hp := Parser.At.new b [] hb
  rw [← List.take_append_drop n b] at hp
  obtain ⟨p', e, hp'⟩ := h.whole (by rw [List.length_take]; omega) hp
  rw [List.take_append_drop] at e
  exact ⟨p', e, hp'⟩

/-- In a buffer that is too short. -/
theorem Reads.parse_short {α : Type} {m : Parse α} {n : Nat} {f : Bytes → α} (h : Reads m n f)
    {b : Bytes} (hn : b.length < n) : ∃ a p', m (.new [b]) = some (a, p') ∧ p'.error = true := by
  by_cases hb : b = []
  · subst hb
    exact h.empty (Nat.zero_lt_of_lt hn) rfl
  · exact h.short hn (Parser.At.new b [] hb)

end StreamSocket.L1
