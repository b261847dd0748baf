import StreamSocket.Core.OnesComplement
import StreamSocket.L1Encoding.Parser

/-!
# The internet checksum

A 32-bit sum of big-endian 16-bit words, fed byte by byte with a parity that
survives from one buffer to the next, folded to 16 bits and complemented.

Results:
* `add_sum`: adding bytes adds their word sum, whatever the buffers.
* `fold_mod`, `fold_le`: two rounds of folding reduce a 32-bit sum modulo
  `2^16 - 1`.
* `value_of_own`: a sum that includes its own checksum has checksum 0.
* `value_rfc1071`: the value is the complement of the one's complement sum of
  the words, however the bytes are cut.
-/
namespace StreamSocket.L1

/-- mirrors src/util/checksum.hh:13-15 -/
structure InternetChecksum where
  sum : Nat := 0
  parity : Bool := false
  deriving DecidableEq, Repr

/-- What a byte adds: the high half of a word first. -/
def byteWeight (parity : Bool) (i : UInt8) : Nat :=
  if !parity then i.toNat * 256 else i.toNat

namespace InternetChecksum

/-- mirrors src/util/checksum.hh:21-28 -/
def addByte (c : InternetChecksum) (i : UInt8) : InternetChecksum :=
  { sum := (c.sum + byteWeight c.parity i) % 2 ^ 32, parity := !c.parity }

/-- mirrors src/util/checksum.hh:19-29 -/
def add (c : InternetChecksum) (data : Bytes) : InternetChecksum := data.foldl addByte c

/-- mirrors src/util/checksum.hh:42-47 -/
def addBuffers (c : InternetChecksum) (data : List Bytes) : InternetChecksum := data.foldl add c

/-- The folding loop.
mirrors src/util/checksum.hh:35-37 -/
def fold : Nat → Nat → Nat
  | 0, ret => ret
  | fuel + 1, ret => if ret > 0xffff then fold fuel (ret / 2 ^ 16 + ret % 2 ^ 16) else ret

/-- Two rounds bring a 32-bit sum below `2^16`.
mirrors src/util/checksum.hh:31-40 -/
def value (c : InternetChecksum) : UInt16 := UInt16.ofNat (0xffff - fold 2 c.sum)

end InternetChecksum

/-! ## The word sum -/

def wordSum : Bool → Bytes → Nat
  | _, [] => 0
  | parity, i :: is => byteWeight parity i + wordSum (!parity) is

theorem byteWeight_le (parity : Bool) (i : UInt8) : byteWeight parity i ≤ 65280 := by
  have := i.toNat_lt
  unfold byteWeight
  split <;> omega

theorem wordSum_le (parity : Bool) (is : Bytes) : wordSum parity is ≤ 65280 * is.length := by
  induction is generalizing parity with
  | nil => exact Nat.le_refl _
  | cons i is ih =>
    have h1 := byteWeight_le parity i
    have h2 := ih (!parity)
    rw [wordSum, List.length_cons]
    omega

/-- An even number of bytes in front keeps the parity. -/
theorem wordSum_append {xs ys : Bytes} {parity : Bool} (h : xs.length % 2 = 0) :
    wordSum parity (xs ++ ys) = wordSum parity xs + wordSum parity ys := by
  match xs, h with
  | [], _ => rw [List.nil_append, wordSum, Nat.zero_add]
  | [_], h => simp at h
  | a :: b :: xs, h =>
    have h' : xs.length % 2 = 0 := by
      simp only [List.length_cons] at h; omega
    have ih : wordSum parity (xs ++ ys) = wordSum parity xs + wordSum parity ys :=
      wordSum_append h'
    simp only [List.cons_append, wordSum, Bool.not_not, ih]
    omega

/-- A 16-bit integer on the wire is one word. -/
theorem wordSum_beBytes (n : Nat) (h : n < 2 ^ 16) : wordSum false (beBytes 2 n) = n := by
  simp only [beBytes, wordSum, byteWeight, Bool.not_false, Bool.not_true, if_true,
    Bool.false_eq_true, if_false, UInt8.toNat_ofNat', Nat.pow_one, Nat.pow_zero, Nat.div_one]
  omega

namespace InternetChecksum

theorem add_sum (c : InternetChecksum) (data : Bytes) (hc : c.sum < 2 ^ 32) :
    (c.add data).sum = (c.sum + wordSum c.parity data) % 2 ^ 32 := by
  induction data generalizing c with
  | nil => rw [wordSum, Nat.add_zero, Nat.mod_eq_of_lt hc]; rfl
  | cons i is ih =>
    have hstep : c.add (i :: is) = (c.addByte i).add is := rfl
    have hlt : (c.addByte i).sum < 2 ^ 32 := Nat.mod_lt _ (by decide)
    rw [hstep, ih _ hlt, wordSum]
    simp only [addByte, Nat.mod_add_mod, Nat.add_assoc]

theorem addBuffers_eq (c : InternetChecksum) (data : List Bytes) :
    c.addBuffers data = c.add data.flatten := by
  induction data generalizing c with
  | nil => rfl
  | cons b bs ih =>
    rw [List.flatten_cons]
    unfold addBuffers add at *
    rw [List.foldl_cons, ih, List.foldl_append]

/-! ## Folding -/

theorem fold_le {s : Nat} (h : s < 2 ^ 32) : fold 2 s ≤ 0xffff := by
  simp only [fold]
  split
  · split <;> omega
  · omega

theorem fold_mod (s : Nat) : fold 2 s % 0xffff = s % 0xffff := by
  simp only [fold]
  split
  · split <;> omega
  · rfl

theorem fold_eq_zero {s : Nat} : fold 2 s = 0 ↔ s = 0 := by
  simp only [fold]
  split
  · split <;> omega
  · omega

theorem value_toNat {c : InternetChecksum} (h : c.sum < 2 ^ 32) :
    c.value.toNat = 0xffff - fold 2 c.sum := by
  have := fold_le h
  unfold value
  rw [UInt16.toNat_ofNat', Nat.mod_eq_of_lt (by omega)]

/-- A sum that takes in its own checksum has the checksum 0. -/
theorem value_of_own {c d : InternetChecksum} (hc : c.sum < 2 ^ 32)
    (hd : d.sum = c.sum + c.value.toNat) (hlt : d.sum < 2 ^ 32) : d.value = 0 := by
  have hv := value_toNat hc
  have h1 := fold_le hc
  have h2 := fold_mod c.sum
  have h3 := fold_le hlt
  have h4 := fold_mod d.sum
  have h5 := fold_eq_zero (s := c.sum)
  have h6 := fold_eq_zero (s := d.sum)
  have hf : fold 2 d.sum = 0xffff := by omega
  apply UInt16.toNat_inj.mp
  rw [value_toNat hlt, hf]
  rfl

/-! ## The one's complement sum -/

/-- 16-bit words in network byte order, a last odd byte padded with zero. -/
def words : Bytes → List Nat
  | [] => []
  | [x] => [x.toNat * 256]
  | x :: y :: bs => (x.toNat * 256 + y.toNat) :: words bs

/-- RFC 1071: the words added to the folded initial sum with end-around carry,
and complemented. -/
def rfc1071 (p : Nat) (bs : Bytes) : UInt16 :=
  ~~~ UInt16.ofNat ((words bs).foldl (OnesComplement.add 0xffff)
    (OnesComplement.add 0xffff (p / 2 ^ 16) (p % 2 ^ 16)))

theorem words_le : ∀ bs : Bytes, ∀ w ∈ words bs, w ≤ 0xffff
  | [], _, h => absurd h List.not_mem_nil
  | [x], w, h => by
    have hx := x.toNat_lt
    rw [words, List.mem_singleton] at h
    omega
  | x :: y :: bs, w, h => by
    have hx := x.toNat_lt
    have hy := y.toNat_lt
    rw [words, List.mem_cons] at h
    rcases h with rfl | h
    · omega
    · exact words_le bs w h

theorem words_length : ∀ bs : Bytes, (words bs).length = (bs.length + 1) / 2
  | [] => rfl
  | [x] => by simp [words]
  | x :: y :: bs => by
    rw [words, List.length_cons, words_length bs, List.length_cons, List.length_cons]
    omega

theorem words_sum : ∀ bs : Bytes, (words bs).sum = wordSum false bs
  | [] => rfl
  | [x] => by simp [words, wordSum, byteWeight]
  | x :: y :: bs => by
    have ih := words_sum bs
    rw [words, List.sum_cons, ih]
    simp [wordSum, byteWeight, Nat.add_assoc]

theorem wordSum_le_words (bs : Bytes) : wordSum false bs ≤ 0xffff * ((bs.length + 1) / 2) := by
  rw [← words_sum, ← words_length, Nat.mul_comm, ← smul_eq_mul]
  exact List.sum_le_card_nsmul _ _ (words_le bs)

theorem fold_of_le {r : Nat} (h : r ≤ 0xffff) (fuel : Nat) : fold fuel r = r := by
  cases fuel with
  | zero => rfl
  | succ k => rw [fold, if_neg (by omega)]

/-- Two rounds are enough: the test fails after them. -/
theorem fold_two {s fuel : Nat} (hs : s < 2 ^ 32) (h : 2 ≤ fuel) : fold fuel s = fold 2 s := by
  obtain ⟨k, rfl⟩ := Nat.exists_eq_add_of_le' h
  simp only [fold]
  split
  · split
    · exact fold_of_le (by omega) k
    · rfl
  · rfl

theorem fold_word {s : Nat} (h : s < 2 ^ 32) : OnesComplement.Word 0xffff s (fold 2 s) :=
  ⟨fold_le h, fold_mod s, fold_eq_zero⟩

/-- The code folds once at the end, where the sum carries around at each word. -/
theorem value_eq_rfc1071 {p : Nat} {bs : Bytes} (h : p + wordSum false bs < 2 ^ 32) :
    (({ sum := p } : InternetChecksum).add bs).value = rfc1071 p bs := by
  have hsum : (({ sum := p } : InternetChecksum).add bs).sum = p + wordSum false bs := by
    rw [add_sum _ _ (show p < 2 ^ 32 by omega)]
    exact Nat.mod_eq_of_lt h
  have hp : OnesComplement.Word 0xffff p (OnesComplement.add 0xffff (p / 2 ^ 16) (p % 2 ^ 16)) :=
    .of_fold (.add (.self (show p / 2 ^ 16 ≤ 0xffff by omega))
      (.self (show p % 2 ^ 16 ≤ 0xffff by omega)))
  have hw := hp.foldl (words_le bs)
  rw [words_sum] at hw
  have hle := hw.le
  apply UInt16.toNat_inj.mp
  rw [value_toNat (hsum ▸ h), hsum, (fold_word h).unique hw]
  unfold rfc1071
  generalize (words bs).foldl _ _ = r at hle ⊢
  rw [UInt16.toNat_not, UInt16.toNat_ofNat', Nat.mod_eq_of_lt (show r < 2 ^ 16 by omega)]
  rfl

/-- **The checksum.** The folding loop ends after two rounds at most, whatever the
buffers; its value is the one that RFC 1071 gives for the bytes. -/
theorem value_rfc1071 {p : Nat} {bufs : List Bytes}
    (h : p + 0xffff * ((bufs.flatten.length + 1) / 2) < 2 ^ 32) :
    let c := ({ sum := p } : InternetChecksum).addBuffers bufs
    (∃ ret ≤ 0xffff, ∀ fuel, 2 ≤ fuel → fold fuel c.sum = ret) ∧
      c.value = rfc1071 p bufs.flatten ∧
      ∀ bufs' : List Bytes, bufs'.flatten = bufs.flatten →
        (({ sum := p } : InternetChecksum).addBuffers bufs').value = c.value := by
  intro c
  have hle := wordSum_le_words bufs.flatten
  have hval : ∀ bufs' : List Bytes, bufs'.flatten = bufs.flatten →
      (({ sum := p } : InternetChecksum).addBuffers bufs').value = rfc1071 p bufs.flatten := by
    intro bufs' hb
    rw [addBuffers_eq, hb]
    exact value_eq_rfc1071 (by omega)
  have hlt : c.sum < 2 ^ 32 := by
    show (({ sum := p } : InternetChecksum).addBuffers bufs).sum < 2 ^ 32
    rw [addBuffers_eq, add_sum _ _ (show p < 2 ^ 32 by omega)]
    exact Nat.mod_lt _ (by decide)
  refine ⟨⟨fold 2 c.sum, fold_le hlt, fun fuel hf => fold_two hlt hf⟩, hval bufs rfl, ?_⟩
  intro bufs' hb
  rw [hval bufs' hb]
  exact (hval bufs rfl).symm

/-- Six words of all ones on top of an initial sum of `2^20 - 1`, cut at odd places. -/
theorem value_rfc1071_cut :
    let bufs : List Bytes := [[0xff], [], [0xff, 0xff, 0xff], [0xff, 0xff, 0xff]]
    (({ sum := 2 ^ 20 - 1 } : InternetChecksum).addBuffers bufs).value =
      rfc1071 (2 ^ 20 - 1) bufs.flatten :=
  (value_rfc1071 (by decide)).2.1

end InternetChecksum
end StreamSocket.L1
