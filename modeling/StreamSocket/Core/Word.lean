import StreamSocket.Core.LTS

/-!
# Fixed-width unsigned arithmetic on `Nat`

C++ unsigned arithmetic of width `w` on naturals below `2 ^ w`: `addW` and
`subW` reduce modulo `2 ^ w`. The models keep counters as `Nat` and name the
width where the code's own type can wrap (`uint64_t` counters, the 16-bit
window). `add64_of_lt` and `sub64_of_le` are the cases in which nothing
wraps.
-/
namespace StreamSocket

abbrev Bytes := List UInt8

def addW (w a b : Nat) : Nat := (a + b) % 2 ^ w

def subW (w a b : Nat) : Nat := (a + 2 ^ w - b % 2 ^ w) % 2 ^ w

def add64 (a b : Nat) : Nat := addW 64 a b
def sub64 (a b : Nat) : Nat := subW 64 a b
def sub16 (a b : Nat) : Nat := subW 16 a b

theorem addW_lt (w a b : Nat) : addW w a b < 2 ^ w := by
  unfold addW; exact Nat.mod_lt _ (Nat.two_pow_pos w)

theorem subW_lt (w a b : Nat) : subW w a b < 2 ^ w := by
  unfold subW; exact Nat.mod_lt _ (Nat.two_pow_pos w)

theorem addW_of_lt {w a b : Nat} (h : a + b < 2 ^ w) : addW w a b = a + b := by
  unfold addW; exact Nat.mod_eq_of_lt h

theorem subW_of_le {w a b : Nat} (h : b ≤ a) (ha : a < 2 ^ w) : subW w a b = a - b := by
  unfold subW
  rw [Nat.mod_eq_of_lt (show b < 2 ^ w by omega), show a + 2 ^ w - b = (a - b) + 2 ^ w by omega,
    Nat.add_mod_right, Nat.mod_eq_of_lt (by omega)]

@[simp] theorem addW_mod (w a b : Nat) : addW w (a % 2 ^ w) b = (a + b) % 2 ^ w := by
  simp [addW]

/-- Subtracting what was added, modulo `2 ^ w`. -/
theorem subW_mod_add (w a b : Nat) : subW w ((a + b) % 2 ^ w) b = a % 2 ^ w := by
  unfold subW
  have hp := Nat.two_pow_pos w
  generalize 2 ^ w = M at *
  have hb := Nat.mod_lt b hp
  have hs := Nat.mod_lt (a + b) hp
  have h1 : ((a + b) % M + M - b % M) % M = ((a + b) % M + (M - b % M)) % M := by
    congr 1; omega
  rw [h1, Nat.mod_add_mod]
  have h2 := Nat.div_add_mod b M
  have h3 : a + b + (M - b % M) = a + M * (b / M + 1) := by
    have : M * (b / M + 1) = M * (b / M) + M := Nat.mul_succ _ _
    omega
  rw [h3, Nat.add_mul_mod_self_left]

theorem add64_of_lt {a b : Nat} (h : a + b < 2 ^ 64) : add64 a b = a + b := addW_of_lt h

theorem add64_eq (a b : Nat) : add64 a b = (a + b) % 2 ^ 64 := rfl

theorem add64_lt (a b : Nat) : add64 a b < 2 ^ 64 := addW_lt 64 a b

theorem add64_add64 (a b c : Nat) : add64 (add64 a b) c = add64 a (b + c) := by
  simp only [add64_eq, Nat.mod_add_mod, Nat.add_assoc]

theorem sub64_of_le {a b : Nat} (h : b ≤ a) (ha : a < 2 ^ 64) : sub64 a b = a - b :=
  subW_of_le h ha

theorem sub64_mod_add (a b : Nat) : sub64 ((a + b) % 2 ^ 64) b = a % 2 ^ 64 := subW_mod_add 64 a b

/-- Adding back what was subtracted, modulo `2^64`. -/
theorem add_sub64 (a b : Nat) : (b + sub64 a b) % 2 ^ 64 = a % 2 ^ 64 := by
  unfold sub64 subW
  omega

theorem sub16_of_le {a b : Nat} (h : b ≤ a) (ha : a < 2 ^ 16) : sub16 a b = a - b :=
  subW_of_le h ha

end StreamSocket
