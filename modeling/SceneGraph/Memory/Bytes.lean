/-!
# Byte strings and little-endian words

A byte string is a list of bytes. A word of `w` bytes is written lowest byte first, that is, as
its `w` low digits to the base 256. Writing a number and reading it back gives the number modulo
the number of such words, hence every machine word comes back as it was.
-/

namespace SceneGraph

abbrev Bytes := List UInt8

namespace Bytes

/-- The `w` low digits of `n` to the base 256, lowest first. -/
def ofNat : (w : Nat) → (n : Nat) → Bytes
  | 0, _ => []
  | w + 1, n => UInt8.ofNat n :: ofNat w (n / 256)

def toNat : Bytes → Nat
  | [] => 0
  | b :: bs => b.toNat + 256 * toNat bs

/-- How many words of `w` bytes there are. -/
def wordCount : (w : Nat) → Nat
  | 0 => 1
  | w + 1 => 256 * wordCount w

@[simp] theorem length_ofNat (w n : Nat) : (ofNat w n).length = w := by
  induction w generalizing n with
  | zero => rfl
  | succ w ih => simp [ofNat, ih]

theorem toNat_ofNat (w n : Nat) : toNat (ofNat w n) = n % wordCount w := by
  induction w generalizing n with
  | zero => simp [ofNat, toNat, wordCount, Nat.mod_one]
  | succ w ih =>
    simp only [ofNat, toNat, wordCount, ih, UInt8.toNat_ofNat', Nat.reducePow]
    rw [Nat.mod_mul]

theorem toNat_ofNat_of_lt {w n : Nat} (h : n < wordCount w) : toNat (ofNat w n) = n := by
  rw [toNat_ofNat, Nat.mod_eq_of_lt h]

theorem toNat_lt (bs : Bytes) : toNat bs < wordCount bs.length := by
  induction bs with
  | nil => simp [toNat, wordCount]
  | cons b bs ih =>
    have hb : b.toNat < 256 := b.toNat_lt
    simp only [toNat, List.length_cons, wordCount]
    omega

/-- Digits determine their number and the number its digits. -/
theorem ofNat_toNat (bs : Bytes) : ofNat bs.length (toNat bs) = bs := by
  induction bs with
  | nil => rfl
  | cons b bs ih =>
    have hb : b.toNat < 256 := b.toNat_lt
    have hd : (b.toNat + 256 * toNat bs) / 256 = toNat bs := by omega
    have hm : UInt8.ofNat (b.toNat + 256 * toNat bs) = b := by
      apply UInt8.toNat_inj.mp
      simp only [UInt8.toNat_ofNat', Nat.reducePow]
      omega
    simp only [List.length_cons, toNat, ofNat, hd, hm, ih]

/-- A sequence of 32-bit words, each in four bytes. -/
def ofWords (ws : List UInt32) : Bytes := ws.flatMap fun w => ofNat 4 w.toNat

/-- The 32-bit words of a byte string; fewer than four bytes at the end are no word. -/
def toWords : Bytes → List UInt32
  | a :: b :: c :: d :: rest => UInt32.ofNat (toNat [a, b, c, d]) :: toWords rest
  | _ => []

@[simp] theorem length_ofWords (ws : List UInt32) : (ofWords ws).length = 4 * ws.length := by
  induction ws with
  | nil => rfl
  | cons w ws ih =>
    simp only [ofWords, List.flatMap_cons, List.length_append, length_ofNat] at *
    simp only [List.length_cons, ih]
    omega

@[simp] theorem toWords_ofWords (ws : List UInt32) : toWords (ofWords ws) = ws := by
  induction ws with
  | nil => rfl
  | cons w ws ih =>
    have h : toNat (ofNat 4 w.toNat) = w.toNat := toNat_ofNat_of_lt w.toNat_lt
    simp only [ofWords, List.flatMap_cons, ofNat, List.cons_append, List.nil_append, toWords] at *
    rw [h, ih, UInt32.ofNat_toNat]

end Bytes

end SceneGraph
