/-
  File:      OnymSdk/Lib/BigEndian.lean
  Subject:   Big-endian byte strings of naturals, and four bytes put together
             by shifts and ORs.

  * `toBytes w n` -- the low `w` bytes of `n`, most significant first;
    `ofBytes` -- the natural a byte string spells.
  * the two are inverse to each other, up to `n % 256 ^ w`
    (`ofBytes_toBytes`, `toBytes_ofBytes`).
  * `ofBytes_quad_or` -- the shift-and-OR spelling of four bytes that
    programs write is `ofBytes`.
-/
import Mathlib.Data.Nat.Bitwise
import Mathlib.Tactic.Ring

namespace BigEndian

/-! ## 1. Encoding and decoding -/

/-- The low `w` bytes of `n`, most significant first. -/
def toBytes : Nat → Nat → List UInt8
  | 0, _ => []
  | w + 1, n => UInt8.ofNat (n / 256 ^ w) :: toBytes w n

/-- The natural a big-endian byte string spells. -/
def ofBytes : List UInt8 → Nat
  | [] => 0
  | b :: bs => b.toNat * 256 ^ bs.length + ofBytes bs

@[simp] theorem ofBytes_nil : ofBytes [] = 0 := rfl

@[simp] theorem ofBytes_cons (b : UInt8) (bs : List UInt8) :
    ofBytes (b :: bs) = b.toNat * 256 ^ bs.length + ofBytes bs := rfl

@[simp] theorem length_toBytes (w n : Nat) : (toBytes w n).length = w := by
  induction w with
  | zero => rfl
  | succ w ih => simp only [toBytes, List.length_cons, ih]

theorem ofBytes_lt (bs : List UInt8) : ofBytes bs < 256 ^ bs.length := by
  induction bs with
  | nil => simp
  | cons b bs ih =>
    rw [ofBytes_cons, List.length_cons, pow_succ]
    have hb : b.toNat < 256 := b.toNat_lt
    have hm : b.toNat * 256 ^ bs.length ≤ 255 * 256 ^ bs.length :=
      Nat.mul_le_mul_right _ (by omega)
    omega

/-- Decoding inverts encoding on the low `w` bytes. -/
theorem ofBytes_toBytes (w n : Nat) : ofBytes (toBytes w n) = n % 256 ^ w := by
  induction w with
  | zero => simp [toBytes, Nat.mod_one]
  | succ w ih =>
    have h : n % (256 ^ w * 256) = n % 256 ^ w + 256 ^ w * (n / 256 ^ w % 256) := Nat.mod_mul
    rw [toBytes, ofBytes_cons, length_toBytes, ih, UInt8.toNat_ofNat', pow_succ 256 w, h,
      Nat.mul_comm (n / 256 ^ w % 2 ^ 8), Nat.add_comm]

theorem ofBytes_toBytes_of_lt {w n : Nat} (h : n < 256 ^ w) : ofBytes (toBytes w n) = n := by
  rw [ofBytes_toBytes, Nat.mod_eq_of_lt h]

/-- The low `w` bytes only see the value modulo `256 ^ w`. -/
theorem toBytes_add_mul (w a n : Nat) : toBytes w (a * 256 ^ w + n) = toBytes w n := by
  induction w generalizing a with
  | zero => rfl
  | succ w ih =>
    have e : a * 256 ^ (w + 1) + n = (a * 256) * 256 ^ w + n := by rw [pow_succ]; ring
    rw [toBytes, toBytes, e, ih]
    congr 1
    apply UInt8.toNat_inj.mp
    rw [UInt8.toNat_ofNat', UInt8.toNat_ofNat', Nat.add_comm,
      Nat.add_mul_div_right _ _ (Nat.pow_pos (by omega)), Nat.add_mul_mod_self_right]

theorem toBytes_mod (w n : Nat) : toBytes w (n % 256 ^ w) = toBytes w n := by
  conv_rhs => rw [← Nat.div_add_mod' n (256 ^ w)]
  rw [toBytes_add_mul]

/-- Encoding inverts decoding at the string's own width. -/
theorem toBytes_ofBytes (bs : List UInt8) : toBytes bs.length (ofBytes bs) = bs := by
  induction bs with
  | nil => rfl
  | cons b bs ih =>
    have hlt := ofBytes_lt bs
    have hpos : 0 < 256 ^ bs.length := Nat.pow_pos (by omega)
    have hdiv : (b.toNat * 256 ^ bs.length + ofBytes bs) / 256 ^ bs.length = b.toNat := by
      rw [Nat.add_comm, Nat.add_mul_div_right _ _ hpos, Nat.div_eq_of_lt hlt, Nat.zero_add]
    rw [List.length_cons, toBytes, ofBytes_cons, hdiv, toBytes_add_mul, ih, UInt8.ofNat_toNat]

/-! ## 2. Four bytes, by shifts and ORs -/

/-- An OR of a multiple of `2 ^ i` with something below `2 ^ i` is a sum. -/
theorem mul_pow_or (i a b : Nat) (h : b < 2 ^ i) : a * 2 ^ i ||| b = a * 2 ^ i + b := by
  rw [Nat.mul_comm, Nat.two_pow_add_eq_or_of_lt h]

/-- **The shift-and-OR spelling of a four-byte header is its big-endian value.** -/
theorem ofBytes_quad_or (a b c d : UInt8) :
    a.toNat * 2 ^ 24 ||| b.toNat * 2 ^ 16 ||| c.toNat * 2 ^ 8 ||| d.toNat =
      ofBytes [a, b, c, d] := by
  have ha := a.toNat_lt
  have hb := b.toNat_lt
  have hc := c.toNat_lt
  have hd := d.toNat_lt
  rw [mul_pow_or 24 _ _ (by omega)]
  rw [show a.toNat * 2 ^ 24 + b.toNat * 2 ^ 16 = (a.toNat * 2 ^ 8 + b.toNat) * 2 ^ 16 by omega,
    mul_pow_or 16 _ _ (by omega)]
  rw [show (a.toNat * 2 ^ 8 + b.toNat) * 2 ^ 16 + c.toNat * 2 ^ 8 =
      (a.toNat * 2 ^ 16 + b.toNat * 2 ^ 8 + c.toNat) * 2 ^ 8 by omega,
    mul_pow_or 8 _ _ (by omega)]
  simp only [ofBytes_cons, ofBytes_nil, List.length_cons, List.length_nil]
  omega

end BigEndian
