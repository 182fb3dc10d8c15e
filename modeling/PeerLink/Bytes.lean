/-!
# Byte strings

Everything that crosses a session is a list of bytes. This module fixes that type and the
unsigned big-endian numbers the frame header is made of.

## Main results

* `Bytes.length_ofNat` — a number written in `width` bytes takes `width` bytes;
* `Bytes.toNat_ofNat` — reading it back gives the number modulo `Bytes.numbers width`;
* `Bytes.ofNat_toNat` — a byte string is what its number is written as.
-/

namespace PeerLink

/-- A byte string. -/
abbrev Bytes := List UInt8

namespace Bytes

/-- How many numbers can be written in `width` bytes. -/
def numbers : (width : Nat) → Nat
  | 0 => 1
  | width + 1 => numbers width * 256

/-- The big-endian digits of `n` in `width` bytes; higher digits are dropped. -/
def ofNat : (width : Nat) → (n : Nat) → Bytes
  | 0, _ => []
  | width + 1, n => UInt8.ofNat (n / numbers width) :: ofNat width n

/-- The number a big-endian byte string stands for. -/
def toNat (b : Bytes) : Nat :=
  b.foldl (fun acc digit => acc * 256 + digit.toNat) 0

/-! ## Reading back -/

theorem numbers_two : numbers 2 = 65536 := rfl

theorem numbers_four : numbers 4 = 4294967296 := rfl

@[simp] theorem length_ofNat (width n : Nat) : (ofNat width n).length = width := by
  induction width with
  | zero => rfl
  | succ width ih => simp [ofNat, ih]

private theorem foldl_digits (b : Bytes) (start : Nat) :
    b.foldl (fun acc digit => acc * 256 + digit.toNat) start =
      start * numbers b.length + toNat b := by
  induction b generalizing start with
  | nil => simp [toNat, numbers]
  | cons d b ih =>
    have h := ih (start * 256 + d.toNat)
    have h0 := ih (0 * 256 + d.toNat)
    simp only [toNat, List.foldl_cons, List.length_cons] at h h0 ⊢
    rw [h, h0, numbers]
    simp only [Nat.add_mul, Nat.zero_mul, Nat.zero_add, Nat.mul_assoc, Nat.add_assoc]
    rw [Nat.mul_comm 256]

@[simp] theorem toNat_nil : toNat [] = 0 := rfl

theorem toNat_cons (d : UInt8) (b : Bytes) :
    toNat (d :: b) = d.toNat * numbers b.length + toNat b := by
  have h := foldl_digits b (0 * 256 + d.toNat)
  simpa [toNat] using h

theorem toNat_ofNat (width n : Nat) : toNat (ofNat width n) = n % numbers width := by
  induction width with
  | zero => simp [ofNat, numbers, Nat.mod_one]
  | succ width ih =>
    rw [ofNat, toNat_cons, ih, length_ofNat, numbers, Nat.mod_mul]
    simp [UInt8.toNat_ofNat', Nat.mul_comm, Nat.add_comm]

theorem toNat_lt (b : Bytes) : toNat b < numbers b.length := by
  induction b with
  | nil => decide
  | cons d b ih =>
    rw [toNat_cons, List.length_cons, numbers]
    have hd : d.toNat < 256 := d.toNat_lt
    calc d.toNat * numbers b.length + toNat b
        < d.toNat * numbers b.length + numbers b.length := Nat.add_lt_add_left ih _
      _ = (d.toNat + 1) * numbers b.length := by rw [Nat.add_mul, Nat.one_mul]
      _ ≤ 256 * numbers b.length := Nat.mul_le_mul_right _ hd
      _ = numbers b.length * 256 := Nat.mul_comm _ _

theorem numbers_pos (width : Nat) : 0 < numbers width := by
  induction width with
  | zero => decide
  | succ width ih => rw [numbers]; omega

theorem numbers_mono {width width' : Nat} (h : width ≤ width') :
    numbers width ≤ numbers width' := by
  induction h with
  | refl => exact Nat.le_refl _
  | step _ ih => rw [numbers]; omega

/-- Digits that do not fit are dropped. -/
private theorem ofNat_mul_add (width n k : Nat) :
    ofNat width (k * numbers width + n) = ofNat width n := by
  induction width generalizing k with
  | zero => rfl
  | succ width ih =>
    have hk : k * numbers (width + 1) = (k * 256) * numbers width := by
      rw [numbers, Nat.mul_assoc, Nat.mul_comm 256]
    have hdigit : (k * 256 * numbers width + n) / numbers width = n / numbers width + k * 256 := by
      rw [Nat.add_comm, Nat.add_mul_div_right _ _ (numbers_pos width)]
    rw [ofNat, ofNat, hk, ih, hdigit]
    congr 1
    apply UInt8.toNat.inj
    simp only [UInt8.toNat_ofNat']
    omega

theorem ofNat_toNat (b : Bytes) : ofNat b.length (toNat b) = b := by
  induction b with
  | nil => rfl
  | cons d b ih =>
    have hdigit : (d.toNat * numbers b.length + toNat b) / numbers b.length = d.toNat := by
      rw [Nat.add_comm, Nat.add_mul_div_right _ _ (numbers_pos b.length),
        Nat.div_eq_of_lt (toNat_lt b), Nat.zero_add]
    rw [List.length_cons, toNat_cons, ofNat, ofNat_mul_add, ih, hdigit, UInt8.ofNat_toNat]

end Bytes

end PeerLink
