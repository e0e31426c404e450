import Mathlib.Tactic
import Ambush.Lib.Files
/-!
# Little-endian numbers

A number in a fixed count of bytes, lowest byte first, and slices of a byte string that
depend on its first bytes only.
-/
namespace Lib

/-- `to_le_bytes` of a number of `width` bytes. -/
def to_le : Nat → Nat → Bytes
  | 0, _ => []
  | width + 1, n => UInt8.ofNat n :: to_le width (n / 256)

/-- `from_le_bytes`. -/
def from_le : Bytes → Nat
  | [] => 0
  | b :: bytes => b.toNat + 256 * from_le bytes

@[simp] theorem to_le_length (width n : Nat) : (to_le width n).length = width := by
  induction width generalizing n with
  | zero => rfl
  | succ width ih => rw [to_le, List.length_cons, ih]

theorem drop_to_le {width start : Nat} (h : width ≤ start) (n : Nat) : (to_le width n).drop start = [] :=
  List.drop_eq_nil_of_le (by rw [to_le_length]; exact h)

theorem from_le_to_le {width n : Nat} (h : n < 256 ^ width) : from_le (to_le width n) = n := by
  induction width generalizing n with
  | zero => rw [to_le, from_le]; omega
  | succ width ih =>
    have hq : n / 256 < 256 ^ width := by
      rw [Nat.pow_succ, Nat.mul_comm] at h
      exact Nat.div_lt_of_lt_mul h
    rw [to_le, from_le, ih hq, UInt8.toNat_ofNat']
    exact Nat.mod_add_div n 256

theorem to_le_from_le (bytes : Bytes) : to_le bytes.length (from_le bytes) = bytes := by
  induction bytes with
  | nil => rfl
  | cons b bytes ih =>
    have hlow : (b.toNat + 256 * from_le bytes) % 256 = b.toNat := by
      have hb := b.toNat_lt
      omega
    have hhigh : (b.toNat + 256 * from_le bytes) / 256 = from_le bytes := by
      have hb := b.toNat_lt
      omega
    rw [List.length_cons, from_le, to_le, hhigh, ih]
    refine congrArg (· :: bytes) (UInt8.toNat_inj.1 ?_)
    rw [UInt8.toNat_ofNat']
    exact hlow

theorem from_le_lt (bytes : Bytes) : from_le bytes < 256 ^ bytes.length := by
  induction bytes with
  | nil => exact Nat.one_pos
  | cons b bytes ih =>
    have hb := b.toNat_lt
    rw [List.length_cons, from_le, Nat.pow_succ]
    omega

/-- `bytes[start .. start + count]`. -/
def slice (start count : Nat) (bytes : Bytes) : Bytes := (bytes.drop start).take count

theorem slice_take {start count n : Nat} (h : start + count ≤ n) (bytes : Bytes) :
    slice start count (bytes.take n) = slice start count bytes := by
  rw [slice, slice, List.drop_take, List.take_take, Nat.min_eq_left (by omega)]

theorem slice_length {start count : Nat} {bytes : Bytes} (h : start + count ≤ bytes.length) : (slice start count bytes).length = count := by
  rw [slice, List.length_take, List.length_drop]
  omega

/-- Two slices in a row. -/
theorem slice_add (start count more : Nat) (bytes : Bytes) :
    slice start (count + more) bytes = slice start count bytes ++ slice (start + count) more bytes := by
  rw [slice, slice, slice, List.take_add, List.drop_drop]

/-- The slice right after `front`. -/
theorem slice_at {front mid back : Bytes} {start count : Nat} (hs : front.length = start) (hc : mid.length = count) :
    slice start count (front ++ (mid ++ back)) = mid := by
  rw [slice, List.drop_left' hs, List.take_left' hc]

end Lib
