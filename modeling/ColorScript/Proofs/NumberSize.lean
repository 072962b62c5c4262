import Mathlib.Algebra.Group.Nat.Defs
import ColorScript.Operation
import ColorScript.Number

/-! How long script numbers are, and how large the numbers that operands stand for. -/
namespace ColorScript

namespace Number

theorem length_magnitudeBytes_le {n width : Nat} (bound : n < 256 ^ width) :
    (magnitudeBytes n).length ≤ width := by
  induction width generalizing n with
  | zero =>
    have zero : n = 0 := by simpa using bound
    rw [zero,magnitudeBytes]
    exact Nat.le_refl 0
  | succ width ih =>
    rw [magnitudeBytes]
    split
    next => exact Nat.zero_le _
    next =>
      have smaller : n / 256 < 256 ^ width := Nat.div_lt_of_lt_mul (by rwa [Nat.mul_comm,← Nat.pow_succ])
      exact Nat.succ_le_succ (ih smaller)

private theorem length_withSign_le (negative : Bool) (digits : Bytes) :
    (withSign negative digits).length ≤ digits.length + 1 := by
  fun_induction withSign negative digits with
  | case1 => exact Nat.zero_le _
  | case2 => exact Nat.le_refl _
  | case3 => exact Nat.le_succ 1
  | case4 byte rest _ ih => exact Nat.succ_le_succ ih

theorem length_encode_le {n : Int} {width : Nat} (bound : n.natAbs < 256 ^ width) :
    (encode n).length ≤ width + 1 :=
  Nat.le_trans (length_withSign_le _ _) (Nat.succ_le_succ (length_magnitudeBytes_le bound))

/-- The sign takes the top bit of the last byte. -/
theorem toNat_splitSign_lt {bytes : Bytes} {width : Nat} (short : bytes.length ≤ width + 1) :
    Bytes.toNat (splitSign bytes).1 < 128 * 256 ^ width := by
  fun_induction splitSign bytes generalizing width with
  | case1 => exact Nat.mul_pos (by decide) (Nat.pow_pos (by decide))
  | case2 last =>
    have masked : (last &&& 0x7f).toNat < 128 := by
      rw [UInt8.toNat_and]
      exact Nat.and_lt_two_pow _ (by decide : _ < 2 ^ 7)
    have least : 1 ≤ 256 ^ width := Nat.pow_pos (by decide)
    simp only [Bytes.toNat_cons,Bytes.toNat_nil]
    omega
  | case3 byte rest several ih =>
    cases width with
    | zero =>
      have alone : rest = [] := List.length_eq_zero_iff.mp (by simpa using short)
      exact absurd alone several
    | succ width =>
      have smaller := ih (Nat.le_of_succ_le_succ short)
      have bound : byte.toNat < 256 := byte.toNat_lt
      rw [Bytes.toNat_cons,Nat.pow_succ]
      omega

theorem decode_of_operand {size : Nat} {minimal : Bool} {bytes : Bytes} {n : Int}
    (read : operand size minimal bytes = .ok n) : bytes.length ≤ size ∧ decode bytes = .ok n := by
  unfold operand at read
  split at read
  next => cases read
  next short =>
    split at read
    next => cases read
    next => exact ⟨Nat.not_lt.mp short,read⟩

private theorem natAbs_of_decode {bytes : Bytes} {n : Int} (read : decode bytes = .ok n) :
    n.natAbs = Bytes.toNat (splitSign bytes).1 ∧ n.natAbs < 2 ^ 63 := by
  unfold decode at read
  dsimp only at read
  split at read
  next bound =>
    cases read
    split <;> simpa using bound
  next => cases read

theorem natAbs_lt_of_operand {size : Nat} {minimal : Bool} {bytes : Bytes} {n : Int}
    (read : operand size minimal bytes = .ok n) : n.natAbs < 2 ^ 63 :=
  (natAbs_of_decode (decode_of_operand read).2).2

theorem natAbs_lt_of_operand_size {width : Nat} {minimal : Bool} {bytes : Bytes} {n : Int}
    (read : operand (width + 1) minimal bytes = .ok n) : n.natAbs < 128 * 256 ^ width := by
  obtain ⟨short,read⟩ := decode_of_operand read
  rw [(natAbs_of_decode read).1]
  exact toNat_splitSign_lt short

end Number

private theorem truthNumber_natAbs_lt (truth : Bool) : (truthNumber truth).natAbs < 2 ^ 64 := by
  cases truth <;> decide

theorem UnaryFunction.natAbs_apply_lt (function : UnaryFunction) {n : Int}
    (bound : n.natAbs < 2 ^ 63) : (function.apply n).natAbs < 2 ^ 64 := by
  cases function with
  | isZero | isNonZero => exact truthNumber_natAbs_lt _
  | increment | decrement | negate | absolute =>
    simp only [apply]
    omega

theorem BinaryFunction.natAbs_apply_lt (function : BinaryFunction) {a b : Int}
    (first : a.natAbs < 2 ^ 63) (second : b.natAbs < 2 ^ 63) :
    (function.apply a b).natAbs < 2 ^ 64 := by
  cases function with
  | add | subtract | minimum | maximum =>
    simp only [apply]
    omega
  | both | either | equal | unequal | less | greater | lessOrEqual | greaterOrEqual =>
    exact truthNumber_natAbs_lt _

end ColorScript
