import Mathlib.Tactic.Ring
import ColorScript.Checked.Number
import ColorScript.Proofs.NumberSize

/-! Script numbers do not fault: no place lies outside of the bytes, and no value outside of its word.
Each checked function gives what the plain one gives. -/
namespace ColorScript

namespace Bytes

theorem toNat_append (front back : Bytes) :
    toNat (front ++ back) = toNat front + 256 ^ front.length * toNat back := by
  induction front with
  | nil => simp
  | cons byte front ih =>
    rw [List.cons_append,toNat_cons,toNat_cons,ih,List.length_cons,Nat.pow_succ]
    ring

private theorem toNat_rdropWhile (bytes : Bytes) : toNat (bytes.rdropWhile (· = 0x00)) = toNat bytes := by
  induction bytes using List.reverseRecOn with
  | nil => rfl
  | append_singleton bytes byte ih =>
    rw [List.rdropWhile_concat]
    split
    next zero =>
      rw [ih,toNat_append,of_decide_eq_true zero]
      rfl
    next => rfl

private theorem le_toNat_rdropWhile (bytes : Bytes) (nonempty : bytes.rdropWhile (· = 0x00) ≠ []) :
    256 ^ ((bytes.rdropWhile (· = 0x00)).length - 1) ≤ toNat bytes := by
  have nonzero := List.rdropWhile_last_not _ _ nonempty
  rw [← toNat_rdropWhile]
  generalize bytes.rdropWhile (· = 0x00) = digits at nonempty nonzero ⊢
  induction digits using List.reverseRecOn with
  | nil => exact absurd rfl nonempty
  | append_singleton digits byte =>
    rw [List.getLast_append_singleton,decide_eq_true_eq] at nonzero
    have weight : 1 ≤ byte.toNat := Nat.one_le_iff_ne_zero.mpr fun zero => nonzero (UInt8.toNat_inj.mp zero)
    rw [List.length_append,List.length_singleton,Nat.add_sub_cancel,toNat_append]
    calc 256 ^ digits.length ≤ 256 ^ digits.length * byte.toNat := Nat.le_mul_of_pos_right _ weight
      _ ≤ toNat digits + 256 ^ digits.length * toNat [byte] := Nat.le_add_left _ _

end Bytes

namespace Number

theorem splitSign_append (front : Bytes) (last : UInt8) :
    splitSign (front ++ [last]) = (front ++ [last &&& 0x7f],topBit last) := by
  induction front with
  | nil => rfl
  | cons byte front ih =>
    rw [List.cons_append,splitSign,ih]
    · rfl
    · simp

theorem withSign_append (negative : Bool) (front : Bytes) (last : UInt8) :
    withSign negative (front ++ [last]) = front ++ withSign negative [last] := by
  induction front with
  | nil => rfl
  | cons byte front ih =>
    have several : front ++ [last] ≠ [] := by simp
    rw [List.cons_append,List.cons_append,← ih,withSign.eq_3 _ _ _ several]

theorem decode_append (front : List UInt8) (last : UInt8) : decode (front ++ [last]) =
    if Bytes.toNat (front ++ [last &&& 0x7f]) < 2 ^ 63 then
      .ok (if topBit last then -Bytes.toNat (front ++ [last &&& 0x7f])
        else Bytes.toNat (front ++ [last &&& 0x7f]))
    else .error (.numberOverflow (front ++ [last]).length) := by
  rw [decode,splitSign_append]
  rfl

private theorem magnitudeBytes_ne_nil {n : Nat} (positive : n ≠ 0) : magnitudeBytes n ≠ [] := by
  rw [magnitudeBytes,if_neg positive]
  exact List.cons_ne_nil _ _

end Number

namespace Checked

open Number

private theorem index_last {α : Type} (front : List α) (last : α) :
    index (front ++ [last]) front.length = .ok last :=
  index_of_getElem? List.getElem?_concat_length

private theorem length_concat_pred {α : Type} (front : List α) (last : α) :
    sub (front ++ [last]).length 1 = .ok front.length := by
  rw [List.length_append,List.length_singleton,sub_eq (Nat.le_add_left _ _),Nat.add_sub_cancel]

theorem encode_eq (n : Int) : encode n = .ok (Number.encode n) := by
  unfold encode
  split
  next zero =>
    subst zero
    rw [Number.encode,Int.natAbs_zero,magnitudeBytes,if_pos rfl]
    rfl
  next nonzero =>
    rw [Number.encode]
    obtain ⟨front,last,digits⟩ := List.eq_nil_or_concat (magnitudeBytes n.natAbs) |>.resolve_left
      (magnitudeBytes_ne_nil (Int.natAbs_ne_zero.mpr nonzero))
    rw [List.concat_eq_append] at digits
    dsimp only
    rw [digits,length_concat_pred,ok_bind,index_last,ok_bind,withSign_append,withSign]
    split
    next => simp
    next =>
      split
      next negative => simp [negative]
      next positive => simp [positive]

-- The words of eight bytes are put together without a carry.
private theorem gather_eq {digits : Bytes} {place total : Nat} (below : total < 256 ^ place)
    (fits : place + digits.length ≤ 8) :
    gather place total digits = .ok (total + 256 ^ place * Bytes.toNat digits) := by
  induction digits generalizing place total with
  | nil => rfl
  | cons byte rest ih =>
    have room : place ≤ 7 := by
      rw [List.length_cons] at fits
      omega
    have power : 2 ^ (8 * place) = 256 ^ place := by rw [Nat.pow_mul]
    have joined : total ||| byte.toNat * 256 ^ place = total + 256 ^ place * byte.toNat := by
      rw [← power] at below ⊢
      rw [Nat.or_comm,Nat.mul_comm,← Nat.two_pow_add_eq_or_of_lt below,Nat.add_comm]
    have bound : total + 256 ^ place * byte.toNat < 256 ^ (place + 1) := by
      have digit : 256 ^ place * (byte.toNat + 1) ≤ 256 ^ place * 256 :=
        Nat.mul_le_mul_left _ byte.toNat_lt
      rw [Nat.mul_succ] at digit
      rw [Nat.pow_succ]
      omega
    rw [gather,word_eq (by omega),ok_bind,shift_eq byte (by omega),ok_bind,power,joined,
      ih bound (by rw [List.length_cons] at fits; omega),Bytes.toNat_cons,Nat.pow_succ]
    congr 1
    ring

theorem decode_eq (bytes : Bytes) : decode bytes = .ok (Number.decode bytes) := by
  rcases List.eq_nil_or_concat bytes with rfl | ⟨front,last,rfl⟩
  · rfl
  · rw [List.concat_eq_append]
    unfold decode
    rw [List.getLast?_concat,length_concat_pred]
    dsimp only
    rw [ok_bind,index_last,ok_bind,List.set_append_right _ _ (Nat.le_refl _),Nat.sub_self,List.set_cons_zero,
      decode_append]
    generalize digits_eq : front ++ [last &&& 0x7f] = digits
    by_cases long : 8 < (digits.rdropWhile (· = 0x00)).length
    · -- The ninth digit alone is too large.
      have nonempty : digits.rdropWhile (· = 0x00) ≠ [] := List.ne_nil_of_length_pos (by omega)
      have weight := Bytes.le_toNat_rdropWhile digits nonempty
      have power : 256 ^ 8 ≤ 256 ^ ((digits.rdropWhile (· = 0x00)).length - 1) :=
        Nat.pow_le_pow_right (by decide) (by omega)
      rw [if_pos long,if_neg (by omega)]
      rfl
    · rw [if_neg long,gather_eq (by decide) (by omega),ok_bind,Bytes.toNat_rdropWhile,Nat.pow_zero,
        Nat.one_mul,Nat.zero_add]
      by_cases small : Bytes.toNat digits < 2 ^ 63
      · rw [if_pos small,if_pos small]
        cases topBit last with
        | true =>
          rw [if_pos rfl,if_pos rfl,integer_eq (by omega)]
          rfl
        | false => rfl
      · rw [if_neg small,if_neg small]
        rfl

theorem operand_eq (size : Nat) (minimal : Bool) (bytes : Bytes) :
    operand size minimal bytes = .ok (Number.operand size minimal bytes) := by
  unfold operand Number.operand
  rw [decode_eq]
  split
  next => rfl
  next => split <;> rfl

private theorem isTrueFrom_eq {size place : Nat} {bytes : Bytes} (ends : place + bytes.length = size) :
    isTrueFrom size place bytes = .ok (Number.isTrue bytes) := by
  induction bytes generalizing place with
  | nil => rfl
  | cons byte rest ih =>
    rw [List.length_cons] at ends
    rw [isTrueFrom,ih (by omega),sub_eq (by omega),ok_bind]
    cases rest with
    | nil =>
      rw [List.length_nil] at ends
      have here : place = size - 1 := by omega
      by_cases zero : byte = 0x00 <;> simp [zero,here,Number.isTrue]
    | cons next rest =>
      rw [List.length_cons] at ends
      have before : place ≠ size - 1 := by omega
      by_cases zero : byte = 0x00 <;> simp [zero,before,Number.isTrue]

theorem isTrue_eq (bytes : Bytes) : isTrue bytes = .ok (Number.isTrue bytes) :=
  isTrueFrom_eq (Nat.zero_add _)

theorem smallInt?_eq (opcode : Opcode) : smallInt? opcode = .ok (Opcode.smallInt? opcode) := by
  revert opcode
  exact forall_byte (by decide +kernel)

theorem unary_eq (function : UnaryFunction) {n : Int} (bound : n.natAbs < 2 ^ 62) :
    unary function n = .ok (function.apply n) := by
  cases function with
  | isZero | isNonZero => rfl
  | increment | decrement | negate | absolute => exact integer_eq (by omega)

theorem binary_eq (function : BinaryFunction) {a b : Int} (first : a.natAbs < 2 ^ 62)
    (second : b.natAbs < 2 ^ 62) : binary function a b = .ok (function.apply a b) := by
  cases function with
  | add | subtract => exact integer_eq (by omega)
  | both | either | equal | unequal | less | greater | lessOrEqual | greaterOrEqual | minimum |
      maximum => rfl

end Checked

end ColorScript
