import Mathlib.Data.Int.Bitwise
import ColorScript.Proofs.VerificationLockstep

/-! Lock times. What a transaction and its input let pass is told by the order of numbers and by single
bits, so that a later lock time, a newer version and an older input let no less pass, and verifications
that have succeeded still do. -/
namespace ColorScript

namespace TimeLock

private theorem and_sequenceMask (own : Nat) :
    own &&& sequenceMask = 2 ^ 22 * (own.testBit 22).toNat + own % 2 ^ 16 := by
  have parts : sequenceMask = 2 ^ 22 ||| (2 ^ 16 - 1) := by decide
  have low : own % 2 ^ 16 < 2 ^ 22 := by omega
  rw [parts,Nat.and_or_distrib_left,Nat.and_two_pow,Nat.and_two_pow_sub_one_eq_mod,Nat.mul_comm,
    Nat.two_pow_add_eq_or_of_lt low]

private theorem testBit_word (n : Int) {place : Nat} (inside : place < 32) :
    (n % 0x100000000).toNat.testBit place = n.testBit place := by
  cases n with
  | ofNat m =>
    have word : (Int.ofNat m % 0x100000000).toNat = m % 2 ^ 32 := by
      change ((m : Int) % 0x100000000).toNat = _
      omega
    rw [word,Nat.testBit_mod_two_pow,decide_eq_true inside,Bool.true_and]
    rfl
  | negSucc m =>
    have word : (Int.negSucc m % 0x100000000).toNat = 2 ^ 32 - (m % 2 ^ 32 + 1) := by
      rw [Int.negSucc_eq]
      omega
    rw [word,Nat.testBit_two_pow_sub_succ (Nat.mod_lt m (by decide)),Nat.testBit_mod_two_pow,
      decide_eq_true inside,Bool.true_and,Bool.true_and]
    rfl

private theorem masked_sequenceMask (n : Int) :
    (masked n sequenceMask : Int) = 2 ^ 22 * (n.testBit 22).toNat + n % 2 ^ 16 := by
  have low : ((n % 0x100000000).toNat % 2 ^ 16 : Nat) = n % 2 ^ 16 := by omega
  rw [masked,and_sequenceMask,testBit_word n (by decide),← low]
  push_cast
  rfl

variable {lock lock' : TimeLock} {n : Int}

private theorem sameKind_iff {limit own asked : Int} :
    sameKind limit own asked = true ↔ (asked < limit ↔ own < limit) := by
  simp only [sameKind,Bool.or_eq_true,Bool.and_eq_true,decide_eq_true_eq]
  omega

theorem allowsLockTime_iff : lock.allowsLockTime n = true ↔
    lock.sequence ≠ 0xffffffff ∧ n ≤ lock.lockTime.toNat ∧
      (n < 500000000 ↔ (lock.lockTime.toNat : Int) < 500000000) := by
  have kinds : sameKind heightLimit lock.lockTime.toNat n = true ↔
      (n < 500000000 ↔ (lock.lockTime.toNat : Int) < 500000000) := sameKind_iff
  rw [allowsLockTime,← kinds]
  split
  next refused =>
    refine iff_of_false Bool.false_ne_true fun allowed => ?_
    rw [allowed.2.2,Bool.not_true,Bool.false_or] at refused
    exact Int.not_lt.mpr allowed.2.1 (of_decide_eq_true refused)
  next passed =>
    obtain ⟨same,below⟩ := Bool.or_eq_false_iff.mp (Bool.eq_false_iff.mpr passed)
    have held := Int.not_lt.mp (of_decide_eq_false below)
    rw [decide_eq_true_eq,and_iff_left ⟨held,by simpa using same⟩]

private theorem and_offBit_iff (own : Nat) : own &&& offBit = 0 ↔ own.testBit 31 = false := by
  have selected : own &&& offBit = (own.testBit 31).toNat * 2 ^ 31 := Nat.and_two_pow own 31
  rw [selected]
  cases own.testBit 31 <;> decide

private theorem allowsSequence_iff_masked : lock.allowsSequence n = true ↔
    2 ≤ lock.version ∧ lock.sequence.toNat &&& offBit = 0 ∧
      (masked n sequenceMask < kindBit ↔ lock.sequence.toNat &&& sequenceMask < kindBit) ∧
      masked n sequenceMask ≤ lock.sequence.toNat &&& sequenceMask := by
  have kinds : sameKind kindBit (lock.sequence.toNat &&& sequenceMask : Nat) (masked n sequenceMask) = true ↔
      (masked n sequenceMask < kindBit ↔ lock.sequence.toNat &&& sequenceMask < kindBit) :=
    sameKind_iff.trans (by rw [Int.ofNat_lt,Int.ofNat_lt])
  rw [allowsSequence,← kinds]
  split
  next refused =>
    refine iff_of_false Bool.false_ne_true fun allowed => ?_
    have on := decide_eq_false (not_not_intro allowed.2.1)
    rw [on,Bool.or_false] at refused
    exact Int32.not_lt.mpr allowed.1 (of_decide_eq_true refused)
  next passed =>
    obtain ⟨modern,on⟩ := Bool.or_eq_false_iff.mp (Bool.eq_false_iff.mpr passed)
    rw [Bool.and_eq_true,decide_eq_true_eq,and_iff_right (Int32.not_lt.mp (of_decide_eq_false modern)),
      and_iff_right (not_not.mp (of_decide_eq_false on))]

theorem allowsSequence_iff : lock.allowsSequence n = true ↔
    2 ≤ lock.version ∧ lock.sequence.toNat.testBit 31 = false ∧
      n.testBit 22 = lock.sequence.toNat.testBit 22 ∧ n % 2 ^ 16 ≤ lock.sequence.toNat % 2 ^ 16 := by
  have asked := masked_sequenceMask n
  have held := and_sequenceMask lock.sequence.toNat
  -- The amounts are too small to reach the bit of the kind.
  have kinds : ((masked n sequenceMask < kindBit ↔ lock.sequence.toNat &&& sequenceMask < kindBit) ∧
      masked n sequenceMask ≤ lock.sequence.toNat &&& sequenceMask) ↔
      n.testBit 22 = lock.sequence.toNat.testBit 22 ∧ n % 2 ^ 16 ≤ lock.sequence.toNat % 2 ^ 16 := by
    unfold kindBit
    generalize n.testBit 22 = kind at asked ⊢
    generalize lock.sequence.toNat.testBit 22 = kind' at held ⊢
    cases kind <;> cases kind' <;> simp only [Bool.toNat_true,Bool.toNat_false,reduceCtorEq,eq_self,
      false_and,true_and,iff_false] at asked held ⊢ <;> omega
  rw [allowsSequence_iff_masked,and_offBit_iff,kinds]

/-- The second transaction and input are locked at least as late, in the same kinds of lock times. -/
structure Easier (lock lock' : TimeLock) : Prop where
  lockTime : lock.lockTime ≤ lock'.lockTime
  kind : lock'.lockTime.toNat < 500000000 ↔ lock.lockTime.toNat < 500000000
  version : lock.version ≤ lock'.version
  on : lock'.sequence.toNat.testBit 31 = false
  sequenceKind : lock'.sequence.toNat.testBit 22 = lock.sequence.toNat.testBit 22
  sequence : lock.sequence.toNat % 2 ^ 16 ≤ lock'.sequence.toNat % 2 ^ 16

namespace Easier

theorem allowsLockTime (easier : Easier lock lock') (allowed : lock.allowsLockTime n = true) :
    lock'.allowsLockTime n = true := by
  obtain ⟨_,below,kind⟩ := allowsLockTime_iff.mp allowed
  have later := UInt32.le_iff_toNat_le.mp easier.lockTime
  have same := easier.kind
  refine allowsLockTime_iff.mpr ⟨fun final => ?_,by omega,by omega⟩
  -- A final input has its relative lock time switched off.
  have on := easier.on
  rw [final] at on
  cases on

theorem allowsSequence (easier : Easier lock lock') (allowed : lock.allowsSequence n = true) :
    lock'.allowsSequence n = true := by
  obtain ⟨modern,_,kind,amount⟩ := allowsSequence_iff.mp allowed
  have older := easier.sequence
  exact allowsSequence_iff.mpr ⟨Int32.le_trans modern easier.version,easier.on,
    kind.trans easier.sequenceKind.symm,by omega⟩

theorem relaxed (easier : Easier lock lock') (flags : Flags) :
    Rules.Relaxed ⟨flags,lock.oracle⟩ ⟨flags,lock'.oracle⟩ := by
  refine ⟨fun _ set => set,fun _ => ⟨rfl,rfl⟩,fun query granted => ?_,.inl fun query verdict => ?_⟩
  · cases query with
    | lockTime n =>
      simp only [oracle] at granted ⊢
      exact easier.allowsLockTime granted
    | sequence n =>
      simp only [oracle] at granted ⊢
      exact easier.allowsSequence granted
    | signature sig key code => cases granted
    | dataSignature sig key digest => cases granted
  · cases query with
    | lockTime n => cases verdict
    | sequence n => cases verdict
    | signature sig key code => rfl
    | dataSignature sig key digest => rfl

end Easier

end TimeLock

namespace Session

/-- The rules of lock times, and what follows for verifications: locks that are easier to meet never make
one fail, and they change neither the stack nor the colour. -/
theorem timeLock_rules :
    (∀ (lock : TimeLock) (n : Int), lock.allowsLockTime n = true ↔
      lock.sequence ≠ 0xffffffff ∧ n ≤ lock.lockTime.toNat ∧
        (n < 500000000 ↔ (lock.lockTime.toNat : Int) < 500000000)) ∧
    (∀ (lock : TimeLock) (n : Int), lock.allowsSequence n = true ↔
      2 ≤ lock.version ∧ lock.sequence.toNat.testBit 31 = false ∧
        n.testBit 22 = lock.sequence.toNat.testBit 22 ∧ n % 2 ^ 16 ≤ lock.sequence.toNat % 2 ^ 16) ∧
    (∀ (lock lock' : TimeLock), lock.Easier lock' →
      ∀ (flags : Flags) (unlocking locking : Script) (before before' after : Session),
        verify ⟨flags,lock.oracle⟩ unlocking locking before = .ok () after →
        ∃ after', verify ⟨flags,lock'.oracle⟩ unlocking locking before' = .ok () after' ∧
          after'.stack = after.stack ∧ after'.color = after.color) := by
  refine ⟨fun _ _ => TimeLock.allowsLockTime_iff,fun _ _ => TimeLock.allowsSequence_iff,?_⟩
  intro lock lock' easier flags unlocking locking before before' after ok
  obtain ⟨after',ok',same⟩ := verify_lax (easier.relaxed flags) (fun _ set => set) ok before'
  exact ⟨after',ok',same rfl⟩

/-- A lock at block 100 and one of ten blocks, met by an input at block 150 that is 12 blocks old, and by a
later and older one. -/
theorem timeLock_rules_later :
    ∃ after', verify ⟨Flags.standard,TimeLock.oracle ⟨200,3,20⟩⟩ [.push [1] [100]]
        [.op 0xb1,.op 0x75,.op 0x5a,.op 0xb2] {} = .ok () after' ∧
      after'.stack = [[10]] ∧ after'.color = none := by
  have fine : succeeds (fun after => after.stack = [[10]] && after.color = none)
      (verify ⟨Flags.standard,TimeLock.oracle ⟨150,2,12⟩⟩ [.push [1] [100]]
        [.op 0xb1,.op 0x75,.op 0x5a,.op 0xb2] {}) = true := by decide +kernel
  obtain ⟨_,after,ok,found⟩ := exists_of_succeeds fine
  obtain ⟨stack,color⟩ := Bool.and_eq_true_iff.mp found
  have easier : TimeLock.Easier ⟨150,2,12⟩ ⟨200,3,20⟩ :=
    ⟨by decide,by decide,by decide,by decide,by decide,by decide⟩
  obtain ⟨after',ok',stack',color'⟩ := timeLock_rules.2.2 _ _ easier Flags.standard [.push [1] [100]]
    [.op 0xb1,.op 0x75,.op 0x5a,.op 0xb2] {} {} after ok
  exact ⟨after',ok',stack'.trans (of_decide_eq_true stack),color'.trans (of_decide_eq_true color)⟩

end Session

end ColorScript
