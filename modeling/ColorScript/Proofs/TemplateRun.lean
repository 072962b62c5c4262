import ColorScript.Proofs.Codec
import ColorScript.Proofs.Success
import ColorScript.Proofs.Template

/-! The runs of the scripts that output templates are made of, as changes of the state. -/
namespace ColorScript
open Opcode

namespace Chunk

private theorem isWellFormed_direct {opcode : Opcode} {payload : Bytes} (direct : opcode < pushData1)
    (length : payload.length = opcode.toNat) : (push [opcode] payload).isWellFormed = true := by
  rw [isWellFormed,(Header.direct opcode direct).announced?,length]
  exact decide_eq_true rfl

private theorem isMinimal_direct {opcode : Opcode} {payload : Bytes} (direct : opcode < pushData1)
    (length : payload.length = opcode.toNat) (long : 1 < payload.length) :
    (push [opcode] payload).isMinimal = true := by
  have short : payload.length < 0x4c := length ▸ UInt8.lt_iff_toNat_lt.mp direct
  match payload with
  | [] => cases long
  | [_] => exact absurd long (Nat.lt_irrefl 1)
  | a :: b :: rest =>
    simp only [isMinimal,List.headD_cons,if_pos short]
    exact decide_eq_true length.symm

end Chunk

theorem isTrue_ofBool (truth : Bool) (rest : Stack) :
    (Stack.peek? (Number.ofBool truth :: rest) 0).any Number.isTrue = truth := by
  cases truth <;> rfl

namespace Machine

variable {ctx : Context} {before after : State} {place : Nat} {done : Unit}

private theorem advance_direct_success_iff {opcode : Opcode} {payload : Bytes} (direct : opcode < pushData1)
    (length : payload.length = opcode.toNat) (long : 1 < payload.length) (outside : before.flow = []) :
    advance ctx place (.push [opcode] payload) before = .ok done after ↔
      before.stack.length + 1 + before.alt.length ≤ maxItems ∧
      after = { before with stack := payload :: before.stack } := by
  rw [advance_push_success_iff outside]
  have short : payload.length < 0x4c := length ▸ UInt8.lt_iff_toNat_lt.mp direct
  have fits : payload.length ≤ maxItem := Nat.le_trans (Nat.le_of_lt short) (by decide)
  exact ⟨fun ⟨_,_,_,pushed⟩ => pushed,fun pushed => ⟨fits,fun _ =>
    Chunk.isMinimal_direct direct length long,Chunk.isWellFormed_direct direct length,pushed⟩⟩

private theorem advance_hash160_success_iff (outside : before.flow = []) :
    advance ctx place (.op hash160) before = .ok done after ↔ before.opCount + 1 ≤ maxOps ∧
      digest .hash160 { before with opCount := before.opCount + 1 } = .ok () after ∧
      after.stack.length + after.alt.length ≤ maxItems :=
  advance_operation_success_iff rfl (by decide) rfl (by decide) outside

private theorem advance_equal_success_iff (outside : before.flow = []) :
    advance ctx place (.op Opcode.equal) before = .ok done after ↔ before.opCount + 1 ≤ maxOps ∧
      equal .yield { before with opCount := before.opCount + 1 } = .ok () after ∧
      after.stack.length + after.alt.length ≤ maxItems :=
  advance_operation_success_iff rfl (by decide) rfl (by decide) outside

private theorem advance_setColor_success_iff (outside : before.flow = []) :
    advance ctx place (.op Opcode.setColor) before = .ok done after ↔ before.opCount + 1 ≤ maxOps ∧
      setColor ctx { before with opCount := before.opCount + 1 } = .ok () after ∧
      after.stack.length + after.alt.length ≤ maxItems :=
  advance_operation_success_iff rfl (by decide) rfl (by decide) outside

private theorem advance_digest_success_iff {digest : Digest160} (outside : before.flow = []) :
    advance ctx place (Script.pushDigest digest) before = .ok done after ↔
      before.stack.length + 1 + before.alt.length ≤ maxItems ∧
      after = { before with stack := digest.val :: before.stack } :=
  advance_direct_success_iff (by decide) digest.2 (by rw [digest.2]; decide) outside

/-- The digest of the top item is compared; there must be room for the other digest. -/
theorem advanceAll_p2sh_success_iff {digest : Digest160} (outside : before.flow = [])
    (room : before.opCount + 2 ≤ maxOps) :
    advanceAll ctx place (Script.p2sh digest) before = .ok done after ↔ ∃ top rest,
      before.stack = top :: rest ∧ rest.length + 2 + before.alt.length ≤ maxItems ∧
      after = { before with
        stack := Number.ofBool (digest.val = (Digest.hash160 top).val) :: rest
        opCount := before.opCount + 2 } := by
  simp only [Script.p2sh,advanceAll_cons_success_iff]
  constructor
  · intro holds
    obtain ⟨_,hashed,_,pushed,_,compared,ok⟩ := holds
    cases ok
    obtain ⟨_,hashed,_⟩ := (advance_hash160_success_iff outside).mp hashed
    obtain ⟨top,rest,onTop,rfl⟩ := digest_success_iff.mp hashed
    obtain ⟨bound,rfl⟩ := (advance_digest_success_iff (by exact outside)).mp pushed
    obtain ⟨_,compared,_⟩ := (advance_equal_success_iff (by exact outside)).mp compared
    obtain ⟨_,_,_,both,rfl⟩ := equal_success_iff.mp compared
    cases both
    exact ⟨top,rest,onTop,bound,rfl⟩
  · intro holds
    obtain ⟨top,rest,onTop,bound,rfl⟩ := holds
    have kept : rest.length + 1 + before.alt.length ≤ maxItems := by omega
    refine ⟨_,(advance_hash160_success_iff outside).mpr
      ⟨by omega,digest_success_iff.mpr ⟨top,rest,onTop,rfl⟩,kept⟩,_,
      (advance_digest_success_iff (by exact outside)).mpr ⟨bound,rfl⟩,_,
      (advance_equal_success_iff (by exact outside)).mpr
        ⟨room,equal_success_iff.mpr ⟨_,_,rest,rfl,rfl⟩,kept⟩,rfl⟩

private theorem advance_dup_success_iff (outside : before.flow = []) :
    advance ctx place (.op dup) before = .ok done after ↔ before.opCount + 1 ≤ maxOps ∧
      shuffle .dup { before with opCount := before.opCount + 1 } = .ok () after ∧
      after.stack.length + after.alt.length ≤ maxItems :=
  advance_operation_success_iff rfl (by decide) rfl (by decide) outside

private theorem advance_equalVerify_success_iff (outside : before.flow = []) :
    advance ctx place (.op equalVerify) before = .ok done after ↔ before.opCount + 1 ≤ maxOps ∧
      equal .demand { before with opCount := before.opCount + 1 } = .ok () after ∧
      after.stack.length + after.alt.length ≤ maxItems :=
  advance_operation_success_iff rfl (by decide) rfl (by decide) outside

private theorem advance_checkSig_success_iff (outside : before.flow = []) :
    advance ctx place (.op Opcode.checkSig) before = .ok done after ↔ before.opCount + 1 ≤ maxOps ∧
      checkSig ctx .yield { before with opCount := before.opCount + 1 } = .ok () after ∧
      after.stack.length + after.alt.length ≤ maxItems :=
  advance_operation_success_iff rfl (by decide) rfl (by decide) outside

/-- The digest of the top item must be the one in the script, and the two topmost items are then
checked as a key and a signature. There must be room for two digests. -/
theorem advanceAll_p2pkh_success_iff {digest : Digest160} (outside : before.flow = [])
    (room : before.opCount + 4 ≤ maxOps) :
    advanceAll ctx place (Script.p2pkh digest) before = .ok done after ↔ ∃ key rest,
      before.stack = key :: rest ∧ rest.length + 3 + before.alt.length ≤ maxItems ∧
      (Digest.hash160 key).val = digest.val ∧
      checkSig ctx .yield { before with opCount := before.opCount + 4 } = .ok () after ∧
      after.stack.length + after.alt.length ≤ maxItems := by
  simp only [Script.p2pkh,advanceAll_cons_success_iff]
  constructor
  · intro holds
    obtain ⟨_,copied,_,hashed,_,pushed,_,compared,last,checked,ok⟩ := holds
    cases ok
    obtain ⟨_,copied,_⟩ := (advance_dup_success_iff outside).mp copied
    obtain ⟨key,rest,onTop,rfl⟩ := dup_success_iff.mp copied
    obtain ⟨_,hashed,_⟩ := (advance_hash160_success_iff (by exact outside)).mp hashed
    obtain ⟨_,_,top,rfl⟩ := digest_success_iff.mp hashed
    cases top
    obtain ⟨bound,rfl⟩ := (advance_digest_success_iff (by exact outside)).mp pushed
    obtain ⟨_,compared,_⟩ := (advance_equalVerify_success_iff (by exact outside)).mp compared
    obtain ⟨_,_,both,rfl⟩ := equalVerify_success_iff.mp compared
    obtain ⟨same,both⟩ := List.cons.inj both
    obtain ⟨same',rfl⟩ := List.cons.inj both
    obtain ⟨_,checked,within⟩ := (advance_checkSig_success_iff (by exact outside)).mp checked
    have unchanged : ({ before with stack := key :: rest, opCount := before.opCount + 4 } : State) =
        { before with opCount := before.opCount + 4 } := by
      rw [← onTop]
    exact ⟨key,rest,onTop,bound,same'.trans same.symm,unchanged ▸ checked,within⟩
  · intro holds
    obtain ⟨key,rest,onTop,bound,same,checked,within⟩ := holds
    have unchanged : ({ before with stack := key :: rest, opCount := before.opCount + 4 } : State) =
        { before with opCount := before.opCount + 4 } := by
      rw [← onTop]
    have kept : rest.length + 1 + 1 + before.alt.length ≤ maxItems := by omega
    have kept' : rest.length + 1 + before.alt.length ≤ maxItems := by omega
    refine ⟨_,(advance_dup_success_iff outside).mpr
      ⟨by omega,dup_success_iff.mpr ⟨key,rest,onTop,rfl⟩,kept⟩,_,
      (advance_hash160_success_iff (by exact outside)).mpr
        ⟨by exact (by omega : before.opCount + 1 + 1 ≤ maxOps),
          digest_success_iff.mpr ⟨key,key :: rest,rfl,rfl⟩,kept⟩,_,
      (advance_digest_success_iff (by exact outside)).mpr ⟨bound,rfl⟩,_,
      (advance_equalVerify_success_iff (by exact outside)).mpr
        ⟨by exact (by omega : before.opCount + 1 + 1 + 1 ≤ maxOps),
          equalVerify_success_iff.mpr ⟨digest.val,key :: rest,?_,rfl⟩,kept'⟩,after,
      (advance_checkSig_success_iff (by exact outside)).mpr ⟨room,?_,within⟩,rfl⟩
    · exact congrArg (fun top => digest.val :: top :: key :: rest) same
    · rw [← unchanged] at checked
      exact checked

/-- A colour in front is taken on once, and not in the script of a script digest. -/
theorem advanceAll_withColor_success_iff {color : ColorId} {script : Script}
    (outside : before.flow = []) :
    advanceAll ctx place (Script.withColor color script) before = .ok done after ↔
      ctx.redeem = false ∧ before.color = none ∧ before.opCount + 1 ≤ maxOps ∧
      before.stack.length + 1 + before.alt.length ≤ maxItems ∧
      advanceAll ctx (place + 2) script
        { before with color := some color, opCount := before.opCount + 1 } = .ok done after := by
  have colored {after : State} : advance ctx place (.push [33] color.toBytes) before = .ok () after ↔
      before.stack.length + 1 + before.alt.length ≤ maxItems ∧
      after = { before with stack := color.toBytes :: before.stack } :=
    advance_direct_success_iff (by decide) color.length_toBytes (by rw [color.length_toBytes]; decide)
      outside
  simp only [Script.withColor_eq,advanceAll_cons_success_iff,colored]
  constructor
  · intro holds
    obtain ⟨_,⟨bound,rfl⟩,_,taken,ok⟩ := holds
    obtain ⟨room,taken,_⟩ := (advance_setColor_success_iff (by exact outside)).mp taken
    obtain ⟨_,_,_,both,_,plain,fresh,read,rfl⟩ := setColor_success_iff.mp taken
    cases both
    rw [ColorId.ofBytes_toBytes] at read
    cases read
    exact ⟨plain,fresh,room,bound,ok⟩
  · intro holds
    obtain ⟨plain,fresh,room,bound,ok⟩ := holds
    refine ⟨_,⟨bound,rfl⟩,_,(advance_setColor_success_iff (by exact outside)).mpr
      ⟨room,setColor_success_iff.mpr ⟨color.toBytes,before.stack,color,rfl,outside,plain,fresh,
        color.ofBytes_toBytes,rfl⟩,?_⟩,ok⟩
    change before.stack.length + before.alt.length ≤ maxItems
    omega

end Machine

end ColorScript
