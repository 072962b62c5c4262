import ColorScript.Proofs.Faultless.Codec

/-! Deletion as bytes see it, whatever chunks a script has. The reference is a relation: it deletes at the
start of the bytes as long as it can, keeps an operation otherwise, and ends where no operation is whole. -/
namespace ColorScript.Script
open Opcode

/-- The bytes of one operation: a push with a whole header and payload, or any other single byte. -/
inductive IsOperation : Bytes → Prop
  | push (header payload : Bytes) (announced : Chunk.Header header payload.length) :
      IsOperation (header ++ payload)
  | single (opcode : Opcode) (other : Opcode.isPush opcode = false) : IsOperation [opcode]

/-- What is left of bytes when `needle` is deleted from them so many times, each time at the start of an
operation. -/
inductive Deletion (needle : Bytes) : (bytes kept : Bytes) → (deletions : Nat) → Prop
  | found (rest kept : Bytes) (deletions : Nat) (deleted : Deletion needle rest kept deletions) :
      Deletion needle (needle ++ rest) kept (deletions + 1)
  | passed (operation rest kept : Bytes) (deletions : Nat) (whole : IsOperation operation)
      (other : ¬ needle <+: operation ++ rest) (deleted : Deletion needle rest kept deletions) :
      Deletion needle (operation ++ rest) (operation ++ kept) deletions
  | ended (bytes : Bytes) (other : ¬ needle <+: bytes)
      (none : ∀ operation, IsOperation operation → ¬ operation <+: bytes) :
      Deletion needle bytes bytes 0

variable {operation bytes rest kept kept' needle : Bytes} {length deletions deletions' : Nat}

private theorem afterStart?_eq_none : afterStart? needle bytes = none ↔ ¬ needle <+: bytes := by
  constructor
  · rintro none ⟨rest,rfl⟩
    cases none.symm.trans (afterStart?_eq_some.mpr rfl)
  · intro other
    refine Option.eq_none_iff_forall_ne_some.mpr fun rest found => other ⟨rest,?_⟩
    exact (afterStart?_eq_some.mp found).symm

theorem IsOperation.length_eq (whole : IsOperation operation) (rest : Bytes) :
    operationLength? (operation ++ rest) = some operation.length := by
  cases whole with
  | push header payload announced => exact operationLength?_complete (.push header payload announced) rest
  | single opcode other =>
    have above : pushData4 < opcode := by
      simpa only [Opcode.isPush,decide_eq_false_iff_not,UInt8.not_le] using other
    exact operationLength?_above above rest

theorem operationLength?_eq_some_iff : operationLength? bytes = some length ↔
    ∃ operation rest, IsOperation operation ∧ operation.length = length ∧ bytes = operation ++ rest := by
  constructor
  · intro found
    cases bytes with
    | nil => cases found
    | cons first bytes =>
      cases push : Opcode.isPush first with
      | false =>
        have whole := IsOperation.single first push
        have found' := whole.length_eq bytes
        exact ⟨[first],bytes,whole,Option.some.inj (found'.symm.trans found),rfl⟩
      | true =>
        rcases Chunk.header_or_cut first bytes push with ⟨lengthBytes,after,announced,rfl,header⟩ | cut
        · rw [← List.cons_append,operationLength?_header header] at found
          split at found
          next fits =>
            obtain rfl := Option.some.inj found
            have taken : (after.take announced).length = announced := List.length_take_of_le fits
            refine ⟨first :: lengthBytes ++ after.take announced,after.drop announced,
              .push _ _ (taken.symm ▸ header),by rw [List.length_append,taken],?_⟩
            rw [List.append_assoc,List.take_append_drop,List.cons_append]
          next => cases found
        · rw [operationLength?_cutHeader cut] at found
          cases found
  · rintro ⟨operation,rest,whole,rfl,rfl⟩
    exact whole.length_eq rest

theorem operationLength?_eq_none_iff : operationLength? bytes = none ↔
    ∀ operation, IsOperation operation → ¬ operation <+: bytes := by
  constructor
  · rintro none operation whole ⟨rest,rfl⟩
    cases none.symm.trans (whole.length_eq rest)
  · intro none
    refine Option.eq_none_iff_forall_ne_some.mpr fun length found => ?_
    obtain ⟨operation,rest,whole,_,rfl⟩ := operationLength?_eq_some_iff.mp found
    exact none operation whole ⟨rest,rfl⟩

section Sweep

variable {first : UInt8} {more : Bytes}

/-- A sweep deletes as the reference does. -/
theorem sweep_deletion (first : UInt8) (more bytes : Bytes) :
    Deletion (first :: more) bytes (sweep first more bytes).kept (sweep first more bytes).deletions := by
  fun_induction sweep first more bytes with
  | case1 bytes rest deleted swept ih =>
    rw [afterStart?_eq_some.mp deleted]
    exact .found rest _ _ ih
  | case2 bytes other length found swept ih =>
    obtain ⟨operation,rest,whole,rfl,rfl⟩ := operationLength?_eq_some_iff.mp found
    have same : swept = sweep first more rest := congrArg (sweep first more) List.drop_left
    rw [List.drop_left] at ih
    rw [List.take_left,same]
    exact .passed operation rest _ _ whole (afterStart?_eq_none.mp other) ih
  | case3 bytes other ended =>
    exact .ended bytes (afterStart?_eq_none.mp other) (operationLength?_eq_none_iff.mp ended)

-- The reference leaves no choice.
private theorem Deletion.eq_sweep (deleted : Deletion (first :: more) bytes kept deletions) :
    sweep first more bytes = ⟨kept,deletions⟩ := by
  induction deleted with
  | found rest kept deletions deleted ih =>
    rw [sweep_deleted (afterStart?_eq_some.mpr rfl),ih]
  | passed operation rest kept deletions whole other deleted ih =>
    rw [sweep_kept (afterStart?_eq_none.mpr other) (whole.length_eq rest),List.take_left,List.drop_left,ih]
  | ended bytes other none =>
    exact sweep_ended (afterStart?_eq_none.mpr other) (operationLength?_eq_none_iff.mpr none)

theorem deletion_iff : Deletion (first :: more) bytes kept deletions ↔
    sweep first more bytes = ⟨kept,deletions⟩ := by
  refine ⟨Deletion.eq_sweep,fun swept => ?_⟩
  have deleted := sweep_deletion first more bytes
  rwa [swept] at deleted

end Sweep

namespace Deletion

theorem length_eq (deleted : Deletion needle bytes kept deletions) :
    bytes.length = kept.length + deletions * needle.length := by
  induction deleted with
  | found rest kept deletions deleted ih =>
    rw [List.length_append,ih,Nat.succ_mul]
    omega
  | passed operation rest kept deletions whole other deleted ih =>
    rw [List.length_append,List.length_append,ih,Nat.add_assoc]
  | ended bytes other none => simp

private theorem eq_of_zero (deleted : Deletion needle bytes kept deletions) (none : deletions = 0) : kept = bytes := by
  induction deleted with
  | found rest kept deletions deleted ih => cases none
  | passed operation rest kept deletions whole other deleted ih => rw [ih none]
  | ended bytes other none => rfl

end Deletion

variable {script : Script}

theorem Deletion.delete_eq {needle : Script} (filled : needle.toBytes ≠ [])
    (deleted : Deletion needle.toBytes script.toBytes kept deletions) :
    script.delete needle = if deletions = 0 then script else parse kept := by
  obtain ⟨first,more,written⟩ := List.exists_cons_of_ne_nil filled
  rw [written] at deleted
  rw [delete,written]
  dsimp only
  rw [deleted.eq_sweep]

theorem Deletion.changed_iff {needle : Script} (filled : needle.toBytes ≠ [])
    (deleted : Deletion needle.toBytes script.toBytes kept deletions) :
    script.delete needle ≠ script ↔ 0 < deletions := by
  rw [deleted.delete_eq filled]
  split
  next none => simp [none]
  next some =>
    refine iff_of_true (fun same => some ?_) (Nat.pos_of_ne_zero some)
    -- Fewer bytes are left, so that they are not those of the script.
    have lengths := deleted.length_eq
    rw [← same,toBytes_parse] at lengths
    have removed : deletions * needle.toBytes.length = 0 := by omega
    exact (Nat.mul_eq_zero.mp removed).resolve_right fun none => filled (List.length_eq_zero_iff.mp none)

/-- Deletion follows the reference: the bytes that it leaves are the only ones that the reference gives,
they are shorter by the bytes of the needle as often as it deletes, and the script changes exactly if it
deletes at all. The loop that goes over the bytes by places gives the same. -/
theorem delete_reference (script needle : Script) (filled : needle.toBytes ≠ []) :
    ∃ kept deletions,
      (∀ kept' deletions', Deletion needle.toBytes script.toBytes kept' deletions' ↔
        kept' = kept ∧ deletions' = deletions) ∧
      (script.delete needle).toBytes = kept ∧
      script.toBytes.length = kept.length + deletions * needle.toBytes.length ∧
      (script.delete needle ≠ script ↔ 0 < deletions) ∧
      (script.Addressable → Checked.sweep needle.toBytes script.toBytes = .ok ⟨kept,deletions⟩) := by
  obtain ⟨first,more,written⟩ := List.exists_cons_of_ne_nil filled
  have swept := sweep_deletion first more script.toBytes
  rw [← written] at swept
  have result := swept.delete_eq filled
  refine ⟨_,_,fun kept' deletions' => ?_,?_,swept.length_eq,swept.changed_iff filled,fun fits => ?_⟩
  · rw [written,deletion_iff]
    exact ⟨fun same => ⟨(congrArg Sweep.kept same).symm,(congrArg Sweep.deletions same).symm⟩,
      fun ⟨kept,deletions⟩ => by rw [kept,deletions]⟩
  · rw [result]
    split
    next none => exact (swept.eq_of_zero none).symm
    next => exact toBytes_parse _
  · rw [written]
    refine Checked.sweep_eq ?_
    rw [Bytes.Addressable,length_toBytes]
    exact fits.bytes

/-- The bytes to delete stand twice at the start, the first time across chunks that cannot be read back. -/
theorem delete_reference_spanning :
    let script : Script := [.raw [0x00],.push [0x51,0x51] [0x00],.op 0x51,.op 0x51,.raw [0x00]]
    let needle : Script := [.op 0x00,.raw [0x51,0x51]]
    needle.toBytes ≠ [] ∧ (script.delete needle).toBytes = [0x00] ∧ script.delete needle ≠ script := by
  intro script needle
  have filled : needle.toBytes ≠ [] := by decide
  obtain ⟨kept,deletions,unique,bytes,_,changed,_⟩ := delete_reference script needle filled
  have zero : IsOperation [0x00] := .push [0x00] [] (.direct 0x00 (by decide))
  have ended : Deletion needle.toBytes [] [] 0 :=
    .ended [] (by decide) (operationLength?_eq_none_iff.mp rfl)
  have steps : Deletion needle.toBytes script.toBytes [0x00] 2 :=
    .found [0x00,0x51,0x51,0x00] _ _ (.found [0x00] _ _ (.passed [0x00] [] [] 0 zero (by decide) ended))
  obtain ⟨rfl,rfl⟩ := (unique _ _).mp steps
  exact ⟨filled,bytes,changed.mpr (by decide)⟩

end ColorScript.Script
