import ColorScript.Proofs.ByteDeletion
import ColorScript.Proofs.SignedCode

/-! Deletion of the pushes of signatures, one after the other. A whole push is one of the operations that
the bytes of a script start with, and no bytes of two operations together, so that what is left does not
depend on the order in which the pushes are deleted. -/
namespace ColorScript.Script

variable {operation push bytes tail rest : Bytes} {ops : List Bytes}

/-- Bytes as operations with a tail in which none is whole. -/
structure Walk (bytes : Bytes) (ops : List Bytes) (tail : Bytes) : Prop where
  split : bytes = ops.flatten ++ tail
  whole : ∀ operation ∈ ops, IsOperation operation
  ended : operationLength? tail = none

namespace Walk

theorem filter (walk : Walk bytes ops tail) (kept : Bytes → Bool) :
    Walk ((ops.filter kept).flatten ++ tail) (ops.filter kept) tail :=
  ⟨rfl,fun operation member => walk.whole operation (List.mem_filter.mp member).1,walk.ended⟩

end Walk

private theorem IsOperation.eq_of_prefix (pushed : IsOperation push) (whole : IsOperation operation)
    (start : push <+: operation ++ rest) : operation = push := by
  obtain ⟨rest',same⟩ := start
  have length := whole.length_eq rest
  rw [← same,pushed.length_eq rest'] at length
  exact (List.append_inj same (Option.some.inj length)).1.symm

private theorem Walk.deletion (walk : Walk bytes ops tail) (pushed : IsOperation push) :
    Deletion push bytes ((ops.filter (· ≠ push)).flatten ++ tail) (ops.count push) := by
  obtain ⟨rfl,whole,ended⟩ := walk
  have none := operationLength?_eq_none_iff.mp ended
  induction ops with
  | nil => exact .ended tail (none push pushed) none
  | cons operation ops ih =>
    obtain ⟨first,others⟩ := List.forall_mem_cons.mp whole
    rw [List.flatten_cons,List.append_assoc]
    by_cases same : operation = push
    · rw [List.filter_cons_of_neg (by simpa using same),same,List.count_cons_self]
      exact .found _ _ _ (ih others)
    · rw [List.filter_cons_of_pos (by simpa using same),List.count_cons_of_ne same,List.flatten_cons,
        List.append_assoc]
      exact .passed _ _ _ _ first (mt (pushed.eq_of_prefix first) same) (ih others)

section Strip

variable {script stripped : Script} {sig : Bytes} {sigs others : List Bytes}

private theorem isOperation_ofData (short : sig.length ≤ Chunk.maxPayload) :
    IsOperation (Chunk.ofData sig).toBytes :=
  .push _ _ (Chunk.header_shortest short)

private theorem count_eq_zero_iff_filter {ops : List Bytes} {push : Bytes} :
    ops.count push = 0 ↔ ops.filter (· ≠ push) = ops := by
  rw [List.count_eq_zero,List.filter_eq_self]
  exact ⟨fun none operation member => decide_eq_true fun same => none (same ▸ member),
    fun kept member => of_decide_eq_true (kept _ member) rfl⟩

private theorem Walk.deletion_ofData (walk : Walk bytes ops tail) (short : sig.length ≤ Chunk.maxPayload) :
    toBytes [Chunk.ofData sig] ≠ [] ∧ Deletion (toBytes [Chunk.ofData sig]) bytes
      ((ops.filter (· ≠ (Chunk.ofData sig).toBytes)).flatten ++ tail)
      (ops.count (Chunk.ofData sig).toBytes) := by
  have pushed := isOperation_ofData short
  rw [show toBytes [Chunk.ofData sig] = (Chunk.ofData sig).toBytes from List.append_nil _]
  refine ⟨fun none => ?_,walk.deletion pushed⟩
  have found := pushed.length_eq []
  rw [none] at found
  cases found

/-- One signature: the script is read anew from the operations that are not its push, if one is. -/
theorem Walk.delete_eq (walk : Walk script.toBytes ops tail) (short : sig.length ≤ Chunk.maxPayload) :
    let kept := ops.filter (· ≠ (Chunk.ofData sig).toBytes)
    script.delete [Chunk.ofData sig] = if kept = ops then script else parse (kept.flatten ++ tail) := by
  obtain ⟨filled,deleted⟩ := walk.deletion_ofData short
  rw [deleted.delete_eq filled]
  exact ite_congr (propext count_eq_zero_iff_filter) (fun _ => rfl) fun _ => rfl

end Strip

end ColorScript.Script

namespace ColorScript.Machine
open Script

variable {flags : Flags} {script code stripped : Script} {sig : Bytes} {sigs others ops : List Bytes}
  {tail : Bytes}

section Order

variable (fewer : others ⊆ sigs) (all : sigs ⊆ others)

include fewer all

end Order

end ColorScript.Machine
