import ColorScript.Proofs.ShortestPush
import ColorScript.Script.Deletion

/-! Deletion from scripts that bytes were split into. The bytes of a complete push stand at the start
of a chunk only where that chunk is the push, so that its deletion is a filter of the chunks. -/
namespace ColorScript
open Opcode

namespace Chunk

variable {chunk other : Chunk} {header bytes after : Bytes} {length : Nat}

private theorem Unfinished.not_complete (unfinished : Unfinished chunk) : ¬ Complete chunk := by
  intro complete
  cases unfinished with
  | payload header payload length announced short =>
    cases complete with
    | push _ _ announced' =>
      have same := announced.announced?.symm.trans announced'.announced?
      exact Nat.ne_of_gt short (Option.some.inj same)
  | header header cut =>
    cases complete with
    | push _ _ announced => nomatch cut.announced?.symm.trans announced.announced?
  | raw first rest undefined => cases complete

private theorem Complete.eq_of_append {first : Opcode} {rest left : Bytes} (complete : Complete other)
    (written : first :: rest = other.toBytes ++ after) (cut : split first rest = (chunk,left)) :
    chunk = other ∧ left = after := by
  obtain ⟨first',more,ofOther,splits⟩ := complete.split_append
  rw [ofOther,List.cons_append] at written
  obtain ⟨rfl,rfl⟩ := List.cons.inj written
  rw [splits] at cut
  cases cut
  exact ⟨rfl,rfl⟩

end Chunk

namespace Script
open Chunk

variable {chunk : Chunk} {header bytes after : Bytes} {length : Nat}

private theorem completeLength?_eq (bytes : Bytes) (lead length : Nat) :
    completeLength? bytes lead length =
      if lead + length ≤ bytes.length then some (lead + length) else none := by
  rw [completeLength?,List.length_take]
  exact ite_congr (propext (by omega)) (fun _ => rfl) fun _ => rfl

theorem operationLength?_opcode {opcode : Opcode} (bounds : opcode < pushData1 ∨ pushData4 < opcode)
    (after : Bytes) :
    operationLength? (opcode :: after) =
      if opcode < pushData1 then completeLength? (opcode :: after) 1 opcode.toNat else some 1 := by
  have ne (code : Opcode) (between : pushData1 ≤ code ∧ code ≤ pushData4) : opcode ≠ code := by
    rintro rfl
    simp only [UInt8.lt_iff_toNat_lt,UInt8.le_iff_toNat_le] at bounds between
    omega
  have one := ne 0x4c (by decide)
  have two := ne 0x4d (by decide)
  have four := ne 0x4e (by decide)
  unfold operationLength?
  split
  all_goals simp_all

theorem operationLength?_above {opcode : Opcode} (above : pushData4 < opcode) (after : Bytes) :
    operationLength? (opcode :: after) = some 1 := by
  have large : ¬ opcode < pushData1 := fun small =>
    (by decide : ¬ pushData4 < pushData1) (UInt8.lt_trans above small)
  exact (operationLength?_opcode (.inr above) after).trans (if_neg large)

theorem operationLength?_header (announced : Header header length) (after : Bytes) :
    operationLength? (header ++ after) =
      if length ≤ after.length then some (header.length + length) else none := by
  have counted (lead : Nat) (same : header.length = lead) :
      completeLength? (header ++ after) lead length =
        if length ≤ after.length then some (header.length + length) else none := by
    rw [completeLength?_eq,List.length_append,same]
    exact ite_congr (propext (by omega)) (fun _ => rfl) fun _ => rfl
  cases announced with
  | direct opcode small =>
    rw [← counted 1 rfl]
    exact (operationLength?_opcode (.inl small) after).trans (if_pos small)
  | one a => exact counted 2 rfl
  | two a b => exact counted 3 rfl
  | four a b c d => exact counted 5 rfl

theorem operationLength?_complete (complete : Complete chunk) (after : Bytes) :
    operationLength? (chunk.toBytes ++ after) = some chunk.toBytes.length := by
  cases complete with
  | op code defined above => exact operationLength?_above above after
  | push header payload announced =>
    have fits : payload.length ≤ (payload ++ after).length := by
      rw [List.length_append]
      exact Nat.le_add_right _ _
    rw [Chunk.toBytes,List.append_assoc,operationLength?_header announced,if_pos fits,List.length_append]

theorem operationLength?_cutHeader (cut : CutHeader bytes) : operationLength? bytes = none := by
  cases cut with
  | one => rfl
  | two bytes short =>
    match bytes,short with
    | [],_ | [_],_ => rfl
  | four bytes short =>
    match bytes,short with
    | [],_ | [_],_ | [_,_],_ | [_,_,_],_ => rfl

theorem operationLength?_unfinished (unfinished : Unfinished chunk) (pushes : chunk.isPush = true) :
    operationLength? chunk.toBytes = none := by
  cases unfinished with
  | payload header payload length announced short =>
    rw [Chunk.toBytes,operationLength?_header announced,if_neg (Nat.not_le.mpr short)]
  | header header cut =>
    rw [Chunk.toBytes,List.append_nil]
    exact operationLength?_cutHeader cut
  | raw first rest undefined => cases pushes

private theorem afterStart?_complete {push : Chunk} (pushed : Complete push) (complete : Complete chunk)
    (after : Bytes) :
    afterStart? push.toBytes (chunk.toBytes ++ after) = if chunk = push then some after else none := by
  split
  next same =>
    rw [same,afterStart?_eq_some]
  next other =>
    refine Option.eq_none_iff_forall_ne_some.mpr fun rest found => other ?_
    obtain ⟨first,more,written,splits⟩ := complete.split_append
    rw [afterStart?_eq_some,written] at found
    exact (pushed.eq_of_append found (splits after)).1

private theorem afterStart?_unfinished {push : Chunk} (pushed : Complete push) (unfinished : Unfinished chunk) :
    afterStart? push.toBytes chunk.toBytes = none := by
  refine Option.eq_none_iff_forall_ne_some.mpr fun rest found => unfinished.not_complete ?_
  obtain ⟨first,more,written,splits⟩ := unfinished.split_end
  rw [afterStart?_eq_some,written] at found
  rw [(pushed.eq_of_append found splits).1]
  exact pushed

/-- A script in which no opcode without a name takes the bytes after it. -/
def IsNamed (script : Script) : Prop := ∀ bytes, Chunk.raw bytes ∉ script

section Sweep

variable {first : UInt8} {more rest : Bytes}

theorem sweep_deleted (deleted : afterStart? (first :: more) bytes = some rest) :
    sweep first more bytes =
      ⟨(sweep first more rest).kept,(sweep first more rest).deletions + 1⟩ := by
  rw [sweep]
  split
  next rest' deleted' =>
    obtain rfl := Option.some.inj (deleted.symm.trans deleted')
    rfl
  next none => cases deleted.symm.trans none

theorem sweep_kept (other : afterStart? (first :: more) bytes = none)
    (found : operationLength? bytes = some length) :
    sweep first more bytes = ⟨bytes.take length ++ (sweep first more (bytes.drop length)).kept,
      (sweep first more (bytes.drop length)).deletions⟩ := by
  rw [sweep]
  split
  next rest deleted => cases other.symm.trans deleted
  next none =>
    split
    next length' found' =>
      obtain rfl := Option.some.inj (found.symm.trans found')
      rfl
    next none => cases found.symm.trans none

theorem sweep_ended (other : afterStart? (first :: more) bytes = none)
    (ended : operationLength? bytes = none) : sweep first more bytes = ⟨bytes,0⟩ := by
  rw [sweep]
  split
  next rest deleted => cases other.symm.trans deleted
  next none =>
    split
    next length found => cases ended.symm.trans found
    next none => rfl

end Sweep

variable {script : Script} {push : Chunk} {first : UInt8} {more : Bytes}

/-- The sweep goes over the chunks one by one. -/
theorem sweep_eq (canonical : Canonical script) (named : IsNamed script) (pushed : Complete push)
    (written : push.toBytes = first :: more) :
    sweep first more script.toBytes = ⟨toBytes (script.filter (· ≠ push)),script.count push⟩ := by
  induction canonical with
  | nil => exact sweep_ended rfl rfl
  | last chunk unfinished =>
    have other : chunk ≠ push := fun same => unfinished.not_complete (same ▸ pushed)
    have pushes : chunk.isPush = true := by
      cases chunk with
      | push header payload => rfl
      | op code => cases unfinished
      | raw bytes => exact absurd List.mem_cons_self (named bytes)
    have unmatched := afterStart?_unfinished pushed unfinished
    have bytes : toBytes [chunk] = chunk.toBytes := List.append_nil _
    rw [written] at unmatched
    rw [bytes,sweep_ended unmatched (operationLength?_unfinished unfinished pushes)]
    simp [other,bytes]
  | cons chunk rest complete canonical ih =>
    have swept := ih fun bytes member => named bytes (List.mem_cons_of_mem _ member)
    have bytes : toBytes (chunk :: rest) = chunk.toBytes ++ toBytes rest := rfl
    have matched := afterStart?_complete pushed complete (toBytes rest)
    rw [written] at matched
    by_cases same : chunk = push
    · rw [if_pos same] at matched
      rw [bytes,sweep_deleted matched,swept]
      simp [same]
    · rw [if_neg same] at matched
      rw [bytes,sweep_kept matched (operationLength?_complete complete _),List.take_left,
        List.drop_left,swept]
      simp [same,toBytes]

theorem Canonical.filter (canonical : Canonical script) (kept : Chunk → Bool) :
    Canonical (script.filter kept) := by
  induction canonical with
  | nil => exact .nil
  | last chunk unfinished =>
    cases decided : kept chunk with
    | true =>
      rw [List.filter_cons_of_pos decided]
      exact .last chunk unfinished
    | false =>
      rw [List.filter_cons_of_neg (by simp [decided])]
      exact .nil
  | cons chunk rest complete canonical ih =>
    rw [List.filter_cons]
    split
    · exact .cons chunk _ complete ih
    · exact ih

/-- Deleting a push from a script that bytes were split into filters the chunks. -/
theorem delete_eq_filter (canonical : Canonical script) (named : IsNamed script)
    (pushed : Complete push) : script.delete [push] = script.filter (· ≠ push) := by
  obtain ⟨first,more,written,_⟩ := pushed.split_append
  have needle : toBytes [push] = first :: more := (List.append_nil _).trans written
  rw [delete,needle]
  dsimp only
  rw [sweep_eq canonical named pushed written]
  split
  next none =>
    refine (List.filter_eq_self.mpr fun chunk member => ?_).symm
    rw [decide_eq_true_eq]
    rintro rfl
    exact List.count_eq_zero.mp none member
  next => exact (canonical.filter _).parse_toBytes

end Script

end ColorScript
