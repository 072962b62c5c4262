import ColorScript.Proofs.Faultless.Operation
import ColorScript.Proofs.ResourceLimits
import ColorScript.Proofs.SignedCode

/-! The operations that check signatures do not fault. The code that is signed is never longer than the
script, and the loop over the keys stops before it runs out of them. -/
namespace ColorScript

namespace Script

variable {script : Script} {bytes : Bytes}

private theorem length_parse_le (bytes : Bytes) : (parse bytes).length ≤ bytes.length := by
  fun_induction parse bytes with
  | case1 => exact Nat.le_refl 0
  | case2 first rest ih =>
    have shorter := Chunk.length_split_lt first rest
    rw [List.length_cons]
    omega

theorem Addressable.ofBytes (fits : bytes.Addressable) : Addressable (parse bytes) where
  bytes := (size_parse bytes).symm ▸ fits
  chunks := Nat.lt_of_le_of_lt (length_parse_le bytes) fits

theorem Addressable.drop (fits : script.Addressable) (place : Nat) : Addressable (script.drop place) where
  bytes := by
    have whole := fits.bytes
    rw [← length_toBytes] at whole ⊢
    have parts : script.toBytes = toBytes (script.take place) ++ toBytes (script.drop place) := by
      rw [toBytes,toBytes,toBytes,← List.flatMap_append,List.take_append_drop]
    rw [parts,List.length_append] at whole
    omega
  chunks := by
    rw [List.length_drop]
    exact Nat.lt_of_le_of_lt (Nat.sub_le _ _) fits.chunks

theorem Addressable.delete (fits : script.Addressable) (needle : Script) :
    Addressable (script.delete needle) := by
  unfold Script.delete
  split
  next => exact fits
  next first more _ =>
    dsimp only
    split
    next => exact fits
    next =>
      have kept := Checked.length_kept_le first more script.toBytes
      rw [length_toBytes] at kept
      exact .ofBytes (Nat.lt_of_le_of_lt kept fits.bytes)

theorem Addressable.single {chunk : Chunk} (fits : chunk.size < 2 ^ 63) : Addressable [chunk] where
  bytes := fits
  chunks := by simp

end Script

namespace Checked

private theorem addressable_of_ofData? {item : Bytes} {push : Chunk} (pushed : Chunk.ofData? item = .ok push) :
    Script.Addressable [push] := by
  obtain ⟨bound,rfl⟩ := Chunk.ofData?_eq_ok_iff.mp pushed
  refine .single ?_
  have header : (Chunk.shortestHeader item.length).length ≤ 5 := by
    rw [Chunk.length_shortestHeader]
    split_ifs <;> decide
  rw [Chunk.maxPayload] at bound
  rw [Chunk.ofData,Chunk.size]
  omega

private theorem withoutSignature_eq {code : Script} (fits : code.Addressable) (flags : Flags) (sig : Bytes) :
    withoutSignature flags code sig = .ok (Machine.withoutSignature flags code sig) := by
  unfold withoutSignature Machine.withoutSignature
  cases pushed : Chunk.ofData? sig with
  | error fault => rfl
  | ok push =>
    dsimp only
    rw [delete_eq fits (addressable_of_ofData? pushed),ok_bind]
    split <;> rfl

private theorem withoutSignatures_eq {code : Script} (fits : code.Addressable) (flags : Flags) (sigs : List Bytes) :
    withoutSignatures flags code sigs = .ok (sigs.foldlM (Machine.withoutSignature flags) code) := by
  induction sigs generalizing code with
  | nil => rfl
  | cons sig sigs ih =>
    rw [withoutSignatures,withoutSignature_eq fits,ok_bind,List.foldlM_cons]
    cases stripped : Machine.withoutSignature flags code sig with
    | error error => rfl
    | ok rest =>
      have shorter : rest.Addressable := by
        rw [(Machine.withoutSignature_success stripped).2.1]
        exact fits.delete _
      exact ih shorter

private theorem scriptCode_eq {ctx : Context} (fits : ctx.script.Addressable) (codeStart : Nat) (sigs : List Bytes) :
    scriptCode ctx codeStart sigs = .ok (Machine.scriptCode ctx codeStart sigs) :=
  withoutSignatures_eq (fits.drop codeStart) ctx.flags sigs

end Checked

namespace GuardedMachine

open Guarded

variable {ctx : Context} {before : State}

theorem checkSig_agrees (fits : ctx.script.Addressable) (ending : Ending) :
    Agrees (checkSig ctx ending) (Machine.checkSig ctx ending) before := by
  refine Agrees.followed fun _ _ => Agrees.followed fun key _ => Agrees.followed fun sig _ =>
    (Agrees.get _).bind fun _ _ _ => ?_
  refine Agrees.computed (Checked.scriptCode_eq fits _ _) (Agrees.followed fun code _ => ?_)
  refine Agrees.computed (Checked.checkTransaction_eq _ _) (Agrees.followed fun _ _ => ?_)
  refine Agrees.computed (Checked.checkKey_eq _ _) (Agrees.followed fun _ _ => ?_)
  exact Agrees.followed fun _ _ => Agrees.followed fun _ _ => Agrees.lift _ _

theorem checkDataSig_agrees (ending : Ending) :
    Agrees (checkDataSig ctx ending) (Machine.checkDataSig ctx ending) before := by
  refine Agrees.followed fun _ _ => Agrees.followed fun key _ => Agrees.followed fun message _ =>
    Agrees.followed fun sig _ => ?_
  refine Agrees.computed (Checked.checkData_eq _ _) (Agrees.followed fun _ _ => ?_)
  refine Agrees.computed (Checked.checkKey_eq _ _) (Agrees.followed fun _ _ => ?_)
  have concluded (success : Bool) (middle : State) : Agrees (do
      Machine.requireNullFail ctx success [sig]
      Machine.conclude ending .checkDataSigVerify success : GuardedMachine Unit) (do
      Machine.requireNullFail ctx success [sig]
      Machine.conclude ending .checkDataSigVerify success) middle :=
    Agrees.followed fun _ _ => Agrees.lift _ _
  refine Agrees.ite (fun _ => ?_) fun _ => ?_
  · exact (Agrees.pure _ _).bind fun success middle _ => concluded success middle
  · exact Agrees.followed concluded

private theorem sigCount_eq {keyCount sigCount : Int} (positive : 0 ≤ keyCount) (bound : sigCount.natAbs < 2 ^ 31) :
    (!(decide (sigCount < 0) || decide (keyCount.toNat < Checked.toSize sigCount))) =
      (decide (0 ≤ sigCount) && decide (sigCount ≤ keyCount)) := by
  by_cases negative : sigCount < 0
  · rw [decide_eq_true negative,decide_eq_false (Int.not_le.mpr negative)]
    rfl
  · have positive : 0 ≤ sigCount := Int.not_lt.mp negative
    rw [Checked.toSize_eq positive (by omega),decide_eq_false negative,decide_eq_true positive,
      Bool.false_or,Bool.true_and,← decide_not]
    exact decide_eq_decide.mpr (by omega)

private theorem multisigCounts_agrees (small : before.opCount ≤ Machine.maxOps) :
    Agrees (multisigCounts ctx) (Machine.multisigCounts ctx) before := by
  refine (Agrees.lift _ _).bind fun _ asked required => (peekNumber_agrees (by decide)).bind
    fun keyCount counted read => (Agrees.lift _ _).bind fun _ middle allowed => ?_
  obtain ⟨_,rfl⟩ := Machine.require_success_iff.mp required
  obtain ⟨_,_,_,rfl⟩ := Machine.peekNumber_success_iff.mp read
  obtain ⟨range,rfl⟩ := Machine.ensure_success_iff.mp allowed
  rw [Bool.and_eq_true,decide_eq_true_eq,decide_eq_true_eq,Machine.maxKeys] at range
  rw [Machine.maxOps] at small
  rw [Checked.toSize_eq range.1 (by omega)]
  refine (charge_agrees (by omega)).bind fun _ _ _ => Agrees.computed (Checked.add_eq (by omega))
    (Agrees.computed (Checked.add_eq (by omega)) (Agrees.followed fun _ _ => ?_))
  refine (peekNumber_agrees (by omega)).bind fun sigCount _ read' => ?_
  obtain ⟨_,_,operand,_⟩ := Machine.peekNumber_success_iff.mp read'
  have bound : sigCount.natAbs < 2 ^ 31 := Number.natAbs_lt_of_operand_size operand
  rw [sigCount_eq range.1 bound]
  refine (Agrees.lift _ _).bind fun _ _ allowed' => ?_
  have range' := (Machine.ensure_success_iff.mp allowed').1
  rw [Bool.and_eq_true,decide_eq_true_eq,decide_eq_true_eq] at range'
  rw [Checked.toSize_eq range'.1 (by omega)]
  exact Agrees.computed (Checked.add_eq (by omega)) (Agrees.computed (Checked.add_eq (by omega))
    (Agrees.followed fun _ middle => Agrees.pure _ middle))

section Matching

variable {sigs keys : List Bytes} {code : Script}

/-- What the matching goes on with: the signatures and the keys that are left, the last one first. -/
def matching (ctx : Context) (code : Script) (sigs keys : List Bytes) (left : Matching) :
    Machine (Nat × Bool) :=
  if left.success then do
    let others ← Machine.matchKeys ctx code (sigs.take left.sigs).reverse (keys.take left.keys).reverse
    return (others.length,others.isEmpty)
  else return (left.sigs,false)

/-- There are signatures and keys left as the counts say, and keys enough as long as it is worth going on. -/
structure Matching.Counts (left : Matching) (sigs keys : List Bytes) : Prop where
  sigs : left.sigs ≤ sigs.length
  keys : left.keys ≤ keys.length
  enough : left.success = true → left.sigs ≤ left.keys

private theorem take_reverse_succ {item : Bytes} {items : List Bytes} {count : Nat} (found : items[count]? = some item) :
    (items.take (count + 1)).reverse = item :: (items.take count).reverse := by
  rw [List.take_add_one,found,List.reverse_append]
  rfl

def tryKey (ctx : Context) (code : Script) (sig key : Bytes) (sigs keys : Nat) :
    Machine (Checked.Round Matching (Nat × Bool)) := do
  Machine.ofExcept (Signature.checkTransaction ctx.flags sig)
  Machine.ofExcept (Signature.checkKey ctx.flags key)
  let success ← Machine.ask ctx (.signature sig key code)
  let left := if success then sigs else sigs + 1
  return .again ⟨left,keys,left ≤ keys⟩

private theorem tryKey_agrees {sig key : Bytes} {sigsLeft keysLeft : Nat} (found : sigs[sigsLeft]? = some sig)
    (found' : keys[keysLeft]? = some key) :
    Agrees (matchRound ctx code sigs keys ⟨sigsLeft + 1,keysLeft + 1,true⟩)
      (tryKey ctx code sig key sigsLeft keysLeft) before := by
  refine Agrees.computed (Checked.sub_eq (Nat.le_add_left _ _)) ?_
  refine Agrees.computed (Checked.index_of_getElem? found) ?_
  refine Agrees.computed (Checked.sub_eq (Nat.le_add_left _ _)) ?_
  refine Agrees.computed (Checked.index_of_getElem? found') ?_
  refine Agrees.computed (Checked.checkTransaction_eq _ _) (Agrees.followed fun _ _ => ?_)
  refine Agrees.computed (Checked.checkKey_eq _ _) (Agrees.followed fun _ _ => ?_)
  refine Agrees.followed fun success middle => ?_
  have left : (if success then Checked.sub (sigsLeft + 1) 1 else pure (sigsLeft + 1) : Checked Nat) =
      .ok (if success then sigsLeft else sigsLeft + 1) := by
    cases success with
    | true =>
      rw [if_pos rfl,if_pos rfl]
      exact Checked.sub_eq (Nat.le_add_left _ _)
    | false => rfl
  refine Agrees.computed left (Agrees.computed (Checked.sub_eq (Nat.le_add_left _ _)) ?_)
  exact Agrees.pure _ middle

private theorem matching_succ {sig key : Bytes} {sigsLeft keysLeft : Nat} (found : sigs[sigsLeft]? = some sig)
    (found' : keys[keysLeft]? = some key) :
    matching ctx code sigs keys ⟨sigsLeft + 1,keysLeft + 1,true⟩ =
      tryKey ctx code sig key sigsLeft keysLeft >>= onward (matching ctx code sigs keys) := by
  have length : (sigs.take sigsLeft).reverse.length = sigsLeft := by
    have inside := (List.getElem?_eq_some_iff.mp found).1
    rw [List.length_reverse,List.length_take_of_le (Nat.le_of_lt inside)]
  have length' : (keys.take keysLeft).reverse.length = keysLeft := by
    have inside := (List.getElem?_eq_some_iff.mp found').1
    rw [List.length_reverse,List.length_take_of_le (Nat.le_of_lt inside)]
  rw [matching,if_pos rfl,take_reverse_succ found,take_reverse_succ found',Machine.matchKeys,tryKey]
  simp only [bind_assoc,pure_bind]
  refine congrArg _ (funext fun _ => congrArg _ (funext fun _ => congrArg _ (funext fun success => ?_)))
  have turn : (if success = true then (sigs.take sigsLeft).reverse else sig :: (sigs.take sigsLeft).reverse) =
      (sigs.take (if success then sigsLeft else sigsLeft + 1)).reverse := by
    cases success with
    | true => rfl
    | false => exact (take_reverse_succ found).symm
  have counted : (sigs.take (if success then sigsLeft else sigsLeft + 1)).reverse.length =
      if success then sigsLeft else sigsLeft + 1 := by
    have inside := (List.getElem?_eq_some_iff.mp found).1
    rw [List.length_reverse,List.length_take_of_le]
    split <;> omega
  rw [turn,length']
  generalize (if success then sigsLeft else sigsLeft + 1) = left at counted ⊢
  rw [counted,onward,matching]
  -- With more signatures left than keys, the counts say that it is over, and the lists that it failed.
  by_cases beyond : keysLeft < left
  · have filled : (sigs.take left).reverse.isEmpty = false := by
      refine Bool.eq_false_iff.mpr fun empty => ?_
      rw [List.isEmpty_iff_length_eq_zero,counted] at empty
      omega
    rw [if_pos beyond,if_neg (by simpa using beyond),pure_bind,counted,filled]
  · rw [if_neg beyond,if_pos (by simpa using beyond)]

private theorem tryKey_again {sig key : Bytes} {sigsLeft keysLeft : Nat} {next : Matching} {after : State}
    (ran : tryKey ctx code sig key sigsLeft keysLeft before = .ok (.again next) after) :
    ∃ left ≤ sigsLeft + 1, next = ⟨left,keysLeft,left ≤ keysLeft⟩ := by
  obtain ⟨_,_,_,ran⟩ := bind_success _ _ _ _ _ ran
  obtain ⟨_,_,_,ran⟩ := bind_success _ _ _ _ _ ran
  obtain ⟨success,_,_,ran⟩ := bind_success _ _ _ _ _ ran
  cases ran
  refine ⟨if success then sigsLeft else sigsLeft + 1,?_,rfl⟩
  split <;> omega

private theorem matchRound_agrees {left : Matching} (counts : left.Counts sigs keys) :
    ∃ step : Machine (Checked.Round Matching (Nat × Bool)),
      (∀ before, Agrees (matchRound ctx code sigs keys left) step before) ∧
      (∀ before next middle, step before = .ok (.again next) middle →
        next.keys < left.keys ∧ next.Counts sigs keys) ∧
      matching ctx code sigs keys left = step >>= onward (matching ctx code sigs keys) := by
  obtain ⟨sigsLeft,keysLeft,success⟩ := left
  cases success with
  | false =>
    refine ⟨pure (.done (sigsLeft,false)),fun before => Agrees.pure _ before,?_,rfl⟩
    intro before next middle ran
    cases ran
  | true =>
    have bounds := counts.sigs
    have bounds' := counts.keys
    have enough := counts.enough rfl
    dsimp only at bounds bounds' enough
    cases sigsLeft with
    | zero =>
      refine ⟨pure (.done (0,true)),fun before => Agrees.pure _ before,?_,?_⟩
      · intro before next middle ran
        cases ran
      · rw [matching,if_pos rfl,List.take_zero,List.reverse_nil,Machine.matchKeys_nil]
        rfl
    | succ sigsLeft =>
      obtain ⟨keysLeft,rfl⟩ := Nat.exists_eq_add_of_le' (Nat.le_trans (Nat.le_add_left 1 _) enough)
      have sig := List.getElem?_eq_getElem (Nat.lt_of_succ_le bounds)
      have key := List.getElem?_eq_getElem (Nat.lt_of_succ_le bounds')
      refine ⟨_,fun _ => tryKey_agrees sig key,?_,matching_succ sig key⟩
      intro before next middle ran
      obtain ⟨left,fewer,rfl⟩ := tryKey_again ran
      exact ⟨Nat.lt_succ_self _,Nat.le_trans fewer bounds,Nat.le_of_succ_le bounds',of_decide_eq_true⟩

private theorem matchKeys_agrees (code : Script) (enough : sigs.length ≤ keys.length) :
    Agrees (matchKeys ctx code sigs keys) (do
      let left ← Machine.matchKeys ctx code sigs.reverse keys.reverse
      return (left.length,left.isEmpty)) before := by
  have whole : matching ctx code sigs keys ⟨sigs.length,keys.length,true⟩ = do
      let left ← Machine.matchKeys ctx code sigs.reverse keys.reverse
      return (left.length,left.isEmpty) := by
    rw [matching,if_pos rfl,List.take_length,List.take_length]
  rw [← whole]
  exact Agrees.loop (fun left => left.Counts sigs keys) (matching ctx code sigs keys)
    (fun _ counts => @matchRound_agrees ctx sigs keys code _ counts) _ ⟨Nat.le_refl _,Nat.le_refl _,fun _ => enough⟩ before

end Matching

theorem sameScheme_iff {sigs : List Bytes} : Machine.sameScheme sigs = true ↔
    ∀ first ∈ sigs, ∀ second ∈ sigs, first ≠ [] → second ≠ [] →
      Signature.transactionScheme first = Signature.transactionScheme second := by
  refine ⟨Machine.schemes_of_sameScheme,fun same => ?_⟩
  have alike : ∀ scheme ∈ (sigs.filter (!·.isEmpty)).map Signature.transactionScheme,
      ∀ scheme' ∈ (sigs.filter (!·.isEmpty)).map Signature.transactionScheme, scheme = scheme' := by
    simp only [List.mem_map,List.mem_filter,Bool.not_eq_true',List.isEmpty_eq_false_iff]
    rintro _ ⟨first,⟨ofFirst,filled⟩,rfl⟩ _ ⟨second,⟨ofSecond,filled'⟩,rfl⟩
    exact same first ofFirst second ofSecond filled filled'
  unfold Machine.sameScheme
  split
  next => rfl
  next scheme others all =>
    rw [all] at alike
    exact List.all_eq_true.mpr fun other member => decide_eq_true
      (alike other (List.mem_cons_of_mem _ member) scheme List.mem_cons_self)

theorem sameScheme_reverse (sigs : List Bytes) : Machine.sameScheme sigs.reverse = Machine.sameScheme sigs := by
  rw [Bool.eq_iff_iff,sameScheme_iff,sameScheme_iff]
  simp only [List.mem_reverse]

private theorem multisigCounts_ordered {after : State} {keyCount sigCount : Nat}
    (counted : Machine.multisigCounts ctx before = .ok (keyCount,sigCount) after) : sigCount ≤ keyCount := by
  simp only [Machine.multisigCounts,bind_success_iff,Machine.ensure_success_iff,pure_success_iff,
    Prod.mk.injEq,Bool.and_eq_true,decide_eq_true_eq] at counted
  obtain ⟨_,_,_,keyCount,_,_,_,_,_,_,_,_,_,_,_,sigCount,_,_,_,_,⟨⟨_,fewer⟩,_⟩,_,_,_,⟨rfl,rfl⟩,_⟩ :=
    counted
  exact Int.toNat_le_toNat fewer

private theorem slice_left {code : Script} {sigs keys left : List Bytes} {after : State}
    (matched : Machine.matchKeys ctx code sigs keys before = .ok left after) :
    Checked.slice sigs.reverse 0 left.length = .ok left.reverse := by
  obtain ⟨used,rfl,_⟩ := Machine.matchKeys_used matched
  rw [List.reverse_append,Checked.slice_eq (Nat.zero_le _) (by simp),List.drop_zero,Nat.sub_zero]
  exact congrArg _ (List.take_left' List.length_reverse)

theorem checkMultiSig_agrees (fits : ctx.script.Addressable) (small : before.opCount ≤ Machine.maxOps)
    (ending : Ending) : Agrees (checkMultiSig ctx ending) (Machine.checkMultiSig ctx ending) before := by
  refine (multisigCounts_agrees small).bind fun (keyCount,sigCount) _ counted => Agrees.followed fun _ _ => ?_
  refine (Agrees.lift _ _).bind fun keys _ keysTaken => Agrees.followed fun _ _ =>
    (Agrees.lift _ _).bind fun sigs _ sigsTaken => (Agrees.get _).bind fun _ _ _ => ?_
  refine Agrees.computed (Checked.scriptCode_eq fits _ _) (Agrees.followed fun code _ => ?_)
  rw [sameScheme_reverse]
  refine Agrees.followed fun _ middle => ?_
  have enough : sigs.reverse.length ≤ keys.reverse.length := by
    obtain ⟨_,_,keyCounted,_⟩ := Machine.popMany_success_iff.mp keysTaken
    obtain ⟨_,_,sigCounted,_⟩ := Machine.popMany_success_iff.mp sigsTaken
    rw [List.length_reverse,List.length_reverse,keyCounted,sigCounted]
    exact multisigCounts_ordered counted
  have matched : Agrees (matchKeys ctx code sigs.reverse keys.reverse) (do
      let left ← Machine.matchKeys ctx code sigs keys
      return (left.length,left.isEmpty)) middle := by
    have whole := @matchKeys_agrees ctx middle sigs.reverse keys.reverse code enough
    rwa [List.reverse_reverse,List.reverse_reverse] at whole
  refine matched.bind_map fun left last ran => ?_
  have judged : Checked.provided (!left.isEmpty && ctx.flags.has .nullFail) (do
      let others ← Checked.slice sigs.reverse 0 left.length
      pure (others.all List.isEmpty)) =
      .ok (left.isEmpty || !ctx.flags.has .nullFail || left.all List.isEmpty) := by
    rw [slice_left ran,Checked.ok_bind,Checked.pure_eq_ok,Checked.provided_eq rfl,List.all_reverse,
      Bool.not_and,Bool.not_not]
  refine Agrees.computed judged (Agrees.followed fun _ _ => Agrees.followed fun unused _ => ?_)
  exact Agrees.followed fun _ _ => Agrees.lift _ _

end GuardedMachine

end ColorScript
