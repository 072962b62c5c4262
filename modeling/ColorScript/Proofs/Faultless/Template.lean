import ColorScript.Checked.Template
import ColorScript.Proofs.Faultless.Encoding
import ColorScript.Proofs.Template

/-! The template predicates do not fault. A chunk is only looked up in a script that is long enough
to have it. -/
namespace ColorScript

open Opcode

namespace Checked

variable {script : Script}

private theorem count?_eq (chunk : Chunk) : count? chunk = .ok ((Script.count? chunk).map Int.ofNat) := by
  cases chunk with
  | push header payload | raw bytes => rfl
  | op code =>
    revert code
    exact forall_byte (by decide +kernel)

private theorem isKeyPush_eq (chunk : Chunk) : isKeyPush chunk = .ok (Script.keyPush? chunk).isSome := by
  rw [isKeyPush,isWellFormed_eq,ok_bind,Script.keyPush?]
  cases chunk.payload? with
  | none => simp
  | some key =>
    dsimp only
    split
    next fine => simp [fine]
    next other =>
      rw [Option.any_some,Option.isSome_none,pure_eq_ok,Except.ok.injEq]
      simpa using other

private theorem slice_framed (first last closing : Chunk) (middle : List Chunk) :
    slice (first :: (middle ++ [last,closing])) 1 (middle.length + 1) = .ok middle := by
  rw [Nat.add_comm middle.length]
  exact slice_middle [first] middle [last,closing]

private theorem miscounted_iff {required total length : Nat} (least : 1 ≤ required) (fits : length + 3 < 2 ^ 63) :
    (Int.ofNat required < 1 ∨ Int.ofNat total < Int.ofNat required ∨
      toInteger (length + 3) ≠ Int.ofNat total + 3) ↔ (total < required ∨ length ≠ total) := by
  rw [toInteger_eq fits]
  simp only [Int.ofNat_eq_natCast]
  omega

private theorem isMultisig_append {first last closing : Chunk} {middle : List Chunk} (long : middle ≠ [])
    (fits : middle.length + 3 < 2 ^ 63) :
    isMultisig (first :: (middle ++ [last,closing])) =
      .ok (Script.isMultisig (first :: (middle ++ [last,closing]))) := by
  have positive := List.length_pos_iff.mpr long
  have ends : first :: (middle ++ [last,closing]) = (first :: middle) ++ [last,closing] := rfl
  have closes : index (first :: (middle ++ [last,closing])) (middle.length + 2) = .ok closing := by
    rw [ends]
    exact index_behind _ 1 rfl (by rw [List.length_cons])
  have before : index (first :: (middle ++ [last,closing])) (middle.length + 1) = .ok last := by
    rw [ends]
    exact index_behind _ 0 rfl rfl
  have opens : index (first :: (middle ++ [last,closing])) 0 = .ok first := rfl
  have tested : middle.allM isKeyPush = .ok (middle.mapM Script.keyPush?).isSome := by
    rw [funext isKeyPush_eq,Script.mapM_keyPush?_isSome]
    exact List.allM_pure
  have one : sub (middle.length + 3) 1 = .ok (middle.length + 2) := sub_eq (by omega)
  have two : sub (middle.length + 3) 2 = .ok (middle.length + 1) := sub_eq (by omega)
  rw [isMultisig,Script.isMultisig,Script.multisigParts?_append,Script.length_framed,if_neg (by omega),one,
    ok_bind,closes,ok_bind]
  by_cases closed : closing = .op checkMultiSig
  · rw [if_neg (not_not_intro closed),if_pos closed,opens,ok_bind,count?_eq,ok_bind,two,ok_bind,before,
      ok_bind,count?_eq,ok_bind]
    cases counted : Script.count? first with
    | none => rfl
    | some required =>
      cases counted' : Script.count? last with
      | none => rfl
      | some total =>
        have least := (Script.count?_pos counted).1
        have most := (Script.count?_pos counted').2
        simp only [Option.map_some]
        rw [integer_eq (by simp only [Int.ofNat_eq_natCast]; omega),ok_bind,ok_bind,slice_framed,ok_bind,
          tested,if_congr (miscounted_iff least fits) rfl rfl]
        change _ = Except.ok (if total < required ∨ middle.length ≠ total then none
          else (middle.mapM Script.keyPush?).bind fun keys => some (required,keys)).isSome
        split
        next => rfl
        next => cases middle.mapM Script.keyPush? <;> rfl
  · rw [if_pos closed,if_neg closed]
    rfl

theorem isMultisig_eq (fits : script.Addressable) : isMultisig script = .ok script.isMultisig := by
  by_cases short : script.length < 4
  · rw [isMultisig,if_pos short,Script.isMultisig,Script.multisigParts?_short short]
    rfl
  · obtain ⟨first,middle,last,closing,rfl⟩ := Script.exists_of_length (by omega : 3 ≤ script.length)
    have bound := fits.chunks
    rw [Script.length_framed] at short bound
    exact isMultisig_append (List.ne_nil_of_length_pos (by omega)) bound

theorem multisigKeys_eq (fits : script.Addressable) : multisigKeys script = .ok script.multisigKeys := by
  rw [multisigKeys,isMultisig_eq fits,ok_bind,Script.isMultisig,Script.multisigKeys]
  cases found : script.multisigParts? with
  | none => rfl
  | some parts =>
    obtain ⟨_,_,_,pushes,rfl,pushed⟩ := Script.multisigParts?_eq_some_iff.mp found
    have two : sub (pushes.length + 3) 2 = .ok (pushes.length + 1) := sub_eq (by omega)
    rw [Option.isSome_some,if_pos rfl,Script.severalKeys,Script.length_framed,two,ok_bind,slice_framed,ok_bind,
      Script.filterMap_of_mapM pushed]
    rfl

private theorem isColored_eq (script : Script) : isColored script = .ok script.splitColor?.isSome := by
  unfold isColored
  split
  next header payload rest =>
    rw [colorOfBytes_eq,ok_bind]
    change _ = Except.ok (ite (header = [33]) _ none).isSome
    by_cases single : header = [33]
    · rw [if_pos single,if_pos single]
      cases ColorId.ofBytes payload <;> rfl
    · rw [if_neg single,if_neg single]
      rfl
  next other =>
    have plain : script.splitColor? = none := by
      unfold Script.splitColor?
      split
      next header payload rest => exact absurd rfl (other header payload rest)
      next => rfl
    rw [plain]
    rfl

private theorem sliceFrom_colored {color : ColorId} {rest : Script} (found : script.splitColor? = some (color,rest)) :
    sliceFrom script 2 = .ok rest := by
  rw [Script.splitColor?_eq_some_iff.mp found,Script.withColor_eq]
  exact sliceFrom_append [_,_] rest

private theorem isColoredShape_eq (shape : Script → Bool) (script : Script) :
    isColoredShape shape script = .ok (script.splitColor?.any fun parts => shape parts.2) := by
  rw [isColoredShape,isColored_eq,ok_bind]
  cases found : script.splitColor? with
  | none => rfl
  | some parts =>
    rw [Option.isSome_some,if_pos rfl,sliceFrom_colored found]
    rfl

theorem isColoredP2PKH_eq (script : Script) : isColoredP2PKH script = .ok script.isColoredP2PKH :=
  isColoredShape_eq _ script

theorem isColoredP2SH_eq (script : Script) : isColoredP2SH script = .ok script.isColoredP2SH :=
  isColoredShape_eq _ script

theorem color?_eq (script : Script) : color? script = .ok script.color? := by
  rw [color?,isColored_eq,ok_bind,Script.color?]
  cases found : script.splitColor? with
  | none => rfl
  | some parts =>
    have opens : index script 0 = .ok (Chunk.push [33] parts.1.toBytes) := by
      rw [Script.splitColor?_eq_some_iff.mp found,Script.withColor_eq]
      rfl
    rw [Option.isSome_some,if_pos rfl,opens,ok_bind]
    dsimp only [Chunk.payload?]
    rw [colorOfBytes_eq,ColorId.ofBytes_toBytes]
    rfl

theorem removeColor_eq (script : Script) : removeColor script = .ok script.removeColor := by
  rw [removeColor,isColoredP2PKH_eq,isColoredP2SH_eq,ok_bind,Script.removeColor,Script.isColoredP2PKH,
    Script.isColoredP2SH]
  cases found : script.splitColor? with
  | none => rfl
  | some parts =>
    rw [sliceFrom_colored found]
    simp only [Option.any_some]
    cases parts.2.isP2PKH <;> cases parts.2.isP2SH <;> rfl

section Relay

variable (fits : script.Addressable)
include fits

theorem isStandardOpReturn_eq : isStandardOpReturn script = .ok script.isStandardOpReturn := by
  rw [isStandardOpReturn,size_eq fits,Script.isStandardOpReturn]
  cases script.isOpReturn <;> rfl

private theorem isRelayedMultisig_eq : isRelayedMultisig script =
    .ok (script.isMultisig && script.multisigKeys.length ≤ Script.maxRelayedKeys) := by
  rw [isRelayedMultisig,isMultisig_eq fits,multisigKeys_eq fits]
  cases script.isMultisig <;> rfl

theorem isStandard_eq : isStandard script = .ok script.isStandard := by
  rw [isStandard,isRelayedMultisig_eq fits,isStandardOpReturn_eq fits,isColoredP2PKH_eq,isColoredP2SH_eq,
    Script.isStandard]
  cases script.isP2PKH || script.isP2SH with
  | true => rfl
  | false =>
    cases (script.isMultisig && script.multisigKeys.length ≤ Script.maxRelayedKeys : Bool) <;>
      cases script.isStandardOpReturn <;> cases script.isColoredP2PKH <;> rfl

theorem isUnspendable_eq : isUnspendable script = .ok script.isUnspendable := by
  rw [isUnspendable,size_eq fits,Script.isUnspendable]
  split
  next unspendable => simp [unspendable]
  next other => simp [other]

end Relay

private theorem filterM_eq {α : Type} (test : α → Bool) (items : List α) :
    items.filterM (fun item => (.ok (test item) : Checked Bool)) = .ok (items.filter test) := by
  have gathered (found : List α) : items.filterAuxM (fun item => (.ok (test item) : Checked Bool)) found =
      .ok ((items.filter test).reverse ++ found) := by
    induction items generalizing found with
    | nil => rfl
    | cons item rest ih =>
      rw [List.filterAuxM,ok_bind,ih]
      cases passed : test item <;> simp [passed]
  rw [List.filterM,gathered,ok_bind,List.append_nil,List.reverse_reverse]
  rfl

theorem keys_eq (script : Script) : keys script = .ok script.keys := by
  have looks (bytes : Bytes) : isKey [0x04,0x06,0x07] bytes = .ok (Script.looksLikeKey bytes) := by
    rw [isKey_eq]
    cases bytes with
    | nil => rfl
    | cons first rest => simp [Script.looksLikeKey,Script.compressedKeySize,Script.uncompressedKeySize,Bool.or_assoc]
  rw [keys,funext looks,filterM_eq]
  rfl

end Checked

end ColorScript
