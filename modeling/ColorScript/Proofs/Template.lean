import Mathlib.Data.List.Forall2
import ColorScript.Session

/-! The scripts that the recognisers of output templates accept. -/
namespace ColorScript

private theorem TokenType.toByte_of_ofByte? {code : UInt8} {type : TokenType}
    (found : ofByte? code = some type) : type.toByte = code := by
  unfold ofByte? at found
  split at found
  next same => cases found; exact same.symm
  next =>
    split at found
    next same => cases found; exact same.symm
    next =>
      split at found
      next same => cases found; exact same.symm
      next => cases found

theorem ColorId.toBytes_of_ofBytes {bytes : Bytes} {color : ColorId}
    (read : ofBytes bytes = .ok color) : color.toBytes = bytes := by
  cases bytes with
  | nil => cases read
  | cons code payload =>
    rw [ofBytes] at read
    split at read
    next whole =>
      split at read
      next type found =>
        cases read
        rw [toBytes,TokenType.toByte_of_ofByte? found]
      next => cases read
    next => cases read

namespace Script

theorem withColor_eq (color : ColorId) (script : Script) :
    withColor color script = .push [33] color.toBytes :: .op Opcode.setColor :: script := by
  rw [withColor,Chunk.ofData,ColorId.length_toBytes]
  rfl

theorem size_withColor (color : ColorId) (script : Script) :
    (withColor color script).size = 35 + script.size := by
  simp only [withColor_eq,size,List.foldr_cons,Chunk.size,color.length_toBytes,ColorId.size,
    List.length_singleton]
  omega

theorem splitColor?_eq_some_iff {script rest : Script} {color : ColorId} :
    script.splitColor? = some (color,rest) ↔ script = withColor color rest := by
  rw [withColor_eq]
  constructor
  · intro found
    unfold splitColor? at found
    split at found
    next header payload rest' =>
      split at found
      next shortest =>
        split at found
        next color' read =>
          cases found
          rw [ColorId.toBytes_of_ofBytes read,shortest]
          rfl
        next => cases found
      next => cases found
    next => cases found
  · rintro rfl
    unfold splitColor?
    split
    next header payload rest' same =>
      cases same
      rw [if_pos rfl,ColorId.ofBytes_toBytes]
    next other => exact absurd rfl (other _ _ _)

private theorem isDigestPush_iff {chunk : Chunk} :
    isDigestPush chunk = true ↔ ∃ digest, chunk = pushDigest digest := by
  constructor
  · intro shaped
    cases chunk with
    | push header payload =>
      simp only [isDigestPush,Bool.and_eq_true,decide_eq_true_eq] at shaped
      obtain ⟨rfl,length⟩ := shaped
      exact ⟨⟨payload,length⟩,rfl⟩
    | op code => cases shaped
    | raw bytes => cases shaped
  · intro holds
    obtain ⟨digest,rfl⟩ := holds
    simp [isDigestPush,pushDigest,digest.2]

theorem isP2PKH_iff {script : Script} :
    script.isP2PKH = true ↔ ∃ digest, script = p2pkh digest := by
  constructor
  · intro shaped
    unfold isP2PKH at shaped
    split at shaped
    next chunk =>
      obtain ⟨digest,rfl⟩ := isDigestPush_iff.mp shaped
      exact ⟨digest,rfl⟩
    next => cases shaped
  · intro holds
    obtain ⟨digest,rfl⟩ := holds
    exact isDigestPush_iff.mpr ⟨digest,rfl⟩

theorem isP2SH_iff {script : Script} : script.isP2SH = true ↔ ∃ digest, script = p2sh digest := by
  constructor
  · intro shaped
    unfold isP2SH at shaped
    split at shaped
    next chunk =>
      obtain ⟨digest,rfl⟩ := isDigestPush_iff.mp shaped
      exact ⟨digest,rfl⟩
    next => cases shaped
  · intro holds
    obtain ⟨digest,rfl⟩ := holds
    exact isDigestPush_iff.mpr ⟨digest,rfl⟩

theorem isColoredP2PKH_iff {script : Script} :
    script.isColoredP2PKH = true ↔ ∃ color digest, script = withColor color (p2pkh digest) := by
  rw [isColoredP2PKH,Option.any_eq_true]
  constructor
  · intro holds
    obtain ⟨⟨color,rest⟩,found,shaped⟩ := holds
    obtain ⟨digest,rfl⟩ := isP2PKH_iff.mp shaped
    exact ⟨color,digest,splitColor?_eq_some_iff.mp found⟩
  · intro holds
    obtain ⟨color,digest,rfl⟩ := holds
    exact ⟨_,splitColor?_eq_some_iff.mpr rfl,isP2PKH_iff.mpr ⟨digest,rfl⟩⟩

theorem isColoredP2SH_iff {script : Script} :
    script.isColoredP2SH = true ↔ ∃ color digest, script = withColor color (p2sh digest) := by
  rw [isColoredP2SH,Option.any_eq_true]
  constructor
  · intro holds
    obtain ⟨⟨color,rest⟩,found,shaped⟩ := holds
    obtain ⟨digest,rfl⟩ := isP2SH_iff.mp shaped
    exact ⟨color,digest,splitColor?_eq_some_iff.mp found⟩
  · intro holds
    obtain ⟨color,digest,rfl⟩ := holds
    exact ⟨_,splitColor?_eq_some_iff.mpr rfl,isP2SH_iff.mpr ⟨digest,rfl⟩⟩

section Multisig

open Opcode

variable {chunks : List Chunk} {keys : List Bytes}

/-- A script of several keys: how many signatures it takes, the pushes of the keys, their number, and the
operation. -/
def severalKeys (required : Nat) (pushes : List Chunk) : Script :=
  .ofInt required :: (pushes ++ [.ofInt pushes.length,.op checkMultiSig])

theorem ofInt_count {n : Nat} (least : 1 ≤ n) (most : n ≤ 16) :
    ∃ code, Chunk.ofInt n = .op code ∧ (one ≤ code ∧ code ≤ sixteen) ∧ smallInt? code = some (n : Int) := by
  have each : ∀ i : Fin 16, ∃ code, Chunk.ofInt (i.val + 1 : Nat) = .op code ∧
      (one ≤ code ∧ code ≤ sixteen) ∧ smallInt? code = some ((i.val + 1 : Nat) : Int) :=
    fun i => ⟨0x50 + UInt8.ofNat (i.val + 1),by revert i; decide +kernel⟩
  obtain ⟨k,rfl⟩ := Nat.exists_eq_add_of_le' least
  exact each ⟨k,by omega⟩

theorem count?_pos {chunk : Chunk} {n : Nat} (found : count? chunk = some n) : 1 ≤ n ∧ n ≤ 16 := by
  unfold count? at found
  split at found
  next code =>
    split at found
    next range =>
      have least := UInt8.le_iff_toNat_le.mp range.1
      have most := UInt8.le_iff_toNat_le.mp range.2
      simp only [UInt8.toNat_ofNat] at least most
      cases found
      omega
    next => cases found
  next => cases found

private theorem count?_eq_some_iff {chunk : Chunk} {n : Nat} :
    count? chunk = some n ↔ 1 ≤ n ∧ n ≤ 16 ∧ chunk = .ofInt n := by
  constructor
  · intro found
    have bounds := count?_pos found
    refine ⟨bounds.1,bounds.2,?_⟩
    have each : ∀ code : Opcode, one ≤ code ∧ code ≤ sixteen →
        Chunk.op code = .ofInt (code.toNat - 0x50 : Nat) := forall_byte (by decide +kernel)
    unfold count? at found
    split at found
    next code =>
      split at found
      next range =>
        cases found
        exact each code range
      next => cases found
    next => cases found
  · rintro ⟨least,most,rfl⟩
    have each : ∀ i : Fin 16, count? (.ofInt (i.val + 1 : Nat)) = some (i.val + 1) := by decide +kernel
    obtain ⟨k,rfl⟩ := Nat.exists_eq_add_of_le' least
    exact each ⟨k,by omega⟩

theorem keyPush?_eq_some {chunk : Chunk} {key : Bytes} (push : keyPush? chunk = some key) :
    chunk.payload? = some key := by
  unfold keyPush? at push
  split at push
  next key' found =>
    split at push
    · rwa [← push]
    · cases push
  next => cases push

theorem mapM_keyPush?_isSome (chunks : List Chunk) :
    (chunks.mapM keyPush?).isSome = chunks.all fun chunk => (keyPush? chunk).isSome := by
  induction chunks with
  | nil => rfl
  | cons chunk rest ih =>
    rw [List.mapM_cons,List.all_cons,← ih]
    cases keyPush? chunk with
    | none => rfl
    | some key => cases rest.mapM keyPush? <;> rfl

theorem mapM_keyPush?_eq_some_iff :
    chunks.mapM keyPush? = some keys ↔ List.Forall₂ (fun chunk key => keyPush? chunk = some key) chunks keys := by
  induction chunks generalizing keys with
  | nil => simp [eq_comm]
  | cons chunk rest ih =>
    rw [List.mapM_cons]
    constructor
    · intro found
      obtain ⟨key,push,found⟩ := Option.bind_eq_some_iff.mp found
      obtain ⟨others,pushes,found⟩ := Option.bind_eq_some_iff.mp found
      cases found
      exact .cons push (ih.mp pushes)
    · intro related
      cases related with
      | cons push pushes =>
        rw [push,ih.mpr pushes]
        rfl

theorem filterMap_of_mapM (found : chunks.mapM keyPush? = some keys) :
    chunks.filterMap Chunk.payload? = keys := by
  rw [mapM_keyPush?_eq_some_iff] at found
  induction found with
  | nil => rfl
  | cons push pushes ih => rw [List.filterMap_cons_some (keyPush?_eq_some push),ih]

theorem multisigParts?_append (first last closing : Chunk) (middle : List Chunk) :
    multisigParts? (first :: (middle ++ [last,closing])) =
      if closing = .op checkMultiSig then do
        let required ← count? first
        let total ← count? last
        if total < required ∨ middle.length ≠ total then none
        let keys ← middle.mapM keyPush?
        return (required,keys)
      else none := by
  have reversed : (middle ++ [last,closing]).reverse = closing :: last :: middle.reverse := by simp
  rw [multisigParts?,reversed]
  split
  next last' middle' same =>
    cases same
    simp
  next other =>
    have otherwise : closing ≠ .op checkMultiSig := by
      rintro rfl
      exact other last middle.reverse rfl
    rw [if_neg otherwise]

theorem multisigParts?_short (short : chunks.length < 4) : multisigParts? chunks = none := by
  match chunks,short with
  | [],_ | [_],_ => rfl
  | [first,last],_ => simp [multisigParts?]
  | [first,last,closing],_ =>
    rw [← List.nil_append [last,closing],multisigParts?_append]
    split
    next =>
      cases count? first with
      | none => rfl
      | some required =>
        cases found : count? last with
        | none => rfl
        | some total =>
          have positive : 0 ≠ total := Nat.ne_of_lt (count?_pos found).1
          simp [positive]
    next => rfl

theorem length_framed (first last closing : Chunk) (middle : List Chunk) :
    (first :: (middle ++ [last,closing])).length = middle.length + 3 := by
  rw [List.length_cons,List.length_append]
  rfl

theorem exists_of_length (long : 3 ≤ chunks.length) :
    ∃ first middle last closing, chunks = first :: (middle ++ [last,closing]) := by
  match chunks,long with
  | first :: second :: third :: rest,_ =>
    have ends : ((second :: third :: rest).drop rest.length).length = 2 := by
      rw [List.length_drop,List.length_cons,List.length_cons]
      omega
    obtain ⟨last,closing,behind⟩ := List.length_eq_two.mp ends
    exact ⟨first,(second :: third :: rest).take rest.length,last,closing,by
      rw [← behind,List.take_append_drop]⟩

/-- The scripts of several keys are those of 1 to 16 keys that take at least one signature and at most as many
as there are keys. -/
theorem multisigParts?_eq_some_iff {required : Nat} {script : Script} :
    script.multisigParts? = some (required,keys) ↔
      1 ≤ required ∧ required ≤ keys.length ∧ keys.length ≤ 16 ∧
        ∃ pushes, script = severalKeys required pushes ∧ pushes.mapM keyPush? = some keys := by
  constructor
  · intro found
    have long : ¬ script.length < 4 := fun short => nomatch (multisigParts?_short short).symm.trans found
    obtain ⟨first,middle,last,closing,rfl⟩ := exists_of_length (by omega : 3 ≤ script.length)
    rw [multisigParts?_append] at found
    split at found
    next closed =>
      obtain ⟨count,counted,found⟩ := Option.bind_eq_some_iff.mp found
      obtain ⟨total,counted',found⟩ := Option.bind_eq_some_iff.mp found
      split at found
      next => cases found
      next fits =>
        obtain ⟨found',pushed,found⟩ := Option.bind_eq_some_iff.mp found
        cases found
        have length := (mapM_keyPush?_eq_some_iff.mp pushed).length_eq
        obtain ⟨least,_,rfl⟩ := count?_eq_some_iff.mp counted
        obtain ⟨_,most,rfl⟩ := count?_eq_some_iff.mp counted'
        refine ⟨least,by omega,by omega,middle,?_,pushed⟩
        rw [severalKeys,closed,show middle.length = total by omega]
    next => cases found
  · rintro ⟨least,enough,most,pushes,rfl,pushed⟩
    have length := (mapM_keyPush?_eq_some_iff.mp pushed).length_eq
    have counted : count? (.ofInt required) = some required :=
      count?_eq_some_iff.mpr ⟨least,by omega,rfl⟩
    have counted' : count? (.ofInt pushes.length) = some pushes.length :=
      count?_eq_some_iff.mpr ⟨by omega,by omega,rfl⟩
    have fits : ¬ (pushes.length < required ∨ pushes.length ≠ pushes.length) := by omega
    rw [severalKeys,multisigParts?_append,if_pos rfl,counted,counted',pushed]
    exact if_neg fits

theorem multisigParts?_start {script : Script} {parts : Nat × List Bytes}
    (found : script.multisigParts? = some parts) :
    ∃ code rest, script = .op code :: rest ∧ one ≤ code ∧ code ≤ sixteen := by
  obtain ⟨least,enough,most,pushes,rfl,_⟩ := multisigParts?_eq_some_iff.mp found
  obtain ⟨code,same,range,_⟩ := ofInt_count least (by omega)
  exact ⟨code,_,congrArg (· :: _) same,range⟩

end Multisig

theorem isPushOnly_iff {script : Script} :
    script.isPushOnly = true ↔ ∀ chunk ∈ script, chunk.opcode ≤ Opcode.sixteen := by
  rw [isPushOnly,List.all_eq_true]
  exact forall₂_congr fun _ _ => decide_eq_true_iff

theorem isOpReturn_iff {script : Script} :
    script.isOpReturn = true ↔ ∃ rest, script = .op Opcode.returnData :: rest ∧ isPushOnly rest = true := by
  constructor
  · intro carries
    unfold isOpReturn at carries
    split at carries
    next rest => exact ⟨rest,rfl,carries⟩
    next => cases carries
  · intro holds
    obtain ⟨rest,rfl,pushes⟩ := holds
    exact pushes

theorem removeColor_withColor {script : Script} (color : ColorId)
    (shaped : (script.isP2PKH || script.isP2SH) = true) :
    (withColor color script).removeColor = script := by
  rw [removeColor,splitColor?_eq_some_iff.mpr rfl]
  exact if_pos shaped

theorem color?_withColor (color : ColorId) (script : Script) :
    (withColor color script).color? = some color := by
  rw [color?,splitColor?_eq_some_iff.mpr rfl]
  rfl

theorem isColoredP2PKH_withColor (color : ColorId) (script : Script) :
    (withColor color script).isColoredP2PKH = script.isP2PKH := by
  rw [isColoredP2PKH,splitColor?_eq_some_iff.mpr rfl,Option.any_some]

theorem isColoredP2SH_withColor (color : ColorId) (script : Script) :
    (withColor color script).isColoredP2SH = script.isP2SH := by
  rw [isColoredP2SH,splitColor?_eq_some_iff.mpr rfl,Option.any_some]

theorem isColored_iff {script : Script} : (script.isColoredP2PKH || script.isColoredP2SH) = true ↔
    ∃ color rest, (rest.isP2PKH || rest.isP2SH) = true ∧ script = withColor color rest := by
  constructor
  · intro colored
    cases found : script.splitColor? with
    | none =>
      rw [isColoredP2PKH,isColoredP2SH,found] at colored
      cases colored
    | some parts =>
      obtain ⟨color,rest⟩ := parts
      obtain rfl := splitColor?_eq_some_iff.mp found
      rw [isColoredP2PKH_withColor,isColoredP2SH_withColor] at colored
      exact ⟨color,rest,colored,rfl⟩
  · intro holds
    obtain ⟨color,rest,shaped,rfl⟩ := holds
    rwa [isColoredP2PKH_withColor,isColoredP2SH_withColor]

end Script

theorem Session.paysToScript_iff {script : Script} : paysToScript script = true ↔
    ∃ digest, script = Script.p2sh digest ∨ ∃ color, script = Script.withColor color (.p2sh digest) := by
  rw [paysToScript,Bool.or_eq_true,Script.isP2SH_iff,Script.isColoredP2SH_iff]
  constructor
  · rintro (⟨digest,plain⟩ | ⟨color,digest,colored⟩)
    · exact ⟨digest,.inl plain⟩
    · exact ⟨digest,.inr ⟨color,colored⟩⟩
  · rintro ⟨digest,plain | ⟨color,colored⟩⟩
    · exact .inl ⟨digest,plain⟩
    · exact .inr ⟨color,digest,colored⟩

end ColorScript
