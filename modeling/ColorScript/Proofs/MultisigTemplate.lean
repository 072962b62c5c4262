import ColorScript.Proofs.BytePatterns
import ColorScript.Proofs.Faultless.Template
import ColorScript.Proofs.ShortestPush

/-! Scripts of several keys, built and taken apart. What is built is recognised exactly if all keys have the
length of a public key, and the keys are read back from it. A recognised script with the shortest pushes is
the one that is built of its parts. -/
namespace ColorScript
open Opcode

private theorem Template.eq_of_recognises {first second : Template} {script : Script}
    (recognised : first.recognises script = true) (recognised' : second.recognises script = true) :
    first = second :=
  Option.some.inj ((ofStart?_of_recognises recognised).symm.trans (ofStart?_of_recognises recognised'))

namespace Script

variable {required : Nat} {keys : List Bytes} {pushes : List Chunk} {script : Script}

private theorem mapM_ofData? (short : ∀ key ∈ keys, key.length ≤ Chunk.maxPayload) :
    keys.mapM Chunk.ofData? = .ok (keys.map Chunk.ofData) := by
  induction keys with
  | nil => rfl
  | cons key rest ih =>
    obtain ⟨first,others⟩ := List.forall_mem_cons.mp short
    rw [List.mapM_cons,Chunk.ofData?_eq_ok_iff.mpr ⟨first,rfl⟩,ih others]
    rfl

private theorem multisig_eq_ok_iff (short : ∀ key ∈ keys, key.length ≤ Chunk.maxPayload) :
    multisig required keys = .ok script ↔ (1 ≤ required ∧ required ≤ keys.length ∧ keys.length ≤ 16) ∧
      script = severalKeys required (keys.map Chunk.ofData) := by
  by_cases refused : required = 0 ∨ keys.length < required ∨ 16 < keys.length
  · rw [multisig,if_pos refused]
    exact iff_of_false nofun fun held => by omega
  · have range : 1 ≤ required ∧ required ≤ keys.length ∧ keys.length ≤ 16 := by omega
    have built : multisig required keys = .ok (severalKeys required (keys.map Chunk.ofData)) := by
      rw [multisig,if_neg refused,mapM_ofData? short,severalKeys,List.length_map]
      rfl
    rw [built,Except.ok.injEq,and_iff_right range,eq_comm]

private theorem keyPush?_ofData_eq_some_iff {key key' : Bytes} (short : key.length ≤ Chunk.maxPayload) :
    keyPush? (Chunk.ofData key) = some key' ↔ (key.length = 33 ∨ key.length = 65) ∧ key' = key := by
  have whole := (Chunk.complete_ofData short).isWellFormed
  have read : keyPush? (Chunk.ofData key) = if key.length = 33 ∨ key.length = 65 then some key else none :=
    if_congr (and_iff_right whole) rfl rfl
  rw [read]
  split
  next sized => rw [Option.some.injEq,and_iff_right sized,eq_comm]
  next other => exact iff_of_false nofun fun held => other held.1

private theorem mapM_keyPush?_ofData {keys' : List Bytes} (short : ∀ key ∈ keys, key.length ≤ Chunk.maxPayload) :
    (keys.map Chunk.ofData).mapM keyPush? = some keys' ↔
      (∀ key ∈ keys, key.length = 33 ∨ key.length = 65) ∧ keys' = keys := by
  rw [mapM_keyPush?_eq_some_iff,List.forall₂_map_left_iff]
  constructor
  · intro pushed
    induction pushed with
    | nil => exact ⟨nofun,rfl⟩
    | cons push pushes ih =>
      obtain ⟨first,others⟩ := List.forall_mem_cons.mp short
      obtain ⟨sized,rfl⟩ := (keyPush?_ofData_eq_some_iff first).mp push
      obtain ⟨sizes,rfl⟩ := ih others
      exact ⟨List.forall_mem_cons.mpr ⟨sized,sizes⟩,rfl⟩
  · rintro ⟨sizes,rfl⟩
    exact List.forall₂_same.mpr fun key member =>
      (keyPush?_ofData_eq_some_iff (short key member)).mpr ⟨sizes key member,rfl⟩

private theorem canonical_severalKeys (enough : required ≤ pushes.length) (most : pushes.length ≤ 16)
    (complete : ∀ push ∈ pushes, push.Complete) : Canonical (severalKeys required pushes) := by
  have count {n : Nat} (small : n ≤ 16) : (Chunk.ofInt n).Complete :=
    Chunk.complete_ofInt (by simpa using Nat.lt_of_le_of_lt small (by decide))
  have closing : (Chunk.op checkMultiSig).Complete := .op _ rfl (by decide)
  refine .of_complete ?_
  simp only [severalKeys,List.forall_mem_cons,List.forall_mem_append]
  exact ⟨count (Nat.le_trans enough most),complete,count most,closing,List.forall_mem_nil _⟩

private theorem severalKeys_inj {required' : Nat} {pushes' : List Chunk}
    (same : severalKeys required pushes = severalKeys required' pushes') : pushes = pushes' :=
  (List.append_inj' (List.cons.inj same).2 rfl).1

section Built

variable (least : 1 ≤ required) (enough : required ≤ keys.length) (most : keys.length ≤ 16)
  (short : ∀ key ∈ keys, key.length ≤ Chunk.maxPayload)

include least enough most short

private theorem multisigParts?_built (sizes : ∀ key ∈ keys, key.length = 33 ∨ key.length = 65) :
    multisigParts? (severalKeys required (keys.map Chunk.ofData)) = some (required,keys) :=
  multisigParts?_eq_some_iff.mpr
    ⟨least,enough,most,_,rfl,(mapM_keyPush?_ofData short).mpr ⟨sizes,rfl⟩⟩

private theorem isMultisig_built : isMultisig (severalKeys required (keys.map Chunk.ofData)) = true ↔
    ∀ key ∈ keys, key.length = 33 ∨ key.length = 65 := by
  rw [isMultisig,Option.isSome_iff_exists]
  constructor
  · rintro ⟨parts,found⟩
    obtain ⟨_,_,_,pushes,same,pushed⟩ := multisigParts?_eq_some_iff.mp found
    rw [← severalKeys_inj same] at pushed
    exact ((mapM_keyPush?_ofData short).mp pushed).1
  · intro sizes
    exact ⟨_,multisigParts?_built least enough most short sizes⟩

end Built

private theorem isStandard_of_isMultisig (recognised : script.isMultisig = true) :
    script.isStandard = true ↔ script.multisigKeys.length ≤ 3 := by
  have other (template : Template) (apart : template ≠ .multisig) : template.recognises script = false :=
    Bool.eq_false_iff.mpr fun fits => apart (Template.eq_of_recognises fits recognised)
  have toKey : script.isP2PKH = false := other .keyDigest (by decide)
  have toScript : script.isP2SH = false := other .scriptDigest (by decide)
  have carrier : script.isOpReturn = false := other .dataCarrier (by decide)
  have coloredKey : script.isColoredP2PKH = false := other .coloredKeyDigest (by decide)
  have coloredScript : script.isColoredP2SH = false := other .coloredScriptDigest (by decide)
  rw [isStandard,isStandardOpReturn,toKey,toScript,carrier,coloredKey,coloredScript,recognised]
  simp only [Bool.false_or,Bool.true_and,Bool.false_and,Bool.or_false]
  exact decide_eq_true_iff

private theorem multisigKeys_of_parts (found : script.multisigParts? = some (required,keys)) :
    script.multisigKeys = keys := by
  rw [multisigKeys,found]
  rfl

private theorem eq_map_ofData (pushed : List.Forall₂ (fun push key => keyPush? push = some key) pushes keys)
    (shortest : ∀ push ∈ pushes, ∀ key, push.payload? = some key → Chunk.ofData? key = .ok push) :
    (∀ key ∈ keys, key.length ≤ Chunk.maxPayload) ∧ pushes = keys.map Chunk.ofData := by
  induction pushed with
  | nil => exact ⟨nofun,rfl⟩
  | cons push pushes ih =>
    obtain ⟨first,others⟩ := List.forall_mem_cons.mp shortest
    obtain ⟨fits,rfl⟩ := Chunk.ofData?_eq_ok_iff.mp (first _ (keyPush?_eq_some push))
    obtain ⟨short,rfl⟩ := ih others
    exact ⟨List.forall_mem_cons.mpr ⟨fits,short⟩,rfl⟩

/-- A script is built of 1 to 16 keys and of at least one signature and at most as many as there are keys. It
is read back from its bytes. It is recognised exactly if every key has the length of a public key, and then
its keys are read back and it is passed on if there are at most three. A script that is recognised and pushes
its keys with the shortest headers is the one that is built of its first number and its keys. The chunks of a
script taken by their places give the same. -/
theorem multisig_roundTrip :
    (∀ (required : Nat) (keys : List Bytes), (∀ key ∈ keys, key.length < 2 ^ 32) →
      ((∃ script, multisig required keys = .ok script) ↔
        1 ≤ required ∧ required ≤ keys.length ∧ keys.length ≤ 16) ∧
      ∀ script, multisig required keys = .ok script →
        parse script.toBytes = script ∧
        (script.isMultisig = true ↔ ∀ key ∈ keys, key.length = 33 ∨ key.length = 65) ∧
        (script.isMultisig = true →
          script.multisigKeys = keys ∧ (script.isStandard = true ↔ keys.length ≤ 3))) ∧
    (∀ script : Script, script.isMultisig = true →
      (∀ chunk ∈ script, ∀ key, chunk.payload? = some key → Chunk.ofData? key = .ok chunk) →
      ∃ (code : Opcode) (required : Nat), script.head? = some (.op code) ∧
        smallInt? code = some (required : Int) ∧ multisig required script.multisigKeys = .ok script) ∧
    ∀ script : Script, script.Addressable → Checked.isMultisig script = .ok script.isMultisig ∧
      Checked.multisigKeys script = .ok script.multisigKeys ∧ Checked.isStandard script = .ok script.isStandard := by
  refine ⟨?_,?_,fun script fits =>
    ⟨Checked.isMultisig_eq fits,Checked.multisigKeys_eq fits,Checked.isStandard_eq fits⟩⟩
  · intro required keys bound
    have short : ∀ key ∈ keys, key.length ≤ Chunk.maxPayload :=
      fun key member => Nat.le_of_lt_succ (bound key member)
    refine ⟨?_,fun script built => ?_⟩
    · simp only [multisig_eq_ok_iff short,exists_and_left,exists_eq,and_true]
    · obtain ⟨⟨least,enough,most⟩,rfl⟩ := (multisig_eq_ok_iff short).mp built
      have recognised := isMultisig_built least enough most short
      refine ⟨?_,recognised,fun fits => ?_⟩
      · rw [← List.length_map Chunk.ofData] at enough most
        have complete := fun key member => Chunk.complete_ofData (short key member)
        exact (canonical_severalKeys enough most (List.forall_mem_map.mpr complete)).parse_toBytes
      · have found := multisigParts?_built least enough most short (recognised.mp fits)
        rw [isStandard_of_isMultisig fits,multisigKeys_of_parts found]
        exact ⟨rfl,Iff.rfl⟩
  · intro script recognised shortest
    obtain ⟨⟨required,keys⟩,found⟩ := Option.isSome_iff_exists.mp recognised
    have readBack := multisigKeys_of_parts found
    obtain ⟨least,enough,most,pushes,rfl,pushed⟩ := multisigParts?_eq_some_iff.mp found
    obtain ⟨code,same,_,count⟩ := ofInt_count least (Nat.le_trans enough most)
    obtain ⟨short,rfl⟩ := eq_map_ofData (mapM_keyPush?_eq_some_iff.mp pushed)
      fun push member => shortest push (List.mem_cons_of_mem _ (List.mem_append_left _ member))
    refine ⟨code,required,congrArg some same,count,?_⟩
    rw [readBack]
    exact (multisig_eq_ok_iff short).mpr ⟨⟨least,enough,most⟩,rfl⟩

/-- Two of three keys, one of them not compressed, and keys that are a byte too short for keys. -/
theorem multisig_roundTrip_twoOfThree :
    let keys : List Bytes := [List.replicate 33 2,List.replicate 65 4,List.replicate 33 3]
    let others : List Bytes := [List.replicate 33 2,List.replicate 32 3]
    (∃ script, multisig 2 keys = .ok script ∧ script.isMultisig = true ∧ script.multisigKeys = keys ∧
      script.isStandard = true ∧ Checked.multisigKeys script = .ok keys ∧
      ∃ required, multisig required script.multisigKeys = .ok script) ∧
    ∃ script, multisig 1 others = .ok script ∧ script.isMultisig = false := by
  intro keys others
  obtain ⟨builds,gives⟩ := multisig_roundTrip.1 2 keys (by decide)
  obtain ⟨builds',gives'⟩ := multisig_roundTrip.1 1 others (by decide)
  obtain ⟨script,built⟩ := builds.mpr (by decide)
  obtain ⟨script',built'⟩ := builds'.mpr (by decide)
  obtain ⟨_,recognised,left⟩ := gives script built
  obtain ⟨_,recognised',_⟩ := gives' script' built'
  have fits := recognised.mpr (by decide)
  obtain ⟨readBack,passed⟩ := left fits
  have shortest : ∀ chunk ∈ script, ∀ key, chunk.payload? = some key → Chunk.ofData? key = .ok chunk := by
    obtain ⟨_,rfl⟩ := (multisig_eq_ok_iff (by decide)).mp built
    intro chunk member key pushed
    have listed : chunk ∈ [.op 0x52,.ofData (List.replicate 33 2),.ofData (List.replicate 65 4),
      .ofData (List.replicate 33 3),.op 0x53,.op checkMultiSig] := member
    simp only [List.mem_cons,List.not_mem_nil,or_false] at listed
    rcases listed with rfl | rfl | rfl | rfl | rfl | rfl
    all_goals cases pushed
    all_goals exact Chunk.ofData?_eq_ok_iff.mpr ⟨by decide,rfl⟩
  obtain ⟨_,required,_,_,rebuilt⟩ := multisig_roundTrip.2.1 script fits shortest
  have memory : script.Addressable := by
    obtain ⟨_,rfl⟩ := (multisig_eq_ok_iff (by decide)).mp built
    exact ⟨by decide,by decide⟩
  have places := (multisig_roundTrip.2.2 script memory).2.1.trans (congrArg Except.ok readBack)
  exact ⟨⟨script,built,fits,readBack,passed.mpr (by decide),places,required,rebuilt⟩,
    script',built',Bool.eq_false_iff.mpr (recognised'.not.mpr (by decide))⟩

end Script

end ColorScript
