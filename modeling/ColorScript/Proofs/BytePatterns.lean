import ColorScript.Proofs.Codec
import ColorScript.Proofs.Template

/-! Templates as byte patterns. What the recognisers say of the chunks that bytes are split into is what
lengths and fixed bytes say of the bytes themselves, and no script has the form of two templates. -/
namespace ColorScript

open Opcode

namespace Bytes

/-- Bytes of some length that start and end with fixed ones. -/
structure Framed (size : Nat) (opens closes bytes : Bytes) : Prop where
  length : bytes.length = size
  opens : opens <+: bytes
  closes : closes <:+ bytes

/-- The bytes of an output that pays to a script digest. -/
def PaysScriptDigest : Bytes → Prop := Framed 23 [0xa9,0x14] [0x87]

/-- The bytes of an output that pays to a key digest. -/
def PaysKeyDigest : Bytes → Prop := Framed 25 [0x76,0xa9,0x14] [0x88,0xac]

/-- Bytes with a pattern behind the push of a colour and `OP_COLOR`. -/
def IsColored (pattern : Bytes → Prop) (bytes : Bytes) : Prop :=
  ∃ color target, bytes = 0x21 :: color ++ 0xbc :: target ∧ color.length = 33 ∧
    (color.head? = some 0xc1 ∨ color.head? = some 0xc2 ∨ color.head? = some 0xc3) ∧ pattern target

/-- The bytes of a data carrier: `OP_RETURN`, and chunks that start with a byte up to that of the
largest small integer. The last chunk may be cut short. -/
def CarriesData (bytes : Bytes) : Prop :=
  ∃ chunks, Script.Canonical chunks ∧ bytes = 0x6a :: Script.toBytes chunks ∧
    ∀ chunk ∈ chunks, chunk.opcode ≤ 0x60

private theorem framed_iff {size : Nat} {opens closes bytes : Bytes}
    (free : size = opens.length + 20 + closes.length) :
    Framed size opens closes bytes ↔ ∃ digest : Digest160, bytes = opens ++ (digest.val ++ closes) := by
  subst free
  constructor
  · intro framed
    obtain ⟨length,⟨rest,rfl⟩,closed⟩ := framed
    rw [List.length_append] at length
    have inside : closes <:+ rest :=
      List.suffix_of_suffix_length_le closed (List.suffix_append opens rest) (by omega)
    obtain ⟨digest,rfl⟩ := inside
    rw [List.length_append] at length
    exact ⟨⟨digest,by omega⟩,rfl⟩
  · intro holds
    obtain ⟨digest,rfl⟩ := holds
    refine ⟨?_,List.prefix_append _ _,List.suffix_append_of_suffix (List.suffix_append _ _)⟩
    rw [List.length_append,List.length_append,digest.2,Nat.add_assoc]

private theorem paysScriptDigest_iff {bytes : Bytes} :
    bytes.PaysScriptDigest ↔ ∃ digest, bytes = Script.toBytes (Script.p2sh digest) :=
  framed_iff rfl

private theorem paysKeyDigest_iff {bytes : Bytes} :
    bytes.PaysKeyDigest ↔ ∃ digest, bytes = Script.toBytes (Script.p2pkh digest) :=
  framed_iff rfl

end Bytes

private theorem ColorId.exists_toBytes_iff {bytes : Bytes} :
    (∃ color : ColorId, color.toBytes = bytes) ↔ bytes.length = 33 ∧
      (bytes.head? = some 0xc1 ∨ bytes.head? = some 0xc2 ∨ bytes.head? = some 0xc3) := by
  constructor
  · intro holds
    obtain ⟨color,rfl⟩ := holds
    refine ⟨color.length_toBytes,?_⟩
    rw [toBytes,List.head?_cons]
    cases color.type with
    | reissuable => exact .inl rfl
    | nonReissuable => exact .inr (.inl rfl)
    | nft => exact .inr (.inr rfl)
  · intro holds
    obtain ⟨length,known⟩ := holds
    cases bytes with
    | nil => cases length
    | cons code payload =>
      have payloadLength : payload.length = 32 := Nat.succ.inj length
      simp only [List.head?_cons,Option.some.injEq] at known
      rcases known with rfl | rfl | rfl
      · exact ⟨⟨.reissuable,payload,payloadLength⟩,rfl⟩
      · exact ⟨⟨.nonReissuable,payload,payloadLength⟩,rfl⟩
      · exact ⟨⟨.nft,payload,payloadLength⟩,rfl⟩

namespace Script

variable {bytes : Bytes}

private theorem Canonical.parse_eq_iff {script : Script} (canonical : Canonical script) :
    parse bytes = script ↔ bytes = script.toBytes := by
  constructor
  · intro same
    rw [← same,toBytes_parse]
  · intro same
    rw [same,canonical.parse_toBytes]

private theorem complete_pushDigest (digest : Digest160) : (pushDigest digest).Complete := by
  refine .push [20] digest.val ?_
  rw [digest.2]
  exact .direct 20 (by decide)

theorem canonical_p2sh (digest : Digest160) : Canonical (p2sh digest) :=
  .cons _ _ (.op _ rfl (by decide)) <| .cons _ _ (complete_pushDigest digest) <|
    .cons _ _ (.op _ rfl (by decide)) .nil

theorem canonical_p2pkh (digest : Digest160) : Canonical (p2pkh digest) :=
  .cons _ _ (.op _ rfl (by decide)) <| .cons _ _ (.op _ rfl (by decide)) <|
    .cons _ _ (complete_pushDigest digest) <| .cons _ _ (.op _ rfl (by decide)) <|
      .cons _ _ (.op _ rfl (by decide)) .nil

theorem Canonical.withColor {script : Script} (canonical : Canonical script) (color : ColorId) :
    Canonical (withColor color script) := by
  rw [withColor_eq]
  refine .cons _ _ (.push [33] color.toBytes ?_) (.cons _ _ (.op _ rfl (by decide)) canonical)
  rw [color.length_toBytes]
  exact .direct 33 (by decide)

private theorem toBytes_withColor (color : ColorId) (script : Script) :
    (withColor color script).toBytes = 0x21 :: color.toBytes ++ 0xbc :: script.toBytes := by
  rw [withColor_eq]
  rfl

private theorem isP2SH_parse : (parse bytes).isP2SH = true ↔ bytes.PaysScriptDigest := by
  rw [isP2SH_iff,Bytes.paysScriptDigest_iff]
  exact exists_congr fun digest => (canonical_p2sh digest).parse_eq_iff

private theorem isP2PKH_parse : (parse bytes).isP2PKH = true ↔ bytes.PaysKeyDigest := by
  rw [isP2PKH_iff,Bytes.paysKeyDigest_iff]
  exact exists_congr fun digest => (canonical_p2pkh digest).parse_eq_iff

private theorem parse_withColor_iff {form : Digest160 → Script} {pattern : Bytes → Prop}
    (canonical : ∀ digest, Canonical (form digest))
    (written : ∀ target, pattern target ↔ ∃ digest, target = (form digest).toBytes) :
    (∃ color digest, parse bytes = withColor color (form digest)) ↔ bytes.IsColored pattern := by
  constructor
  · intro holds
    obtain ⟨color,digest,same⟩ := holds
    rw [((canonical digest).withColor color).parse_eq_iff,toBytes_withColor] at same
    obtain ⟨length,known⟩ := ColorId.exists_toBytes_iff.mp ⟨color,rfl⟩
    exact ⟨color.toBytes,_,same,length,known,(written _).mpr ⟨digest,rfl⟩⟩
  · intro holds
    obtain ⟨bytes',target,rfl,length,known,fits⟩ := holds
    obtain ⟨color,rfl⟩ := ColorId.exists_toBytes_iff.mpr ⟨length,known⟩
    obtain ⟨digest,rfl⟩ := (written target).mp fits
    refine ⟨color,digest,?_⟩
    rw [((canonical digest).withColor color).parse_eq_iff,toBytes_withColor]

private theorem isColoredP2SH_parse :
    (parse bytes).isColoredP2SH = true ↔ bytes.IsColored Bytes.PaysScriptDigest :=
  isColoredP2SH_iff.trans (parse_withColor_iff canonical_p2sh fun _ => Bytes.paysScriptDigest_iff)

private theorem isColoredP2PKH_parse :
    (parse bytes).isColoredP2PKH = true ↔ bytes.IsColored Bytes.PaysKeyDigest :=
  isColoredP2PKH_iff.trans (parse_withColor_iff canonical_p2pkh fun _ => Bytes.paysKeyDigest_iff)

private theorem isOpReturn_parse : (parse bytes).isOpReturn = true ↔ bytes.CarriesData := by
  rw [isOpReturn_iff]
  have written {chunks : Script} (canonical : Canonical chunks) :
      parse bytes = .op returnData :: chunks ↔ bytes = 0x6a :: chunks.toBytes :=
    (Canonical.cons _ _ (.op returnData rfl (by decide)) canonical).parse_eq_iff
  constructor
  · intro holds
    obtain ⟨rest,same,pushes⟩ := holds
    have canonical : Canonical rest := by
      have whole := canonical_parse bytes
      rw [same] at whole
      cases whole with
      | last _ unfinished => cases unfinished
      | cons _ _ _ canonical => exact canonical
    exact ⟨rest,canonical,(written canonical).mp same,isPushOnly_iff.mp pushes⟩
  · intro holds
    obtain ⟨chunks,canonical,same,pushes⟩ := holds
    exact ⟨chunks,(written canonical).mpr same,isPushOnly_iff.mpr pushes⟩

end Script

inductive Template where
  | keyDigest
  | scriptDigest
  | multisig
  | dataCarrier
  | coloredKeyDigest
  | coloredScriptDigest
deriving DecidableEq

namespace Template

def all : List Template :=
  [.keyDigest,.scriptDigest,.multisig,.dataCarrier,.coloredKeyDigest,.coloredScriptDigest]

def recognises : Template → Script → Bool
  | .keyDigest => Script.isP2PKH
  | .scriptDigest => Script.isP2SH
  | .multisig => Script.isMultisig
  | .dataCarrier => Script.isOpReturn
  | .coloredKeyDigest => Script.isColoredP2PKH
  | .coloredScriptDigest => Script.isColoredP2SH

/-- The one template that the start of a script leaves possible. -/
def ofStart? : Script → Option Template
  | .op code :: _ =>
    if code = dup then some .keyDigest
    else if code = hash160 then some .scriptDigest
    else if code = returnData then some .dataCarrier
    else some .multisig
  | .push _ _ :: _ :: .op dup :: _ => some .coloredKeyDigest
  | .push _ _ :: _ :: .op hash160 :: _ => some .coloredScriptDigest
  | _ => none

private theorem ofStart?_of_isMultisig {script : Script} (recognised : script.isMultisig = true) :
    ofStart? script = some .multisig := by
  obtain ⟨parts,found⟩ := Option.isSome_iff_exists.mp recognised
  obtain ⟨code,rest,rfl,least,most⟩ := Script.multisigParts?_start found
  have apart : ∀ code : Opcode, one ≤ code ∧ code ≤ sixteen →
      code ≠ dup ∧ code ≠ hash160 ∧ code ≠ returnData := forall_byte (by decide +kernel)
  obtain ⟨noDup,noHash,noReturn⟩ := apart code ⟨least,most⟩
  rw [ofStart?,if_neg noDup,if_neg noHash,if_neg noReturn]

theorem ofStart?_of_recognises {template : Template} {script : Script}
    (recognised : template.recognises script = true) : ofStart? script = some template := by
  cases template with
  | keyDigest =>
    obtain ⟨digest,rfl⟩ := Script.isP2PKH_iff.mp recognised
    rfl
  | scriptDigest =>
    obtain ⟨digest,rfl⟩ := Script.isP2SH_iff.mp recognised
    rfl
  | multisig => exact ofStart?_of_isMultisig recognised
  | dataCarrier =>
    obtain ⟨rest,rfl,_⟩ := Script.isOpReturn_iff.mp recognised
    rfl
  | coloredKeyDigest =>
    obtain ⟨color,digest,rfl⟩ := Script.isColoredP2PKH_iff.mp recognised
    rfl
  | coloredScriptDigest =>
    obtain ⟨color,digest,rfl⟩ := Script.isColoredP2SH_iff.mp recognised
    rfl

private theorem countP_recognises_le_one (script : Script) : all.countP (·.recognises script) ≤ 1 := by
  have fits : all.countP (·.recognises script) ≤ all.countP (some · = ofStart? script) :=
    List.countP_mono_left fun _ _ recognised =>
      decide_eq_true (ofStart?_of_recognises recognised).symm
  refine Nat.le_trans fits ?_
  cases ofStart? script with
  | none => decide
  | some template => cases template <;> decide

end Template

/-- The recognisers of templates, applied to the chunks of bytes, decide patterns of the bytes, and at
most one of them accepts a script. -/
theorem Script.recognisers_decide_patterns :
    (∀ bytes : Bytes,
      ((parse bytes).isP2SH = true ↔ bytes.PaysScriptDigest) ∧
      ((parse bytes).isP2PKH = true ↔ bytes.PaysKeyDigest) ∧
      ((parse bytes).isColoredP2SH = true ↔ bytes.IsColored Bytes.PaysScriptDigest) ∧
      ((parse bytes).isColoredP2PKH = true ↔ bytes.IsColored Bytes.PaysKeyDigest) ∧
      ((parse bytes).isOpReturn = true ↔ bytes.CarriesData)) ∧
    ∀ script : Script, [script.isP2PKH,script.isP2SH,script.isMultisig,script.isOpReturn,
      script.isColoredP2PKH,script.isColoredP2SH].count true ≤ 1 := by
  refine ⟨fun bytes => ⟨isP2SH_parse,isP2PKH_parse,isColoredP2SH_parse,isColoredP2PKH_parse,
    isOpReturn_parse⟩,fun script => ?_⟩
  have counted : (Template.all.map (·.recognises script)).count true ≤ 1 := by
    simpa [List.count,List.countP_map,Function.comp_def] using Template.countP_recognises_le_one script
  exact counted

end ColorScript
