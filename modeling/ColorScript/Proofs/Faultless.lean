import ColorScript.Proofs.Faultless.Demands

/-! Nothing faults over machine words, but for one assertion: whatever reads bytes, looks at encodings and
templates, runs a script or serves a session does there what it does without them. -/
namespace ColorScript

/-- The encodings of a signature and a key are checked without a fault. -/
structure Signature.Faultless (flags : Flags) (sig key : Bytes) : Prop where
  isStrictDER : Checked.isStrictDER sig = .ok (Signature.isStrictDER sig)
  checkTransaction : Checked.checkTransaction flags sig = .ok (Signature.checkTransaction flags sig)
  checkData : Checked.checkData flags sig = .ok (Signature.checkData flags sig)
  checkKey : Checked.checkKey flags key = .ok (Signature.checkKey flags key)

/-- A script is held against the templates without a fault. -/
structure Script.Faultless (script : Script) : Prop where
  isMultisig : Checked.isMultisig script = .ok script.isMultisig
  multisigKeys : Checked.multisigKeys script = .ok script.multisigKeys
  isColoredP2PKH : Checked.isColoredP2PKH script = .ok script.isColoredP2PKH
  isColoredP2SH : Checked.isColoredP2SH script = .ok script.isColoredP2SH
  color? : Checked.color? script = .ok script.color?
  removeColor : Checked.removeColor script = .ok script.removeColor
  isStandardOpReturn : Checked.isStandardOpReturn script = .ok script.isStandardOpReturn
  isStandard : Checked.isStandard script = .ok script.isStandard
  isUnspendable : Checked.isUnspendable script = .ok script.isUnspendable
  keys : Checked.keys script = .ok script.keys

theorem Signature.faultless (flags : Flags) (sig key : Bytes) : Faultless flags sig key where
  isStrictDER := Checked.isStrictDER_eq sig
  checkTransaction := Checked.checkTransaction_eq flags sig
  checkData := Checked.checkData_eq flags sig
  checkKey := Checked.checkKey_eq flags key

theorem Script.faultless {script : Script} (fits : script.Addressable) : script.Faultless where
  isMultisig := Checked.isMultisig_eq fits
  multisigKeys := Checked.multisigKeys_eq fits
  isColoredP2PKH := Checked.isColoredP2PKH_eq script
  isColoredP2SH := Checked.isColoredP2SH_eq script
  color? := Checked.color?_eq script
  removeColor := Checked.removeColor_eq script
  isStandardOpReturn := Checked.isStandardOpReturn_eq fits
  isStandard := Checked.isStandard_eq fits
  isUnspendable := Checked.isUnspendable_eq fits
  keys := Checked.keys_eq script

/-- What a computation comes to if it faults on one condition alone, which an assertion is about. -/
structure Checked.FaultsIff {α : Type} (condition : Prop) (value : α) (computed : Checked α) : Prop where
  faults : (∃ fault, computed = .error fault) ↔ condition
  asserts : condition → computed = .error .assertion
  passes : ¬ condition → computed = .ok value

theorem Checked.faultsIff {α : Type} {condition : Prop} {value : α} {computed : Checked α}
    (asserts : condition → computed = .error .assertion) (passes : ¬ condition → computed = .ok value) :
    FaultsIff condition value computed where
  faults := by
    refine ⟨fun faulted => ?_,fun holds => ⟨_,asserts holds⟩⟩
    by_contra fails
    obtain ⟨fault,faulted⟩ := faulted
    cases faulted.symm.trans (passes fails)
  asserts := asserts
  passes := passes

namespace Session

/-- What fits in memory is read, checked, run and served without a fault, but for the one assertion of a
verification. A session that serves demands fits in memory as long as its stack does. -/
theorem faults_iff_asserts :
    (∀ bytes : Bytes, bytes.Addressable → Checked.parse bytes = .ok (Script.parse bytes)) ∧
    (∀ script needle : Script, script.Addressable → needle.Addressable →
      Checked.delete script needle = .ok (script.delete needle)) ∧
    (∀ flags sig key, Signature.Faultless flags sig key) ∧
    (∀ script : Script, script.Addressable → script.Faultless) ∧
    (∀ (rules : Rules) (script : Script) (redeem : Bool) (session : Session), script.Addressable →
      session.Addressable → GuardedSession.evaluate rules script redeem session =
        .ok (evaluate rules script redeem session)) ∧
    (∀ (rules : Rules) (unlocking locking : Script) (session : Session), unlocking.Addressable →
      locking.Addressable → Checked.FaultsIff (Asserts rules unlocking locking)
        (verify rules unlocking locking session) (GuardedSession.verify rules unlocking locking session)) ∧
    ∀ (session : Session) (demands : List Demand), (∀ item ∈ session.stack, item.Addressable) →
      (∀ demand ∈ demands, demand.Addressable) → session.Fits demands →
      Checked.FaultsIff (∃ demand ∈ demands, demand.Asserts) (session.serve demands)
        (GuardedSession.serve session demands) := by
  refine ⟨fun bytes fits => Checked.parse_eq fits,fun script needle => Checked.delete_eq,
    Signature.faultless,fun script => Script.faultless,fun rules script redeem session fits memory =>
      GuardedSession.evaluate_agrees fits memory redeem,?_,?_⟩
  · intro rules unlocking locking session fits fits'
    have settles : GuardedSession.Settles (GuardedSession.verify rules unlocking locking)
        (verify rules unlocking locking) session := GuardedSession.verify_settles fits fits'
    refine Checked.faultsIff (fun asserts => ?_) fun passes => ?_
    · exact settles.trans (settle_eq_error (verify_refused_iff.mpr asserts))
    · exact settles.trans (settle_eq_ok (mt verify_refused_iff.mp passes))
  · intro session demands items fits memory
    have room : Room session demands := ⟨items,fits,memory⟩
    refine Checked.faultsIff (GuardedSession.serve_asserts room) fun passes => ?_
    exact GuardedSession.serve_eq room fun demand member asserts => passes ⟨demand,member,asserts⟩

/-- A script is read, cut, looked at and run, and a verification comes to its assertion, alone and after
other demands. -/
theorem faults_iff_asserts_cleanStack :
    Checked.parse [0x51,0x51] = .ok (Script.parse [0x51,0x51]) ∧
    Checked.delete [.op 0x51,.op 0x51] [.op 0x51] = .ok (Script.delete [.op 0x51,.op 0x51] [.op 0x51]) ∧
    Signature.Faultless Flags.standard [0x30] [0x02] ∧ Script.Faultless [.op 0x51] ∧
    GuardedSession.evaluate ⟨Flags.single .cleanStack,Oracle.never⟩ [.op 0x51] false {} =
      .ok (evaluate ⟨Flags.single .cleanStack,Oracle.never⟩ [.op 0x51] false {}) ∧
    GuardedSession.verify ⟨Flags.single .cleanStack,Oracle.never⟩ [] [.op 0x51] {} = .error .assertion ∧
    GuardedSession.serve {} [.request (.setStack [[0x01]]),
      .request (.evaluate ⟨Flags.single .cleanStack,Oracle.never⟩ [.op 0x51] false),
      .verify ⟨Flags.single .cleanStack,Oracle.never⟩ [] [.op 0x51]] = .error .assertion := by
  have empty : Script.Addressable [] := ⟨Nat.two_pow_pos 63,Nat.two_pow_pos 63⟩
  have single : Script.Addressable [.op 0x51] := .single (by decide : 1 < 2 ^ 63)
  have double : Script.Addressable [.op 0x51,.op 0x51] :=
    ⟨(by decide : 2 < 2 ^ 63),(by decide : 2 < 2 ^ 63)⟩
  have asserts : Asserts ⟨Flags.single .cleanStack,Oracle.never⟩ [] [.op 0x51] :=
    ⟨by decide,by decide,by decide,_,_,rfl,rfl,by decide +kernel⟩
  have none : ∀ item ∈ ({} : Session).stack, item.Addressable := fun _ member => nomatch member
  obtain ⟨demands,named⟩ : ∃ demands, demands = [Demand.request (.setStack [[0x01]]),
      .request (.evaluate ⟨Flags.single .cleanStack,Oracle.never⟩ [.op 0x51] false),
      .verify ⟨Flags.single .cleanStack,Oracle.never⟩ [] [.op 0x51]] := ⟨_,rfl⟩
  have fits : ∀ demand ∈ demands, demand.Addressable := by
    have item : Bytes.Addressable [0x01] := (by decide : 1 < 2 ^ 63)
    simpa [named,Demand.Addressable] using ⟨item,single,empty,single⟩
  have room : Session.Fits {} demands := by
    refine fits_of_few none fits (Nat.le_refl _) (Nat.zero_le _) (fun stack brings => ?_) (named ▸ by decide)
    simp [named] at brings
    exact brings ▸ (by decide : 1 ≤ 1000)
  have last : ∃ demand ∈ demands, demand.Asserts := ⟨.verify _ _ _,by simp [named],asserts⟩
  obtain ⟨parses,deletes,encodings,templates,evaluates,verifies,serves⟩ := faults_iff_asserts
  rw [← named]
  exact ⟨parses _ (by decide : 2 < 2 ^ 63),deletes _ _ double single,encodings _ _ _,templates _ single,
    evaluates _ _ _ _ single ⟨Nat.two_pow_pos 63,none⟩,(verifies _ _ _ _ empty single).asserts asserts,
    (serves _ _ none fits room).asserts last⟩

end Session

end ColorScript
