import ColorScript.Proofs.PushOnly
import ColorScript.Proofs.TemplateRun
import ColorScript.Proofs.VerificationLockstep

/-! Outputs that pay to a script digest: they are spent by exactly the scripts with that digest
that accept what is pushed below them. -/
namespace ColorScript

namespace Script

/-- The digest that a script that pays to a script digest commits to. -/
def committed? (script : Script) : Option Bytes := script.removeColor[1]?.bind Chunk.payload?

private theorem committed?_p2sh (digest : Digest160) : (p2sh digest).committed? = some digest.val := rfl

private theorem committed?_withColor (color : ColorId) (digest : Digest160) :
    (withColor color (p2sh digest)).committed? = some digest.val := by
  have shaped : ((p2sh digest).isP2PKH || (p2sh digest).isP2SH) = true := by
    rw [isP2SH_iff.mpr ⟨digest,rfl⟩,Bool.or_true]
  rw [committed?,removeColor_withColor color shaped]
  rfl

private theorem size_p2sh (digest : Digest160) : (p2sh digest).size = 23 := by
  simp [size,p2sh,pushDigest,Chunk.size,digest.2]

end Script

namespace Session

variable {rules : Rules} {unlocking locking : Script} {digest : Bytes} {before after : Session}

theorem committed?_of_paysToScript (pays : paysToScript locking = true) :
    ∃ expected : Digest160, locking.committed? = some expected.val ∧
      (locking = .p2sh expected ∨ ∃ color, locking = .withColor color (.p2sh expected)) := by
  obtain ⟨expected,shape⟩ := paysToScript_iff.mp pays
  refine ⟨expected,?_,shape⟩
  rcases shape with rfl | ⟨color,rfl⟩
  · exact Script.committed?_p2sh expected
  · exact Script.committed?_withColor color expected

/-- The locking script can only succeed on a stack with an item and room for the digest. It
replaces that item by the outcome of the comparison. -/
theorem evaluate_committed (pays : paysToScript locking = true)
    (commits : locking.committed? = some digest)
    (ok : evaluate rules locking false before = .ok () after) :
    ∃ top rest, before.stack = top :: rest ∧ rest.length + 1 < Machine.maxItems ∧
      after.stack = Number.ofBool (digest = (Digest.hash160 top).val) :: rest := by
  obtain ⟨expected,found,shape⟩ := committed?_of_paysToScript pays
  obtain rfl := Option.some.inj (found.symm.trans commits)
  obtain ⟨state,ran,rfl⟩ := evaluate_success_iff.mp ok
  obtain ⟨_,ran,_⟩ := Machine.run_success_iff.mp ran
  rcases shape with rfl | ⟨color,rfl⟩
  · obtain ⟨top,rest,onTop,bound,rfl⟩ :=
      (Machine.advanceAll_p2sh_success_iff rfl (Nat.le_of_ble_eq_true rfl)).mp ran
    exact ⟨top,rest,onTop,bound,rfl⟩
  · obtain ⟨_,_,_,_,ran⟩ := (Machine.advanceAll_withColor_success_iff rfl).mp ran
    obtain ⟨top,rest,onTop,bound,rfl⟩ :=
      (Machine.advanceAll_p2sh_success_iff rfl (Nat.le_of_ble_eq_true rfl)).mp ran
    exact ⟨top,rest,onTop,bound,rfl⟩

private theorem evaluate_committed_of_room (rules : Rules) (pays : paysToScript locking = true)
    (commits : locking.committed? = some digest) (fresh : before.color = none) {top : Bytes}
    {rest : Stack} (onTop : before.stack = top :: rest) (room : rest.length + 1 < Machine.maxItems) :
    ∃ after, evaluate rules locking false before = .ok () after ∧
      after.stack = Number.ofBool (digest = (Digest.hash160 top).val) :: rest := by
  obtain ⟨expected,found,shape⟩ := committed?_of_paysToScript pays
  obtain rfl := Option.some.inj (found.symm.trans commits)
  rcases shape with rfl | ⟨color,rfl⟩
  · refine ⟨_,evaluate_success_iff.mpr ⟨_,Machine.run_success_iff.mpr ⟨?_,
      (Machine.advanceAll_p2sh_success_iff rfl (Nat.le_of_ble_eq_true rfl)).mpr
        ⟨top,rest,onTop,room,rfl⟩,rfl⟩,rfl⟩,rfl⟩
    rw [Script.size_p2sh]
    decide
  · have deep : before.stack.length + 1 ≤ Machine.maxItems := by
      rw [onTop,List.length_cons]
      exact room
    refine ⟨_,evaluate_success_iff.mpr ⟨_,Machine.run_success_iff.mpr ⟨?_,
      (Machine.advanceAll_withColor_success_iff rfl).mpr ⟨rfl,fresh,Nat.le_of_ble_eq_true rfl,deep,
        (Machine.advanceAll_p2sh_success_iff rfl (Nat.le_of_ble_eq_true rfl)).mpr
          ⟨top,rest,onTop,room,rfl⟩⟩,rfl⟩,rfl⟩,rfl⟩
    rw [Script.size_withColor,Script.size_p2sh]
    decide

theorem evaluate_pushOnly {script : Script} {redeem : Bool} (pushes : script.isPushOnly = true)
    (ok : evaluate rules script redeem before = .ok () after) : after.color = before.color := by
  obtain ⟨state,ran,rfl⟩ := evaluate_success_iff.mp ok
  obtain ⟨_,ran,_⟩ := Machine.run_success_iff.mp ran
  obtain ⟨stack,rfl⟩ := Machine.advanceAll_pushOnly pushes ran
  rfl

private theorem evaluate_of_same {script : Script} {redeem : Bool}
    (ok : evaluate rules script redeem before = .ok () after) (before' : Session)
    (stack : before'.stack = before.stack) (color : redeem = false → before'.color = before.color) :
    ∃ after', evaluate rules script redeem before' = .ok () after' ∧ after'.stack = after.stack := by
  have agree : Agree (!redeem) before before' := ⟨stack,fun seen => color (by simpa using seen)⟩
  obtain ⟨_,after',ok',rfl,agree'⟩ := evaluate_lockstep (Rules.Relaxed.refl rules) script redeem
    (fun plain => by rw [plain]; rfl) _ _ _ _ agree ok
  exact ⟨after',ok',agree'.stack⟩

/-- A script with a given digest is revealed and accepts: what the unlocking script does, with the
session after it, the script on top of its stack, the items below, and the session at the end. -/
structure Redemption (rules : Rules) (unlocking : Script) (digest : Bytes) (unlocked : Session)
    (top : Bytes) (rest : Stack) (redeemed : Session) : Prop where
  pushes : unlocking.isPushOnly = true
  unlocks : evaluate rules unlocking false {} = .ok () unlocked
  onTop : unlocked.stack = top :: rest
  room : rest.length + 1 < Machine.maxItems
  same : (Digest.hash160 top).val = digest
  redeems : evaluate rules (Script.parse top) true { stack := rest } = .ok () redeemed
  truthy : (redeemed.stack.peek? 0).any Number.isTrue = true
  single : rules.flags.has .cleanStack = true → redeemed.stack.length = 1

private theorem redemption_of_verify (known : rules.flags.has .p2sh = true)
    (pays : paysToScript locking = true) (commits : locking.committed? = some digest)
    (ok : verify rules unlocking locking before = .ok () after) :
    ∃ unlocked top rest redeemed, Redemption rules unlocking digest unlocked top rest redeemed := by
  obtain ⟨final,satisfied,rfl⟩ := verify_success_iff.mp ok
  rw [satisfy_eq] at satisfied
  obtain ⟨_,middle,opened,satisfied⟩ := bind_success _ _ _ _ _ satisfied
  obtain ⟨_,last,redeemed,tidied⟩ := bind_success _ _ _ _ _ satisfied
  obtain ⟨rfl,single⟩ := tidy_success_iff.mp tidied
  obtain ⟨_,unlocked,ran,rfl,locked,truthy⟩ := unlock_success_iff.mp opened
  obtain ⟨pushes,top,rest,onTop,redeemed,accepted⟩ := (redeem_success_iff known pays).mp redeemed
  -- The item that the locking script has compared is the one that was put back.
  obtain ⟨top',rest',onTop',room,compared⟩ := evaluate_committed pays commits locked
  obtain ⟨rfl,rfl⟩ := List.cons.inj (onTop'.symm.trans onTop)
  have same : digest = (Digest.hash160 top').val := by
    rw [compared,isTrue_ofBool] at truthy
    exact of_decide_eq_true truthy
  obtain ⟨unlocked',unlocks,stack⟩ := evaluate_of_same ran {} rfl fun _ => rfl
  obtain ⟨redeemed',redeems,stack'⟩ :=
    evaluate_of_same redeemed { stack := rest' } rfl fun plain => nomatch plain
  refine ⟨unlocked',top',rest',redeemed',pushes,unlocks,stack.trans onTop,room,same.symm,redeems,?_,?_⟩
  · rw [stack']
    exact accepted
  · rw [stack']
    exact fun clean => (single clean).2

theorem Redemption.verify {unlocked redeemed : Session} {top : Bytes} {rest : Stack}
    (redemption : Redemption rules unlocking digest unlocked top rest redeemed)
    (known : rules.flags.has .p2sh = true) (pays : paysToScript locking = true)
    (commits : locking.committed? = some digest) (before : Session) :
    ∃ after, Session.verify rules unlocking locking before = .ok () after := by
  obtain ⟨pushes,unlocks,onTop,room,rfl,redeems,truthy,single⟩ := redemption
  obtain ⟨unlocked',ran,stack⟩ := evaluate_of_same unlocks
    { calls := before.calls, journal := before.journal } rfl fun _ => rfl
  have onTop' : unlocked'.stack = top :: rest := stack.trans onTop
  -- Pushes take on no colour, so the locking script may still do so.
  have fresh : unlocked'.color = none := evaluate_pushOnly pushes ran
  obtain ⟨locked,locks,compared⟩ := evaluate_committed_of_room rules pays commits fresh onTop' room
  obtain ⟨final,redeems',stack'⟩ := evaluate_of_same redeems { locked with
    stack := rest, journal := locked.journal ++ [.redeeming (Script.parse top)] } rfl
    fun plain => nomatch plain
  have opened : unlock rules unlocking locking
      { calls := before.calls, journal := before.journal } = .ok unlocked'.stack locked := by
    refine unlock_success_iff.mpr ⟨fun _ => pushes,unlocked',ran,rfl,locks,?_⟩
    rw [compared,isTrue_ofBool]
    exact decide_eq_true rfl
  have accepted : redeem rules unlocking locking unlocked'.stack locked = .ok () final := by
    refine (redeem_success_iff known pays).mpr ⟨pushes,top,rest,onTop',redeems',?_⟩
    rw [stack']
    exact truthy
  have tidied : tidy rules final = .ok () final := by
    refine tidy_success_iff.mpr ⟨rfl,fun clean => ⟨known,?_⟩⟩
    rw [stack']
    exact single clean
  refine ⟨_,verify_success_iff.mpr ⟨final,?_,rfl⟩⟩
  rw [satisfy_eq,bind_of_success opened,bind_of_success accepted,tidied]

/-- A verification against a script that pays to a script digest succeeds exactly if the unlocking
script only pushes, the last push is a script with that digest, and the run of that script on the
other pushes ends with a true item, alone if a clean stack is asked for. The locking script only
succeeds on a stack with an item, so there is always one to take the script from. -/
theorem verify_iff_redemption (rules : Rules) (known : rules.flags.has .p2sh = true)
    (unlocking locking : Script) (pays : paysToScript locking = true) (digest : Bytes)
    (commits : locking.committed? = some digest) (before : Session) :
    ((∃ after, verify rules unlocking locking before = .ok () after) ↔
      ∃ unlocked top rest redeemed,
        Redemption rules unlocking digest unlocked top rest redeemed) ∧
    ∀ start unlocked locked, evaluate rules unlocking false start = .ok () unlocked →
      evaluate rules locking false unlocked = .ok () locked → unlocked.stack ≠ [] := by
  refine ⟨⟨?_,?_⟩,?_⟩
  · intro verified
    obtain ⟨after,ok⟩ := verified
    exact redemption_of_verify known pays commits ok
  · intro redeemable
    obtain ⟨unlocked,top,rest,redeemed,redemption⟩ := redeemable
    exact redemption.verify known pays commits before
  · intro start unlocked locked _ locks empty
    obtain ⟨top,rest,onTop,_⟩ := evaluate_committed pays commits locks
    rw [empty] at onTop
    cases onTop

/-- A script that pushes one byte, paid to with a colour in front, under the standard flags. -/
theorem verify_iff_redemption_colored :
    ∃ after, verify ⟨Flags.standard,Oracle.never⟩ [.push [2] [1,32]]
      (Script.withColor (ColorId.reissuable []) (Script.toP2SH [.push [1] [32]])) {} =
        .ok () after := by
  have pays : paysToScript
      (Script.withColor (ColorId.reissuable []) (Script.toP2SH [.push [1] [32]])) = true :=
    paysToScript_iff.mpr ⟨_,.inr ⟨_,rfl⟩⟩
  have redeems : ∃ redeemed,
      evaluate ⟨Flags.standard,Oracle.never⟩ (Script.parse [1,32]) true {} = .ok () redeemed ∧
      (redeemed.stack.peek? 0).any Number.isTrue = true ∧ redeemed.stack.length = 1 := by
    have parsed : Script.parse [1,32] = [.push [1] [32]] := by decide +kernel
    rw [parsed]
    exact ⟨_,rfl,rfl,rfl⟩
  obtain ⟨redeemed,ran,truthy,single⟩ := redeems
  have redemption : Redemption ⟨Flags.standard,Oracle.never⟩ [.push [2] [1,32]]
      (Script.digest [.push [1] [32]]).val _ [1,32] [] redeemed :=
    ⟨by decide,rfl,rfl,by decide,rfl,ran,truthy,fun _ => single⟩
  exact ((verify_iff_redemption ⟨Flags.standard,Oracle.never⟩ (by decide) _ _ pays _
    (Script.committed?_withColor _ _) {}).1).mpr ⟨_,_,_,_,redemption⟩

end Session

end ColorScript
