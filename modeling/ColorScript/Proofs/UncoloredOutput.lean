import ColorScript.Proofs.ColorOnce
import ColorScript.Proofs.Visits

/-! The colour of an output without one. Its locking script takes on none, and neither does the script
of a script digest, so that only an unlocking script that is not held to pushes can bring one. -/
namespace ColorScript

/-- Whether an operation that takes on a colour stands in a script. -/
def Script.paints (script : Script) : Bool :=
  script.any fun chunk => !chunk.isPush && Operation.ofOpcode chunk.opcode = .setColor

private theorem Script.paints_p2pkh (digest : Digest160) : (p2pkh digest).paints = false := rfl

private theorem Script.paints_p2sh (digest : Digest160) : (p2sh digest).paints = false := rfl

private theorem Flags.has_of_includes_single {flags : Flags} {flag : Flag}
    (included : flags.includes (single flag) = true) : flags.has flag = true := by
  have kept : flags.bits &&& flag.mask = flag.mask := of_decide_eq_true included
  rw [has,kept]
  cases flag <;> rfl

namespace Session

variable {rules : Rules} {unlocking locking : Script} {before after unlocked : Session}

private theorem evaluate_color_of_plain {script : Script} {redeem : Bool} (plain : script.paints = false)
    (ok : evaluate rules script redeem before = .ok () after) : after.color = before.color := by
  have kept := evaluate_color rules script redeem before
  rw [ok] at kept
  rcases kept with same | ⟨color,⟨_,visit,member,executed,_⟩,_⟩
  · exact same
  · have found := Run.getElem?_of_mem member
    obtain ⟨operation,_,named⟩ := Visit.operation?_eq_some_iff.mp executed
    have painted := List.any_eq_false.mp plain _ (List.mem_of_getElem? found)
    simp [operation,named] at painted

private theorem unlocked_color
    (ran : evaluate rules unlocking false { calls := before.calls, journal := before.journal } =
      .ok () unlocked)
    (unpainted : ∀ visit ∈ (unlockingRun rules unlocking).visits,
      visit.operation? ≠ some .setColor) : unlocked.color = none := by
  have kept := evaluate_color rules unlocking false { calls := before.calls, journal := before.journal }
  rw [ran] at kept
  rcases kept with same | ⟨color,⟨_,visit,member,executed,_⟩,_⟩
  · exact same
  · exact absurd executed (unpainted visit member)

/-- An output without a colour gives none, unless it pays to a key digest and the unlocking script
itself takes one on, which it cannot where it may only push. -/
theorem verify_uncolored (shape : locking.isP2PKH = true ∨ locking.isP2SH = true)
    (mandatory : rules.flags.includes Flags.mandatory = true)
    (plain : locking.isP2SH = true ∨ rules.flags.has .sigPushOnly = true ∨
      ∀ visit ∈ (unlockingRun rules unlocking).visits, visit.operation? ≠ some .setColor)
    (ok : verify rules unlocking locking before = .ok () after) : after.color = none := by
  obtain ⟨pushes,pushes',unlocked,locked,ran,locks,same⟩ := color_of_verify ok
  have unpainted : locking.paints = false := by
    rcases shape with shape | shape
    · obtain ⟨digest,rfl⟩ := Script.isP2PKH_iff.mp shape
      exact Script.paints_p2pkh digest
    · obtain ⟨digest,rfl⟩ := Script.isP2SH_iff.mp shape
      exact Script.paints_p2sh digest
  have fresh : unlocked.color = none := by
    rcases plain with paysToScript | strict | unpainted
    · have pays : Session.paysToScript locking = true := by rw [Session.paysToScript,paysToScript]; rfl
      exact evaluate_pushOnly (pushes' (Flags.has_of_includes_single mandatory) pays) ran
    · exact evaluate_pushOnly (pushes strict) ran
    · exact unlocked_color ran unpainted
  rw [same,evaluate_color_of_plain unpainted locks,fresh]

/-- A key that is paid to without a colour, under the standard rules. -/
theorem verify_uncolored_keyDigest :
    ∃ after, verify ⟨Flags.standard,fun _ => true⟩
      [.push [65] (List.replicate 64 0x00 ++ [0x01]),.push [33] (0x02 :: List.replicate 32 0x00)]
      (Script.p2pkh (Digest.hash160 (0x02 :: List.replicate 32 0x00))) {} = .ok () after ∧
        after.color = none := by
  have accepts : succeeds (fun _ => true) (verify ⟨Flags.standard,fun _ => true⟩
      [.push [65] (List.replicate 64 0x00 ++ [0x01]),.push [33] (0x02 :: List.replicate 32 0x00)]
      (Script.p2pkh (Digest.hash160 (0x02 :: List.replicate 32 0x00))) {}) = true := by decide +kernel
  obtain ⟨_,after,ok,_⟩ := exists_of_succeeds accepts
  exact ⟨after,ok,verify_uncolored (.inl (Script.isP2PKH_iff.mpr ⟨_,rfl⟩)) (by decide)
    (.inr (.inr (by decide +kernel))) ok⟩

/-- The unlocking script brings a colour to the same output. -/
theorem verify_spenderColor :
    (Script.p2pkh (Digest.hash160 (0x02 :: List.replicate 32 0x00))).isP2PKH = true ∧
    Flags.standard.includes Flags.mandatory = true ∧
    ∃ after, verify ⟨Flags.standard,fun _ => true⟩
      (Script.withColor (ColorId.reissuable [])
        [.push [65] (List.replicate 64 0x00 ++ [0x01]),.push [33] (0x02 :: List.replicate 32 0x00)])
      (Script.p2pkh (Digest.hash160 (0x02 :: List.replicate 32 0x00))) {} = .ok () after ∧
        after.color = some (ColorId.reissuable []) := by
  have colored : succeeds (fun after => after.color = some (ColorId.reissuable []))
      (verify ⟨Flags.standard,fun _ => true⟩ (Script.withColor (ColorId.reissuable [])
        [.push [65] (List.replicate 64 0x00 ++ [0x01]),.push [33] (0x02 :: List.replicate 32 0x00)])
        (Script.p2pkh (Digest.hash160 (0x02 :: List.replicate 32 0x00))) {}) = true := by decide +kernel
  obtain ⟨_,after,ok,given⟩ := exists_of_succeeds colored
  exact ⟨Script.isP2PKH_iff.mpr ⟨_,rfl⟩,by decide,after,ok,of_decide_eq_true given⟩

end Session

end ColorScript
