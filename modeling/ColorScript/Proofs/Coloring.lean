import ColorScript.Proofs.BytePatterns
import ColorScript.Proofs.Faultless.Template

/-! Colours are put in front of templates and taken off again. A coloured template has one colour and one
template behind it, both of which are read back from it, and every other script has none to lose. -/
namespace ColorScript.Script

variable {script colored : Script} {color : ColorId}

private theorem canonical_of_template (shaped : (script.isP2PKH || script.isP2SH) = true) : Canonical script := by
  rcases Bool.or_eq_true_iff.mp shaped with toKey | toScript
  · obtain ⟨digest,rfl⟩ := isP2PKH_iff.mp toKey
    exact canonical_p2pkh digest
  · obtain ⟨digest,rfl⟩ := isP2SH_iff.mp toScript
    exact canonical_p2sh digest

private theorem uncolored_of_template (shaped : (script.isP2PKH || script.isP2SH) = true) :
    (script.isColoredP2PKH || script.isColoredP2SH) = false := by
  rcases Bool.or_eq_true_iff.mp shaped with toKey | toScript
  · obtain ⟨digest,rfl⟩ := isP2PKH_iff.mp toKey
    rfl
  · obtain ⟨digest,rfl⟩ := isP2SH_iff.mp toScript
    rfl

private theorem addColor_eq_ok_iff : addColor script color = .ok colored ↔
    (script.isP2PKH || script.isP2SH) = true ∧ colored = withColor color script := by
  rw [addColor]
  split
  next shaped => rw [Except.ok.injEq,and_iff_right shaped,eq_comm]
  next unshaped => exact iff_of_false nofun fun held => unshaped held.1

private theorem removeColor_of_uncolored (plain : (script.isColoredP2PKH || script.isColoredP2SH) = false) :
    script.removeColor = script := by
  cases found : script.splitColor? with
  | none => rw [removeColor,found]
  | some parts =>
    obtain ⟨color,rest⟩ := parts
    obtain rfl := splitColor?_eq_some_iff.mp found
    rw [isColoredP2PKH_withColor,isColoredP2SH_withColor] at plain
    rw [removeColor,found]
    simp only [plain,Bool.false_eq_true,if_false]

private theorem removeColor_removeColor (script : Script) : script.removeColor.removeColor = script.removeColor := by
  cases colored : script.isColoredP2PKH || script.isColoredP2SH with
  | true =>
    obtain ⟨color,rest,shaped,rfl⟩ := isColored_iff.mp colored
    rw [removeColor_withColor color shaped]
    exact removeColor_of_uncolored (uncolored_of_template shaped)
  | false => rw [removeColor_of_uncolored colored,removeColor_of_uncolored colored]

/-- Templates, and only they, take a colour, and they are read back from what that gives, as is the colour.
The coloured templates arise in this way from what is left of them. Scripts without a colour lose nothing. The
chunks of a script taken by their places give the same. -/
theorem coloring_bijective :
    (∀ (script : Script) (color : ColorId),
      ((∃ colored, addColor script color = .ok colored) ↔ script.isP2PKH = true ∨ script.isP2SH = true) ∧
      ∀ colored, addColor script color = .ok colored →
        colored.isColoredP2PKH = script.isP2PKH ∧ colored.isColoredP2SH = script.isP2SH ∧
        colored.color? = some color ∧ colored.removeColor = script ∧ parse colored.toBytes = colored) ∧
    (∀ colored : Script, colored.isColoredP2PKH = true ∨ colored.isColoredP2SH = true →
      ∃ color, colored.color? = some color ∧ addColor colored.removeColor color = .ok colored) ∧
    (∀ script : Script, script.isColoredP2PKH = false → script.isColoredP2SH = false →
      script.removeColor = script) ∧
    (∀ script : Script, script.removeColor.removeColor = script.removeColor) ∧
    ∀ script : Script, Checked.color? script = .ok script.color? ∧
      Checked.removeColor script = .ok script.removeColor ∧
      Checked.isColoredP2PKH script = .ok script.isColoredP2PKH ∧
      Checked.isColoredP2SH script = .ok script.isColoredP2SH := by
  refine ⟨fun script color => ⟨?_,?_⟩,?_,?_,removeColor_removeColor,fun script =>
    ⟨Checked.color?_eq script,Checked.removeColor_eq script,Checked.isColoredP2PKH_eq script,
      Checked.isColoredP2SH_eq script⟩⟩
  · simp only [addColor_eq_ok_iff,exists_and_left,exists_eq,and_true,Bool.or_eq_true]
  · intro colored added
    obtain ⟨shaped,rfl⟩ := addColor_eq_ok_iff.mp added
    exact ⟨isColoredP2PKH_withColor color script,isColoredP2SH_withColor color script,
      color?_withColor color script,removeColor_withColor color shaped,
      ((canonical_of_template shaped).withColor color).parse_toBytes⟩
  · intro colored shape
    obtain ⟨color,rest,shaped,rfl⟩ := isColored_iff.mp (Bool.or_eq_true_iff.mpr shape)
    refine ⟨color,color?_withColor color rest,?_⟩
    rw [removeColor_withColor color shaped]
    exact addColor_eq_ok_iff.mpr ⟨shaped,rfl⟩
  · intro script noKey noScript
    exact removeColor_of_uncolored (Bool.or_eq_false_iff.mpr ⟨noKey,noScript⟩)

/-- The colour of a single token on an output that pays to a script digest, and a data carrier. -/
theorem coloring_bijective_nft :
    ∃ colored, addColor (p2sh ⟨List.replicate 20 7,rfl⟩) ⟨.nft,List.replicate 32 9,rfl⟩ = .ok colored ∧
      colored.isColoredP2SH = true ∧ colored.isColoredP2PKH = false ∧
      colored.removeColor = p2sh ⟨List.replicate 20 7,rfl⟩ ∧
      (∃ color, colored.color? = some color ∧ addColor colored.removeColor color = .ok colored) ∧
      removeColor [.op Opcode.returnData,.push [1] [5]] = [.op Opcode.returnData,.push [1] [5]] := by
  obtain ⟨takes,gives⟩ := coloring_bijective.1 (p2sh ⟨List.replicate 20 7,rfl⟩) ⟨.nft,List.replicate 32 9,rfl⟩
  obtain ⟨colored,added⟩ := takes.mpr (.inr (by decide))
  obtain ⟨toKey,toScript,_,left,_⟩ := gives colored added
  have shape : colored.isColoredP2SH = true := toScript.trans (by decide)
  exact ⟨colored,added,shape,toKey.trans (by decide),left,coloring_bijective.2.1 colored (.inr shape),
    coloring_bijective.2.2.1 [.op Opcode.returnData,.push [1] [5]] (by decide) (by decide)⟩

end ColorScript.Script
