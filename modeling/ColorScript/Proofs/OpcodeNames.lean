import Mathlib.Data.List.Nodup
import Mathlib.Data.List.Pairwise
import ColorScript.Proofs.Decimal
import ColorScript.Opcode

/-! The names of opcodes. No two opcodes share a name, nor is one a further name of another opcode, so that
every opcode is found by its name. Names are capital letters and digits, and one that is a number is that of
the opcode that pushes it. -/
namespace ColorScript.Opcode
open Text

private def weight (name : String) : Nat := name.toList.foldl (fun n c => 128 * n + c.toNat) 0

def isCapital (c : Char) : Bool := 0x41 ≤ c.toNat && c.toNat ≤ 0x5a

def isLettered (word : List Char) : Bool := word ≠ [] && word.all fun c => isCapital c || Decimal.isDigit c

private theorem mnemonics_checked :
    ((aliases.map Prod.fst ++ all.filterMap mnemonic?).map weight).Nodup ∧
      ∀ mnemonic ∈ aliases.map Prod.fst ++ all.filterMap mnemonic?, isLettered mnemonic.toList = true ∧
        (Decimal.toInt? mnemonic.toList).all (fun n => (ofSmallInt? n).any fun code =>
          mnemonic? code = some mnemonic) = true := by
  decide +kernel

variable {code : Opcode} {mnemonic name : String}

private theorem mem_all (code : Opcode) : code ∈ all :=
  List.mem_map.mpr ⟨code.toNat,List.mem_range.mpr code.toNat_lt,UInt8.ofNat_toNat⟩

private theorem mem_mnemonics (named : mnemonic? code = some mnemonic) :
    mnemonic ∈ all.filterMap mnemonic? := List.mem_filterMap.mpr ⟨code,mem_all code,named⟩

private theorem mnemonic?_inj {other : Opcode} (named : mnemonic? code = some mnemonic)
    (named' : mnemonic? other = some mnemonic) : code = other := by
  have distinct := (List.nodup_append.mp mnemonics_checked.1.of_map).2.1
  rw [List.Nodup,List.pairwise_filterMap] at distinct
  have symmetric : Std.Symm fun first second => ∀ name, mnemonic? first = some name →
      ∀ name', mnemonic? second = some name' → name ≠ name' :=
    ⟨fun _ _ apart name first name' second => (apart name' second name first).symm⟩
  by_contra different
  exact distinct.forall (mem_all code) (mem_all other) different mnemonic named mnemonic named' rfl

private theorem lookup_aliases (named : mnemonic? code = some mnemonic) : aliases.lookup mnemonic = none := by
  have apart := (List.nodup_append.mp mnemonics_checked.1.of_map).2.2
  rw [List.lookup_eq_none_iff]
  intro (name,other) member
  have different := apart name (List.mem_map_of_mem member) mnemonic (mem_mnemonics named)
  exact bne_iff_ne.mpr different.symm

private theorem ofMnemonic?_mnemonic? (named : mnemonic? code = some mnemonic) :
    ofMnemonic? mnemonic = some code := by
  rw [ofMnemonic?,lookup_aliases named]
  cases found : all.find? fun other => mnemonic? other = some mnemonic with
  | none =>
    have missed := List.find?_eq_none.mp found code (mem_all code)
    exact absurd (decide_eq_true named) missed
  | some other =>
    have same := List.find?_some found
    exact congrArg some (mnemonic?_inj (of_decide_eq_true same) named)

theorem ofName?_name? (named : name? code = some name) : ofName? name.toList = some code := by
  obtain ⟨mnemonic,found,rfl⟩ := Option.map_eq_some_iff.mp named
  have after : afterStart? ['O','P','_'] ("OP_" ++ mnemonic).toList = some mnemonic.toList :=
    afterStart?_eq_some.mpr String.toList_append
  rw [ofName?,dropLead,after,Option.getD_some,String.ofList_toList]
  exact ofMnemonic?_mnemonic? found

private theorem ofMnemonic?_mem (found : ofMnemonic? mnemonic = some code) :
    mnemonic ∈ aliases.map Prod.fst ++ all.filterMap mnemonic? := by
  unfold ofMnemonic? at found
  split at found
  next other looked =>
    obtain ⟨front,rest,split,_⟩ := List.lookup_eq_some_iff.mp looked
    refine List.mem_append_left _ (List.mem_map.mpr ⟨(mnemonic,other),?_,rfl⟩)
    rw [split]
    exact List.mem_append_right _ List.mem_cons_self
  next =>
    have named := List.find?_some found
    exact List.mem_append_right _ (mem_mnemonics (of_decide_eq_true named))

private theorem isSome_mnemonic? (found : ofMnemonic? mnemonic = some code) : (mnemonic? code).isSome = true := by
  unfold ofMnemonic? at found
  split at found
  next other looked =>
    have each : ∀ entry ∈ aliases, (mnemonic? entry.2).isSome = true := by decide
    obtain ⟨front,rest,split,_⟩ := List.lookup_eq_some_iff.mp looked
    obtain rfl := Option.some.inj found
    refine each (mnemonic,other) ?_
    rw [split]
    exact List.mem_append_right _ List.mem_cons_self
  next =>
    have named := List.find?_some found
    rw [of_decide_eq_true named]
    rfl

private theorem isLettered_of_ofMnemonic? (found : ofMnemonic? mnemonic = some code) :
    isLettered mnemonic.toList = true := (mnemonics_checked.2 _ (ofMnemonic?_mem found)).1

private theorem ofSmallInt?_of_ofMnemonic? {n : Int} (found : ofMnemonic? mnemonic = some code)
    (read : Decimal.toInt? mnemonic.toList = some n) : ofSmallInt? n = some code := by
  have checked := (mnemonics_checked.2 _ (ofMnemonic?_mem found)).2
  rw [read,Option.all_some,Option.any_eq_true] at checked
  obtain ⟨other,small,named⟩ := checked
  have same := (ofMnemonic?_mnemonic? (of_decide_eq_true named)).symm.trans found
  rw [small,same]

section Words

variable {word : List Char}

private theorem ofName?_cases (found : ofName? word = some code) :
    ∃ mnemonic, ofMnemonic? mnemonic = some code ∧
      (word = mnemonic.toList ∨ word = 'O' :: 'P' :: '_' :: mnemonic.toList) := by
  refine ⟨_,found,?_⟩
  rw [String.toList_ofList,dropLead]
  cases after : afterStart? ['O','P','_'] word with
  | none => exact .inl rfl
  | some rest => exact .inr (afterStart?_eq_some.mp after)

theorem isSome_mnemonic?_of_ofName? (found : ofName? word = some code) : (mnemonic? code).isSome = true := by
  obtain ⟨_,named,_⟩ := ofName?_cases found
  exact isSome_mnemonic? named

theorem isWord_of_ofName? (found : ofName? word = some code) : IsWord word := by
  obtain ⟨mnemonic,named,forms⟩ := ofName?_cases found
  have letters := isLettered_of_ofMnemonic? named
  rw [isLettered,Bool.and_eq_true,decide_eq_true_eq] at letters
  have visible : mnemonic.toList.all isVisible = true := by
    refine List.all_eq_true.mpr fun c member => ?_
    have letter := List.all_eq_true.mp letters.2 c member
    simp only [isCapital,Decimal.isDigit,Bool.or_eq_true,Bool.and_eq_true,decide_eq_true_eq] at letter
    simp only [isVisible,Bool.and_eq_true,decide_eq_true_eq]
    omega
  rcases forms with rfl | rfl
  · exact .of_visible letters.1 visible
  · refine .of_visible (List.cons_ne_nil _ _) ?_
    simp only [List.all_cons,visible]
    decide

/-- A word that is a number and a name stands for the opcode that pushes the number. -/
theorem ofSmallInt?_of_ofName? {n : Int} (found : ofName? word = some code)
    (read : Decimal.toInt? word = some n) : ofSmallInt? n = some code := by
  obtain ⟨mnemonic,named,rfl | rfl⟩ := ofName?_cases found
  · exact ofSmallInt?_of_ofMnemonic? named read
  · rcases Decimal.all_of_toInt? read 'O' List.mem_cons_self with sign | digit
    · cases sign
    · cases digit

theorem afterStart?_of_ofName? (found : ofName? word = some code) : afterStart? ['0','x'] word = none := by
  obtain ⟨mnemonic,named,rfl | rfl⟩ := ofName?_cases found
  · cases after : afterStart? ['0','x'] mnemonic.toList with
    | none => rfl
    | some rest =>
      have letters := isLettered_of_ofMnemonic? named
      rw [afterStart?_eq_some.mp after] at letters
      cases letters
  · rfl

theorem toInt?_of_ofName? (found : ofName? word = some code) (small : word.any isCapital = false) :
    ∃ n, Decimal.toInt? word = some n := by
  obtain ⟨mnemonic,named,rfl | rfl⟩ := ofName?_cases found
  · have letters := isLettered_of_ofMnemonic? named
    rw [isLettered,Bool.and_eq_true,decide_eq_true_eq] at letters
    refine ⟨_,Decimal.toInt?_of_digits letters.1 (List.all_eq_true.mpr fun c member => ?_)⟩
    have letter := List.all_eq_true.mp letters.2 c member
    have plain := Bool.eq_false_iff.mpr (List.any_eq_false.mp small c member)
    rwa [plain,Bool.false_or] at letter
  · cases small

end Words

end ColorScript.Opcode
