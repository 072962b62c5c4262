import ColorScript.Proofs.Faultless.Encoding

/-! The grammar of strict signatures: two integers with their tags and lengths, in an envelope with a tag
and a length of its own, and a hash type behind it. The check accepts the signatures of this form and no
others, and each of them has its form in one way. -/
namespace ColorScript.Signature

/-- The content of a positive integer. It does not use its top bit, and starts with a zero only where the
byte behind that does. -/
structure PositiveInteger (content : Bytes) : Prop where
  nonempty : content ≠ []
  positive : ∀ first rest, content = first :: rest → first < 0x80
  unpadded : ∀ second rest, content = 0x00 :: second :: rest → 0x80 ≤ second

/-- A signature of two integers and a hash type. -/
structure StrictForm (sig r s : Bytes) (hashType : UInt8) : Prop where
  least : 9 ≤ sig.length
  most : sig.length ≤ 73
  layout : sig = [0x30,UInt8.ofNat (sig.length - 3)] ++ [0x02,UInt8.ofNat r.length] ++ r ++
    [0x02,UInt8.ofNat s.length] ++ s ++ [hashType]
  first : PositiveInteger r
  second : PositiveInteger s

private theorem toNat_lengthByte {length : Nat} (small : length ≤ 73) : (UInt8.ofNat length).toNat = length :=
  UInt8.toNat_ofNat_of_lt (Nat.lt_of_le_of_lt small (by decide))

private theorem topBit_eq_false_iff (byte : UInt8) : Number.topBit byte = false ↔ byte < 0x80 := by
  revert byte
  exact forall_byte (by decide +kernel)

theorem isPositiveInteger_iff {content : Bytes} :
    isPositiveInteger content = true ↔ PositiveInteger content := by
  rcases content with _ | ⟨first,_ | ⟨second,rest⟩⟩
  · exact iff_of_false nofun fun holds => holds.nonempty rfl
  · simp only [isPositiveInteger,Bool.not_eq_true',topBit_eq_false_iff]
    constructor
    · intro low
      refine ⟨List.cons_ne_nil _ _,fun first' rest' same => ?_,fun second' rest' same => ?_⟩
      · rwa [← (List.cons.inj same).1]
      · cases (List.cons.inj same).2
    · exact fun holds => holds.positive first [] rfl
  · have high : Number.topBit second = true ↔ 0x80 ≤ second := by
      rw [← Bool.not_eq_false,topBit_eq_false_iff,UInt8.not_lt]
    simp only [isPositiveInteger,Bool.and_eq_true,Bool.not_eq_true',topBit_eq_false_iff,
      Bool.and_eq_false_iff,decide_eq_false_iff_not,Bool.not_eq_false',high]
    constructor
    · rintro ⟨low,padding⟩
      refine ⟨List.cons_ne_nil _ _,fun first' rest' same => ?_,fun second' rest' same => ?_⟩
      · rwa [← (List.cons.inj same).1]
      · obtain ⟨zero,same⟩ := List.cons.inj same
        obtain ⟨same,_⟩ := List.cons.inj same
        rw [← same]
        exact padding.resolve_left (not_not_intro zero)
    · intro holds
      refine ⟨holds.positive first _ rfl,or_iff_not_imp_left.mpr fun zero => ?_⟩
      exact holds.unpadded second rest (by rw [not_not.mp zero])

private theorem isStrictBody_iff {body : Bytes} : isStrictBody body = true ↔ ∃ r s hashType,
    ∃ rLength sLength : UInt8, r.length = rLength.toNat ∧ s.length = sLength.toNat ∧
      body = 0x02 :: rLength :: (r ++ 0x02 :: sLength :: (s ++ [hashType])) ∧
      PositiveInteger r ∧ PositiveInteger s := by
  constructor
  · intro strict
    unfold isStrictBody at strict
    split at strict
    next rLength rest =>
      split at strict
      next sLength content opens =>
        simp only [Bool.and_eq_true,decide_eq_true_eq] at strict
        obtain ⟨⟨positive,fits⟩,positive',filled⟩ := strict
        obtain rfl | ⟨s,hashType,rfl⟩ := List.eq_nil_or_concat content
        · cases filled
        rw [List.concat_eq_append,List.length_append] at filled
        have length : s.length = sLength.toNat := Nat.succ.inj filled
        rw [List.concat_eq_append] at positive' opens
        rw [List.take_left' length] at positive'
        refine ⟨rest.take rLength.toNat,s,hashType,rLength,sLength,List.length_take_of_le fits,length,?_,
          isPositiveInteger_iff.mp positive,isPositiveInteger_iff.mp positive'⟩
        rw [← opens,List.take_append_drop]
      next => simp at strict
    next => cases strict
  · rintro ⟨r,s,hashType,rLength,sLength,length,length',rfl,positive,positive'⟩
    rw [isStrictBody,List.take_left' length,List.drop_left' length]
    simp only [List.take_left' length']
    rw [isPositiveInteger_iff.mpr positive,isPositiveInteger_iff.mpr positive']
    simp [length,length']

namespace StrictForm

variable {sig r s r' s' : Bytes} {hashType hashType' : UInt8}

theorem length_eq (form : StrictForm sig r s hashType) : sig.length = r.length + s.length + 7 := by
  have lengths := congrArg List.length form.layout
  simp only [List.length_append,List.length_cons,List.length_nil] at lengths
  omega

private theorem layout_eq (form : StrictForm sig r s hashType) : sig = 0x30 :: UInt8.ofNat (sig.length - 3) ::
    0x02 :: UInt8.ofNat r.length :: (r ++ 0x02 :: UInt8.ofNat s.length :: (s ++ [hashType])) := by
  have layout := form.layout
  simpa only [List.append_assoc,List.cons_append,List.nil_append] using layout

/-- The lengths that are written down tell where the integers end. -/
theorem unique (form : StrictForm sig r s hashType) (form' : StrictForm sig r' s' hashType') :
    r = r' ∧ s = s' ∧ hashType = hashType' := by
  have most := form.most
  have total := form.length_eq
  have total' := form'.length_eq
  have same := form.layout_eq.symm.trans form'.layout_eq
  simp only [List.cons.injEq,true_and] at same
  obtain ⟨sizes,same⟩ := same
  have length : r.length = r'.length := by
    rw [← toNat_lengthByte (show r.length ≤ 73 by omega),sizes,
      toNat_lengthByte (show r'.length ≤ 73 by omega)]
  obtain ⟨first,same⟩ := List.append_inj same length
  have length' : s.length = s'.length := by omega
  simp only [List.cons.injEq,true_and] at same
  obtain ⟨second,last⟩ := List.append_inj same.2 length'
  exact ⟨first,second,(List.cons.inj last).1⟩

end StrictForm

theorem isStrictDER_iff {sig : Bytes} :
    isStrictDER sig = true ↔ ∃ r s hashType, StrictForm sig r s hashType := by
  constructor
  · intro strict
    have bounds : 9 ≤ sig.length ∧ sig.length ≤ 73 := by
      unfold isStrictDER at strict
      obtain ⟨bounds,_⟩ := Bool.and_eq_true_iff.mp strict
      obtain ⟨least,most⟩ := Bool.and_eq_true_iff.mp bounds
      exact ⟨of_decide_eq_true least,of_decide_eq_true most⟩
    match sig with
    | [] | [_] => simp at bounds
    | tag :: size :: body =>
      rw [Checked.isStrictDER_tag bounds.1 bounds.2] at strict
      simp only [Bool.and_eq_true,decide_eq_true_eq] at strict
      obtain ⟨rfl,counted,strict⟩ := strict
      obtain ⟨r,s,hashType,rLength,sLength,length,length',rfl,positive,positive'⟩ :=
        isStrictBody_iff.mp strict
      refine ⟨r,s,hashType,bounds.1,bounds.2,?_,positive,positive'⟩
      rw [← counted,Nat.add_sub_cancel,length,length']
      simp
  · rintro ⟨r,s,hashType,form⟩
    have total := form.length_eq
    have least := form.least
    have most := form.most
    have body : isStrictBody
        (0x02 :: UInt8.ofNat r.length :: (r ++ 0x02 :: UInt8.ofNat s.length :: (s ++ [hashType]))) = true :=
      isStrictBody_iff.mpr ⟨r,s,hashType,_,_,(toNat_lengthByte (by omega)).symm,
        (toNat_lengthByte (by omega)).symm,rfl,form.first,form.second⟩
    have counted : (UInt8.ofNat (sig.length - 3)).toNat = sig.length - 3 := toNat_lengthByte (by omega)
    have layout := form.layout_eq
    generalize UInt8.ofNat (sig.length - 3) = size at counted layout
    subst layout
    rw [Checked.isStrictDER_tag least most,body,counted]
    simp only [decide_true,Bool.true_and,Bool.and_true,decide_eq_true_eq]
    omega

/-- The check accepts exactly the signatures that have the strict form, whether it reads them item by
item or by the places that their own bytes name, and the form of a signature is unique. -/
theorem strictDER_grammar (sig : Bytes) :
    (isStrictDER sig = true ↔ ∃ r s hashType, StrictForm sig r s hashType) ∧
    (Checked.isStrictDER sig = .ok true ↔ ∃ r s hashType, StrictForm sig r s hashType) ∧
    ∀ r s hashType r' s' hashType', StrictForm sig r s hashType → StrictForm sig r' s' hashType' →
      r = r' ∧ s = s' ∧ hashType = hashType' := by
  refine ⟨isStrictDER_iff,?_,fun _ _ _ _ _ _ => StrictForm.unique⟩
  rw [Checked.isStrictDER_eq,Except.ok.injEq]
  exact isStrictDER_iff

/-- The first integer needs the zero that it starts with, and bytes of the second one look like a tag
and a length. -/
theorem strictDER_grammar_padded :
    isStrictDER [0x30,0x0a,0x02,0x02,0x00,0x80,0x02,0x04,0x02,0x01,0x02,0x01,0x01] = true ∧
      ∀ r s hashType,
        StrictForm [0x30,0x0a,0x02,0x02,0x00,0x80,0x02,0x04,0x02,0x01,0x02,0x01,0x01] r s hashType →
          r = [0x00,0x80] ∧ s = [0x02,0x01,0x02,0x01] ∧ hashType = 0x01 := by
  have first : PositiveInteger [0x00,0x80] := isPositiveInteger_iff.mp rfl
  have second : PositiveInteger [0x02,0x01,0x02,0x01] := isPositiveInteger_iff.mp rfl
  have form : StrictForm [0x30,0x0a,0x02,0x02,0x00,0x80,0x02,0x04,0x02,0x01,0x02,0x01,0x01]
      [0x00,0x80] [0x02,0x01,0x02,0x01] 0x01 := ⟨by decide,by decide,rfl,first,second⟩
  exact ⟨(strictDER_grammar _).1.mpr ⟨_,_,_,form⟩,
    fun r s hashType other => (strictDER_grammar _).2.2 _ _ _ _ _ _ other form⟩

end ColorScript.Signature
