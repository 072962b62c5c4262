import ColorScript.Proofs.ItemSize
import ColorScript.Proofs.TemplateRun

/-! Outputs that pay to a key digest: they are spent by exactly the keys with that digest and the
signatures that the oracle confirms. -/
namespace ColorScript

namespace Script

/-- The digest that a script that pays to a key digest commits to. -/
def keyDigest? (script : Script) : Option Bytes := script.removeColor[2]?.bind Chunk.payload?

private theorem keyDigest?_withColor (color : ColorId) (digest : Digest160) :
    (withColor color (p2pkh digest)).keyDigest? = some digest.val := by
  have shaped : ((p2pkh digest).isP2PKH || (p2pkh digest).isP2SH) = true := by
    rw [isP2PKH_iff.mpr ⟨digest,rfl⟩,Bool.true_or]
  rw [keyDigest?,removeColor_withColor color shaped]
  rfl

private theorem size_p2pkh (digest : Digest160) : (p2pkh digest).size = 25 := by
  simp [size,p2pkh,pushDigest,Chunk.size,digest.2]

end Script

/-- What the rules ask of a signature, and of the key below whose digest an output pays to. -/
structure Confirmed (rules : Rules) (locking : Script) (sig key : Bytes) : Prop where
  sigForm : Signature.checkTransaction rules.flags sig = .ok ()
  keyForm : Signature.checkKey rules.flags key = .ok ()
  code : rules.flags.has .constScriptCode = true → locking.delete [Chunk.ofData sig] = locking
  signed : rules.oracle (.signature sig key (locking.delete [Chunk.ofData sig])) = true

namespace Machine

variable {ctx : Context} {before after : State} {done : Unit}

private theorem scriptCode_single {codeStart : Nat} {sig : Bytes} {code : Script}
    (short : sig.length ≤ Chunk.maxPayload) :
    scriptCode ctx codeStart [sig] = .ok code ↔
      code = (ctx.script.subscript codeStart).delete [Chunk.ofData sig] ∧
      (ctx.flags.has .constScriptCode = true → code = ctx.script.subscript codeStart) := by
  have pushed : Chunk.ofData? sig = .ok (Chunk.ofData sig) := if_pos short
  have single : scriptCode ctx codeStart [sig] =
      withoutSignature ctx.flags (ctx.script.subscript codeStart) sig := by
    simp only [scriptCode,List.foldlM_cons,List.foldlM_nil,bind_pure]
  rw [single]
  simp only [withoutSignature,pushed]
  split
  next changed =>
    constructor
    · intro ok
      cases ok
    · rintro ⟨rfl,kept⟩
      exact absurd (kept changed.2) changed.1
  next unchanged =>
    rw [Except.ok.injEq,eq_comm]
    refine ⟨?_,And.left⟩
    rintro rfl
    refine ⟨rfl,fun strict => ?_⟩
    exact Decidable.byContradiction fun changed => unchanged ⟨changed,strict⟩

private theorem checkSig_success_iff : checkSig ctx .yield before = .ok done after ↔
    ∃ key sig rest code, before.stack = key :: sig :: rest ∧
      scriptCode ctx before.codeStart [sig] = .ok code ∧
      Signature.checkTransaction ctx.flags sig = .ok () ∧
      Signature.checkKey ctx.flags key = .ok () ∧
      (ctx.oracle (.signature sig key code) || !ctx.flags.has .nullFail ||
        [sig].all List.isEmpty) = true ∧
      after = { before with
        stack := Number.ofBool (ctx.oracle (.signature sig key code)) :: rest
        calls := before.calls ++
          [⟨.signature sig key code,ctx.oracle (.signature sig key code)⟩] } := by
  simp only [checkSig,bind_success_iff,require_success_iff,pop_success_iff,get_bind_apply,
    ofExcept_success_iff,requireNullFail,ensure_success_iff,conclude,push_apply]
  constructor
  · intro holds
    obtain ⟨_,_,⟨_,rfl⟩,key,_,⟨_,top,rfl⟩,sig,_,⟨rest,second,rfl⟩,code,_,⟨coded,rfl⟩,_,_,
      ⟨formed,rfl⟩,_,_,⟨keyed,rfl⟩,success,_,asked,_,_,⟨lawful,rfl⟩,ok⟩ := holds
    cases asked
    cases ok
    refine ⟨key,sig,rest,code,?_,coded,formed,keyed,lawful,rfl⟩
    rw [top]
    exact congrArg (key :: ·) second
  · intro holds
    obtain ⟨key,sig,rest,code,top,coded,formed,keyed,lawful,rfl⟩ := holds
    have enough : 2 ≤ before.stack.length := by simp [top]
    exact ⟨(),before,⟨enough,rfl⟩,key,_,⟨sig :: rest,top,rfl⟩,sig,_,⟨rest,rfl,rfl⟩,code,_,⟨coded,rfl⟩,
      (),_,⟨formed,rfl⟩,(),_,⟨keyed,rfl⟩,_,_,rfl,(),_,⟨lawful,rfl⟩,rfl⟩

private theorem confirmed_of_checkSig (fresh : before.codeStart = 0)
    (short : ∀ item ∈ before.stack, item.length ≤ maxItem)
    (ok : checkSig ctx .yield before = .ok done after)
    (truthy : (after.stack.peek? 0).any Number.isTrue = true) :
    ∃ key sig rest, before.stack = key :: sig :: rest ∧
      Confirmed ctx.toRules ctx.script sig key ∧ after.stack = Number.ofBool true :: rest := by
  obtain ⟨key,sig,rest,code,top,coded,formed,keyed,_,rfl⟩ := checkSig_success_iff.mp ok
  have small : sig.length ≤ Chunk.maxPayload :=
    Nat.le_trans (short sig (by simp [top])) (by decide)
  rw [fresh] at coded
  obtain ⟨rfl,kept⟩ := (scriptCode_single small).mp coded
  rw [isTrue_ofBool] at truthy
  refine ⟨key,sig,rest,top,⟨formed,keyed,kept,truthy⟩,?_⟩
  exact congrArg (Number.ofBool · :: rest) truthy

private theorem checkSig_of_confirmed {sig key : Bytes} {rest : Stack} (fresh : before.codeStart = 0)
    (top : before.stack = key :: sig :: rest) (short : sig.length ≤ maxItem)
    (confirmed : Confirmed ctx.toRules ctx.script sig key) :
    ∃ calls, checkSig ctx .yield before =
      .ok () { before with stack := Number.ofBool true :: rest, calls } := by
  obtain ⟨formed,keyed,kept,signed⟩ := confirmed
  have small : sig.length ≤ Chunk.maxPayload := Nat.le_trans short (by decide)
  have coded : scriptCode ctx before.codeStart [sig] =
      .ok (ctx.script.delete [Chunk.ofData sig]) := by
    rw [fresh]
    exact (scriptCode_single small).mpr ⟨rfl,kept⟩
  have lawful : (ctx.oracle (.signature sig key (ctx.script.delete [Chunk.ofData sig])) ||
      !ctx.flags.has .nullFail || [sig].all List.isEmpty) = true := by
    rw [signed]
    rfl
  refine ⟨before.calls ++ [⟨.signature sig key (ctx.script.delete [Chunk.ofData sig]),true⟩],
    checkSig_success_iff.mpr ⟨key,sig,rest,_,top,coded,formed,keyed,lawful,?_⟩⟩
  rw [signed]

private theorem confirmed_of_p2pkh {place : Nat} {digest : Digest160} (outside : before.flow = [])
    (room : before.opCount + 4 ≤ maxOps) (fresh : before.codeStart = 0)
    (short : ∀ item ∈ before.stack, item.length ≤ maxItem)
    (ok : advanceAll ctx place (Script.p2pkh digest) before = .ok done after)
    (truthy : (after.stack.peek? 0).any Number.isTrue = true) :
    ∃ key sig rest, before.stack = key :: sig :: rest ∧
      rest.length + 4 + before.alt.length ≤ maxItems ∧ (Digest.hash160 key).val = digest.val ∧
      Confirmed ctx.toRules ctx.script sig key ∧ after.stack = Number.ofBool true :: rest := by
  obtain ⟨key,below,onTop,bound,same,checked,_⟩ := (advanceAll_p2pkh_success_iff outside room).mp ok
  obtain ⟨key',sig,rest,top,confirmed,left⟩ :=
    confirmed_of_checkSig (by exact fresh) (by exact short) checked truthy
  obtain ⟨rfl,rfl⟩ := List.cons.inj (onTop.symm.trans top)
  exact ⟨key,sig,rest,onTop,bound,same,confirmed,left⟩

private theorem p2pkh_of_confirmed {place : Nat} {digest : Digest160} {sig key : Bytes} {rest : Stack}
    (outside : before.flow = []) (room : before.opCount + 4 ≤ maxOps) (fresh : before.codeStart = 0)
    (onTop : before.stack = key :: sig :: rest)
    (bound : rest.length + 4 + before.alt.length ≤ maxItems)
    (same : (Digest.hash160 key).val = digest.val) (short : sig.length ≤ maxItem)
    (confirmed : Confirmed ctx.toRules ctx.script sig key) :
    ∃ after, advanceAll ctx place (Script.p2pkh digest) before = .ok () after ∧
      after.stack = Number.ofBool true :: rest ∧ after.flow = [] := by
  have start : State.codeStart { before with opCount := before.opCount + 4 } = 0 := fresh
  obtain ⟨calls,checked⟩ := checkSig_of_confirmed start onTop short confirmed
  have within : (Number.ofBool true :: rest).length + before.alt.length ≤ maxItems := by
    rw [List.length_cons]
    omega
  refine ⟨_,(advanceAll_p2pkh_success_iff outside room).mpr
    ⟨key,sig :: rest,onTop,bound,same,checked,within⟩,rfl,outside⟩

end Machine

namespace Session

variable {rules : Rules} {unlocking locking : Script} {digest : Bytes} {before after : Session}

/-- What an unlocking script does that spends an output that pays to a key digest. -/
structure Payment (rules : Rules) (unlocking locking : Script) (digest : Bytes)
    (unlocked : Session) (sig key : Bytes) (rest : Stack) : Prop where
  pushes : rules.flags.has .sigPushOnly = true → unlocking.isPushOnly = true
  unlocks : evaluate rules unlocking false {} = .ok () unlocked
  onTop : unlocked.stack = key :: sig :: rest
  room : rest.length + 4 ≤ 1000
  uncolored : locking.isColoredP2PKH = true → unlocked.color = none
  same : (Digest.hash160 key).val = digest
  confirmed : Confirmed rules locking sig key
  clean : rules.flags.has .cleanStack = true → rest = []

private theorem keyDigest?_of_shape (shape : locking.isP2PKH = true ∨ locking.isColoredP2PKH = true) :
    ∃ expected : Digest160, locking.keyDigest? = some expected.val ∧
      (locking = .p2pkh expected ∨ ∃ color, locking = .withColor color (.p2pkh expected)) := by
  rcases shape with plain | colored
  · obtain ⟨expected,rfl⟩ := Script.isP2PKH_iff.mp plain
    exact ⟨expected,rfl,.inl rfl⟩
  · obtain ⟨color,expected,rfl⟩ := Script.isColoredP2PKH_iff.mp colored
    exact ⟨expected,Script.keyDigest?_withColor color expected,.inr ⟨color,rfl⟩⟩

private theorem paysToScript_of_keyDigest (shape : locking.isP2PKH = true ∨ locking.isColoredP2PKH = true) :
    paysToScript locking = false := by
  obtain ⟨expected,_,form⟩ := keyDigest?_of_shape shape
  refine Bool.eq_false_iff.mpr fun pays => ?_
  obtain ⟨other,form'⟩ := paysToScript_iff.mp pays
  rcases form with rfl | ⟨color,rfl⟩
  · rcases form' with same | ⟨color',same⟩
    · cases same
    · rw [Script.withColor_eq] at same
      cases same
  · rw [Script.withColor_eq] at form'
    rcases form' with same | ⟨color',same⟩
    · cases same
    · rw [Script.withColor_eq] at same
      have rest := (List.cons.inj (List.cons.inj same).2).2
      cases rest

private theorem evaluate_keyed (shape : locking.isP2PKH = true ∨ locking.isColoredP2PKH = true)
    (commits : locking.keyDigest? = some digest)
    (short : ∀ item ∈ before.stack, item.length ≤ Machine.maxItem)
    (ok : evaluate rules locking false before = .ok () after)
    (truthy : (after.stack.peek? 0).any Number.isTrue = true) :
    ∃ key sig rest, before.stack = key :: sig :: rest ∧ rest.length + 4 ≤ Machine.maxItems ∧
      (locking.isColoredP2PKH = true → before.color = none) ∧ (Digest.hash160 key).val = digest ∧
      Confirmed rules locking sig key ∧ after.stack = Number.ofBool true :: rest := by
  obtain ⟨expected,found,form⟩ := keyDigest?_of_shape shape
  obtain rfl := Option.some.inj (found.symm.trans commits)
  obtain ⟨state,ran,rfl⟩ := evaluate_success_iff.mp ok
  obtain ⟨_,ran,_⟩ := Machine.run_success_iff.mp ran
  rcases form with rfl | ⟨color,rfl⟩
  · obtain ⟨key,sig,rest,onTop,room,same,confirmed,left⟩ :=
      Machine.confirmed_of_p2pkh rfl (Nat.le_of_ble_eq_true rfl) rfl short ran truthy
    have plain : (Script.p2pkh expected).isColoredP2PKH = false := rfl
    refine ⟨key,sig,rest,onTop,room,fun colored => ?_,same,confirmed,left⟩
    rw [plain] at colored
    cases colored
  · obtain ⟨_,fresh,_,_,ran⟩ := (Machine.advanceAll_withColor_success_iff rfl).mp ran
    obtain ⟨key,sig,rest,onTop,room,same,confirmed,left⟩ :=
      Machine.confirmed_of_p2pkh rfl (Nat.le_of_ble_eq_true rfl) rfl short ran truthy
    exact ⟨key,sig,rest,onTop,room,fun _ => fresh,same,confirmed,left⟩

private theorem evaluate_keyed_of_confirmed
    (shape : locking.isP2PKH = true ∨ locking.isColoredP2PKH = true)
    (commits : locking.keyDigest? = some digest) {key sig : Bytes} {rest : Stack}
    (onTop : before.stack = key :: sig :: rest) (room : rest.length + 4 ≤ Machine.maxItems)
    (uncolored : locking.isColoredP2PKH = true → before.color = none)
    (same : (Digest.hash160 key).val = digest) (short : sig.length ≤ Machine.maxItem)
    (confirmed : Confirmed rules locking sig key) :
    ∃ after, evaluate rules locking false before = .ok () after ∧
      after.stack = Number.ofBool true :: rest := by
  obtain ⟨expected,found,form⟩ := keyDigest?_of_shape shape
  obtain rfl := Option.some.inj (found.symm.trans commits)
  have ran : ∃ state, Machine.run ⟨rules,locking,false⟩ before.start = .ok () state ∧
      state.stack = Number.ofBool true :: rest := by
    rcases form with rfl | ⟨color,rfl⟩
    · have ended : ∃ state, Machine.advanceAll ⟨rules,Script.p2pkh expected,false⟩ 0
          (Script.p2pkh expected) before.start = .ok () state ∧
          state.stack = Number.ofBool true :: rest ∧ state.flow = [] :=
        Machine.p2pkh_of_confirmed rfl (Nat.le_of_ble_eq_true rfl) rfl onTop (by exact room) same short
          confirmed
      obtain ⟨state,ran,left,closed⟩ := ended
      refine ⟨state,Machine.run_success_iff.mpr ⟨?_,ran,closed⟩,left⟩
      rw [Script.size_p2pkh]
      decide
    · have colored := Script.isColoredP2PKH_iff.mpr ⟨color,expected,rfl⟩
      -- The bytes of the colour are on the stack for one step, beside the key and the signature.
      have deep : before.stack.length + 1 ≤ Machine.maxItems := by
        rw [onTop,List.length_cons,List.length_cons]
        omega
      have ended : ∃ state, Machine.advanceAll
          ⟨rules,Script.withColor color (Script.p2pkh expected),false⟩ 2
          (Script.p2pkh expected) { before.start with color := some color, opCount := 1 } = .ok () state ∧
          state.stack = Number.ofBool true :: rest ∧ state.flow = [] :=
        Machine.p2pkh_of_confirmed rfl (Nat.le_of_ble_eq_true rfl) rfl onTop (by exact room) same short
          confirmed
      obtain ⟨state,ran,left,closed⟩ := ended
      refine ⟨state,Machine.run_success_iff.mpr ⟨?_,(Machine.advanceAll_withColor_success_iff rfl).mpr
        ⟨rfl,uncolored colored,Nat.le_of_ble_eq_true rfl,deep,ran⟩,closed⟩,left⟩
      rw [Script.size_withColor,Script.size_p2pkh]
      decide
  obtain ⟨state,ran,left⟩ := ran
  exact ⟨_,evaluate_success_iff.mpr ⟨state,ran,rfl⟩,left⟩

private theorem redeem_of_not_pays (pays : paysToScript locking = false) (unlocked : Stack) :
    redeem rules unlocking locking unlocked before = .ok () before := by
  have skipped : ¬ (rules.flags.has .p2sh && paysToScript locking) = true := by
    rw [pays,Bool.and_false]
    exact Bool.false_ne_true
  rw [redeem,if_neg skipped]
  rfl

private theorem evaluate_of_start {script : Script} {redeem : Bool}
    (ok : evaluate rules script redeem before = .ok () after) (before' : Session)
    (same : before'.start = before.start) :
    ∃ after', evaluate rules script redeem before' = .ok () after' ∧
      after'.stack = after.stack ∧ after'.color = after.color := by
  obtain ⟨state,ran,rfl⟩ := evaluate_success_iff.mp ok
  rw [← same] at ran
  exact ⟨_,evaluate_success_iff.mpr ⟨state,ran,rfl⟩,rfl,rfl⟩

private theorem evaluate_short {script : Script} {redeem : Bool} (empty : before.stack = [])
    (ok : evaluate rules script redeem before = .ok () after) :
    ∀ item ∈ after.stack, item.length ≤ Machine.maxItem := by
  refine (evaluate_items ?_ ?_ ok).2
  · rw [empty]
    exact Nat.zero_le _
  · rw [empty]
    exact fun _ member => nomatch member

private theorem payment_of_verify (shape : locking.isP2PKH = true ∨ locking.isColoredP2PKH = true)
    (commits : locking.keyDigest? = some digest)
    (ok : verify rules unlocking locking before = .ok () after) :
    ∃ unlocked sig key rest, Payment rules unlocking locking digest unlocked sig key rest := by
  obtain ⟨final,satisfied,rfl⟩ := verify_success_iff.mp ok
  rw [satisfy_eq] at satisfied
  obtain ⟨_,middle,opened,satisfied⟩ := bind_success _ _ _ _ _ satisfied
  obtain ⟨_,last,redeemed,tidied⟩ := bind_success _ _ _ _ _ satisfied
  rw [redeem_of_not_pays (paysToScript_of_keyDigest shape)] at redeemed
  cases redeemed
  obtain ⟨rfl,single⟩ := tidy_success_iff.mp tidied
  obtain ⟨pushes,unlocked,ran,_,locked,truthy⟩ := unlock_success_iff.mp opened
  obtain ⟨key,sig,rest,onTop,room,uncolored,same,confirmed,left⟩ :=
    evaluate_keyed shape commits (evaluate_short rfl ran) locked truthy
  obtain ⟨unlocked',unlocks,stack,color⟩ := evaluate_of_start ran {} rfl
  refine ⟨unlocked',sig,key,rest,pushes,unlocks,stack.trans onTop,room,?_,same,confirmed,?_⟩
  · rw [color]
    exact uncolored
  · intro clean
    have one := (single clean).2
    rw [left,List.length_cons] at one
    exact List.length_eq_zero_iff.mp (Nat.succ.inj one)

theorem Payment.verify {unlocked : Session} {sig key : Bytes} {rest : Stack}
    (payment : Payment rules unlocking locking digest unlocked sig key rest)
    (known : rules.flags.has .cleanStack = true → rules.flags.has .p2sh = true)
    (shape : locking.isP2PKH = true ∨ locking.isColoredP2PKH = true)
    (commits : locking.keyDigest? = some digest) (before : Session) :
    ∃ after, Session.verify rules unlocking locking before = .ok () after := by
  obtain ⟨pushes,unlocks,onTop,room,uncolored,same,confirmed,clean⟩ := payment
  obtain ⟨unlocked',ran,stack,color⟩ := evaluate_of_start unlocks
    { calls := before.calls, journal := before.journal } rfl
  have onTop' : unlocked'.stack = key :: sig :: rest := stack.trans onTop
  have short : sig.length ≤ Machine.maxItem := evaluate_short rfl unlocks sig (by simp [onTop])
  obtain ⟨locked,locks,left⟩ := evaluate_keyed_of_confirmed shape commits onTop' room
    (by rw [color]; exact uncolored) same short confirmed
  have opened : unlock rules unlocking locking
      { calls := before.calls, journal := before.journal } = .ok unlocked'.stack locked := by
    refine unlock_success_iff.mpr ⟨pushes,unlocked',ran,rfl,locks,?_⟩
    rw [left,isTrue_ofBool]
  have accepted : redeem rules unlocking locking unlocked'.stack locked = .ok () locked :=
    redeem_of_not_pays (paysToScript_of_keyDigest shape) unlocked'.stack
  have tidied : tidy rules locked = .ok () locked := by
    refine tidy_success_iff.mpr ⟨rfl,fun cleaned => ⟨known cleaned,?_⟩⟩
    rw [left,clean cleaned]
    rfl
  refine ⟨_,verify_success_iff.mpr ⟨locked,?_,rfl⟩⟩
  rw [satisfy_eq,bind_of_success opened,bind_of_success accepted,tidied]

/-- A verification against a script that pays to a key digest succeeds exactly if the unlocking script
leaves a signature and a key with that digest, both as the flags want them, which the oracle confirms
for the locking script without the push of the signature. -/
theorem verify_iff_payment (rules : Rules)
    (known : rules.flags.has .cleanStack = true → rules.flags.has .p2sh = true)
    (unlocking locking : Script)
    (shape : locking.isP2PKH = true ∨ locking.isColoredP2PKH = true) (digest : Bytes)
    (commits : locking.keyDigest? = some digest) (before : Session) :
    (∃ after, verify rules unlocking locking before = .ok () after) ↔
      ∃ unlocked sig key rest, Payment rules unlocking locking digest unlocked sig key rest := by
  constructor
  · intro verified
    obtain ⟨after,ok⟩ := verified
    exact payment_of_verify shape commits ok
  · intro payable
    obtain ⟨unlocked,sig,key,rest,payment⟩ := payable
    exact payment.verify known shape commits before

/-- A signature of the fixed length and a compressed key, for an output with a colour. -/
theorem verify_iff_payment_colored :
    ∃ after, verify ⟨Flags.ofList [.p2sh,.strictEnc,.cleanStack,.sigPushOnly],fun _ => true⟩
      [.push [65] (List.replicate 64 0x00 ++ [0x01]),.push [33] (0x02 :: List.replicate 32 0x00)]
      (Script.withColor (ColorId.reissuable [])
        (Script.p2pkh (Digest.hash160 (0x02 :: List.replicate 32 0x00)))) {} = .ok () after := by
  have colored := Script.isColoredP2PKH_iff.mpr ⟨ColorId.reissuable [],
    Digest.hash160 (0x02 :: List.replicate 32 0x00),rfl⟩
  have unlocks : ∃ unlocked, evaluate
      ⟨Flags.ofList [.p2sh,.strictEnc,.cleanStack,.sigPushOnly],fun _ => true⟩
      [.push [65] (List.replicate 64 0x00 ++ [0x01]),.push [33] (0x02 :: List.replicate 32 0x00)]
      false {} = .ok () unlocked ∧ unlocked.color = none ∧
      unlocked.stack = [0x02 :: List.replicate 32 0x00,List.replicate 64 0x00 ++ [0x01]] :=
    ⟨_,rfl,rfl,rfl⟩
  obtain ⟨unlocked,ran,color,onTop⟩ := unlocks
  refine (verify_iff_payment _ (by decide) _ _ (.inr colored) _
    (Script.keyDigest?_withColor _ _) {}).mpr
      ⟨unlocked,List.replicate 64 0x00 ++ [0x01],0x02 :: List.replicate 32 0x00,[],?_⟩
  exact
    { pushes := fun _ => rfl
      unlocks := ran
      onTop
      room := by decide
      uncolored := fun _ => color
      same := rfl
      confirmed := ⟨rfl,rfl,fun strict => absurd strict (by decide),rfl⟩
      clean := fun _ => rfl }

end Session

end ColorScript
