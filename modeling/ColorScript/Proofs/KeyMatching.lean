import Mathlib.Data.List.Forall2
import Mathlib.Data.List.NodupEquivFin
import ColorScript.Proofs.Faultless.SignatureCheck
import ColorScript.Proofs.MultisigFrame
import ColorScript.Proofs.SignatureLockstep

/-! Several signatures against several keys. The signatures are matched greedily, both lists from the
last one on, and that finds a matching in the given order whenever there is one: a key that takes the
signature whose turn it is need not be saved for another. -/
namespace ColorScript

/-- Whether the oracle takes a signature of some code for one by a key. -/
def Oracle.Accepts (oracle : Oracle) (code : Script) (sig key : Bytes) : Prop :=
  oracle (.signature sig key code) = true

/-- Signatures that have keys of their own, in the same order. -/
def Oracle.Matched (oracle : Oracle) (code : Script) (sigs keys : List Bytes) : Prop :=
  ∃ key : Fin sigs.length → Fin keys.length, StrictMono key ∧
    ∀ place, oracle.Accepts code (sigs.get place) (keys.get (key place))

section Matchings

variable {α β : Type} {related : α → β → Prop} {first : α} {second : β} {firsts : List α}
  {seconds : List β}

private theorem sublistForall₂_iff_strictMono : List.SublistForall₂ related firsts seconds ↔
    ∃ choice : Fin firsts.length → Fin seconds.length, StrictMono choice ∧
      ∀ place, related (firsts.get place) (seconds.get (choice place)) := by
  rw [List.sublistForall₂_iff]
  constructor
  · intro holds
    obtain ⟨chosen,each,inside⟩ := holds
    obtain ⟨choice,same⟩ := List.sublist_iff_exists_fin_orderEmbedding_get_eq.mp inside
    obtain ⟨length,each⟩ := List.forall₂_iff_get.mp each
    refine ⟨choice ∘ Fin.cast length,choice.strictMono.comp (Fin.cast_strictMono length),?_⟩
    intro place
    rw [Function.comp_apply,← same]
    exact each place place.2 (length ▸ place.2)
  · intro holds
    obtain ⟨choice,increasing,each⟩ := holds
    have length : (List.ofFn (seconds.get ∘ choice)).length = firsts.length := List.length_ofFn
    refine ⟨List.ofFn (seconds.get ∘ choice),List.forall₂_iff_get.mpr ⟨length.symm,?_⟩,?_⟩
    · intro place bound bound'
      rw [List.get_ofFn]
      exact each ⟨place,bound⟩
    · refine List.sublist_iff_exists_fin_orderEmbedding_get_eq.mpr
        ⟨OrderEmbedding.ofStrictMono (choice ∘ Fin.cast length)
          (increasing.comp (Fin.cast_strictMono length)),fun place => ?_⟩
      rw [List.get_ofFn]
      rfl

private theorem sublistForall₂_reverse : List.SublistForall₂ related firsts.reverse seconds.reverse ↔
    List.SublistForall₂ related firsts seconds := by
  have turned {firsts : List α} {seconds : List β} (holds : List.SublistForall₂ related firsts seconds) :
      List.SublistForall₂ related firsts.reverse seconds.reverse := by
    obtain ⟨chosen,each,inside⟩ := List.sublistForall₂_iff.mp holds
    exact List.sublistForall₂_iff.mpr
      ⟨chosen.reverse,List.forall₂_reverse_iff.mpr each,List.reverse_sublist.mpr inside⟩
  refine ⟨fun holds => ?_,turned⟩
  have back := turned holds
  rwa [List.reverse_reverse,List.reverse_reverse] at back

private theorem length_le_of_sublistForall₂ (holds : List.SublistForall₂ related firsts seconds) :
    firsts.length ≤ seconds.length := by
  obtain ⟨chosen,each,inside⟩ := List.sublistForall₂_iff.mp holds
  exact each.length_eq ▸ inside.length_le

private theorem sublistForall₂_of_cons (holds : List.SublistForall₂ related (first :: firsts) seconds) :
    List.SublistForall₂ related firsts seconds := by
  obtain ⟨chosen,each,inside⟩ := List.sublistForall₂_iff.mp holds
  cases each with
  | cons _ others => exact List.sublistForall₂_iff.mpr ⟨_,others,(List.sublist_cons_self _ _).trans inside⟩

-- The exchange: where the two first elements are related, some matching relates them if there
-- is any.
private theorem sublistForall₂_exchange (accepted : related first second) :
    List.SublistForall₂ related (first :: firsts) (second :: seconds) ↔
      List.SublistForall₂ related firsts seconds := by
  refine ⟨fun holds => ?_,.cons accepted⟩
  cases holds with
  | cons _ others => exact others
  | cons_right others => exact sublistForall₂_of_cons others

private theorem sublistForall₂_skip (refused : ¬ related first second) :
    List.SublistForall₂ related (first :: firsts) (second :: seconds) ↔
      List.SublistForall₂ related (first :: firsts) seconds := by
  refine ⟨fun holds => ?_,.cons_right⟩
  cases holds with
  | cons accepted _ => exact absurd accepted refused
  | cons_right others => exact others

end Matchings

-- The machine has the last signature and the last key on top.
private theorem Oracle.matched_iff_reverse {oracle : Oracle} {code : Script} {sigs keys : List Bytes} :
    oracle.Matched code sigs keys ↔
      List.SublistForall₂ (oracle.Accepts code) sigs.reverse keys.reverse :=
  sublistForall₂_iff_strictMono.symm.trans sublistForall₂_reverse.symm

namespace Machine

variable {ctx : Context} {code : Script} {sigs keys : List Bytes} {before : State}

-- The run lemma: no signature is left exactly if they can be matched. Those that are left are
-- the last ones whose turn it would be.
private theorem matchKeys_greedy (sigsRight : ∀ sig ∈ sigs, Signature.checkTransaction ctx.flags sig = .ok ())
    (keysRight : ∀ key ∈ keys, Signature.checkKey ctx.flags key = .ok ()) :
    ∃ left calls, matchKeys ctx code sigs keys before = .ok left { before with calls } ∧
      left <:+ sigs ∧ (left = [] ↔ List.SublistForall₂ (ctx.oracle.Accepts code) sigs keys) := by
  -- Every key is tried once; what is left after it has a matching exactly if all had one.
  induction keys generalizing sigs before with
  | nil =>
    rw [matchKeys_noKeys]
    refine ⟨sigs,before.calls,rfl,List.suffix_rfl,fun none => ?_,fun holds => ?_⟩
    · rw [none]
      exact .nil
    · exact List.length_eq_zero_iff.mp (Nat.le_zero.mp (length_le_of_sublistForall₂ holds))
  | cons key keys ih =>
    cases sigs with
    | nil => exact ⟨[],before.calls,rfl,List.suffix_rfl,iff_of_true rfl .nil⟩
    | cons sig sigs =>
      obtain ⟨sigRight,othersRight⟩ := List.forall_mem_cons.mp sigsRight
      obtain ⟨keyRight,keysRight⟩ := List.forall_mem_cons.mp keysRight
      obtain ⟨rest,turn⟩ : ∃ rest, rest =
        if ctx.oracle (.signature sig key code) = true then sigs else sig :: sigs := ⟨_,rfl⟩
      have tried := matchKeys_cons code sigs keys before sigRight keyRight rest turn
      have suffix : rest <:+ sig :: sigs := by
        rw [turn]
        split
        next => exact List.suffix_cons sig sigs
        next => exact List.suffix_rfl
      have matching : List.SublistForall₂ (ctx.oracle.Accepts code) (sig :: sigs) (key :: keys) ↔
          List.SublistForall₂ (ctx.oracle.Accepts code) rest keys := by
        rw [turn]
        split
        next accepted => exact sublistForall₂_exchange accepted
        next refused => exact sublistForall₂_skip refused
      rw [tried,matching]
      split
      next fewer =>
        refine ⟨rest,_,rfl,suffix,iff_of_false (fun none => ?_) fun holds => ?_⟩
        · rw [none] at fewer
          cases fewer
        · exact absurd (length_le_of_sublistForall₂ holds) (Nat.not_le_of_lt fewer)
      next =>
        have restRight : ∀ sig ∈ rest, Signature.checkTransaction ctx.flags sig = .ok () :=
          fun sig member => sigsRight sig (suffix.subset member)
        obtain ⟨left,calls,ran,last,found⟩ := ih restRight keysRight
        exact ⟨left,calls,ran,last.trans suffix,found⟩

/-- What several signatures are checked on, above the items `base`, the bottom one first: an item that
is not used, the signatures and their number, the keys and their number. The encodings are right, and
the signatures commit to `code`. -/
structure ReadyToMatch (ctx : Context) (before : State) (base : Stack) (unused : Bytes)
    (sigs keys : List Bytes) (code : Script) : Prop where
  items : ∃ keyCount sigCount,
    before.stack = keyCount :: (keys.reverse ++ sigCount :: (sigs.reverse ++ unused :: base)) ∧
    Number.operand Number.operandSize (ctx.flags.has .minimalData) keyCount = .ok keys.length ∧
    Number.operand Number.operandSize (ctx.flags.has .minimalData) sigCount = .ok sigs.length
  fewer : sigs.length ≤ keys.length
  limit : keys.length ≤ 20
  room : before.opCount + keys.length ≤ 201
  sigsRight : ∀ sig ∈ sigs, Signature.checkTransaction ctx.flags sig = .ok ()
  keysRight : ∀ key ∈ keys, Signature.checkKey ctx.flags key = .ok ()
  scheme : ∃ scheme, ∀ sig ∈ sigs, sig ≠ [] → Signature.transactionScheme sig = scheme
  coded : scriptCode ctx before.codeStart sigs = .ok code

private def judge (ctx : Context) (left : List Bytes) : Machine Unit := do
  requireNullFail ctx left.isEmpty left
  let unused ← pop
  ensure (!ctx.flags.has .nullDummy || unused.isEmpty) .sigNullDummy
  conclude .yield .checkMultiSigVerify left.isEmpty

private theorem judge_refused {left : List Bytes} (strictly : ctx.flags.has .nullFail = true)
    (filled : ∃ sig ∈ left, sig ≠ []) : judge ctx left before = .error .sigNullFail before := by
  obtain ⟨sig,member,filled⟩ := filled
  have some : left.isEmpty = false := by
    rw [List.isEmpty_eq_false_iff]
    exact List.ne_nil_of_mem member
  have refused : left.all List.isEmpty = false := by
    rw [List.all_eq_false]
    exact ⟨sig,member,by simpa using filled⟩
  rw [judge,requireNullFail,some,strictly,refused]
  rfl

private theorem judge_passed {left : List Bytes} {unused : Bytes} {base : Stack}
    (passed : ctx.flags.has .nullFail = true → ∀ sig ∈ left, sig = [])
    (top : before.stack = unused :: base) : judge ctx left before =
      if ctx.flags.has .nullDummy = true ∧ unused ≠ [] then
        .error .sigNullDummy { before with stack := base }
      else .ok () { before with stack := Number.ofBool left.isEmpty :: base } := by
  have allowed : (left.isEmpty || !ctx.flags.has .nullFail || left.all List.isEmpty) = true := by
    cases strictly : ctx.flags.has .nullFail with
    | false => simp
    | true => simpa using .inr (passed strictly)
  rw [judge,requireNullFail,allowed]
  change (pop >>= fun item => _) before = _
  rw [bind_of_success (pop_cons top)]
  cases ctx.flags.has .nullDummy <;> cases unused <;> rfl

private theorem checkCounted_eq {base : Stack} {keyCount sigCount unused : Bytes}
    (items : before.stack = keyCount :: (keys.reverse ++ sigCount :: (sigs.reverse ++ unused :: base)))
    (coded : scriptCode ctx before.codeStart sigs = .ok code) (same : sameScheme sigs.reverse = true) :
    checkCounted ctx .yield keys.length sigs.length before =
      (matchKeys ctx code sigs.reverse keys.reverse >>= judge ctx)
        { before with stack := unused :: base } := by
  have keysTaken : popMany keys.length { before with
      stack := keys.reverse ++ sigCount :: (sigs.reverse ++ unused :: base) } =
      .ok keys.reverse { before with stack := sigCount :: (sigs.reverse ++ unused :: base) } :=
    popMany_success_iff.mpr ⟨_,rfl,List.length_reverse,rfl⟩
  have sigsTaken : popMany sigs.length { before with stack := sigs.reverse ++ unused :: base } =
      .ok sigs.reverse { before with stack := unused :: base } :=
    popMany_success_iff.mpr ⟨_,rfl,List.length_reverse,rfl⟩
  have schemes : ensure (sameScheme sigs.reverse) .mixedSchemeMultisig { before with stack := unused :: base } =
      .ok () { before with stack := unused :: base } :=
    ensure_success_iff.mpr ⟨same,rfl⟩
  rw [checkCounted,bind_of_success (pop_cons items),bind_of_success keysTaken,
    bind_of_success (pop_cons rfl),bind_of_success sigsTaken,get_bind_apply,List.reverse_reverse,
    bind_of_success (ofExcept_success_iff.mpr ⟨coded,rfl⟩),bind_of_success schemes]
  rfl

namespace ReadyToMatch

variable {base : Stack} {unused : Bytes}

theorem counted (ready : ReadyToMatch ctx before base unused sigs keys code) :
    Counted ctx before keys.length sigs.length := by
  obtain ⟨keyCount,sigCount,items,keysRead,sigsRead⟩ := ready.items
  have top : before.stack.peek? 0 = some keyCount := by
    rw [Stack.peek?,items,List.getElem?_cons_zero]
  have below : before.stack.peek? (keys.length + 1) = some sigCount := by
    rw [Stack.peek?,items,List.getElem?_cons_succ,← List.length_reverse,
      List.getElem?_append_right (Nat.le_refl _),Nat.sub_self,List.getElem?_cons_zero]
  exact ⟨⟨keyCount,top,keysRead⟩,ready.limit,ready.room,⟨sigCount,below,sigsRead⟩,ready.fewer⟩

theorem multisigCounts_eq (ready : ReadyToMatch ctx before base unused sigs keys code) :
    multisigCounts ctx before =
      .ok (keys.length,sigs.length) { before with opCount := before.opCount + keys.length } := by
  obtain ⟨keyCount,sigCount,items,_⟩ := ready.items
  have length : before.stack.length = keys.length + 2 + sigs.length + 1 + base.length := by
    rw [items]
    simp only [List.length_cons,List.length_append,List.length_reverse]
    omega
  have enough : keys.length + 2 + sigs.length ≤ before.stack.length := by omega
  have there : require (keys.length + 2 + sigs.length) { before with opCount := before.opCount + keys.length } =
      .ok () { before with opCount := before.opCount + keys.length } := require_of_le enough
  rw [ready.counted.multisigCounts_eq,bind_of_success there]
  rfl

theorem sameScheme_reverse (ready : ReadyToMatch ctx before base unused sigs keys code) :
    sameScheme sigs.reverse = true := by
  obtain ⟨scheme,same⟩ := ready.scheme
  rw [GuardedMachine.sameScheme_reverse,GuardedMachine.sameScheme_iff]
  intro first ofFirst second ofSecond filled filled'
  rw [same first ofFirst filled,same second ofSecond filled']

private theorem checkMultiSig_judged (ready : ReadyToMatch ctx before base unused sigs keys code) :
    ∃ left calls, checkMultiSig ctx .yield before = judge ctx left { before with
        stack := unused :: base, opCount := before.opCount + keys.length, calls } ∧
      left ⊆ sigs ∧ (left = [] ↔ ctx.oracle.Matched code sigs keys) := by
  obtain ⟨keyCount,sigCount,items,_⟩ := ready.items
  let counted : State := { before with opCount := before.opCount + keys.length }
  obtain ⟨left,calls,matched,suffix,found⟩ :=
    @matchKeys_greedy ctx code sigs.reverse keys.reverse { counted with stack := unused :: base }
      (fun sig member => ready.sigsRight sig (List.mem_reverse.mp member))
      (fun key member => ready.keysRight key (List.mem_reverse.mp member))
  refine ⟨left,calls,?_,fun sig member => List.mem_reverse.mp (suffix.subset member),
    found.trans Oracle.matched_iff_reverse.symm⟩
  have run := @checkCounted_eq ctx code sigs keys counted base keyCount sigCount unused items ready.coded
    ready.sameScheme_reverse
  rw [checkMultiSig_eq,bind_of_success ready.multisigCounts_eq]
  exact run.trans (bind_of_success matched _)

end ReadyToMatch

/-- How a check of several signatures ends that a matching decides, above the items `base`. -/
structure DecidedBy (ctx : Context) (before : State) (base : Stack) (unused : Bytes)
    (sigs keys : List Bytes) (matched : Prop) (ended : EStateM.Result ScriptError State Unit) : Prop where
  /-- It yields true exactly if there is a matching, and the unused item is empty where it must be. -/
  accepts : (∃ after, ended = .ok () after ∧ after.stack = Number.ofBool true :: base) ↔
    matched ∧ (ctx.flags.has .nullDummy = true → unused = [])
  /-- A matching does not help where the unused item must be empty and is not. -/
  spoilt : matched → ctx.flags.has .nullDummy = true → unused ≠ [] →
    ∃ after, ended = .error .sigNullDummy after
  /-- Without a matching, all that it can yield is false. -/
  refuses : ¬ matched → ∀ after, ended = .ok () after → after.stack = [] :: base
  /-- Without the rule for failed signatures, false is what it yields, if the unused item allows that. -/
  lenient : ¬ matched → ctx.flags.has .nullFail = false →
    if ctx.flags.has .nullDummy = true ∧ unused ≠ [] then ∃ after, ended = .error .sigNullDummy after
    else ∃ after, ended = .ok () after ∧ after.stack = [] :: base
  /-- Under that rule, signatures that are all filled make it fail. -/
  strict : ¬ matched → ctx.flags.has .nullFail = true → (∀ sig ∈ sigs, sig ≠ []) →
    ∃ after, ended = .error .sigNullFail after
  /-- Besides the stack, only the counted operations and the questions change. -/
  frame : ∀ after, ended = .ok () after → ∃ calls, after = { before with
    stack := after.stack, opCount := before.opCount + keys.length, calls }

namespace DecidedBy

variable {base : Stack} {unused : Bytes} {matched : Prop}

private theorem of_sigNullFail {last : State} (strictly : ctx.flags.has .nullFail = true) (unmatched : ¬ matched) :
    DecidedBy ctx before base unused sigs keys matched (.error .sigNullFail last) where
  accepts := iff_of_false nofun fun holds => unmatched holds.1
  spoilt holds := absurd holds unmatched
  refuses _ _ := nofun
  lenient _ lenient := nomatch strictly.symm.trans lenient
  strict _ _ _ := ⟨last,rfl⟩
  frame _ := nofun

private theorem of_sigNullDummy {last : State} (asked : ctx.flags.has .nullDummy = true) (filled : unused ≠ [])
    (passed : ¬ matched → ctx.flags.has .nullFail = true → ∃ sig ∈ sigs, sig = []) :
    DecidedBy ctx before base unused sigs keys matched (.error .sigNullDummy last) where
  accepts := iff_of_false nofun fun holds => filled (holds.2 asked)
  spoilt _ _ _ := ⟨last,rfl⟩
  refuses _ _ := nofun
  lenient _ _ := by
    rw [if_pos ⟨asked,filled⟩]
    exact ⟨last,rfl⟩
  strict unmatched strictly signed := by
    obtain ⟨sig,member,empty⟩ := passed unmatched strictly
    exact absurd empty (signed sig member)
  frame _ := nofun

private theorem of_yield {truth : Bool} {calls : List Call} (verdict : truth = true ↔ matched)
    (clean : ctx.flags.has .nullDummy = true → unused = [])
    (passed : ¬ matched → ctx.flags.has .nullFail = true → ∃ sig ∈ sigs, sig = []) :
    DecidedBy ctx before base unused sigs keys matched (.ok () { before with
      stack := Number.ofBool truth :: base, opCount := before.opCount + keys.length, calls }) where
  accepts := by
    rw [← verdict]
    cases truth with
    | false =>
      refine iff_of_false (fun accepted => ?_) nofun
      obtain ⟨after,ok,top⟩ := accepted
      cases ok
      cases top
    | true => exact iff_of_true ⟨_,rfl,rfl⟩ ⟨rfl,clean⟩
  spoilt _ asked filled := absurd (clean asked) filled
  refuses unmatched after ok := by
    have refused : truth = false := Bool.eq_false_iff.mpr (mt verdict.mp unmatched)
    cases ok
    rw [refused]
    rfl
  lenient unmatched _ := by
    have refused : truth = false := Bool.eq_false_iff.mpr (mt verdict.mp unmatched)
    rw [if_neg fun spoilt => spoilt.2 (clean spoilt.1),refused]
    exact ⟨_,rfl,rfl⟩
  strict unmatched strictly signed := by
    obtain ⟨sig,member,empty⟩ := passed unmatched strictly
    exact absurd empty (signed sig member)
  frame after ok := by
    cases ok
    exact ⟨calls,rfl⟩

end DecidedBy

/-- The greedy check of several signatures is sound and complete: it yields true exactly if the
signatures have keys in the same order. -/
theorem checkMultiSig_decided {base : Stack} {unused : Bytes}
    (ready : ReadyToMatch ctx before base unused sigs keys code) (place : Nat) :
    DecidedBy ctx before base unused sigs keys (ctx.oracle.Matched code sigs keys)
      (execute ctx place (Operation.ofOpcode Opcode.checkMultiSig) before) := by
  obtain ⟨left,calls,ran,ofSigs,found⟩ := ready.checkMultiSig_judged
  change DecidedBy ctx before base unused sigs keys _ (checkMultiSig ctx .yield before)
  rw [ran,← found]
  by_cases refused : ctx.flags.has .nullFail = true ∧ ∃ sig ∈ left, sig ≠ []
  · obtain ⟨strictly,sig,member,filled⟩ := refused
    rw [judge_refused strictly ⟨sig,member,filled⟩]
    exact .of_sigNullFail strictly (List.ne_nil_of_mem member)
  · have empty : ctx.flags.has .nullFail = true → ∀ sig ∈ left, sig = [] := by
      simpa using refused
    -- Under the strict rule some signature was empty if one is left.
    have passed : left ≠ [] → ctx.flags.has .nullFail = true → ∃ sig ∈ sigs, sig = [] := by
      intro some strictly
      obtain ⟨sig,member⟩ := List.exists_mem_of_ne_nil left some
      exact ⟨sig,ofSigs member,empty strictly sig member⟩
    rw [judge_passed empty rfl]
    split
    next spoilt => exact .of_sigNullDummy spoilt.1 spoilt.2 passed
    next clean => exact .of_yield List.isEmpty_iff (by simpa using clean) passed

/-- Two of three keys have signed, the first and the last, and one more item lies below. -/
theorem checkMultiSig_decided_twoOfThree :
    ∃ after, execute ⟨⟨Flags.ofList [.nullDummy,.nullFail],fun query =>
          query = .signature [8] [1] [] || query = .signature [9] [3] []⟩,[],false⟩ 0
        (Operation.ofOpcode Opcode.checkMultiSig)
        { stack := [[3],[3],[2],[1],[2],[9],[8],[],[7]] } = .ok () after ∧
      after.stack = [[1],[7]] := by
  have ready : ReadyToMatch ⟨⟨Flags.ofList [.nullDummy,.nullFail],fun query =>
        query = .signature [8] [1] [] || query = .signature [9] [3] []⟩,[],false⟩
      { stack := [[3],[3],[2],[1],[2],[9],[8],[],[7]] } [[7]] [] [[8],[9]] [[1],[2],[3]] [] :=
    { items := ⟨[3],[2],rfl,rfl,rfl⟩
      fewer := by decide
      limit := by decide
      room := by decide
      sigsRight := by decide
      keysRight := by decide
      scheme := ⟨.ecdsa,by decide⟩
      coded := by decide +kernel }
  refine (checkMultiSig_decided ready 0).accepts.mpr ⟨?_,fun _ => rfl⟩
  exact sublistForall₂_iff_strictMono.mp (.cons rfl (.cons_right (.cons rfl .nil)))

end Machine

end ColorScript
