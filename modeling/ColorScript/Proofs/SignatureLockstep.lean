import ColorScript.Proofs.MachineLockstep

/-! The operations that check signatures, in lock step. An oracle that says yes more often may
match other keys to the signatures. Unless a failed check of a signature is accepted, the
signatures left without a key are still the same. -/
namespace ColorScript.Machine
open Signature

variable {view : View} {strict lax : Context}

private theorem judged_lax {strict lax : Flags} (subset : lax ⊆ strict) (success : Bool)
    (sigs : List Bytes) (judged : (success || !strict.has .nullFail || sigs.all List.isEmpty) = true) :
    (success || !lax.has .nullFail || sigs.all List.isEmpty) = true := by
  cases success with
  | true => rfl
  | false => exact Flags.unless_has subset .nullFail _ judged

theorem checkSig_lockstep (relaxes : view.Relaxes strict lax) (ending : Ending) :
    Lockstep view.Alike Eq (checkSig strict ending) (checkSig lax ending) := by
  refine (require_lockstep 2).seq fun _ => pop_lockstep.seq fun key => pop_lockstep.seq fun sig => ?_
  refine Lockstep.get.bind fun before before' alike => ?_
  rw [alike.codeStart]
  refine (ofExcept_lockstep _ _ (scriptCode_lax relaxes.script relaxes.rules.flags _ _)).bind ?_
  intro code code' read
  obtain ⟨rfl,_⟩ := read
  refine (ofExcept_lockstep _ _ fun _ => checkTransactionBy_lax relaxes.rules.flags sig).bind fun _ _ _ => ?_
  refine (ofExcept_lockstep _ _ fun _ => checkKey_lax relaxes.rules.flags key).bind fun _ _ _ => ?_
  refine (ask_lockstep relaxes _).bind ?_
  intro answer answer' answered
  obtain ⟨rfl,rfl⟩ := answered
  have same := relaxes.rules.signature_eq sig key code
  refine guard_lockstep (fun judged => ?_) fun judged => ?_
  · rw [same judged]
    exact judged_lax relaxes.rules.flags _ _ judged
  · rw [same judged]
    exact conclude_lockstep ending _ _

theorem checkDataSig_lockstep (relaxes : view.Relaxes strict lax) (ending : Ending) :
    Lockstep view.Alike Eq (checkDataSig strict ending) (checkDataSig lax ending) := by
  refine (require_lockstep 3).seq fun _ => pop_lockstep.seq fun key => pop_lockstep.seq fun message =>
    pop_lockstep.seq fun sig => ?_
  refine (ofExcept_lockstep _ _ fun _ => checkDataBy_lax relaxes.rules.flags sig).bind fun _ _ _ => ?_
  refine (ofExcept_lockstep _ _ fun _ => checkKey_lax relaxes.rules.flags key).bind fun _ _ _ => ?_
  cases nonempty : sig.isEmpty with
  | true =>
    refine Lockstep.seq (Lockstep.pure rfl) fun success => ?_
    exact guard_lockstep (judged_lax relaxes.rules.flags _ _) fun _ => conclude_lockstep ending _ _
  | false =>
    refine (ask_lockstep relaxes _).bind ?_
    intro answer answer' answered
    obtain ⟨rfl,rfl⟩ := answered
    have same := relaxes.rules.dataSignature_eq sig key (Digest.sha256 message).val nonempty
    refine guard_lockstep (fun judged => ?_) fun judged => ?_
    · rw [same judged]
      exact judged_lax relaxes.rules.flags _ _ judged
    · rw [same judged]
      exact conclude_lockstep ending _ _

def asked (ctx : Context) (query : Query) (state : State) : State :=
  { state with calls := state.calls ++ [⟨query,ctx.oracle query⟩] }

theorem matchKeys_nil (ctx : Context) (code : Script) (keys : List Bytes) :
    matchKeys ctx code [] keys = pure [] := by
  cases keys <;> rfl

theorem matchKeys_noKeys (ctx : Context) (code : Script) (sigs : List Bytes) :
    matchKeys ctx code sigs [] = pure sigs := by
  cases sigs <;> rfl

theorem matchKeys_cons {ctx : Context} {sig key : Bytes} (code : Script) (sigs keys : List Bytes)
    (before : State) (sigRight : checkTransaction ctx.flags sig = .ok ())
    (keyRight : checkKey ctx.flags key = .ok ()) (left : List Bytes)
    (turn : left = if ctx.oracle (.signature sig key code) = true then sigs else sig :: sigs) :
    matchKeys ctx code (sig :: sigs) (key :: keys) before =
      if keys.length < left.length then .ok left (asked ctx (.signature sig key code) before)
      else matchKeys ctx code left keys (asked ctx (.signature sig key code) before) := by
  rw [matchKeys,sigRight,keyRight]
  change (if keys.length < (if ctx.oracle (.signature sig key code) = true then sigs
      else sig :: sigs).length then (pure _ : Machine (List Bytes)) else matchKeys ctx code _ keys)
    (asked ctx (.signature sig key code) before) = _
  rw [← turn]
  split <;> rfl

private theorem matchKeys_right {ctx : Context} {sig key : Bytes} {code : Script} {sigs keys left : List Bytes}
    {before after : State} (ok : matchKeys ctx code (sig :: sigs) (key :: keys) before = .ok left after) :
    checkTransaction ctx.flags sig = .ok () ∧ checkKey ctx.flags key = .ok () := by
  rw [matchKeys] at ok
  cases sigRight : checkTransaction ctx.flags sig with
  | error error => rw [sigRight] at ok; cases ok
  | ok _ =>
    cases keyRight : checkKey ctx.flags key with
    | error error => rw [sigRight,keyRight] at ok; cases ok
    | ok _ => exact ⟨rfl,rfl⟩

/-- The signatures left without a key are the last ones, and the others had right encodings. -/
theorem matchKeys_used {ctx : Context} {code : Script} {keys : List Bytes} :
    ∀ {sigs left : List Bytes} {before after : State},
      matchKeys ctx code sigs keys before = .ok left after →
      ∃ used, sigs = used ++ left ∧ ∀ sig ∈ used, checkTransaction ctx.flags sig = .ok () := by
  induction keys with
  | nil =>
    intro sigs left before after ok
    rw [matchKeys_noKeys] at ok
    cases ok
    exact ⟨[],rfl,by simp⟩
  | cons key keys ih =>
    intro sigs left before after ok
    cases sigs with
    | nil =>
      rw [matchKeys_nil] at ok
      cases ok
      exact ⟨[],rfl,by simp⟩
    | cons sig sigs =>
      obtain ⟨sigRight,keyRight⟩ := matchKeys_right ok
      obtain ⟨rest,turn⟩ : ∃ rest, rest =
        if ctx.oracle (.signature sig key code) = true then sigs else sig :: sigs := ⟨_,rfl⟩
      rw [matchKeys_cons code sigs keys before sigRight keyRight rest turn] at ok
      have later : ∃ used, rest = used ++ left ∧
          ∀ sig ∈ used, checkTransaction ctx.flags sig = .ok () := by
        split at ok
        next => cases ok; exact ⟨[],rfl,by simp⟩
        next => exact ih ok
      obtain ⟨used,rfl,right⟩ := later
      split at turn
      next =>
        refine ⟨sig :: used,by rw [← turn,List.cons_append],?_⟩
        exact List.forall_mem_cons.mpr ⟨sigRight,right⟩
      next => exact ⟨used,turn.symm,right⟩

private theorem matchKeys_silent (uncompared : view.calls = false) (ctx : Context) (code : Script)
    (sigs keys : List Bytes) :
    Lockstep view.Alike (fun _ _ => True) (matchKeys ctx code sigs keys) (pure ()) := by
  induction keys generalizing sigs with
  | nil =>
    rw [matchKeys_noKeys]
    exact Lockstep.pure trivial
  | cons key keys ih =>
    cases sigs with
    | nil => exact Lockstep.pure trivial
    | cons sig sigs =>
      rw [matchKeys]
      refine silent_lockstep (ofExcept_silent _) fun _ => silent_lockstep (ofExcept_silent _) fun _ => ?_
      refine silent_lockstep (ask_silent uncompared ctx _) fun success => ?_
      dsimp only
      generalize (if success = true then sigs else sig :: sigs) = rest
      split
      next => exact Lockstep.pure trivial
      next => exact ih rest

private theorem matchKeys_agree (relaxes : view.Relaxes strict lax)
    (agree : ∀ query, query.isVerdict = true → lax.oracle query = strict.oracle query)
    (code : Script) (sigs keys : List Bytes) :
    Lockstep view.Alike Eq (matchKeys strict code sigs keys) (matchKeys lax code sigs keys) := by
  induction keys generalizing sigs with
  | nil =>
    rw [matchKeys_noKeys,matchKeys_noKeys]
    exact Lockstep.pure rfl
  | cons key keys ih =>
    cases sigs with
    | nil => exact Lockstep.pure rfl
    | cons sig sigs =>
      rw [matchKeys,matchKeys]
      refine (ofExcept_lockstep _ _ fun _ => checkTransactionBy_lax relaxes.rules.flags sig).bind fun _ _ _ => ?_
      refine (ofExcept_lockstep _ _ fun _ => checkKey_lax relaxes.rules.flags key).bind fun _ _ _ => ?_
      refine (ask_lockstep relaxes _).bind ?_
      intro answer answer' answered
      obtain ⟨rfl,rfl⟩ := answered
      rw [agree _ rfl]
      exact Lockstep.ite (fun _ => Lockstep.pure rfl) fun _ => ih _

private theorem left_suffix (more : List Bytes) (sig : Bytes) (rest : List Bytes) (first : Bytes)
    (others : List Bytes) (shape : more ++ sig :: rest = first :: others)
    (nonempty : ∀ sig ∈ more, sig ≠ []) (accepted accepted' : Bool)
    (grants : first = sig → accepted = true → accepted' = true)
    (refuses : accepted' = true → sig ≠ []) :
    ∃ more', (if accepted = true then others else first :: others) =
        more' ++ (if accepted' = true then rest else sig :: rest) ∧ ∀ sig ∈ more', sig ≠ [] := by
  cases more with
  | nil =>
    cases shape
    cases accepted' with
    | false =>
      have refused : accepted = false := by simpa using grants rfl
      exact ⟨[],by simp [refused],by simp⟩
    | true =>
      cases accepted with
      | true => exact ⟨[],rfl,by simp⟩
      | false => exact ⟨[sig],rfl,by simpa using refuses rfl⟩
  | cons m ms =>
    cases shape
    obtain ⟨first_ne,ms_ne⟩ := List.forall_mem_cons.mp nonempty
    cases accepted' with
    | false =>
      cases accepted with
      | true => exact ⟨ms,rfl,ms_ne⟩
      | false => exact ⟨first :: ms,rfl,nonempty⟩
    | true =>
      have both : ∀ sigs : List Bytes, (∀ sig ∈ sigs, sig ≠ []) → ∀ s ∈ sigs ++ [sig], s ≠ [] := by
        intro sigs all s member
        rcases List.mem_append.mp member with inside | last
        · exact all s inside
        · exact List.mem_singleton.mp last ▸ refuses rfl
      cases accepted with
      | true => exact ⟨ms ++ [sig],by simp,both ms ms_ne⟩
      | false => exact ⟨first :: ms ++ [sig],by simp,both _ nonempty⟩

private theorem nil_of_empty (more left : List Bytes) (nonempty : ∀ sig ∈ more, sig ≠ [])
    (empty : ∀ sig ∈ more ++ left, sig = []) : more = [] := by
  cases more with
  | nil => rfl
  | cons sig more => exact absurd (empty sig (by simp)) (nonempty sig (by simp))

-- An oracle that says yes more often, but never about an empty signature, is ahead by
-- signatures that are not empty. If only empty ones are left at the end, the same are left.
private theorem matchKeys_ahead (relaxes : view.Relaxes strict lax) (uncompared : view.calls = false)
    (refuses : lax.oracle.RefusesEmpty) (code : Script) (keys : List Bytes) :
    ∀ (more sigs : List Bytes) {left : List Bytes} {before before' after : State},
      view.Alike before before' → (∀ sig ∈ more, sig ≠ []) →
      (∀ sig ∈ sigs, checkTransaction strict.flags sig = .ok ()) →
      matchKeys strict code (more ++ sigs) keys before = .ok left after →
      (∀ sig ∈ left, sig = []) →
      ∃ after', matchKeys lax code sigs keys before' = .ok left after' ∧ view.Alike after after' := by
  induction keys with
  | nil =>
    intro more sigs left before before' after alike nonempty right ok empty
    rw [matchKeys_noKeys] at ok ⊢
    cases ok
    obtain rfl := nil_of_empty more sigs nonempty empty
    exact ⟨before',rfl,alike⟩
  | cons key keys ih =>
    intro more sigs left before before' after alike nonempty right ok empty
    cases sigs with
    | nil =>
      -- The second run is done. The first one has only signatures left that are not empty.
      obtain ⟨used,split,_⟩ := matchKeys_used ok
      have none : left = [] := by
        apply List.eq_nil_iff_forall_not_mem.mpr
        intro sig member
        have inside : sig ∈ more := by
          rw [← List.append_nil more,split]
          exact List.mem_append_right used member
        exact nonempty sig inside (empty sig member)
      obtain ⟨_,after',finished,_,alike'⟩ :=
        matchKeys_silent uncompared strict code _ _ before before' left after alike ok
      cases finished
      exact ⟨before',by rw [none]; rfl,alike'⟩
    | cons sig rest =>
      cases shape : more ++ sig :: rest with
      | nil => simp at shape
      | cons first others =>
        -- Both runs try the key, but on different signatures if the second one is ahead.
        rw [shape] at ok
        obtain ⟨firstRight,keyRight⟩ := matchKeys_right ok
        have sigRight := checkTransactionBy_lax relaxes.rules.flags sig (right sig (by simp))
        have keyRight' := checkKey_lax relaxes.rules.flags key keyRight
        obtain ⟨ours,turn⟩ : ∃ ours, ours =
          if lax.oracle (.signature sig key code) = true then rest else sig :: rest := ⟨_,rfl⟩
        obtain ⟨more',suffix,nonempty'⟩ := left_suffix more sig rest first others shape nonempty
          (strict.oracle (.signature first key code)) (lax.oracle (.signature sig key code))
          (fun same => by rw [same]; exact relaxes.rules.grants _)
          (fun accepted empty => by rw [empty,refuses] at accepted; cases accepted)
        rw [← turn] at suffix
        rw [matchKeys_cons code others keys before firstRight keyRight _ suffix.symm] at ok
        rw [matchKeys_cons code rest keys before' sigRight keyRight' ours turn]
        have alike' : view.Alike (asked strict (.signature first key code) before)
            (asked lax (.signature sig key code) before') :=
          { alike with calls := fun compared => by rw [uncompared] at compared; cases compared }
        split at ok
        next outnumbered =>
          cases ok
          obtain rfl := nil_of_empty more' _ nonempty' empty
          rw [List.nil_append] at outnumbered ⊢
          rw [if_pos outnumbered]
          exact ⟨_,rfl,alike'⟩
        next enough =>
          rw [List.length_append] at enough
          rw [if_neg (by omega)]
          refine ih more' _ alike' nonempty' ?_ ok empty
          intro s member
          apply right
          split at turn
          next => exact List.mem_cons_of_mem _ (turn ▸ member)
          next => exact turn ▸ member

/-- Matching and judging what is left: if the first run accepts what is left, the same
signatures are left in the second one. -/
theorem matchKeys_lockstep {α : Type} {values : α → α → Prop} (relaxes : view.Relaxes strict lax)
    (code : Script) (sigs keys : List Bytes) {next next' : List Bytes → Machine α}
    (tail : ∀ left, Lockstep view.Alike values (next left) (next' left)) :
    Lockstep view.Alike values
      (do
        let left ← matchKeys strict code sigs keys
        requireNullFail strict left.isEmpty left
        next left)
      (do
        let left ← matchKeys lax code sigs keys
        requireNullFail lax left.isEmpty left
        next' left) := by
  have judge (left : List Bytes) : Lockstep view.Alike values
      (do requireNullFail strict left.isEmpty left; next left)
      (do requireNullFail lax left.isEmpty left; next' left) :=
    guard_lockstep (judged_lax relaxes.rules.flags _ _) fun _ => tail left
  by_cases agree : ∀ query, query.isVerdict = true → lax.oracle query = strict.oracle query
  · exact (matchKeys_agree relaxes agree code sigs keys).seq judge
  · obtain ⟨strictly,refuses⟩ := relaxes.rules.verdicts.resolve_left agree
    have uncompared : view.calls = false := by
      cases compared : view.calls with
      | false => rfl
      | true =>
        have same := congrArg Rules.oracle (relaxes.calls compared)
        exact absurd (fun query _ => congrFun same query) agree
    intro before before' value after alike ok
    obtain ⟨left,middle,matched,rest⟩ := bind_success _ _ _ _ _ ok
    have empty : ∀ sig ∈ left, sig = [] := by
      obtain ⟨_,_,passed,_⟩ := bind_success _ _ _ _ _ rest
      have judged := (ensure_success_iff.mp passed).1
      rw [strictly] at judged
      cases left with
      | nil => simp
      | cons sig left => simpa using judged
    have right : ∀ sig ∈ sigs, checkTransaction strict.flags sig = .ok () := by
      obtain ⟨used,split,right⟩ := matchKeys_used matched
      rw [split]
      intro sig member
      rcases List.mem_append.mp member with inside | last
      · exact right sig inside
      · rw [empty sig last]
        exact checkTransaction_nil _
    obtain ⟨middle',matched',alike'⟩ := matchKeys_ahead relaxes uncompared refuses code keys []
      sigs alike (by simp) right matched empty
    rw [bind_of_success matched']
    exact judge left middle middle' value after alike' rest

private theorem multisigCounts_lockstep (relaxes : view.Relaxes strict lax) :
    Lockstep view.Alike Eq (multisigCounts strict) (multisigCounts lax) := by
  refine (require_lockstep 1).seq fun _ => (peekNumber_lockstep relaxes _ _).seq fun keyCount => ?_
  refine guard_lockstep id fun _ => (charge_lockstep _).seq fun _ => (require_lockstep _).seq fun _ => ?_
  refine (peekNumber_lockstep relaxes _ _).seq fun sigCount => guard_lockstep id fun _ => ?_
  exact (require_lockstep _).seq fun _ => Lockstep.pure rfl

theorem checkMultiSig_lockstep (relaxes : view.Relaxes strict lax) (ending : Ending) :
    Lockstep view.Alike Eq (checkMultiSig strict ending) (checkMultiSig lax ending) := by
  refine (multisigCounts_lockstep relaxes).seq ?_
  intro counts
  obtain ⟨keyCount,sigCount⟩ := counts
  refine pop_lockstep.seq fun _ => (popMany_lockstep keyCount).seq fun keys => ?_
  refine pop_lockstep.seq fun _ => (popMany_lockstep sigCount).seq fun sigs => ?_
  refine Lockstep.get.bind fun before before' alike => ?_
  rw [alike.codeStart]
  refine (ofExcept_lockstep _ _ (scriptCode_lax relaxes.script relaxes.rules.flags _ _)).bind ?_
  intro code code' read
  obtain ⟨rfl,_⟩ := read
  refine guard_lockstep id fun _ => matchKeys_lockstep relaxes code sigs keys fun left => ?_
  refine pop_lockstep.seq fun unused => ?_
  exact guard_lockstep (Flags.unless_has relaxes.rules.flags _ _) fun _ => conclude_lockstep ending _ _

end ColorScript.Machine
