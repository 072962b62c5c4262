import ColorScript.Proofs.PlainStep

/-! The branches that are open along a run. Only brackets change them, in the same way whether
chunks are executed or skipped, so that their number is told by the script alone. -/
namespace ColorScript

/-- How a bracket changes the open branches. -/
inductive Bracket.Turns : Bracket → List Bool → List Bool → Prop
  | opening (taken : Bool) (outer : List Bool) : Turns .opening outer (taken :: outer)
  | divider (taken : Bool) (outer : List Bool) : Turns .divider (taken :: outer) ((!taken) :: outer)
  | closing (taken : Bool) (outer : List Bool) : Turns .closing (taken :: outer) outer

namespace Chunk

variable {chunk : Chunk} {bracket : Bracket}

private theorem bracket?_eq_some_iff :
    chunk.bracket? = some bracket ↔
      chunk.isPush = false ∧ Opcode.bracket? chunk.opcode = some bracket := by
  rw [bracket?]
  cases chunk.isPush <;> simp

private theorem isCounted_of_bracket (kind : chunk.bracket? = some bracket) : chunk.isCounted = true := by
  obtain ⟨operation,named⟩ := bracket?_eq_some_iff.mp kind
  rw [isCounted,operation]
  rcases Opcode.bracket?_cases named with ⟨_,same | same⟩ | ⟨_,same⟩ | ⟨_,same⟩ <;>
    · rw [same]
      rfl

private theorem refusal?_of_bracket {flags : Flags} (kind : chunk.bracket? = some bracket) :
    chunk.refusal? flags = none := by
  obtain ⟨operation,named⟩ := bracket?_eq_some_iff.mp kind
  rw [refusal?_operation operation]
  rcases Opcode.bracket?_cases named with ⟨_,same | same⟩ | ⟨_,same⟩ | ⟨_,same⟩ <;>
    · rw [same]
      rfl

inductive Turns (chunk : Chunk) : List Bool → List Bool → Prop
  | bracket {bracket : Bracket} {before after : List Bool} (kind : chunk.bracket? = some bracket)
      (turns : bracket.Turns before after) : Turns chunk before after
  | plain (plain : chunk.bracket? = none) (flow : List Bool) : Turns chunk flow flow

variable {before after inner outer : List Bool} {depth : Nat}

private theorem depthAfter?_of_turns (turns : chunk.Turns before after) :
    chunk.depthAfter? before.length = some after.length := by
  cases turns with
  | bracket kind turns =>
    rw [depthAfter?,kind]
    cases turns <;> rfl
  | plain plain flow =>
    rw [depthAfter?,plain]

theorem turns_plain (plain : chunk.bracket? = none) (turns : chunk.Turns before after) :
    after = before := by
  cases turns with
  | bracket kind =>
    rw [plain] at kind
    cases kind
  | plain => rfl

theorem turns_inner (turns : chunk.Turns (inner ++ outer) after)
    (found : chunk.depthAfter? inner.length = some depth) :
    ∃ inner', after = inner' ++ outer ∧ inner'.length = depth := by
  generalize whole : inner ++ outer = flow at turns
  cases turns with
  | bracket kind turns =>
    rw [depthAfter?,kind] at found
    cases turns with
    | opening taken outer' =>
      cases found
      exact ⟨taken :: inner,congrArg (taken :: ·) whole.symm,rfl⟩
    | divider taken outer' =>
      cases inner with
      | nil => cases found
      | cons taken' inner =>
        cases found
        cases whole
        exact ⟨(!taken) :: inner,rfl,rfl⟩
    | closing taken outer' =>
      cases inner with
      | nil => cases found
      | cons taken' inner =>
        cases found
        cases whole
        exact ⟨inner,rfl,rfl⟩
  | plain plain flow =>
    rw [depthAfter?,plain] at found
    cases found
    exact ⟨inner,whole.symm,rfl⟩

end Chunk

namespace Machine

variable {ctx : Context} {before after : State} {place : Nat} {chunk : Chunk} {bracket : Bracket}

theorem limit_success_iff {done : Unit} :
    limit before = .ok done after ↔
      before.stack.length + before.alt.length ≤ maxItems ∧ after = before := by
  rw [limit,get_bind_apply,ensure_success_iff,decide_eq_true_eq]

section Brackets

theorem branch_skipped {negated : Bool} (skipped : before.executing = false) :
    branch ctx negated before = .ok () { before with flow := false :: before.flow } := by
  rw [branch,get_bind_apply,get_bind_apply,skipped]
  rfl

theorem branch_executed {condition : Bytes} {rest : Stack} (ctx : Context) (negated : Bool)
    (executing : before.executing = true) (top : before.stack = condition :: rest) :
    branch ctx negated before =
      if ctx.flags.has .minimalIf = true ∧ isShortestTruth condition = false then
        .error .minimalIf { before with stack := rest }
      else .ok () { before with
        stack := rest, flow := (Number.isTrue condition != negated) :: before.flow } := by
  rw [branch,get_bind_apply,get_bind_apply,if_pos executing,bind_of_success (pop_cons top)]
  cases ctx.flags.has .minimalIf <;> cases isShortestTruth condition <;> rfl

theorem branch_empty {negated : Bool} (executing : before.executing = true)
    (empty : before.stack = []) :
    branch ctx negated before = .error .invalidStackOperation before := by
  rw [branch,get_bind_apply,get_bind_apply,if_pos executing,bind_of_failure (pop_nil empty)]

theorem otherwise_cons {taken : Bool} {outer : List Bool} (opened : before.flow = taken :: outer) :
    otherwise before = .ok () { before with flow := (!taken) :: outer } := by
  rw [otherwise,get_bind_apply,opened]
  rfl

theorem endBranch_cons {taken : Bool} {outer : List Bool} (opened : before.flow = taken :: outer) :
    endBranch before = .ok () { before with flow := outer } := by
  rw [endBranch,get_bind_apply,opened]
  rfl

private theorem execute_bracket_cases (ctx : Context) (place : Nat) (bracket : Bracket) (negated : Bool)
    (before : State) :
    (∃ stack flow, execute ctx place (bracket.operation negated) before =
        .ok () { before with stack, flow } ∧ stack <:+ before.stack ∧
      bracket.Turns before.flow flow) ∨
    ∃ error stack, execute ctx place (bracket.operation negated) before =
        .error error { before with stack } ∧ stack <:+ before.stack ∧
      (error = .invalidStackOperation ∨ error = .minimalIf ∧ ctx.flags.has .minimalIf = true ∨
        error = .unbalancedConditional ∧ bracket.depthAfter? before.flow.length = none) := by
  cases bracket with
  | opening =>
    cases executing : before.executing with
    | false =>
      exact .inl ⟨before.stack,_,branch_skipped executing,List.suffix_rfl,.opening false _⟩
    | true =>
      cases top : before.stack with
      | nil =>
        rw [← top]
        exact .inr ⟨_,before.stack,branch_empty executing top,List.suffix_rfl,.inl rfl⟩
      | cons condition rest =>
        have branched := branch_executed ctx negated executing top
        split at branched
        next strict =>
          exact .inr ⟨_,rest,branched,List.suffix_cons condition rest,.inr (.inl ⟨rfl,strict.1⟩)⟩
        next => exact .inl ⟨rest,_,branched,List.suffix_cons condition rest,.opening _ _⟩
  | divider =>
    cases opened : before.flow with
    | nil =>
      have failed : otherwise before = .error .unbalancedConditional before := by
        rw [otherwise,get_bind_apply,opened]
        rfl
      have none : Bracket.divider.depthAfter? before.flow.length = none := by
        rw [opened]
        rfl
      rw [← opened]
      exact .inr ⟨_,before.stack,failed,List.suffix_rfl,.inr (.inr ⟨rfl,none⟩)⟩
    | cons taken outer =>
      exact .inl ⟨before.stack,_,otherwise_cons opened,List.suffix_rfl,.divider taken outer⟩
  | closing =>
    cases opened : before.flow with
    | nil =>
      have failed : endBranch before = .error .unbalancedConditional before := by
        rw [endBranch,get_bind_apply,opened]
        rfl
      have none : Bracket.closing.depthAfter? before.flow.length = none := by
        rw [opened]
        rfl
      rw [← opened]
      exact .inr ⟨_,before.stack,failed,List.suffix_rfl,.inr (.inr ⟨rfl,none⟩)⟩
    | cons taken outer =>
      exact .inl ⟨before.stack,_,endBranch_cons opened,List.suffix_rfl,.closing taken outer⟩

theorem execute_bracket_final (ctx : Context) (place : Nat) (bracket : Bracket) (negated : Bool)
    (before : State) :
    ∃ stack flow, final (execute ctx place (bracket.operation negated) before) = { before with stack, flow } ∧
      stack <:+ before.stack := by
  rcases execute_bracket_cases ctx place bracket negated before with
    ⟨stack,flow,ran,left,_⟩ | ⟨error,stack,failed,left,_⟩
  · exact ⟨stack,flow,congrArg final ran,left⟩
  · exact ⟨stack,before.flow,congrArg final failed,left⟩

private theorem execute_bracket_success {negated : Bool} {done : Unit}
    (ok : execute ctx place (bracket.operation negated) before = .ok done after) :
    ∃ stack flow, after = { before with stack, flow } ∧ stack <:+ before.stack ∧
      bracket.Turns before.flow flow := by
  rcases execute_bracket_cases ctx place bracket negated before with
    ⟨stack,flow,ran,left,turns⟩ | ⟨error,stack,failed,_⟩
  · rw [ran] at ok
    cases ok
    exact ⟨stack,flow,rfl,left,turns⟩
  · rw [failed] at ok
    cases ok

private theorem execute_bracket_failure {negated : Bool} {error : ScriptError}
    (failed : execute ctx place (bracket.operation negated) before = .error error after) :
    error = .invalidStackOperation ∨ error = .minimalIf ∧ ctx.flags.has .minimalIf = true ∨
      error = .unbalancedConditional ∧ bracket.depthAfter? before.flow.length = none := by
  rcases execute_bracket_cases ctx place bracket negated before with
    ⟨stack,flow,ran,_⟩ | ⟨cause,stack,failed',_,known⟩
  · rw [ran] at failed
    cases failed
  · rw [failed'] at failed
    cases failed
    exact known

theorem effect_bracket (place : Nat) (kind : chunk.bracket? = some bracket) :
    effect ctx place chunk = execute ctx place (bracket.operation (chunk.opcode = 0x64)) := by
  obtain ⟨operation,named⟩ := Chunk.bracket?_eq_some_iff.mp kind
  have reached (state : State) : state.reaches chunk.opcode = true := by
    rw [State.reaches,Opcode.isBranching_eq,named]
    exact Bool.or_true _
  funext before
  rw [effect_operation ctx place operation,get_bind_apply,if_pos (reached before),
    Operation.ofOpcode_of_bracket named]

theorem advance_bracket (place : Nat) (kind : chunk.bracket? = some bracket) :
    advance ctx place chunk = (do
      charge 1
      execute ctx place (bracket.operation (chunk.opcode = 0x64))
      limit) := by
  rw [advance_eq,effect_bracket place kind,skip,Chunk.isCounted_of_bracket kind,
    Chunk.refusal?_of_bracket kind,if_pos rfl,bind_assoc]
  rfl

private theorem flow_stable (ctx : Context) (flow : List Bool) (n : Nat) :
    Stable ctx (fun _ => True) fun state => state.flow = flow ∧ n ≤ state.opCount :=
  { stack := fun _ _ _ => trivial
    alt := fun _ _ _ => trivial
    setStack := fun held _ => held
    setAlt := fun held _ => held
    count := fun _ held => ⟨held.1,Nat.le_add_right_of_le held.2⟩
    separate := fun _ held => held
    paint := fun _ held => held
    record := fun _ held => held
    short := fun _ => trivial
    size := fun _ => trivial }

/-- The step lemma: the branches change by the bracket that a chunk is, and it is counted. -/
theorem advance_turns {done : Unit} (ok : advance ctx place chunk before = .ok done after) :
    chunk.Turns before.flow after.flow ∧ (before.counting [chunk]).opCount ≤ after.opCount := by
  cases kind : chunk.bracket? with
  | none =>
    rw [advance_eq] at ok
    obtain ⟨_,middle,skipped,ok⟩ := bind_success _ _ _ _ _ ok
    obtain ⟨_,last,effected,limited⟩ := bind_success _ _ _ _ _ ok
    obtain ⟨_,fits,rfl⟩ := skip_success_iff.mp skipped
    obtain ⟨_,rfl⟩ := limit_success_iff.mp limited
    have start : (before.counting [chunk]).flow = before.flow ∧
        (before.counting [chunk]).opCount ≤ (before.counting [chunk]).opCount := ⟨rfl,Nat.le_refl _⟩
    have ended := effect_plain (flow_stable ctx _ _) place kind fits start trivial
    rw [effected] at ended
    obtain ⟨⟨same,counted⟩,_⟩ := ended
    rw [same]
    exact ⟨.plain kind _,counted⟩
  | some bracket =>
    rw [advance_bracket place kind] at ok
    obtain ⟨_,middle,charged,ok⟩ := bind_success _ _ _ _ _ ok
    obtain ⟨_,last,executed,limited⟩ := bind_success _ _ _ _ _ ok
    obtain ⟨_,rfl⟩ := charge_success_iff.mp charged
    obtain ⟨_,rfl⟩ := limit_success_iff.mp limited
    obtain ⟨stack,flow,rfl,_,turns⟩ := execute_bracket_success executed
    exact ⟨.bracket kind turns,by simp [State.counting,Chunk.isCounted_of_bracket kind]⟩

/-- What a chunk can fail with. Only a bracket can blame the balance. -/
theorem advance_error {error : ScriptError}
    (failed : advance ctx place chunk before = .error error after) :
    error.arises ctx = true ∨ error = .minimalIf ∧ ctx.flags.has .minimalIf = true ∨
      error = .unbalancedConditional ∧ chunk.depthAfter? before.flow.length = none := by
  cases kind : chunk.bracket? with
  | none =>
    have ended := advance_plain (flow_stable ctx before.flow 0) place kind ⟨rfl,Nat.zero_le _⟩ trivial
    rw [failed] at ended
    exact .inl ended.2
  | some bracket =>
    rw [advance_bracket place kind] at failed
    rw [Chunk.depthAfter?,kind]
    rcases bind_failure failed with overcharged | ⟨_,middle,charged,failed⟩
    · obtain ⟨_,rfl,_⟩ := ensure_failure overcharged
      exact .inl rfl
    · obtain ⟨_,rfl⟩ := charge_success_iff.mp charged
      rcases bind_failure failed with refused | ⟨_,last,_,excess⟩
      · rcases execute_bracket_failure refused with rfl | cause
        · exact .inl rfl
        · exact .inr cause
      · obtain ⟨_,rfl,_⟩ := ensure_failure excess
        exact .inl rfl

private theorem advance_unbalanced (failed : advance ctx place chunk before =
    .error .unbalancedConditional after) : chunk.depthAfter? before.flow.length = none := by
  rcases advance_error failed with impossible | ⟨impossible,_⟩ | ⟨_,none⟩
  · cases impossible
  · cases impossible
  · exact none

end Brackets

section Runs

variable {chunks : List Chunk} {inner outer : List Bool} {depth : Nat} {done : Unit}

/-- The run lemma: as many branches are open after a run as the script says. -/
theorem advanceAll_depth (ok : advanceAll ctx place chunks before = .ok done after) :
    Script.depthAfter? chunks before.flow.length = some after.flow.length := by
  induction chunks generalizing place before with
  | nil =>
    cases ok
    rfl
  | cons chunk rest ih =>
    obtain ⟨middle,stepped,ok⟩ := advanceAll_cons_success_iff.mp ok
    obtain ⟨turns,_⟩ := advance_turns stepped
    rw [Script.depthAfter?,Chunk.depthAfter?_of_turns turns]
    exact ih ok

private theorem advanceAll_inner (ok : advanceAll ctx place chunks before = .ok done after)
    (opened : before.flow = inner ++ outer)
    (found : Script.depthAfter? chunks inner.length = some depth) :
    ∃ inner', after.flow = inner' ++ outer ∧ inner'.length = depth := by
  -- At each chunk, the inner branches are those that the script itself has open so far.
  induction chunks generalizing place before inner with
  | nil =>
    cases ok
    cases found
    exact ⟨inner,opened,rfl⟩
  | cons chunk rest ih =>
    obtain ⟨middle,stepped,ok⟩ := advanceAll_cons_success_iff.mp ok
    obtain ⟨depth',first,found⟩ := Option.bind_eq_some_iff.mp found
    obtain ⟨turns,_⟩ := advance_turns stepped
    rw [opened] at turns
    obtain ⟨inner',opened',rfl⟩ := Chunk.turns_inner turns first
    exact ih ok opened' found

theorem advanceAll_balanced (balanced : Script.isBalanced chunks = true)
    (ok : advanceAll ctx place chunks before = .ok done after) : after.flow = before.flow := by
  obtain ⟨inner',same,none⟩ := advanceAll_inner ok (List.nil_append _).symm (of_decide_eq_true balanced)
  rw [same,List.length_eq_zero_iff.mp none]
  rfl

theorem advanceAll_unbalanced (failed : advanceAll ctx place chunks before =
    .error .unbalancedConditional after) : Script.depthAfter? chunks before.flow.length = none := by
  induction chunks generalizing place before with
  | nil => cases failed
  | cons chunk rest ih =>
    rcases bind_failure failed with first | ⟨_,middle,stepped,failed⟩
    · rw [Script.depthAfter?,advance_unbalanced first]
      rfl
    · obtain ⟨turns,_⟩ := advance_turns stepped
      rw [Script.depthAfter?,Chunk.depthAfter?_of_turns turns]
      exact ih failed

end Runs

end Machine

end ColorScript
