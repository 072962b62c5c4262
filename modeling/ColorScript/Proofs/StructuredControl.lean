import ColorScript.Proofs.SkippedBranch

/-! Conditionals and structured control flow. The run of a conditional, chunk by chunk over a list
of open branches, performs its parts in turn: every other part, beginning with the first or the
second, and the parts in between are skipped. -/
namespace ColorScript.Machine

variable {ctx : Context} {before after : State} {place : Nat} {outer : List Bool} {taken : Bool}
  {body : Script} {others : List (Chunk × Script)} {divider closing : Chunk} {done : Unit}

theorem advanceAll_append (ctx : Context) (place : Nat) (first second : List Chunk) :
    advanceAll ctx place (first ++ second) = (do
      advanceAll ctx place first
      advanceAll ctx (place + first.length) second) := by
  induction first generalizing place with
  | nil => rfl
  | cons chunk rest ih =>
    simp only [List.cons_append,advanceAll,ih,bind_assoc,List.length_cons,Nat.add_right_comm,
      ← Nat.add_assoc]

private theorem advanceAll_within {chunks : List Chunk}
    (within : before.stack.length + before.alt.length ≤ maxItems)
    (ok : advanceAll ctx place chunks before = .ok done after) :
    after.stack.length + after.alt.length ≤ maxItems := by
  have keeps (place : Nat) (chunk : Chunk) (before after : State)
      (stepped : advance ctx place chunk before = .ok () after)
      (_ : before.stack.length + before.alt.length ≤ maxItems) :
      after.stack.length + after.alt.length ≤ maxItems := (advance_success_iff.mp stepped).2
  exact advanceAll_preserves keeps within ok

private theorem performPart_taken (ctx : Context) (place : Nat) (body : Script) (before : State) :
    performPart ctx place true body before = (do
      advanceAll ctx place body
      setFlow before.flow) { before with flow := true :: before.flow } := rfl

private theorem performPart_skipped (ctx : Context) (place : Nat) (body : Script) :
    performPart ctx place false body = skipAll ctx body := rfl

private theorem performPart_within (within : before.stack.length + before.alt.length ≤ maxItems)
    (ok : performPart ctx place taken body before = .ok done after) :
    after.stack.length + after.alt.length ≤ maxItems ∧ after.flow = before.flow := by
  cases taken with
  | true =>
    rw [performPart_taken] at ok
    obtain ⟨_,last,ran,ok⟩ := bind_success _ _ _ _ _ ok
    cases ok
    have within' : last.stack.length + last.alt.length ≤ maxItems :=
      advanceAll_within (by exact within) ran
    exact ⟨within',rfl⟩
  | false =>
    rw [performPart_skipped] at ok
    rcases skipAll_cases ctx body before with same | ⟨_,_,_,_,_,failed,_⟩
    · rw [same] at ok
      cases ok
      exact ⟨within,rfl⟩
    · rw [failed] at ok
      cases ok

private theorem part_matches (ctx : Context) (place : Nat) (taken : Bool)
    (balanced : body.isBalanced = true) (opened : before.flow = outer)
    (within : before.stack.length + before.alt.length ≤ maxItems) :
    Matches (· = taken :: outer) (advanceAll ctx place body { before with flow := taken :: outer })
      (performPart ctx place taken body before) := by
  cases taken with
  | true =>
    -- The part is run in its branch on both sides; only the flat run leaves the branch open.
    subst opened
    rw [performPart_taken]
    cases ran : advanceAll ctx place body { before with flow := true :: before.flow } with
    | ok _ after =>
      rw [bind_of_success ran]
      have same := advanceAll_balanced balanced ran
      exact .ok { after with flow := before.flow } same
    | error error after =>
      rw [bind_of_failure ran]
      exact .error after.flow error after
  | false => exact advanceAll_skipped_balanced place rfl within balanced

private theorem ensure_matches (test : Bool) (error : ScriptError) (before : State) (flow : List Bool) :
    Matches (· = flow) (ensure test error { before with flow }) (ensure test error before) := by
  cases test with
  | true => exact .ok before (Eq.refl flow)
  | false => exact .error flow error before

private theorem charge_matches (n : Nat) (before : State) (flow : List Bool) :
    Matches (· = flow) (charge n { before with flow }) (charge n before) :=
  ensure_matches (before.opCount + n ≤ maxOps) .opCount
    { before with opCount := before.opCount + n } flow

private theorem limit_matches (before : State) (flow : List Bool) :
    Matches (· = flow) (limit { before with flow }) (limit before) :=
  ensure_matches (before.stack.length + before.alt.length ≤ maxItems) .stackSize before flow

-- A bracket that only turns the open branches costs one operation.
private theorem bracket_matches {bracket : Bracket} {chunk : Chunk} {flow flow' : List Bool}
    (kind : chunk.bracket? = some bracket)
    (turned : ∀ state : State, state.flow = flow →
      execute ctx place (bracket.operation (chunk.opcode = 0x64)) state =
        .ok () { state with flow := flow' })
    (within : before.stack.length + before.alt.length ≤ maxItems) :
    Matches (· = flow') (advance ctx place chunk { before with flow }) (charge 1 before) := by
  rw [advance_bracket place kind]
  refine (charge_matches 1 before flow).followed ?_
  rintro _ after rfl charged
  obtain ⟨_,rfl⟩ := charge_success_iff.mp charged
  rw [bind_of_success (turned _ rfl),limit_of_within (by exact within)]
  exact .ok { before with opCount := before.opCount + 1 } (Eq.refl flow')

private theorem rest_matches (ctx : Context) (place : Nat) (taken : Bool)
    (divides : ∀ part ∈ others, part.1.bracket? = some .divider)
    (closes : closing.bracket? = some .closing)
    (balanced : ∀ part ∈ others, Script.isBalanced part.2 = true) (opened : before.flow = outer)
    (within : before.stack.length + before.alt.length ≤ maxItems) :
    Matches (· = outer)
      (advanceAll ctx place (Conditional.rest others ++ [closing])
        { before with flow := taken :: outer })
      ((do
        performRest ctx place (!taken) others
        charge 1) before) := by
  induction others generalizing place taken before with
  | nil =>
    have closed : Matches (· = outer) (advance ctx place closing { before with flow := taken :: outer })
        (charge 1 before) := bracket_matches closes (fun _ same => endBranch_cons same) within
    exact closed.followed fun _ _ same _ => .ok _ same
  | cons part others ih =>
    rw [List.forall_mem_cons] at divides balanced
    obtain ⟨divider,body⟩ := part
    -- The divider turns the branch over, so that the part after it is taken if this one is not.
    have divided : Matches (· = (!taken) :: outer)
        (advance ctx place divider { before with flow := taken :: outer }) (charge 1 before) :=
      bracket_matches divides.1 (fun _ same => otherwise_cons same) within
    have cut : Conditional.rest ((divider,body) :: others) ++ [closing] =
        divider :: (body ++ (Conditional.rest others ++ [closing])) := by
      simp [Conditional.rest]
    rw [cut,advanceAll,advanceAll_append,performRest]
    simp only [bind_assoc]
    refine divided.bind ?_
    rintro _ after rfl charged
    obtain ⟨_,rfl⟩ := charge_success_iff.mp charged
    have opened' : State.flow { before with opCount := before.opCount + 1 } = outer := opened
    refine (part_matches ctx (place + 1) (!taken) balanced.1 opened' within).bind ?_
    rintro _ after rfl ran
    obtain ⟨within',same⟩ := performPart_within (by exact within) ran
    exact ih (place + 1 + body.length) (!taken) divides.2 balanced.2 (same.trans opened) within'

private theorem advance_opening (place : Nat) (block : Conditional) {condition : Bytes} {rest : Stack}
    (executing : before.executing = true) (top : before.stack = condition :: rest)
    (shortest : ctx.flags.has .minimalIf = true → condition = [] ∨ condition = [0x01])
    (room : before.opCount < maxOps) :
    advance ctx place block.opening before = limit { before with
      stack := rest
      opCount := before.opCount + 1
      flow := (Number.isTrue condition != block.isNegated) :: before.flow } := by
  have charged : charge 1 before = .ok () { before with opCount := before.opCount + 1 } :=
    charge_success_iff.mpr ⟨room,rfl⟩
  have lawful : ¬ (ctx.flags.has .minimalIf = true ∧ isShortestTruth condition = false) := by
    rintro ⟨strict,long⟩
    rcases shortest strict with rfl | rfl
    · cases long
    · cases long
  have executed : execute ctx place (.branch block.isNegated)
      { before with opCount := before.opCount + 1 } = .ok () { before with
        stack := rest
        opCount := before.opCount + 1
        flow := (Number.isTrue condition != block.isNegated) :: before.flow } := by
    have executing' : State.executing { before with opCount := before.opCount + 1 } = true := executing
    exact (branch_executed ctx block.isNegated executing' top).trans (if_neg lawful)
  rw [advance_bracket place block.opens,bind_of_success charged]
  exact bind_of_success executed _

private theorem advanceAll_executed (place : Nat) (block : Conditional) {condition : Bytes} {rest : Stack}
    (executing : before.executing = true) (top : before.stack = condition :: rest)
    (shortest : ctx.flags.has .minimalIf = true → condition = [] ∨ condition = [0x01])
    (room : before.opCount < maxOps) :
    Matches (· = before.flow) (advanceAll ctx place block.chunks before)
      (perform ctx place (Number.isTrue condition != block.isNegated) block
        { before with stack := rest, opCount := before.opCount + 1 }) := by
  generalize taken : (Number.isTrue condition != block.isNegated) = first
  have opened := advance_opening place block executing top shortest room
  rw [taken] at opened
  rw [Conditional.chunks,advanceAll,bind_of_eq opened,advanceAll_append,perform]
  have begun := limit_matches { before with stack := rest, opCount := before.opCount + 1 }
    (first :: before.flow)
  refine begun.bind ?_
  rintro _ after rfl limited
  obtain ⟨within,rfl⟩ := limit_success_iff.mp limited
  refine (part_matches ctx (place + 1) first block.firstBalanced rfl within).bind ?_
  rintro _ after rfl performed
  obtain ⟨within',same⟩ := performPart_within within performed
  exact rest_matches ctx _ first block.divides block.closes block.othersBalanced same within'

private theorem within_of_skipped {start : State} {chunks : List Chunk} (outside : start.flow = [])
    (ok : advanceAll ctx place chunks start = .ok done before) (skipped : before.executing = false) :
    before.stack.length + before.alt.length ≤ maxItems := by
  cases chunks with
  | nil =>
    cases ok
    rw [State.executing,outside] at skipped
    cases skipped
  | cons chunk rest =>
    obtain ⟨middle,stepped,ok⟩ := advanceAll_cons_success_iff.mp ok
    exact advanceAll_within (advance_success_iff.mp stepped).2 ok

/-- Conditionals are structured control flow. Where chunks are executed, the run of a conditional
takes the condition off the stack, performs every other part and skips the parts in between, and
ends with the branches open that were open before. Where chunks are skipped, all of it is skipped.
Skipping changes nothing but the count of operations, and fails only at the limit of operations or
at a chunk that is refused wherever it stands. -/
theorem advanceAll_conditional (ctx : Context) (place : Nat) (block : Conditional) (before : State) :
    (∀ condition rest, before.executing = true → before.stack = condition :: rest →
      (ctx.flags.has .minimalIf = true → condition = [] ∨ condition = [0x01]) →
      before.opCount < maxOps →
      Matches (· = before.flow) (advanceAll ctx place block.chunks before)
        (perform ctx place (Number.isTrue condition != block.isNegated) block
          { before with stack := rest, opCount := before.opCount + 1 })) ∧
    (∀ start place' passed, start.flow = [] →
      advanceAll ctx place' passed start = .ok () before → before.executing = false →
      Matches (· = before.flow) (advanceAll ctx place block.chunks before)
        (skipAll ctx block.chunks before)) ∧
    ∀ chunks, skipAll ctx chunks before = .ok () (before.counting chunks) ∨
      ∃ passed chunk rest error, chunks = passed ++ chunk :: rest ∧
        skipAll ctx chunks before = .error error (before.counting (passed ++ [chunk])) ∧
        (error = .opCount ∨ error = .pushSize ∨ error = .disabledOpcode ∨
          (error = .opCodeSeparator ∧ ctx.flags.has .constScriptCode = true) ∨
          (error = .badOpcode ∧ (chunk.opcode = 0x65 ∨ chunk.opcode = 0x66))) := by
  refine ⟨?_,?_,?_⟩
  · intro condition rest executing top shortest room
    exact advanceAll_executed place block executing top shortest room
  · intro start place' passed outside reached skipped
    have within := within_of_skipped outside reached skipped
    exact advanceAll_skipped_balanced place skipped within block.isBalanced_chunks
  · intro chunks
    rcases skipAll_cases ctx chunks before with done | ⟨passed,chunk,rest,error,cut,failed,cause⟩
    · exact .inl done
    · exact .inr ⟨passed,chunk,rest,error,cut,failed,cause.imp id Chunk.refusal?_cases⟩

/-- The first and the third part are performed, and the failure in the second is not reached. -/
theorem advanceAll_conditional_twoDividers : ∃ block : Conditional,
    block.chunks = [.op 0x63,.op 0x52,.op 0x67,.op 0x63,.op 0x6a,.op 0x68,.op 0x67,.op 0x53,.op 0x68] ∧
    Matches (· = [])
      (advanceAll ⟨⟨Flags.standard,Oracle.never⟩,[],false⟩ 0 block.chunks { stack := [[0x01]] })
      (perform ⟨⟨Flags.standard,Oracle.never⟩,[],false⟩ 0 true block { stack := [], opCount := 1 }) ∧
    Matches (· = [false])
      (advanceAll ⟨⟨Flags.standard,Oracle.never⟩,[],false⟩ 1 block.chunks
        { stack := [], flow := [false], opCount := 1 })
      (skipAll ⟨⟨Flags.standard,Oracle.never⟩,[],false⟩ block.chunks
        { stack := [], flow := [false], opCount := 1 }) := by
  let block : Conditional :=
    { opening := .op 0x63
      first := [.op 0x52]
      others := [(.op 0x67,[.op 0x63,.op 0x6a,.op 0x68]),(.op 0x67,[.op 0x53])]
      closing := .op 0x68
      opens := rfl
      divides := by decide
      closes := rfl
      firstBalanced := rfl
      othersBalanced := by decide }
  refine ⟨block,rfl,?_,?_⟩
  · have performed := (advanceAll_conditional ⟨⟨Flags.standard,Oracle.never⟩,[],false⟩ 0 block
      { stack := [[0x01]] }).1
    exact performed [0x01] [] rfl rfl (fun _ => .inr rfl) (by decide)
  · have skipped := (advanceAll_conditional ⟨⟨Flags.standard,Oracle.never⟩,[],false⟩ 1 block
      { stack := [], flow := [false], opCount := 1 }).2.1
    exact skipped { stack := [[]] } 0 [.op 0x63] rfl rfl rfl

end ColorScript.Machine
