import ColorScript.Proofs.Branches

/-! Skipped chunks. A balanced script that is reached while some branch is not taken does no more
than to be counted, one chunk after the other, and to refuse what is refused wherever it stands. -/
namespace ColorScript

theorem State.counting_append (before : State) (first second : Script) :
    (before.counting first).counting second = before.counting (first ++ second) := by
  simp only [counting,List.countP_append,Nat.add_assoc]

namespace Machine

/-- The outcome of a run beside the one that it should have: the same, but for the branches that
are open. After a success these are as they should be. -/
inductive Matches (closed : List Bool → Prop) : EStateM.Result ScriptError State Unit →
    EStateM.Result ScriptError State Unit → Prop
  | ok {flow : List Bool} (after : State) (fine : closed flow) :
      Matches closed (.ok () { after with flow }) (.ok () after)
  | error (flow : List Bool) (error : ScriptError) (after : State) :
      Matches closed (.error error { after with flow }) (.error error after)

variable {ctx : Context} {closed others : List Bool → Prop} {before before' : State} {place : Nat}
  {chunk : Chunk} {chunks : List Chunk} {inner outer flow : List Bool} {depth : Nat}

theorem Matches.bind {first second next next' : Machine Unit}
    (head : Matches closed (first before) (second before'))
    (tail : ∀ flow after, closed flow → second before' = .ok () after →
      Matches others (next { after with flow }) (next' after)) :
    Matches others ((first >>= fun _ => next) before) ((second >>= fun _ => next') before') := by
  generalize outcome : first before = result at head
  generalize outcome' : second before' = result' at head
  cases head with
  | ok after fine =>
    rw [bind_of_success outcome,bind_of_success outcome']
    exact tail _ after fine outcome'
  | error flow error after =>
    rw [bind_of_failure outcome,bind_of_failure outcome']
    exact .error flow error after

theorem Matches.followed {first next : Machine Unit}
    {result : EStateM.Result ScriptError State Unit} (head : Matches closed (first before) result)
    (tail : ∀ flow after, closed flow → result = .ok () after →
      Matches others (next { after with flow }) (.ok () after)) :
    Matches others ((first >>= fun _ => next) before) result := by
  generalize outcome : first before = result' at head
  cases head with
  | ok after fine =>
    rw [bind_of_success outcome]
    exact tail _ after fine rfl
  | error flow error after =>
    rw [bind_of_failure outcome]
    exact .error flow error after

theorem Matches.weaken {result result' : EStateM.Result ScriptError State Unit}
    (found : Matches closed result result') (implied : ∀ flow, closed flow → others flow) :
    Matches others result result' := by
  cases found with
  | ok after fine => exact .ok after (implied _ fine)
  | error flow error after => exact .error flow error after

private theorem skip_matches (ctx : Context) (chunk : Chunk) (before : State) (flow : List Bool) :
    Matches (· = flow) (skip ctx chunk { before with flow }) (skip ctx chunk before) := by
  have same : ({ before with flow } : State).counting [chunk] =
      { before.counting [chunk] with flow } := rfl
  rw [skip_apply,skip_apply,same]
  split
  · exact .error flow _ _
  · cases chunk.refusal? ctx.flags with
    | some error => exact .error flow _ _
    | none => exact .ok _ rfl

theorem limit_of_within (within : before.stack.length + before.alt.length ≤ maxItems) :
    limit before = .ok () before :=
  limit_success_iff.mpr ⟨within,rfl⟩

private theorem effect_skipped (skipped : before.executing = false) (plain : chunk.bracket? = none)
    (fits : chunk.refusal? ctx.flags = none) : effect ctx place chunk before = .ok () before := by
  have idle (operation : chunk.isPush = false) : before.reaches chunk.opcode = false := by
    obtain ⟨_,first,second,_⟩ := (Chunk.refusal?_eq_none_iff.mp fits).2 operation
    have free : Opcode.bracket? chunk.opcode = none := by
      rw [Chunk.bracket?,operation] at plain
      exact plain
    rw [State.reaches,skipped,Opcode.isBranching_eq,free]
    simp [first,second]
  cases operation : chunk.isPush with
  | false =>
    rw [effect_operation ctx place operation,get_bind_apply,idle operation]
    rfl
  | true =>
    cases chunk with
    | push header payload =>
      rw [effect,get_bind_apply,skipped]
      rfl
    | op code => cases operation
    | raw bytes => cases operation

private theorem execute_bracket_skipped {bracket : Bracket} (ctx : Context) (place : Nat) (negated : Bool)
    (skipped : before.executing = false) (found : bracket.depthAfter? before.flow.length = some depth) :
    ∃ flow, bracket.Turns before.flow flow ∧
      execute ctx place (bracket.operation negated) before = .ok () { before with flow } := by
  cases bracket with
  | opening => exact ⟨_,.opening false _,branch_skipped skipped⟩
  | divider =>
    cases opened : before.flow with
    | nil =>
      rw [opened] at found
      cases found
    | cons taken outer => exact ⟨_,.divider taken outer,otherwise_cons opened⟩
  | closing =>
    cases opened : before.flow with
    | nil =>
      rw [opened] at found
      cases found
    | cons taken outer => exact ⟨_,.closing taken outer,endBranch_cons opened⟩

-- The step lemma for skipped chunks.
private theorem advance_skipped (place : Nat) (skipped : flow.all id = false)
    (within : before.stack.length + before.alt.length ≤ maxItems)
    (found : chunk.depthAfter? flow.length = some depth) :
    Matches (chunk.Turns flow) (advance ctx place chunk { before with flow })
      (skip ctx chunk before) := by
  rw [advance_eq]
  refine (skip_matches ctx chunk before flow).followed ?_
  rintro flow after rfl outcome
  obtain ⟨_,fits,rfl⟩ := skip_success_iff.mp outcome
  have limited (flow : List Bool) : limit { before.counting [chunk] with flow } =
      .ok () { before.counting [chunk] with flow } := limit_of_within within
  cases kind : chunk.bracket? with
  | none =>
    have idle : effect ctx place chunk { before.counting [chunk] with flow } =
        .ok () { before.counting [chunk] with flow } := effect_skipped skipped kind fits
    rw [bind_of_success idle,limited]
    exact .ok _ (.plain kind _)
  | some bracket =>
    rw [Chunk.depthAfter?,kind] at found
    have skipped' : State.executing { before.counting [chunk] with flow } = false := skipped
    obtain ⟨flow',turns,ran⟩ :=
      execute_bracket_skipped ctx place (chunk.opcode = 0x64) skipped' found
    rw [effect_bracket place kind,bind_of_success ran,limited]
    exact .ok _ (.bracket kind turns)

/-- Whatever skipping chunks ends in, only their count has changed. It ends early at a chunk that
is one too many or refused. -/
theorem skipAll_cases (ctx : Context) (chunks : List Chunk) (before : State) :
    skipAll ctx chunks before = .ok () (before.counting chunks) ∨
    ∃ passed chunk rest error, chunks = passed ++ chunk :: rest ∧
      skipAll ctx chunks before = .error error (before.counting (passed ++ [chunk])) ∧
      (error = .opCount ∨ chunk.refusal? ctx.flags = some error) := by
  induction chunks generalizing before with
  | nil => exact .inl rfl
  | cons chunk rest ih =>
    cases skipped : skip ctx chunk before with
    | error error after =>
      obtain ⟨rfl,cause⟩ := skip_failure skipped
      exact .inr ⟨[],chunk,rest,error,rfl,bind_of_failure skipped _,cause⟩
    | ok done after =>
      obtain ⟨_,_,rfl⟩ := skip_success_iff.mp skipped
      have following : skipAll ctx (chunk :: rest) before = skipAll ctx rest (before.counting [chunk]) :=
        bind_of_success skipped _
      rw [following]
      rcases ih (before.counting [chunk]) with passed | ⟨passed,last,rest',error,rfl,failed,cause⟩
      · rw [passed,State.counting_append]
        exact .inl rfl
      · refine .inr ⟨chunk :: passed,last,rest',error,rfl,?_,cause⟩
        rw [failed,State.counting_append]
        rfl

-- The run lemma for skipped chunks.
private theorem advanceAll_skipped (place : Nat) (skipped : outer.all id = false)
    (within : before.stack.length + before.alt.length ≤ maxItems)
    (found : Script.depthAfter? chunks inner.length = some depth) :
    Matches (fun flow => ∃ inner', flow = inner' ++ outer ∧ inner'.length = depth)
      (advanceAll ctx place chunks { before with flow := inner ++ outer })
      (skipAll ctx chunks before) := by
  induction chunks generalizing place before inner with
  | nil =>
    cases found
    exact .ok before ⟨inner,rfl,rfl⟩
  | cons chunk rest ih =>
    obtain ⟨depth',first,found⟩ := Option.bind_eq_some_iff.mp found
    -- Whatever the script has open itself, some branch outside of it is not taken.
    have idle : (inner ++ outer).all id = false := by
      rw [List.all_append,skipped,Bool.and_false]
    have enough : chunk.depthAfter? (inner ++ outer).length = some (depth' + outer.length) := by
      rw [List.length_append]
      exact chunk.depthAfter?_add _ _ _ first
    refine (advance_skipped place idle within enough).bind ?_
    intro flow after turns counted
    obtain ⟨inner',rfl,rfl⟩ := Chunk.turns_inner turns first
    obtain ⟨_,_,rfl⟩ := skip_success_iff.mp counted
    exact ih (place + 1) within found

theorem advanceAll_skipped_balanced (place : Nat) (skipped : outer.all id = false)
    (within : before.stack.length + before.alt.length ≤ maxItems)
    (balanced : Script.isBalanced chunks = true) :
    Matches (· = outer) (advanceAll ctx place chunks { before with flow := outer })
      (skipAll ctx chunks before) := by
  have none : Script.depthAfter? chunks ([] : List Bool).length = some 0 := of_decide_eq_true balanced
  refine (advanceAll_skipped place skipped within none).weaken ?_
  rintro flow ⟨inner',rfl,closed⟩
  rw [List.length_eq_zero_iff.mp closed]
  rfl

end Machine

end ColorScript
