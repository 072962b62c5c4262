import Mathlib.Algebra.GroupWithZero.Nat
import ColorScript.Proofs.Branches
import ColorScript.Proofs.PushOnly
import ColorScript.Proofs.Questions

/-! What a chunk costs. An operation asks once at most, or once for each key that it is charged for,
and no operation that asks is free. -/
namespace ColorScript

/-- The questions that a chunk may ask where a run comes to it. -/
def Visit.Asks (ctx : Context) (visit : Visit) (query : Query) : Prop :=
  ∃ operation, visit.operation? = some operation ∧
    Machine.Asks ctx visit.before.codeStart visit.before.stack operation query

theorem Visit.operation?_eq_some_iff {visit : Visit} {operation : Operation} :
    visit.operation? = some operation ↔ visit.chunk.isPush = false ∧
      visit.before.reaches visit.chunk.opcode = true ∧
      Operation.ofOpcode visit.chunk.opcode = operation := by
  rw [operation?]
  cases visit.chunk.isPush <;> cases visit.before.reaches visit.chunk.opcode <;> simp

/-- A step that is charged for keys, and asks not more than once besides. If it is charged for more
than the limit, it fails and does not ask. -/
structure Costs (oracle : Oracle) (asks : Query → Prop) (keyCount : Nat) (step : Machine Unit)
    (before : State) (keys questions : Nat) : Prop where
  moved : Moved oracle asks 3 questions { before with opCount := before.opCount + keys }
    (final (step before))
  covered : questions ≤ keys + 1
  bounded : keys = 0 ∨ before.opCount + keys ≤ Machine.maxOps ∨
    questions = 0 ∧ ∀ after, step before ≠ .ok () after
  charged {after : State} : step before = .ok () after → keys = keyCount

private theorem Costs.of_eq {oracle : Oracle} {asks asks' : Query → Prop} {keyCount keys questions : Nat}
    {step step' : Machine Unit} {before : State}
    (costs : Costs oracle asks keyCount step before keys questions)
    (same : step' before = step before) (implied : ∀ query, asks query → asks' query) :
    Costs oracle asks' keyCount step' before keys questions := by
  obtain ⟨moved,covered,bounded,charged⟩ := costs
  rw [← same] at moved bounded
  exact ⟨moved.imp implied,covered,bounded,fun ok => charged (same.symm.trans ok)⟩

namespace Machine

variable {ctx : Context} {before after : State} {place : Nat} {chunk : Chunk}

section Operations

variable {asks : Query → Prop}

private theorem moved_of_silent {items : Nat} {step : Machine Unit}
    (moves : Moves ctx.oracle asks items 0 step) (few : items ≤ 3) (before : State) :
    Moved ctx.oracle asks 3 1 before (final (step before)) :=
  moves.mono few (Nat.zero_le 1) before

-- The step lemma, one case for each operation that is not charged for keys.
private theorem execute_moved (place : Nat) {operation : Operation}
    (plain : ∀ ending, operation ≠ .checkMultiSig ending) :
    Moved ctx.oracle (Poses ctx before operation) 3 1 before
      (final (execute ctx place operation before)) := by
  cases operation with
  | pushInt n => exact moved_of_silent (push_moves _) (by decide) before
  | nothing => exact Moved.refl before
  | reservedNothing =>
    exact moved_of_silent (reservedNothing_looks ctx).moves (Nat.zero_le 3) before
  | checkLockTime => exact (checkLockTime_moved ctx before).mono (Nat.zero_le 3) (Nat.le_refl 1)
  | checkSequence => exact (checkSequence_moved ctx before).mono (Nat.zero_le 3) (Nat.le_refl 1)
  | branch negated => exact moved_of_silent (branch_moves ctx negated) (by decide) before
  | otherwise => exact moved_of_silent otherwise_moves (by decide) before
  | endBranch => exact moved_of_silent endBranch_moves (by decide) before
  | verify => exact moved_of_silent verify_moves (by decide) before
  | giveUp => exact Moved.refl before
  | toAlt => exact moved_of_silent toAlt_moves (by decide) before
  | fromAlt => exact moved_of_silent fromAlt_moves (by decide) before
  | shuffle move => exact moved_of_silent (shuffle_moves move) (by decide) before
  | dupIfTrue => exact moved_of_silent dupIfTrue_moves (by decide) before
  | depth => exact moved_of_silent (Looks.get.seq fun _ => push_moves _) (by decide) before
  | fetch removed => exact moved_of_silent (fetch_moves ctx removed) (by decide) before
  | size => exact moved_of_silent ((peek_looks 0).seq fun _ => push_moves _) (by decide) before
  | equal ending => exact moved_of_silent (equal_moves ending) (by decide) before
  | unary function =>
    exact moved_of_silent ((popNumber_moves ctx).seq fun _ => push_moves _) (by decide) before
  | binary function =>
    exact moved_of_silent ((popTwo_moves ctx).seq fun _ => push_moves _) (by decide) before
  | numEqualVerify =>
    exact moved_of_silent ((popTwo_moves ctx).look fun _ => ensure_looks _ _) (by decide) before
  | within => exact moved_of_silent (within_moves ctx) (by decide) before
  | digest function => exact moved_of_silent (pop_moves.seq fun _ => push_moves _) (by decide) before
  | codeSeparator => exact Moved.silent (Nat.le_add_right _ 3) rfl rfl
  | checkSig ending => exact (checkSig_moved ctx ending before).mono (by decide) (Nat.le_refl 1)
  | checkDataSig ending =>
    exact (checkDataSig_moved ctx ending before).mono (by decide) (Nat.le_refl 1)
  | checkMultiSig ending => exact absurd rfl (plain ending)
  | setColor => exact moved_of_silent (setColor_moves ctx) (by decide) before
  | invalid => exact Moved.refl before

private theorem checkMultiSig_costs (ctx : Context) (ending : Ending) (before : State) :
    ∃ keys questions, Costs ctx.oracle (Poses ctx before (.checkMultiSig ending))
      ((Operation.checkMultiSig ending).keyCount before.stack) (checkMultiSig ctx ending) before
      keys questions := by
  cases counted : multisigCounts ctx before with
  | error error middle =>
    have failed : checkMultiSig ctx ending before = .error error middle := by
      rw [checkMultiSig_eq,bind_of_failure counted]
    obtain ⟨n,same⟩ := multisigCounts_final ctx before
    rw [counted] at same
    obtain rfl : middle = { before with opCount := before.opCount + n } := same
    refine ⟨n,0,?_⟩
    exact
      { moved := by
          rw [failed]
          exact Moved.refl _
        covered := Nat.zero_le _
        bounded := .inr (.inr ⟨rfl,fun _ => failed ▸ nofun⟩)
        charged := fun ok => by
          rw [failed] at ok
          cases ok }
  | ok counts middle =>
    obtain ⟨keyCount,sigCount⟩ := counts
    obtain ⟨keysCounted,sigsCounted,room,rfl⟩ := multisigCounts_success counted
    have continued : checkMultiSig ctx ending before =
        checkCounted ctx ending keyCount sigCount { before with opCount := before.opCount + keyCount } := by
      rw [checkMultiSig_eq,bind_of_success counted]
    have moved := checkCounted_moved ctx ending { before with opCount := before.opCount + keyCount }
      keysCounted sigsCounted
    refine ⟨keyCount,keyCount,?_⟩
    exact
      { moved := by
          rw [continued]
          exact moved.mono (by decide) (Nat.le_refl _)
        covered := Nat.le_succ keyCount
        bounded := .inr (.inl room)
        charged := fun _ => by
          obtain ⟨top,rest,items,read⟩ := keysCounted
          simp only [Operation.keyCount,items,read,Int.toNat_natCast] }

theorem execute_costs (ctx : Context) (place : Nat) (operation : Operation) (before : State) :
    ∃ keys questions, Costs ctx.oracle (Poses ctx before operation) (operation.keyCount before.stack)
      (execute ctx place operation) before keys questions := by
  cases operation with
  | checkMultiSig ending => exact checkMultiSig_costs ctx ending before
  | _ => exact ⟨0,1,execute_moved place nofun,Nat.le_refl 1,.inl rfl,fun _ => rfl⟩

end Operations

section Chunks

private theorem asks_counted {codeStart : Nat} {stack : Stack} {opcode : Opcode} {query : Query}
    (asks : Asks ctx codeStart stack (Operation.ofOpcode opcode) query) : Opcode.sixteen < opcode := by
  refine UInt8.not_le.mp fun small => ?_
  rcases Operation.ofOpcode_small opcode small with ⟨n,same⟩ | same
  · rw [same] at asks
    cases asks
  · rw [same] at asks
    cases asks

theorem effect_executed (ctx : Context) {visit : Visit} {operation : Operation}
    (found : visit.operation? = some operation) :
    effect ctx visit.place visit.chunk visit.before = execute ctx visit.place operation visit.before := by
  obtain ⟨plain,reached,rfl⟩ := Visit.operation?_eq_some_iff.mp found
  rw [effect_operation ctx visit.place plain,get_bind_apply,if_pos reached]

private theorem effect_idle (ctx : Context) {oracle : Oracle} {asks : Query → Prop} {visit : Visit}
    (none : visit.operation? = none) :
    Moved oracle asks 3 0 visit.before (final (effect ctx visit.place visit.chunk visit.before)) := by
  obtain ⟨place,chunk,before⟩ := visit
  have skipped (plain : chunk.isPush = false) :
      Moved oracle asks 3 0 before (final (effect ctx place chunk before)) := by
    have unreached : ¬ before.reaches chunk.opcode = true := fun reached =>
      nomatch none.symm.trans (Visit.operation?_eq_some_iff.mpr ⟨plain,reached,rfl⟩)
    rw [effect_operation ctx place plain,get_bind_apply,if_neg unreached]
    exact Moved.refl before
  cases chunk with
  | push header payload =>
    have pushed : Moves oracle asks 1 0 (effect ctx place (.push header payload)) :=
      Looks.get.seq fun _ => Moves.ite
        ((ensure_looks _ _).seq fun _ => (ensure_looks _ _).seq fun _ => push_moves payload)
        (Looks.pure ()).moves
    exact pushed.mono (by decide) (Nat.le_refl 0) before
  | op code => exact skipped rfl
  | raw bytes => exact skipped rfl

private theorem effect_costs (ctx : Context) (visit : Visit) :
    ∃ keys questions, Costs ctx.oracle
      (fun query => query.WellFormed ctx.flags ∧ visit.Asks ctx query ∧ visit.chunk.isCounted = true)
      visit.keyCount (effect ctx visit.place visit.chunk) visit.before keys questions := by
  rw [Visit.keyCount]
  cases found : visit.operation? with
  | none => exact ⟨0,0,effect_idle ctx found,Nat.zero_le 1,.inl rfl,fun _ => rfl⟩
  | some operation =>
    obtain ⟨keys,questions,costs⟩ := execute_costs ctx visit.place operation visit.before
    refine ⟨keys,questions,costs.of_eq (effect_executed ctx found) fun query poses => ?_⟩
    obtain ⟨formed,asks⟩ := poses
    refine ⟨formed,⟨operation,found,asks⟩,?_⟩
    obtain ⟨plain,_,rfl⟩ := Visit.operation?_eq_some_iff.mp found
    simp [Chunk.isCounted,plain,asks_counted asks]

end Chunks

end Machine

/-- What a chunk may do where a run comes to it, whether it succeeds or fails: it adds a few items at
most, and asks no more than it counts. -/
structure Visit.Affordable (ctx : Context) (visit : Visit) : Prop where
  stack : (visit.after ctx).stack.length ≤ visit.before.stack.length + 3
  calls : (visit.after ctx).calls = visit.before.calls ++ visit.calls ctx
  asked : ∀ call ∈ visit.calls ctx, call.answer = ctx.oracle call.query ∧
    call.query.WellFormed ctx.flags ∧ visit.Asks ctx call.query
  counted : visit.before.opCount + (visit.calls ctx).length ≤ (visit.after ctx).opCount
  limited : visit.before.opCount ≤ Machine.maxOps →
    visit.before.opCount + (visit.calls ctx).length ≤ Machine.maxOps

private theorem Visit.affordable_of_queries {ctx : Context} {visit : Visit} (queries : List Query)
    (stack : (visit.after ctx).stack.length ≤ visit.before.stack.length + 3)
    (calls : (visit.after ctx).calls = visit.before.calls ++ queries.map ctx.oracle.reply)
    (asked : ∀ query ∈ queries, query.WellFormed ctx.flags ∧ visit.Asks ctx query)
    (counted : visit.before.opCount + queries.length ≤ (visit.after ctx).opCount)
    (limited : visit.before.opCount ≤ Machine.maxOps →
      visit.before.opCount + queries.length ≤ Machine.maxOps) : visit.Affordable ctx := by
  have own : visit.calls ctx = queries.map ctx.oracle.reply := by
    rw [Visit.calls,calls,List.drop_left]
  have length : (visit.calls ctx).length = queries.length := by rw [own,List.length_map]
  refine ⟨stack,calls.trans (own ▸ rfl),?_,length ▸ counted,length ▸ limited⟩
  intro call member
  rw [own] at member
  obtain ⟨query,posed,rfl⟩ := List.mem_map.mp member
  exact ⟨rfl,asked query posed⟩

namespace Machine

variable {ctx : Context} {before after : State} {place : Nat} {chunk : Chunk} {done : Unit}

/-- A chunk ends where its checks fail, or where its effect does: the limit after it only looks. -/
theorem after_cases (ctx : Context) (place : Nat) (chunk : Chunk) (before : State) :
    (∃ error, skip ctx chunk before = .error error (before.counting [chunk]) ∧
      (Visit.mk place chunk before).after ctx = before.counting [chunk]) ∨
    (skip ctx chunk before = .ok () (before.counting [chunk]) ∧
      (Visit.mk place chunk before).after ctx =
        final (effect ctx place chunk (before.counting [chunk]))) := by
  have reached : (Visit.mk place chunk before).after ctx =
      final ((skip ctx chunk >>= fun _ => effect ctx place chunk) before) := by
    rw [Visit.after,advance_eq,← bind_assoc,Looks.final_bind fun _ => limit_looks]
  cases skipped : skip ctx chunk before with
  | error error middle =>
    obtain ⟨rfl,_⟩ := skip_failure skipped
    rw [bind_of_failure skipped] at reached
    exact .inl ⟨error,rfl,reached⟩
  | ok done middle =>
    obtain ⟨_,_,rfl⟩ := skip_success_iff.mp skipped
    rw [bind_of_success skipped] at reached
    exact .inr ⟨rfl,reached⟩

/-- The step lemma, for chunks that succeed and for chunks that fail. -/
theorem advance_affordable (ctx : Context) (visit : Visit) : visit.Affordable ctx := by
  obtain ⟨place,chunk,before⟩ := visit
  have counted : before.opCount ≤ (before.counting [chunk]).opCount := Nat.le_add_right _ _
  rcases after_cases ctx place chunk before with ⟨error,_,reached⟩ | ⟨skipped,reached⟩
  · refine Visit.affordable_of_queries [] ?_ ?_ nofun ?_ id
    · rw [reached]
      exact Nat.le_add_right _ 3
    · rw [reached]
      exact (List.append_nil _).symm
    · rw [reached]
      exact counted
  · obtain ⟨room,_,_⟩ := skip_success_iff.mp skipped
    obtain ⟨keys,questions,moved,covered,bounded,_⟩ :=
      effect_costs ctx ⟨place,chunk,before.counting [chunk]⟩
    obtain ⟨queries,asked,few,fine⟩ := moved.calls
    have spent : (final (effect ctx place chunk (before.counting [chunk]))).opCount =
        (before.counting [chunk]).opCount + keys := moved.opCount
    have limited : keys = 0 ∨ (before.counting [chunk]).opCount + keys ≤ maxOps ∨ questions = 0 :=
      bounded.imp_right fun bounded => bounded.imp_right And.left
    -- A chunk that asks is counted itself, which pays for a question beyond the keys.
    have paid : queries.length = 0 ∨
        (before.counting [chunk]).opCount = before.opCount + 1 ∧ before.opCount + 1 ≤ maxOps := by
      cases queries with
      | nil => exact .inl rfl
      | cons query others =>
        have counted := (fine query List.mem_cons_self).2.2
        exact .inr ⟨by simp [State.counting,counted],room counted⟩
    refine Visit.affordable_of_queries queries ?_ ?_ (fun query member => ?_) ?_ fun start => ?_
    · rw [reached]
      exact moved.stack
    · rw [reached]
      exact asked
    · obtain ⟨formed,asks,_⟩ := fine query member
      exact ⟨formed,asks⟩
    · rw [reached]
      dsimp only
      omega
    · dsimp only at start ⊢
      omega

theorem advance_opCount (ok : advance ctx place chunk before = .ok done after) :
    after.opCount = before.opCount + [chunk].countP Chunk.isCounted +
      (Visit.mk place chunk before).keyCount ∧
    (before.opCount ≤ maxOps → after.opCount ≤ maxOps) := by
  rw [advance_eq] at ok
  obtain ⟨_,_,skipped,ok⟩ := bind_success _ _ _ _ _ ok
  obtain ⟨_,_,effected,limited⟩ := bind_success _ _ _ _ _ ok
  obtain ⟨room,_,rfl⟩ := skip_success_iff.mp skipped
  obtain ⟨_,rfl⟩ := limit_success_iff.mp limited
  obtain ⟨keys,questions,moved,_,bounded,charged⟩ :=
    effect_costs ctx ⟨place,chunk,before.counting [chunk]⟩
  have moved := moved.opCount
  rw [effected] at moved
  obtain rfl := charged effected
  have spent : after.opCount = (before.counting [chunk]).opCount +
      (Visit.mk place chunk before).keyCount := moved
  refine ⟨spent,fun start => Nat.le_trans (Nat.le_of_eq spent) ?_⟩
  have start' : (before.counting [chunk]).opCount ≤ maxOps := by
    cases kind : chunk.isCounted with
    | true => simpa [State.counting,kind] using room kind
    | false => simpa [State.counting,kind] using start
  rcases bounded with none | bounded | ⟨_,failed⟩
  · have none : (Visit.mk place chunk before).keyCount = 0 := none
    rw [none]
    exact start'
  · exact bounded
  · exact absurd effected (failed _)

section Runs

variable {chunks : List Chunk}

theorem visits_cons {middle : State} {rest : List Chunk}
    (ok : advance ctx place chunk before = .ok done middle) :
    visits ctx place (chunk :: rest) before =
      ⟨place,chunk,before⟩ :: visits ctx (place + 1) rest middle := by
  rw [visits,ok]

/-- The run lemma for the count of operations. -/
theorem advanceAll_opCount (ok : advanceAll ctx place chunks before = .ok done after) :
    after.opCount = before.opCount + chunks.countP Chunk.isCounted +
      ((visits ctx place chunks before).map Visit.keyCount).sum ∧
    (before.opCount ≤ maxOps → after.opCount ≤ maxOps) := by
  induction chunks generalizing place before with
  | nil =>
    cases ok
    exact ⟨rfl,id⟩
  | cons chunk rest ih =>
    obtain ⟨middle,stepped,ok⟩ := advanceAll_cons_success_iff.mp ok
    obtain ⟨counted,bounded⟩ := advance_opCount stepped
    obtain ⟨counted',bounded'⟩ := ih ok
    refine ⟨?_,fun start => bounded' (bounded start)⟩
    have split : (chunk :: rest).countP Chunk.isCounted =
        [chunk].countP Chunk.isCounted + rest.countP Chunk.isCounted := by
      rw [← List.countP_append,List.singleton_append]
    rw [counted',counted,visits_cons stepped,split,List.map_cons,List.sum_cons]
    omega

/-- The run lemma for the questions: they are those of its chunks, one after the other. -/
theorem advanceAll_calls (ctx : Context) (place : Nat) (chunks : List Chunk) (before : State) :
    (final (advanceAll ctx place chunks before)).calls =
      before.calls ++ (visits ctx place chunks before).flatMap (Visit.calls ctx) := by
  induction chunks generalizing place before with
  | nil => exact (List.append_nil _).symm
  | cons chunk rest ih =>
    have first := (advance_affordable ctx ⟨place,chunk,before⟩).calls
    rw [Visit.after] at first
    rw [advanceAll]
    refine bind_final (motive := fun last : State => last.calls = _) (fun error middle failed => ?_)
      fun done middle stepped => ?_
    · rw [failed] at first
      rw [visits,failed,List.flatMap_singleton]
      exact first
    · rw [stepped] at first
      have first : middle.calls = before.calls ++ (Visit.mk place chunk before).calls ctx := first
      rw [visits_cons stepped,ih,first,List.flatMap_cons,List.append_assoc]

/-- The run lemma for their number. -/
theorem advanceAll_calls_length (ctx : Context) (place : Nat) (chunks : List Chunk) (before : State) :
    before.opCount + ((visits ctx place chunks before).flatMap (Visit.calls ctx)).length ≤
        (final (advanceAll ctx place chunks before)).opCount ∧
      (before.opCount ≤ maxOps →
        before.opCount + ((visits ctx place chunks before).flatMap (Visit.calls ctx)).length ≤ maxOps) := by
  induction chunks generalizing place before with
  | nil => exact ⟨Nat.le_refl _,id⟩
  | cons chunk rest ih =>
    obtain ⟨_,_,_,counted,limited⟩ := advance_affordable ctx ⟨place,chunk,before⟩
    rw [Visit.after] at counted
    rw [advanceAll]
    cases stepped : advance ctx place chunk before with
    | error error middle =>
      rw [stepped] at counted
      rw [bind_of_failure stepped,visits,stepped,List.flatMap_singleton]
      exact ⟨counted,limited⟩
    | ok done middle =>
      obtain ⟨counted',limited'⟩ := ih (place + 1) middle
      have bounded := (advance_opCount stepped).2
      rw [stepped] at counted
      have counted : before.opCount + ((Visit.mk place chunk before).calls ctx).length ≤
        middle.opCount := counted
      rw [bind_of_success stepped,visits_cons stepped,List.flatMap_cons,List.length_append]
      refine ⟨by omega,fun start => ?_⟩
      have room := limited' (bounded start)
      omega

end Runs

end Machine

end ColorScript
