import ColorScript.Proofs.Deletion
import ColorScript.Proofs.Marks
import ColorScript.Proofs.OracleUse
import ColorScript.Proofs.Visits

/-! The code that signatures of the transaction commit to: the chunks from the last executed code
separator on, the checking operation among them, without the pushes of the signatures it checks. -/
namespace ColorScript

/-- Where the code of a place starts: after the last code separator that was executed before the place,
or where it started at first. -/
inductive CodeStart (visits : List Visit) (place start : Nat) : Nat → Prop
  | start (none : ∀ visit ∈ visits, visit.place < place → visit.operation? ≠ some .codeSeparator) :
      CodeStart visits place start start
  | separator (visit : Visit) (member : visit ∈ visits) (earlier : visit.place < place)
      (separates : visit.operation? = some .codeSeparator)
      (last : ∀ other ∈ visits, other.place < place → other.operation? = some .codeSeparator →
        other.place ≤ visit.place) : CodeStart visits place start (visit.place + 1)

theorem CodeStart.le {visits : List Visit} {place codeStart : Nat}
    (found : CodeStart visits place 0 codeStart) : codeStart ≤ place := by
  cases found with
  | start => exact Nat.zero_le place
  | separator visit member earlier => exact earlier

namespace Machine

variable {ctx : Context} {before after : State} {place codeStart : Nat} {chunk : Chunk}
  {chunks : List Chunk} {done : Unit} {visit : Visit}

private theorem advance_codeStart (ok : advance ctx place chunk before = .ok done after) :
    after.codeStart =
      if (Visit.mk place chunk before).operation? = some .codeSeparator then place + 1
      else before.codeStart := by
  have reached : (Visit.mk place chunk before).after ctx = after := congrArg final ok
  split
  next separates =>
    rcases after_cases ctx place chunk before with ⟨error,failed,_⟩ | ⟨_,effected⟩
    · rw [advance_eq,bind_of_failure failed] at ok
      cases ok
    · have executed : effect ctx place chunk (before.counting [chunk]) =
          execute ctx place .codeSeparator (before.counting [chunk]) :=
        @effect_executed ctx ⟨place,chunk,before.counting [chunk]⟩ _ separates
      rw [← reached,effected]
      exact congrArg (fun result => (final result).codeStart) executed
  next other =>
    have marks := after_marks ctx ⟨place,chunk,before⟩
    rw [reached] at marks
    cases marks with
    | same codeStart => exact codeStart
    | separator separates => exact absurd separates other
    | color _ _ codeStart => exact codeStart

-- The run lemma: at every chunk that a run comes to, the code starts after the last separator.
private theorem visits_codeStart (member : visit ∈ visits ctx place chunks before) :
    CodeStart (visits ctx place chunks before) visit.place before.codeStart visit.before.codeStart := by
  induction chunks generalizing place before with
  | nil => cases member
  | cons chunk rest ih =>
    rcases visits_cons_cases member with rfl | ⟨middle,stepped,member⟩
    · exact .start fun other found earlier => absurd earlier (Nat.not_lt.mpr (le_place_of_visits found))
    · have later : place < visit.place := le_place_of_visits member
      have moved := advance_codeStart stepped
      have found := ih member
      rw [visits_cons stepped]
      generalize visit.before.codeStart = codeStart at found ⊢
      -- A separator that is executed later stays the last one; before that, this chunk may be.
      cases found with
      | separator last ofRest earlier separates latest =>
        refine .separator last (List.mem_cons_of_mem _ ofRest) earlier separates ?_
        intro other member earlier' separates'
        rcases List.mem_cons.mp member with rfl | member
        · exact Nat.le_of_lt (le_place_of_visits ofRest)
        · exact latest other member earlier' separates'
      | start none =>
        rw [moved]
        split
        next separates =>
          refine .separator _ List.mem_cons_self later separates fun other member earlier separates' => ?_
          rcases List.mem_cons.mp member with rfl | member
          · exact Nat.le_refl _
          · exact absurd separates' (none other member earlier)
        next other =>
          refine .start fun other' member earlier => ?_
          rcases List.mem_cons.mp member with rfl | member
          · exact other
          · exact none other' member earlier

private theorem Operation.codeSeparator_of_ofOpcode {opcode : Opcode}
    (named : Operation.ofOpcode opcode = .codeSeparator) : opcode = Opcode.codeSeparator := by
  have each : ∀ opcode, Operation.ofOpcode opcode = .codeSeparator → opcode = Opcode.codeSeparator :=
    forall_byte (by decide +kernel)
  exact each opcode named

private theorem advance_codeStart_strict (strict : ctx.flags.has .constScriptCode = true)
    (ok : advance ctx place chunk before = .ok done after) : after.codeStart = before.codeStart := by
  rw [advance_codeStart ok,if_neg]
  intro separates
  obtain ⟨operation,_,named⟩ := Visit.operation?_eq_some_iff.mp separates
  rw [advance_eq] at ok
  obtain ⟨_,_,skipped,_⟩ := bind_success _ _ _ _ _ ok
  have fits := (skip_success_iff.mp skipped).2.1
  have refused := ((Chunk.refusal?_eq_none_iff.mp fits).2 operation).2.2.2 strict
  exact refused (Operation.codeSeparator_of_ofOpcode named)

section Codes

variable {codeStart : Nat} {sigs : List Bytes} {code : Script}

theorem withoutSignature_success {flags : Flags} {sig : Bytes} {stripped : Script}
    (ok : withoutSignature flags code sig = .ok stripped) : sig.length ≤ Chunk.maxPayload ∧
      stripped = code.delete [Chunk.ofData sig] ∧
      (flags.has .constScriptCode = true → stripped = code) := by
  rw [withoutSignature,Chunk.ofData?] at ok
  by_cases bound : sig.length ≤ Chunk.maxPayload
  · rw [if_pos bound] at ok
    dsimp only at ok
    split at ok
    next => cases ok
    next kept =>
      cases ok
      exact ⟨bound,rfl,fun strict => Classical.not_not.mp fun changed => kept ⟨changed,strict⟩⟩
  · rw [if_neg bound] at ok
    cases ok

/-- The signatures are short enough to be pushed, and their pushes are filtered out of a code that
bytes were split into. -/
theorem foldlM_withoutSignature {flags : Flags} {base : Script}
    (ok : sigs.foldlM (withoutSignature flags) base = .ok code) :
    (∀ sig ∈ sigs, sig.length ≤ Chunk.maxPayload) ∧
    (base.Canonical → base.IsNamed → code = base.filter (· ∉ sigs.map Chunk.ofData)) ∧
    (flags.has .constScriptCode = true → code = base) := by
  induction sigs generalizing base with
  | nil =>
    cases ok
    exact ⟨nofun,fun _ _ => (List.filter_eq_self.mpr (by simp)).symm,fun _ => rfl⟩
  | cons sig sigs ih =>
    rw [List.foldlM_cons] at ok
    cases stripped : withoutSignature flags base sig with
    | error fault =>
      rw [stripped] at ok
      cases ok
    | ok middle =>
      rw [stripped] at ok
      obtain ⟨bound,deleted,unchanged⟩ := withoutSignature_success stripped
      obtain ⟨bounds,filtered,unchanged'⟩ := ih ok
      refine ⟨List.forall_mem_cons.mpr ⟨bound,bounds⟩,fun canonical named => ?_,fun strict => ?_⟩
      · rw [Script.delete_eq_filter canonical named (Chunk.complete_ofData bound)] at deleted
        subst deleted
        rw [filtered (canonical.filter _) fun bytes member => named bytes (List.mem_filter.mp member).1,
          List.filter_filter]
        exact List.filter_congr fun chunk _ => by simp [Bool.and_comm]
      · exact (unchanged' strict).trans (unchanged strict)

end Codes

private theorem signature_of_asks {codeStart : Nat} {stack : Stack} {operation : Operation} {sig key : Bytes}
    {code : Script} (asks : Asks ctx codeStart stack operation (.signature sig key code)) :
    (∃ ending, operation = .checkSig ending ∨ operation = .checkMultiSig ending) ∧
      sig ∈ operation.signatures stack ∧
      scriptCode ctx codeStart (operation.signatures stack).reverse = .ok code := by
  cases asks with
  | signature items coded =>
    subst items
    exact ⟨⟨_,.inl rfl⟩,List.mem_cons_self,coded⟩
  | oneOfSeveral items keysCounted sigsCounted coded schemes ofSigs ofKeys =>
    subst items
    rename_i ending keyCount sigCount keys sigs rest
    have found : (Operation.checkMultiSig ending).signatures
        (keyCount :: (keys ++ sigCount :: (sigs ++ rest))) = sigs := by
      simp [Operation.signatures,Operation.keyCount,keysCounted,sigsCounted]
    rw [found]
    exact ⟨⟨_,.inr rfl⟩,ofSigs,coded⟩

end Machine

theorem Script.Canonical.drop {script : Script} (canonical : script.Canonical) (n : Nat) :
    Canonical (script.drop n) := by
  induction canonical generalizing n with
  | nil =>
    rw [List.drop_nil]
    exact .nil
  | last chunk unfinished =>
    cases n with
    | zero => exact .last chunk unfinished
    | succ n => simpa using Canonical.nil
  | cons chunk rest complete canonical ih =>
    cases n with
    | zero => exact .cons chunk rest complete canonical
    | succ n => exact ih n

private theorem Script.mem_filter_drop {script : Script} {chunk : Chunk} {place start : Nat} (sigs : List Bytes)
    (found : script[place]? = some chunk) (included : start ≤ place) (plain : chunk.isPush = false) :
    chunk ∈ (script.drop start).filter (· ∉ sigs.map Chunk.ofData) := by
  have shifted : (script.drop start)[place - start]? = some chunk := by
    rwa [List.getElem?_drop,Nat.add_sub_cancel' included]
  refine List.mem_filter.mpr ⟨List.mem_of_getElem? shifted,decide_eq_true fun pushed => ?_⟩
  obtain ⟨other,_,same⟩ := List.mem_map.mp pushed
  rw [← same] at plain
  cases plain

/-- What a question about a signature of the transaction commits to, where a run comes to a chunk. The
operation checks the signature, and the code is the script from a place on, without the pushes of all
signatures that the operation checks. -/
structure Visit.Signs (run : Run) (visit : Visit) (sig : Bytes) (code : Script) (codeStart : Nat) :
    Prop where
  checks : ∃ ending, visit.operation? = some (.checkSig ending) ∨
    visit.operation? = some (.checkMultiSig ending)
  found : run.ctx.script[visit.place]? = some visit.chunk
  signature : sig ∈ visit.signatures
  start : CodeStart run.visits visit.place 0 codeStart
  included : codeStart ≤ visit.place
  pushed : ∀ other ∈ visit.signatures, Chunk.ofData? other = .ok (Chunk.ofData other)
  stripped : ∀ bytes, run.ctx.script = Script.parse bytes → run.ctx.script.IsNamed →
    code = (run.ctx.script.drop codeStart).filter (· ∉ visit.signatures.map Chunk.ofData) ∧
      visit.chunk ∈ code
  whole : run.ctx.flags.has .constScriptCode = true → code = run.ctx.script

/-- Every question of a run about a signature of the transaction commits to the right code. -/
structure Run.SignsCode (run : Run) : Prop where
  calls : run.final.calls = run.visits.flatMap (Visit.calls run.ctx)
  signs : ∀ visit ∈ run.visits, ∀ call ∈ visit.calls run.ctx, ∀ sig key code,
    call.query = .signature sig key code → ∃ codeStart, visit.Signs run sig code codeStart

namespace Run

variable {run : Run} {visit : Visit}

private theorem Fresh.start_of_visits (fresh : run.Fresh) (member : visit ∈ run.visits) :
    CodeStart run.visits visit.place 0 visit.before.codeStart := by
  have all := visits_of_mem member
  have start := Machine.visits_codeStart (all ▸ member)
  rwa [fresh.codeStart,← all] at start

private theorem Fresh.codeStart_strict (fresh : run.Fresh) (strict : run.ctx.flags.has .constScriptCode = true)
    (member : visit ∈ run.visits) : visit.before.codeStart = 0 := by
  let unmoved (state : State) : Prop := state.codeStart = 0
  have kept : ∀ place chunk before after,
      Machine.advance run.ctx place chunk before = .ok () after → unmoved before → unmoved after :=
    fun _ _ _ _ stepped held => (Machine.advance_codeStart_strict strict stepped).trans held
  exact Machine.visits_preserve kept fresh.codeStart (visits_of_mem member ▸ member)

private theorem Fresh.signsCode (fresh : run.Fresh) : run.SignsCode := by
  obtain ⟨calls,formed⟩ := fresh.asksWellFormed
  refine ⟨calls,fun visit member call posed sig key code same => ?_⟩
  obtain ⟨_,_,operation,executed,asks⟩ := formed visit member call posed
  rw [same] at asks
  obtain ⟨⟨ending,checks⟩,signature,coded⟩ := Machine.signature_of_asks asks
  have start := fresh.start_of_visits member
  have found := getElem?_of_mem member
  have signatures : visit.signatures = operation.signatures visit.before.stack := by
    rw [Visit.signatures,executed]
    rfl
  obtain ⟨bounds,filtered,unchanged⟩ := Machine.foldlM_withoutSignature coded
  simp only [List.mem_reverse,List.map_reverse,← signatures] at bounds filtered
  refine ⟨visit.before.codeStart,?_⟩
  exact
    { checks := ⟨ending,checks.imp (fun same => executed.trans (congrArg some same))
        (fun same => executed.trans (congrArg some same))⟩
      found
      signature := signatures ▸ signature
      start
      included := start.le
      pushed := fun other member => if_pos (bounds other member)
      stripped := fun bytes parsed named => by
        have canonical : run.ctx.script.Canonical := parsed ▸ Script.canonical_parse bytes
        have filtered := filtered (canonical.drop _) fun raw member => named raw (List.mem_of_mem_drop member)
        refine ⟨filtered,filtered ▸ ?_⟩
        exact Script.mem_filter_drop _ found start.le (Visit.operation?_eq_some_iff.mp executed).1
      whole := fun strict => by
        rw [unchanged strict,fresh.codeStart_strict strict member]
        rfl }

end Run

namespace Session

/-- Every signature of the transaction is checked for the right code, in the run of an evaluation and
in every run of a verification. -/
theorem signatures_commit (rules : Rules) :
    (∀ script redeem before, ∃ run : Run, run = ⟨{ rules with script, redeem },before.start⟩ ∧
      (final (evaluate rules script redeem before)).calls = before.calls ++ run.final.calls ∧
      run.SignsCode) ∧
    ∀ unlocking locking before,
      Follows (runs rules unlocking locking) { calls := before.calls, journal := before.journal }
        (final (verify rules unlocking locking before)) ∧
      ∀ run ∈ runs rules unlocking locking, run.ctx.toRules = rules ∧ run.SignsCode := by
  refine ⟨?_,?_⟩
  · intro script redeem before
    have fresh : (Run.mk { rules with script, redeem } before.start).Fresh := Run.fresh _ _ _
    refine ⟨_,rfl,?_,fresh.signsCode⟩
    rw [evaluate_final]
    rfl
  · intro unlocking locking before
    refine ⟨verify_follows rules unlocking locking before,fun run member => ?_⟩
    obtain ⟨fresh,same⟩ := runs_fresh (runs_phases rules unlocking locking) run member
    exact ⟨same,fresh.signsCode⟩

/-- A signature that stands between a code separator and its check is not part of what it signs. -/
theorem signatures_commit_separator :
    (final (evaluate ⟨Flags.empty,Oracle.never⟩ [.push [1] [9],.op 0xab,.push [1] [9],.op 0x75,
      .push [1] [3],.op 0xac] false {})).calls =
        [⟨.signature [9] [3] [.op 0x75,.push [1] [3],.op 0xac],false⟩] ∧
    ∃ run : Run, run.ctx.script = [.push [1] [9],.op 0xab,.push [1] [9],.op 0x75,.push [1] [3],
      .op 0xac] ∧ ∃ visit ∈ run.visits, ∃ codeStart,
        visit.Signs run [9] [.op 0x75,.push [1] [3],.op 0xac] codeStart := by
  have asked : (final (evaluate ⟨Flags.empty,Oracle.never⟩ [.push [1] [9],.op 0xab,.push [1] [9],
      .op 0x75,.push [1] [3],.op 0xac] false {})).calls =
        [⟨.signature [9] [3] [.op 0x75,.push [1] [3],.op 0xac],false⟩] := by decide +kernel
  obtain ⟨run,rfl,same,signs⟩ := (signatures_commit ⟨Flags.empty,Oracle.never⟩).1 [.push [1] [9],
    .op 0xab,.push [1] [9],.op 0x75,.push [1] [3],.op 0xac] false {}
  have recorded := same.symm.trans asked
  rw [List.nil_append,signs.calls] at recorded
  have member : (⟨.signature [9] [3] [.op 0x75,.push [1] [3],.op 0xac],false⟩ : Call) ∈ _ :=
    recorded ▸ List.mem_cons_self
  obtain ⟨visit,ofVisits,member⟩ := List.mem_flatMap.mp member
  exact ⟨asked,_,rfl,visit,ofVisits,signs.signs visit ofVisits _ member _ _ _ rfl⟩

end Session

end ColorScript
