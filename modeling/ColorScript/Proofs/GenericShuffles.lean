import ColorScript.Proofs.Arithmetic
import ColorScript.Proofs.PushEncoding
import ColorScript.Proofs.StackLocality
import ColorScript.Proofs.StructuredControl
import ColorScript.Proofs.Underflow

/-! Rearrangements of the topmost items in steps that copy or move a single item from a depth to the top,
or drop the top. Unless a limit stops it, the script of such steps leaves the stack of the rearrangement, or
misses an item where the rearrangement does. -/
namespace ColorScript

/-- A change of the stack by a single item, at a depth that has an opcode. -/
inductive Fetch where
  | pick (depth : Fin 17)
  | roll (depth : Fin 17)
  | drop

namespace Fetch

def script : Fetch → Script
  | .pick depth => [.ofInt depth,.op 0x79]
  | .roll depth => [.ofInt depth,.op 0x7a]
  | .drop => [.op 0x75]

/-- The stack after the change, if the item is there. -/
def turn? (stack : Stack) : Fetch → Option Stack
  | .pick depth => stack[depth.val]?.map (· :: stack)
  | .roll depth => stack[depth.val]?.map (· :: stack.eraseIdx depth)
  | .drop => Shuffle.drop.rearrange? stack

end Fetch

namespace Shuffle

/-- A rearrangement item by item. -/
def generic : Shuffle → List Fetch
  | .drop => [.drop]
  | .dropTwo => [.drop,.drop]
  | .dup => [.pick 0]
  | .dupTwo => [.pick 1,.pick 1]
  | .dupThree => [.pick 2,.pick 2,.pick 2]
  | .nip => [.roll 1,.drop]
  | .over => [.pick 1]
  | .overTwo => [.pick 3,.pick 3]
  | .rot => [.roll 2]
  | .rotTwo => [.roll 5,.roll 5]
  | .swap => [.roll 1]
  | .swapTwo => [.roll 3,.roll 3]
  | .tuck => [.roll 1,.pick 1]

private theorem foldlM_generic (move : Shuffle) (stack : Stack) :
    move.generic.foldlM Fetch.turn? stack = move.rearrange? stack := by
  rcases stack with _ | ⟨a,_ | ⟨b,_ | ⟨c,_ | ⟨d,_ | ⟨e,_ | ⟨f,rest⟩⟩⟩⟩⟩⟩ <;>
    cases move <;> rfl

end Shuffle

private theorem Opcode.isOrdinary_of_shuffle {opcode : Opcode} {move : Shuffle}
    (shuffles : Operation.ofOpcode opcode = .shuffle move) : opcode.isOrdinary = true := by
  have each : ∀ opcode, (match Operation.ofOpcode opcode with
      | .shuffle _ => opcode.isOrdinary
      | _ => true) = true := forall_byte (by decide +kernel)
  have ordinary := each opcode
  rwa [shuffles] at ordinary

namespace Machine

def IsLimit (error : ScriptError) : Prop := error = .opCount ∨ error = .stackSize

/-- How a run ends that is to leave a certain stack, or to miss an item if there is no such stack. -/
inductive Turned (found : Option Stack) (script : Script) (before : State) :
    EStateM.Result ScriptError State Unit → Prop
  | moved {stack : Stack} (same : found = some stack) :
    Turned found script before (.ok () ({ before with stack }.counting script))
  | missed (after : State) (none : found = none) :
    Turned found script before (.error .invalidStackOperation after)
  | stopped {error : ScriptError} (after : State) (limit : IsLimit error) :
    Turned found script before (.error error after)

/-- A script that rearranges the stack where it is executed, and does nothing else. -/
def Turns (ctx : Context) (turn : Stack → Option Stack) (script : Script) : Prop :=
  ∀ place before, before.executing = true →
    Turned (turn before.stack) script before (advanceAll ctx place script before)

section Turns

variable {ctx : Context} {turn turn' : Stack → Option Stack} {script script' : Script} {chunk : Chunk}
  {before : State} {found : Option Stack}

theorem Turned.bind {first next : Machine Unit} (head : Turned found script before (first before))
    (tail : ∀ stack, found = some stack → Turned (turn' stack) script'
      ({ before with stack }.counting script) (next ({ before with stack }.counting script))) :
    Turned (found.bind turn') (script ++ script') before ((first >>= fun _ => next) before) := by
  generalize ended : first before = result at head
  cases head with
  | @moved stack same =>
    have rest := tail stack same
    rw [bind_of_success ended,same]
    generalize next ({ before with stack }.counting script) = last at rest
    cases rest with
    | @moved stack' same' =>
      have counted : State.counting { ({ before with stack }.counting script) with stack := stack' } script' =
          { before with stack := stack' }.counting (script ++ script') :=
        State.counting_append { before with stack := stack' } script script'
      rw [counted]
      exact .moved same'
    | missed after none => exact .missed after none
    | stopped after limit => exact .stopped after limit
  | missed after none =>
    rw [bind_of_failure ended,none]
    exact .missed after rfl
  | stopped after limit =>
    rw [bind_of_failure ended]
    exact .stopped after limit

theorem Turns.append (head : Turns ctx turn script) (tail : Turns ctx turn' script') :
    Turns ctx (fun stack => (turn stack).bind turn') (script ++ script') := by
  intro place before executing
  rw [advanceAll_append]
  exact (head place before executing).bind fun stack _ =>
    tail (place + script.length) ({ before with stack }.counting script) executing

private theorem advanceAll_turned (place : Nat)
    (stepped : Turned found [chunk] before (step ctx place chunk before)) :
    Turned found [chunk] before (advanceAll ctx place [chunk] before) := by
  generalize ended : step ctx place chunk before = result at stepped
  have advanced : advanceAll ctx place [chunk] before = advance ctx place chunk before :=
    congrFun (bind_pure_unit (m := Machine)) before
  rw [advanced]
  cases stepped with
  | @moved stack same =>
    by_cases within : stack.length + before.alt.length ≤ maxItems
    · rw [advance_success_iff.mpr ⟨ended,within⟩]
      exact .moved same
    · rw [advance_excess ended (Nat.not_le.mp within)]
      exact .stopped _ (.inr rfl)
  | missed after none =>
    rw [advance,bind_of_failure ended]
    exact .missed after none
  | stopped after limit =>
    rw [advance,bind_of_failure ended]
    exact .stopped after limit

private theorem step_turned {code : Opcode} (ordinary : code.isOrdinary = true) (place : Nat)
    (executing : before.executing = true)
    (executed : ∀ middle, middle.stack = before.stack →
      Turned found [] middle (execute ctx place (Operation.ofOpcode code) middle)) :
    Turned found [.op code] before (step ctx place (.op code) before) := by
  rw [step_ordinary ordinary,if_pos executing]
  split
  next =>
    have turned := executed { before with opCount := before.opCount + 1 } rfl
    generalize execute ctx place (Operation.ofOpcode code) { before with opCount := before.opCount + 1 } =
      result at turned
    cases turned with
    | @moved stack same =>
      have moved : Turned found [.op code] before (.ok () ({ before with stack }.counting [.op code])) :=
        .moved same
      rwa [State.counting_counted (Opcode.isCounted_of_isOrdinary ordinary)] at moved
    | missed after none => exact .missed after none
    | stopped after limit => exact .stopped after limit
  next => exact .stopped _ (.inl rfl)

private theorem shuffle_turned (move : Shuffle) (before : State) :
    Turned (move.rearrange? before.stack) [] before (shuffle move before) := by
  rw [shuffle,get_bind_apply]
  cases found : move.rearrange? before.stack with
  | none => exact .missed _ rfl
  | some stack => exact .moved rfl

private theorem fetch_turned (removed : Bool) {depth : Nat} {rest : Stack} (small : depth < 2 ^ 31)
    (items : before.stack = Number.encode depth :: rest) :
    Turned (rest[depth]?.map (· :: if removed then rest.eraseIdx depth else rest)) [] before
      (fetch ctx removed before) := by
  have read : Number.operand Number.operandSize (ctx.flags.has .minimalData) (Number.encode depth) =
      .ok (depth : Int) := by
    have fine := Number.operand_of_isOperand
      (Number.isOperand_encode (n := depth) (by omega) (ctx.flags.has .minimalData))
    rwa [Number.value_encode] at fine
  by_cases enough : 2 ≤ before.stack.length
  · cases found : rest[depth]? with
    | none =>
      have outside : rest.length ≤ depth := List.getElem?_eq_none_iff.mp found
      rw [fetch_outside removed items enough read (.inr (by omega))]
      exact .missed _ rfl
    | some item =>
      rw [fetch_found removed items enough read (Int.natCast_nonneg depth) found]
      exact .moved rfl
  · have missing : rest = [] := by
      rw [items,List.length_cons] at enough
      exact List.length_eq_zero_iff.mp (by omega)
    rw [fetch,bind_of_failure (require_short (Nat.not_le.mp enough)),missing]
    exact .missed _ rfl

private theorem shuffle_turns {opcode : Opcode} {move : Shuffle}
    (shuffles : Operation.ofOpcode opcode = .shuffle move) : Turns ctx move.rearrange? [.op opcode] := by
  intro place before executing
  refine advanceAll_turned place (step_turned (Opcode.isOrdinary_of_shuffle shuffles) place executing ?_)
  intro middle same
  rw [shuffles,← same]
  exact shuffle_turned move middle

private theorem ofInt_turned {n : Int} (bound : n.natAbs < 2 ^ 31) (place : Nat)
    (executing : before.executing = true) :
    Turned (some (Number.encode n :: before.stack)) [.ofInt n] before
      (advanceAll ctx place [.ofInt n] before) := by
  have short : (Number.encode n).length ≤ 4 := (Number.length_encode_le_iff n 3).mpr bound
  have item : Chunk.ofInt n = Chunk.ofItem (Number.encode n) :=
    Chunk.ofInt_eq_ofItem (Nat.lt_trans bound (by decide))
  have free : Chunk.isCounted (.ofInt n) = false := by
    have low : (Chunk.ofInt n).opcode ≤ Opcode.sixteen :=
      item ▸ Chunk.opcode_ofItem_le (Nat.le_trans short (by decide))
    rw [Chunk.isCounted,decide_eq_false (UInt8.not_lt.mpr low),Bool.and_false]
  have moved : Turned (some (Number.encode n :: before.stack)) [.ofInt n] before
      (.ok () ({ before with stack := Number.encode n :: before.stack }.counting _)) := .moved rfl
  refine advanceAll_turned place ?_
  rw [State.counting_free free] at moved
  rw [item] at moved ⊢
  rwa [step_ofItem (Nat.le_trans short (by decide)) executing]

private theorem fetches_turns {code : Opcode} {removed : Bool} (ordinary : code.isOrdinary = true)
    (fetches : Operation.ofOpcode code = .fetch removed) {depth : Nat} (small : depth < 2 ^ 31) :
    Turns ctx (fun stack => stack[depth]?.map (· :: if removed then stack.eraseIdx depth else stack))
      [.ofInt depth,.op code] := by
  intro place before executing
  have bound : (depth : Int).natAbs < 2 ^ 31 := small
  have pushed : Turned (some (Number.encode depth :: before.stack)) [.ofInt depth] before
      (advanceAll ctx place [.ofInt depth] before) := ofInt_turned bound place executing
  have ran : advanceAll ctx place [.ofInt depth,.op code] before = (do
      advanceAll ctx place [.ofInt depth]
      advanceAll ctx (place + 1) [.op code]) before :=
    congrFun (advanceAll_append ctx place [.ofInt depth] [.op code]) before
  rw [ran]
  change Turned ((some (Number.encode depth :: before.stack)).bind fun stack =>
    stack.tail[depth]?.map (· :: if removed then stack.tail.eraseIdx depth else stack.tail))
    ([.ofInt depth] ++ [.op code]) before _
  refine pushed.bind fun stack same => ?_
  cases same
  refine advanceAll_turned (place + 1) (step_turned ordinary (place + 1) executing fun middle same => ?_)
  rw [fetches]
  exact fetch_turned removed small same

-- The step lemma.
private theorem fetch_turns (form : Fetch) : Turns ctx form.turn? form.script := by
  have near (depth : Fin 17) : depth.val < 2 ^ 31 := Nat.lt_trans depth.isLt (by decide)
  cases form with
  | pick depth =>
    have copies : Operation.ofOpcode 0x79 = .fetch false := rfl
    exact fetches_turns rfl copies (near depth)
  | roll depth =>
    have moves : Operation.ofOpcode 0x7a = .fetch true := rfl
    exact fetches_turns rfl moves (near depth)
  | drop => exact shuffle_turns rfl

-- The run lemma.
private theorem forms_turns (forms : List Fetch) :
    Turns ctx (fun stack => forms.foldlM Fetch.turn? stack) (forms.flatMap Fetch.script) := by
  induction forms with
  | nil => exact fun place before executing => .moved rfl
  | cons form forms ih => exact (fetch_turns form).append ih

private theorem generic_turns (move : Shuffle) :
    Turns ctx move.rearrange? (move.generic.flatMap Fetch.script) := by
  have turns : Turns ctx _ (move.generic.flatMap Fetch.script) := forms_turns move.generic
  rwa [funext move.foldlM_generic] at turns

end Turns

theorem Turned.within {found : Option Stack} {script : Script} {before : State}
    {ended : EStateM.Result ScriptError State Unit} (turned : Turned found script before ended)
    (free : ∀ error after, ended = .error error after → ¬ IsLimit error) :
    (∃ stack, found = some stack ∧ ended = .ok () ({ before with stack }.counting script)) ∨
      (found = none ∧ ∃ after, ended = .error .invalidStackOperation after) := by
  cases turned with
  | moved same => exact .inl ⟨_,same,rfl⟩
  | missed after none => exact .inr ⟨none,after,rfl⟩
  | stopped after limit => exact absurd limit (free _ after rfl)

/-- A rearrangement beside its script of single items. Where neither meets a limit, both leave the same
stack and change nothing else but the count of operations, or both miss an item. Either does at the places of
the items from the bottom what it does here. -/
theorem shuffle_generic {opcode : Opcode} {move : Shuffle}
    (shuffles : Operation.ofOpcode opcode = .shuffle move) (ctx : Context) (place place' : Nat)
    {before : State} (executing : before.executing = true)
    (free : ∀ error after, advanceAll ctx place [.op opcode] before = .error error after → ¬ IsLimit error)
    (free' : ∀ error after, advanceAll ctx place' (move.generic.flatMap Fetch.script) before =
      .error error after → ¬ IsLimit error) :
    ((∃ stack, move.rearrange? before.stack = some stack ∧
      advanceAll ctx place [.op opcode] before = .ok () ({ before with stack }.counting [.op opcode]) ∧
      advanceAll ctx place' (move.generic.flatMap Fetch.script) before =
        .ok () ({ before with stack }.counting (move.generic.flatMap Fetch.script))) ∨
    (before.stack.length < move.arity ∧
      (∃ after, advanceAll ctx place [.op opcode] before = .error .invalidStackOperation after) ∧
      ∃ after, advanceAll ctx place' (move.generic.flatMap Fetch.script) before =
        .error .invalidStackOperation after)) ∧
    GuardedMachine.shuffle move before = .ok (shuffle move before) ∧
    ∀ removed middle, GuardedMachine.fetch ctx removed middle = .ok (fetch ctx removed middle) := by
  refine ⟨?_,GuardedMachine.shuffle_agrees move,fun removed middle => GuardedMachine.fetch_agrees ctx removed⟩
  have whole : Turned (move.rearrange? before.stack) [.op opcode] before
      (advanceAll ctx place [.op opcode] before) := shuffle_turns shuffles place before executing
  have parts : Turned (move.rearrange? before.stack) (move.generic.flatMap Fetch.script) before
      (advanceAll ctx place' (move.generic.flatMap Fetch.script) before) :=
    generic_turns move place' before executing
  replace parts := parts.within free'
  rcases whole.within free with ⟨stack,same,moved⟩ | ⟨none,missed⟩
  · rcases parts with ⟨stack',same',moved'⟩ | ⟨none,_⟩
    · rw [same] at same'
      cases same'
      exact .inl ⟨stack,same,moved,moved'⟩
    · rw [same] at none
      cases none
  · rcases parts with ⟨stack,same,_⟩ | ⟨_,missed'⟩
    · rw [none] at same
      cases same
    · exact .inr ⟨Shuffle.rearrange?_eq_none_iff.mp none,missed,missed'⟩

/-- Six items, all different. -/
theorem shuffle_generic_rotTwo :
    ∃ stack, Shuffle.rotTwo.rearrange? [[1],[2],[3],[4],[5],[6]] = some stack ∧
      advanceAll ⟨⟨Flags.empty,Oracle.never⟩,[],false⟩ 0 [.op 0x71]
        { stack := [[1],[2],[3],[4],[5],[6]] } = .ok () { stack, opCount := 1 } ∧
      advanceAll ⟨⟨Flags.empty,Oracle.never⟩,[],false⟩ 0
        [.op 0x55,.op 0x7a,.op 0x55,.op 0x7a]
        { stack := [[1],[2],[3],[4],[5],[6]] } = .ok () { stack, opCount := 2 } := by
  have free (script : Script) (fine : succeeds (fun _ => true) (advanceAll
      ⟨⟨Flags.empty,Oracle.never⟩,[],false⟩ 0 script { stack := [[1],[2],[3],[4],[5],[6]] }) = true)
      (error : ScriptError) (after : State) (failed : advanceAll ⟨⟨Flags.empty,Oracle.never⟩,[],false⟩ 0
        script { stack := [[1],[2],[3],[4],[5],[6]] } = .error error after) : ¬ IsLimit error := by
    rw [failed] at fine
    cases fine
  exact (@shuffle_generic 0x71 .rotTwo rfl ⟨⟨Flags.empty,Oracle.never⟩,[],false⟩ 0 0
    { stack := [[1],[2],[3],[4],[5],[6]] } rfl (free _ (by decide +kernel))
    (free _ (by decide +kernel))).1.resolve_right fun short => absurd short.1 (by decide)

end Machine

end ColorScript
