import ColorScript.Machine.Execute

/-! The chunks that a run comes to, each with the state before it, up to the chunk that fails. -/
namespace ColorScript

def final {ε σ α : Type} : EStateM.Result ε σ α → σ
  | .ok _ after => after
  | .error _ after => after

/-- A chunk that a run comes to, with its place and the state before it. -/
structure Visit where
  place : Nat
  chunk : Chunk
  before : State

namespace Visit

def operation? (visit : Visit) : Option Operation :=
  if !visit.chunk.isPush && visit.before.reaches visit.chunk.opcode then
    some (Operation.ofOpcode visit.chunk.opcode)
  else none

def after (ctx : Context) (visit : Visit) : State :=
  final (Machine.advance ctx visit.place visit.chunk visit.before)

def calls (ctx : Context) (visit : Visit) : List Call :=
  (visit.after ctx).calls.drop visit.before.calls.length

end Visit

/-- The number of keys that an operation tries signatures on: the number on top of the stack, if
it checks several signatures. -/
def Operation.keyCount (operation : Operation) (stack : Stack) : Nat :=
  match operation, stack with
  | .checkMultiSig _, top :: _ =>
    match Number.decode top with
    | .ok n => n.toNat
    | .error _ => 0
  | _, _ => 0

def Visit.keyCount (visit : Visit) : Nat :=
  (visit.operation?.map (·.keyCount visit.before.stack)).getD 0

/-- The signatures of the transaction that an operation checks, the topmost first. The number of
several signatures lies below their keys. -/
def Operation.signatures (operation : Operation) (stack : Stack) : List Bytes :=
  match operation, stack with
  | .checkSig _, _ :: sig :: _ => [sig]
  | .checkMultiSig _, _ =>
    match stack.drop (operation.keyCount stack + 1) with
    | count :: below =>
      match Number.decode count with
      | .ok n => below.take n.toNat
      | .error _ => []
    | [] => []
  | _, _ => []

def Visit.signatures (visit : Visit) : List Bytes :=
  (visit.operation?.map (·.signatures visit.before.stack)).getD []

namespace Machine

def visits (ctx : Context) : (place : Nat) → List Chunk → State → List Visit
  | _, [], _ => []
  | place, chunk :: rest, before =>
    ⟨place, chunk, before⟩ ::
      match advance ctx place chunk before with
      | .ok _ after => visits ctx (place + 1) rest after
      | .error _ _ => []

end Machine

structure Run where
  ctx : Context
  start : State

namespace Run

def outcome (run : Run) : EStateM.Result ScriptError State Unit := Machine.run run.ctx run.start

def final (run : Run) : State := ColorScript.final run.outcome

/-- A script that is too large is refused before its first chunk. -/
def visits (run : Run) : List Visit :=
  if run.ctx.script.size ≤ Script.maxSize then Machine.visits run.ctx 0 run.ctx.script run.start
  else []

end Run

end ColorScript
