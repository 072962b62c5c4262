import ColorScript.Color
import ColorScript.Flags
import ColorScript.Oracle
import ColorScript.Operation

/-! The machine that runs a script: what a run is given, the state it changes, and the
steps that all operations are made of. A step that fails leaves the state as it was at
the point of failure. -/
namespace ColorScript

/-- The rules of a verification: the flags that are set and the oracle that is asked. -/
structure Rules where
  flags : Flags
  oracle : Oracle

structure Context extends Rules where
  script : Script
  /-- Whether the script was itself on the stack, as the script of a script digest is. -/
  redeem : Bool

structure State where
  stack : Stack
  alt : Stack := []
  /-- For each open branch, the innermost first, whether it is taken. -/
  flow : List Bool := []
  opCount : Nat := 0
  /-- The place after the last code separator that was executed. -/
  codeStart : Nat := 0
  color : Option ColorId := none
  calls : List Call := []

def State.executing (state : State) : Bool := state.flow.all id

def State.reaches (state : State) (opcode : Opcode) : Bool :=
  state.executing || opcode.isBranching

abbrev Machine := EStateM ScriptError State

namespace Machine

def maxOps : Nat := 201

def ensure (condition : Bool) (error : ScriptError) : Machine Unit :=
  if condition then pure () else throw error

def ofExcept {α : Type} : Except ScriptError α → Machine α
  | .ok value => pure value
  | .error error => throw error

def orShort {α : Type} : Option α → Machine α
  | some value => pure value
  | none => throw .invalidStackOperation

def require (n : Nat) : Machine Unit := do
  ensure (n ≤ (← get).stack.length) .invalidStackOperation

def setStack (stack : Stack) : Machine Unit := modify fun state => { state with stack }

def push (item : Bytes) : Machine Unit := do setStack (item :: (← get).stack)

def pop : Machine Bytes := do
  let (item, rest) ← orShort ((← get).stack.remove? 0)
  setStack rest
  return item

def popMany : (n : Nat) → Machine (List Bytes)
  | 0 => pure []
  | n + 1 => do
    let item ← pop
    let others ← popMany n
    return item :: others

def peek (depth : Nat) : Machine Bytes := do orShort ((← get).stack.peek? depth)

def number (ctx : Context) (size : Nat) (item : Bytes) : Machine Int :=
  match Number.operand size (ctx.flags.has .minimalData) item with
  | .ok n => pure n
  | .error _ => throw .unknownError

/-- Takes a number off the stack. The item is gone even if it is no number. -/
def popNumber (ctx : Context) : Machine Int := do number ctx Number.operandSize (← pop)

def peekNumber (ctx : Context) (depth size : Nat) : Machine Int := do
  number ctx size (← peek depth)

def charge (n : Nat) : Machine Unit := do
  modify fun state => { state with opCount := state.opCount + n }
  ensure ((← get).opCount ≤ maxOps) .opCount

def ask (ctx : Context) (query : Query) : Machine Bool := do
  let answer := ctx.oracle query
  modify fun state => { state with calls := state.calls ++ [⟨query, answer⟩] }
  return answer

/-- Fails if `truth` is false, or puts it on the stack, as the operation wants. -/
def conclude (ending : Ending) (error : ScriptError) (truth : Bool) : Machine Unit :=
  match ending with
  | .yield => push (Number.ofBool truth)
  | .demand => ensure truth error

end Machine

end ColorScript
