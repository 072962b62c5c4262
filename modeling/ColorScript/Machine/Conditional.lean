import ColorScript.Machine.Execute
import ColorScript.Script.Balance

/-! Conditionals as structured control flow: the parts of a conditional are performed or skipped
in turn. A skipped chunk is only counted, and refused if it is refused wherever it stands. -/
namespace ColorScript

namespace Chunk

def isCounted (chunk : Chunk) : Bool := !chunk.isPush && Opcode.sixteen < chunk.opcode

/-- The error that a chunk fails with wherever it stands. Besides long pushes and the opcodes that
are switched off, these are two opcodes between `OP_IF` and `OP_ENDIF` that stand for nothing. -/
def refusal? (flags : Flags) (chunk : Chunk) : Option ScriptError :=
  match chunk with
  | .push _ payload => if payload.length ≤ Machine.maxItem then none else some .pushSize
  | _ =>
    if Opcode.isDisabled chunk.opcode then some .disabledOpcode
    else if chunk.opcode = Opcode.codeSeparator && flags.has .constScriptCode then
      some .opCodeSeparator
    else if chunk.opcode = 0x65 || chunk.opcode = 0x66 then some .badOpcode
    else none

end Chunk

def State.counting (state : State) (script : Script) : State :=
  { state with opCount := state.opCount + script.countP Chunk.isCounted }

namespace Machine

def refuse : Option ScriptError → Machine Unit
  | some error => throw error
  | none => pure ()

def skip (ctx : Context) (chunk : Chunk) : Machine Unit := do
  if chunk.isCounted then charge 1
  refuse (chunk.refusal? ctx.flags)

def skipAll (ctx : Context) : Script → Machine Unit
  | [] => pure ()
  | chunk :: rest => do
    skip ctx chunk
    skipAll ctx rest

def limit : Machine Unit := do
  let state ← get
  ensure (state.stack.length + state.alt.length ≤ maxItems) .stackSize

def performPart (ctx : Context) (place : Nat) (taken : Bool) (body : Script) : Machine Unit := do
  if taken then
    let outer := (← get).flow
    setFlow (true :: outer)
    advanceAll ctx place body
    setFlow outer
  else skipAll ctx body

/-- Goes over the further parts of a conditional, every other one of which is taken. The dividers
are counted. -/
def performRest (ctx : Context) : (place : Nat) → (taken : Bool) → List (Chunk × Script) → Machine Unit
  | _, _, [] => pure ()
  | place, taken, (_, body) :: others => do
    charge 1
    performPart ctx (place + 1) taken body
    performRest ctx (place + 1 + body.length) (!taken) others

/-- Goes over the parts of a conditional whose opening chunk is done, from the place of that chunk.
The first part is taken or not, and so is every other one after it. -/
def perform (ctx : Context) (place : Nat) (taken : Bool) (block : Conditional) : Machine Unit := do
  limit
  performPart ctx (place + 1) taken block.first
  performRest ctx (place + 1 + block.first.length) (!taken) block.others
  charge 1

end Machine

end ColorScript
