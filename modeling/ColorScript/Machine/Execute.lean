import ColorScript.Machine.SignatureCheck
import ColorScript.Script.Template

/-! The operations of the machine, one step for each kind, and the step of a chunk with
its limits. -/
namespace ColorScript.Machine

def reservedNothing (ctx : Context) : Machine Unit :=
  ensure (!ctx.flags.has .discourageUpgradableNops) .discourageUpgradableNops

def checkLockTime (ctx : Context) : Machine Unit := do
  if ctx.flags.has .checkLockTimeVerify then
    let n ← peekNumber ctx 0 Number.lockTimeSize
    ensure (0 ≤ n) .negativeLocktime
    ensure (← ask ctx (.lockTime n)) .unsatisfiedLocktime
  else reservedNothing ctx

def isSequenceOff (n : Int) : Bool := n.toNat.testBit 31

def checkSequence (ctx : Context) : Machine Unit := do
  if ctx.flags.has .checkSequenceVerify then
    let n ← peekNumber ctx 0 Number.lockTimeSize
    ensure (0 ≤ n) .negativeLocktime
    if isSequenceOff n then pure ()
    else ensure (← ask ctx (.sequence n)) .unsatisfiedLocktime
  else reservedNothing ctx

def setFlow (flow : List Bool) : Machine Unit := modify fun state => { state with flow }

def isShortestTruth (item : Bytes) : Bool := item = [] || item = [0x01]

/-- Opens a branch. Inside a skipped branch it is skipped, whatever is on the stack. -/
def branch (ctx : Context) (negated : Bool) : Machine Unit := do
  let flow := (← get).flow
  if (← get).executing then
    let item ← pop
    ensure (!ctx.flags.has .minimalIf || isShortestTruth item) .minimalIf
    setFlow ((Number.isTrue item != negated) :: flow)
  else setFlow (false :: flow)

def otherwise : Machine Unit := do
  match (← get).flow with
  | taken :: outer => setFlow ((!taken) :: outer)
  | [] => throw .unbalancedConditional

def endBranch : Machine Unit := do
  match (← get).flow with
  | _ :: outer => setFlow outer
  | [] => throw .unbalancedConditional

/-- Takes a true item off the stack; any other item stays and fails the script. -/
def verify : Machine Unit := do
  let item ← peek 0
  ensure (Number.isTrue item) .verify
  let _ ← pop

def toAlt : Machine Unit := do
  let item ← pop
  modify fun state => { state with alt := item :: state.alt }

def fromAlt : Machine Unit := do
  match (← get).alt with
  | item :: rest =>
    modify fun state => { state with alt := rest }
    push item
  | [] => throw .invalidAltstackOperation

def shuffle (move : Shuffle) : Machine Unit := do
  setStack (← orShort (move.rearrange? (← get).stack))

def dupIfTrue : Machine Unit := do
  let item ← peek 0
  if Number.isTrue item then push item

def fetch (ctx : Context) (removed : Bool) : Machine Unit := do
  require 2
  let n ← popNumber ctx
  ensure (0 ≤ n) .invalidStackOperation
  if removed then
    let (item, rest) ← orShort ((← get).stack.remove? n.toNat)
    setStack (item :: rest)
  else push (← peek n.toNat)

def equal (ending : Ending) : Machine Unit := do
  require 2
  let a ← pop
  let b ← pop
  conclude ending .equalVerify (a = b)

def unary (ctx : Context) (function : UnaryFunction) : Machine Unit := do
  let n ← popNumber ctx
  push (Number.encode (function.apply n))

def popTwo (ctx : Context) : Machine (Int × Int) := do
  require 2
  let b ← popNumber ctx
  let a ← popNumber ctx
  return (a, b)

def binary (ctx : Context) (function : BinaryFunction) : Machine Unit := do
  let (a, b) ← popTwo ctx
  push (Number.encode (function.apply a b))

def numEqualVerify (ctx : Context) : Machine Unit := do
  let (a, b) ← popTwo ctx
  ensure (a = b) .numEqualVerify

def within (ctx : Context) : Machine Unit := do
  require 3
  let high ← popNumber ctx
  let low ← popNumber ctx
  let n ← popNumber ctx
  push (Number.ofBool (low ≤ n && n < high))

def digest (function : DigestFunction) : Machine Unit := do
  let item ← pop
  push (function.apply item)

/-- Gives the output the colour on top of the stack. That is allowed once, outside of all
branches, and not in a redeem script. -/
def setColor (ctx : Context) : Machine Unit := do
  require 1
  ensure (← get).flow.isEmpty .opColorInBranch
  ensure (!ctx.redeem) .opColorInRedeemScript
  ensure (← get).color.isNone .opColorMultiple
  match ColorId.ofBytes (← peek 0) with
  | .error _ => throw .opColorId
  | .ok color =>
    let _ ← pop
    modify fun state => { state with color := some color }

def execute (ctx : Context) (place : Nat) : Operation → Machine Unit
  | .pushInt n => push (Number.encode n)
  | .nothing => pure ()
  | .reservedNothing => reservedNothing ctx
  | .checkLockTime => checkLockTime ctx
  | .checkSequence => checkSequence ctx
  | .branch negated => branch ctx negated
  | .otherwise => otherwise
  | .endBranch => endBranch
  | .verify => verify
  | .giveUp => throw .opReturn
  | .toAlt => toAlt
  | .fromAlt => fromAlt
  | .shuffle move => shuffle move
  | .dupIfTrue => dupIfTrue
  | .depth => do push (Number.encode (← get).stack.length)
  | .fetch removed => fetch ctx removed
  | .size => do push (Number.encode (← peek 0).length)
  | .equal ending => equal ending
  | .unary function => unary ctx function
  | .binary function => binary ctx function
  | .numEqualVerify => numEqualVerify ctx
  | .within => within ctx
  | .digest function => digest function
  | .codeSeparator => modify fun state => { state with codeStart := place + 1 }
  | .checkSig ending => checkSig ctx ending
  | .checkDataSig ending => checkDataSig ctx ending
  | .checkMultiSig ending => checkMultiSig ctx ending
  | .setColor => setColor ctx
  | .invalid => throw .badOpcode

def maxItem : Nat := 520

/-- Pushes a payload. The size limit holds for skipped pushes as well. -/
def pushPayload (ctx : Context) (chunk : Chunk) (payload : Bytes) : Machine Unit := do
  ensure (payload.length ≤ maxItem) .pushSize
  if (← get).executing then
    ensure (!ctx.flags.has .minimalData || chunk.isMinimal) .minimalData
    ensure chunk.isWellFormed .badOpcode
    push payload

/-- The checks of an operation that hold for skipped ones as well. -/
def screen (ctx : Context) (opcode : Opcode) : Machine Unit := do
  if Opcode.sixteen < opcode then charge 1
  ensure (!opcode.isDisabled) .disabledOpcode
  ensure (!(opcode = Opcode.codeSeparator && ctx.flags.has .constScriptCode)) .opCodeSeparator

def step (ctx : Context) (place : Nat) (chunk : Chunk) : Machine Unit := do
  match chunk with
  | .push _ payload => pushPayload ctx chunk payload
  | _ =>
    screen ctx chunk.opcode
    if (← get).reaches chunk.opcode then
      execute ctx place (Operation.ofOpcode chunk.opcode)

def maxItems : Nat := 1000

/-- The step of one chunk, and the limit of the stacks after it. -/
def advance (ctx : Context) (place : Nat) (chunk : Chunk) : Machine Unit := do
  step ctx place chunk
  let state ← get
  ensure (state.stack.length + state.alt.length ≤ maxItems) .stackSize

def advanceAll (ctx : Context) : (place : Nat) → List Chunk → Machine Unit
  | _, [] => pure ()
  | place, chunk :: rest => do
    advance ctx place chunk
    advanceAll ctx (place + 1) rest

/-- Runs a whole script, which must close its branches. -/
def run (ctx : Context) : Machine Unit := do
  ensure (ctx.script.size ≤ Script.maxSize) .scriptSize
  advanceAll ctx 0 ctx.script
  ensure (← get).flow.isEmpty .unbalancedConditional

end ColorScript.Machine
