import ColorScript.Checked.Guarded
import ColorScript.Checked.Template
import ColorScript.Machine.Execute

/-! The machine over machine words. A stack is kept from the bottom to the top, so that a depth becomes
a place by a subtraction; counts and sums are words; what has neither is a plain step. -/
namespace ColorScript

namespace Checked

/-- The items of a stack from the bottom to the top. -/
def ascending (stack : Stack) : List Bytes := stack.reverse

def placeOf (items : List Bytes) (depth : Nat) : Checked Nat := do sub (← sub items.length 1) depth

def peek? (stack : Stack) (depth : Nat) : Checked (Option Bytes) := do
  let needed ← add depth 1
  if stack.length < needed then pure none
  else
    let items := ascending stack
    let item ← index items (← placeOf items depth)
    pure (some item)

def remove? (stack : Stack) (depth : Nat) : Checked (Option (Bytes × Stack)) := do
  let needed ← add depth 1
  if stack.length < needed then pure none
  else
    let items := ascending stack
    let place ← placeOf items depth
    let item ← index items place
    pure (some (item, (items.eraseIdx place).reverse))

def insert? (stack : Stack) (depth : Nat) (item : Bytes) : Checked (Option Stack) :=
  if stack.length < depth then pure none
  else do
    let items := ascending stack
    let place ← sub items.length depth
    let below ← slice items 0 place
    let above ← sliceFrom items place
    pure (some (below ++ item :: above).reverse)

def swap? (stack : Stack) (a b : Nat) : Checked (Option Stack) := do
  let needed ← add (max a b) 1
  if stack.length < needed then pure none
  else
    let items := ascending stack
    let placeA ← placeOf items a
    let placeB ← placeOf items b
    let atA ← index items placeA
    let atB ← index items placeB
    pure (some ((items.set placeA atB).set placeB atA).reverse)

def isShortestTruth (item : Bytes) : Checked Bool :=
  if 1 < item.length then pure false
  else if item.length = 1 then do
    let byte ← index item 0
    pure (byte = 0x01)
  else pure true

def operation (opcode : Opcode) : Checked Operation :=
  if opcode = 0xb0 ∨ (0xb3 ≤ opcode ∧ opcode ≤ 0xb9) then pure .reservedNothing
  else if Opcode.negateOne ≤ opcode then do
    match ← smallInt? opcode with
    | some n => pure (.pushInt n)
    | none => pure (Operation.named opcode)
  else pure .invalid

def withoutSignature (flags : Flags) (code : Script) (sig : Bytes) :
    Checked (Except ScriptError Script) :=
  match Chunk.ofData? sig with
  | .error _ => pure (.error .unknownError)
  | .ok push => do
    let stripped ← delete code [push]
    if stripped ≠ code ∧ flags.has .constScriptCode then pure (.error .sigFindAndDelete)
    else pure (.ok stripped)

def withoutSignatures (flags : Flags) : (code : Script) → (sigs : List Bytes) →
    Checked (Except ScriptError Script)
  | code, [] => pure (.ok code)
  | code, sig :: sigs => do
    match ← withoutSignature flags code sig with
    | .ok stripped => withoutSignatures flags stripped sigs
    | .error error => pure (.error error)

def scriptCode (ctx : Context) (codeStart : Nat) (sigs : List Bytes) :
    Checked (Except ScriptError Script) :=
  withoutSignatures ctx.flags (ctx.script.subscript codeStart) sigs

end Checked

abbrev GuardedMachine := Guarded ScriptError State

namespace GuardedMachine

open Machine (ensure require setStack push pop popMany ask conclude ofExcept orShort setFlow
  reservedNothing isSequenceOff requireNullFail sameScheme maxOps maxKeys maxItem maxItems)

def peek (depth : Nat) : GuardedMachine Bytes := do
  orShort (← Checked.peek? (← get).stack depth)

def remove (depth : Nat) : GuardedMachine Bytes := do
  let (item, rest) ← orShort (← Checked.remove? (← get).stack depth)
  setStack rest
  return item

def insert (depth : Nat) (item : Bytes) : GuardedMachine Unit := do
  setStack (← orShort (← Checked.insert? (← get).stack depth item))

def swap (a b : Nat) : GuardedMachine Unit := do
  setStack (← orShort (← Checked.swap? (← get).stack a b))

def number (ctx : Context) (size : Nat) (item : Bytes) : GuardedMachine Int := do
  match ← Checked.operand size (ctx.flags.has .minimalData) item with
  | .ok n => return n
  | .error _ => (throw .unknownError : Machine Int)

def popNumber (ctx : Context) : GuardedMachine Int := do number ctx Number.operandSize (← pop)

def peekNumber (ctx : Context) (depth size : Nat) : GuardedMachine Int := do
  number ctx size (← peek depth)

def pushNumber (n : Int) : GuardedMachine Unit := do push (← Checked.encode n)

def charge (n : Nat) : GuardedMachine Unit := do
  let count ← Checked.add (← get).opCount n
  modify fun state => { state with opCount := count }
  ensure ((← get).opCount ≤ maxOps) .opCount

def checkLockTime (ctx : Context) : GuardedMachine Unit := do
  if ctx.flags.has .checkLockTimeVerify then
    let n ← peekNumber ctx 0 Number.lockTimeSize
    ensure (0 ≤ n) .negativeLocktime
    ensure (← ask ctx (.lockTime n)) .unsatisfiedLocktime
  else reservedNothing ctx

def checkSequence (ctx : Context) : GuardedMachine Unit := do
  if ctx.flags.has .checkSequenceVerify then
    let n ← peekNumber ctx 0 Number.lockTimeSize
    ensure (0 ≤ n) .negativeLocktime
    if isSequenceOff n then return ()
    else ensure (← ask ctx (.sequence n)) .unsatisfiedLocktime
  else reservedNothing ctx

def branch (ctx : Context) (negated : Bool) : GuardedMachine Unit := do
  let flow := (← get).flow
  if (← get).executing then
    let item ← pop
    let shortest ← Checked.provided (ctx.flags.has .minimalIf) (Checked.isShortestTruth item)
    ensure shortest .minimalIf
    let truth ← Checked.isTrue item
    setFlow ((truth != negated) :: flow)
  else setFlow (false :: flow)

def verify : GuardedMachine Unit := do
  let item ← peek 0
  ensure (← Checked.isTrue item) .verify
  let _ ← pop

def shuffle : Shuffle → GuardedMachine Unit
  | .drop => do
    let _ ← pop
  | .dropTwo => do
    require 2
    let _ ← pop
    let _ ← pop
  | .dup => do push (← peek 0)
  | .dupTwo => do
    require 2
    let second ← peek 1
    let first ← peek 0
    push second
    push first
  | .dupThree => do
    require 3
    let third ← peek 2
    let second ← peek 1
    let first ← peek 0
    push third
    push second
    push first
  | .nip => do
    require 2
    let _ ← remove 1
  | .over => do push (← peek 1)
  | .overTwo => do
    require 4
    let fourth ← peek 3
    let third ← peek 2
    push fourth
    push third
  | .rot => do
    require 3
    swap 2 1
    swap 1 0
  | .rotTwo => do
    require 6
    let sixth ← remove 5
    let fifth ← remove 4
    push sixth
    push fifth
  | .swap => do
    require 2
    swap 1 0
  | .swapTwo => do
    require 4
    swap 3 1
    swap 2 0
  | .tuck => do
    require 2
    let first ← peek 0
    insert 2 first

def dupIfTrue : GuardedMachine Unit := do
  let item ← peek 0
  if ← Checked.isTrue item then push item

def fetch (ctx : Context) (removed : Bool) : GuardedMachine Unit := do
  require 2
  let n ← popNumber ctx
  ensure (!(n < 0 || (← get).stack.length ≤ Checked.toSize n)) .invalidStackOperation
  if removed then push (← remove (Checked.toSize n)) else push (← peek (Checked.toSize n))

def unary (ctx : Context) (function : UnaryFunction) : GuardedMachine Unit := do
  let n ← popNumber ctx
  pushNumber (← Checked.unary function n)

def popTwo (ctx : Context) : GuardedMachine (Int × Int) := do
  require 2
  let b ← popNumber ctx
  let a ← popNumber ctx
  return (a, b)

def binary (ctx : Context) (function : BinaryFunction) : GuardedMachine Unit := do
  let (a, b) ← popTwo ctx
  pushNumber (← Checked.binary function a b)

def numEqualVerify (ctx : Context) : GuardedMachine Unit := do
  let (a, b) ← popTwo ctx
  ensure (a = b) .numEqualVerify

def within (ctx : Context) : GuardedMachine Unit := do
  require 3
  let high ← popNumber ctx
  let low ← popNumber ctx
  let n ← popNumber ctx
  push (Number.ofBool (low ≤ n && n < high))

def setColor (ctx : Context) : GuardedMachine Unit := do
  require 1
  ensure (← get).flow.isEmpty .opColorInBranch
  ensure (!ctx.redeem) .opColorInRedeemScript
  ensure (← get).color.isNone .opColorMultiple
  match ← Checked.colorOfBytes (← peek 0) with
  | .error _ => (throw .opColorId : Machine Unit)
  | .ok color =>
    let _ ← pop
    modify fun state => { state with color := some color }

def checkSig (ctx : Context) (ending : Ending) : GuardedMachine Unit := do
  require 2
  let key ← pop
  let sig ← pop
  let code ← ofExcept (← Checked.scriptCode ctx (← get).codeStart [sig])
  ofExcept (← Checked.checkTransaction ctx.flags sig)
  ofExcept (← Checked.checkKey ctx.flags key)
  let success ← ask ctx (.signature sig key code)
  requireNullFail ctx success [sig]
  conclude ending .checkSigVerify success

def checkDataSig (ctx : Context) (ending : Ending) : GuardedMachine Unit := do
  require 3
  let key ← pop
  let message ← pop
  let sig ← pop
  ofExcept (← Checked.checkData ctx.flags sig)
  ofExcept (← Checked.checkKey ctx.flags key)
  let success ←
    if sig.isEmpty then pure false
    else ask ctx (.dataSignature sig key (Digest.sha256 message).val)
  requireNullFail ctx success [sig]
  conclude ending .checkDataSigVerify success

def multisigCounts (ctx : Context) : GuardedMachine (Nat × Nat) := do
  require 1
  let keyCount ← peekNumber ctx 0 Number.operandSize
  ensure (0 ≤ keyCount && keyCount ≤ maxKeys) .pubkeyCount
  let keys := Checked.toSize keyCount
  charge keys
  let depth ← Checked.add keys 1
  require (← Checked.add depth 1)
  let sigCount ← peekNumber ctx depth Number.operandSize
  ensure (!(sigCount < 0 || keys < Checked.toSize sigCount)) .sigCount
  let sigs := Checked.toSize sigCount
  require (← Checked.add (← Checked.add depth 1) sigs)
  return (keys, sigs)

/-- Where the matching of signatures to keys stands: how many are left of each, and whether it is
still worth going on. -/
structure Matching where
  sigs : Nat
  keys : Nat
  success : Bool

def matchRound (ctx : Context) (code : Script) (sigs keys : List Bytes) (left : Matching) :
    GuardedMachine (Checked.Round Matching (Nat × Bool)) := do
  if left.success && 0 < left.sigs then
    let sig ← Checked.index sigs (← Checked.sub left.sigs 1)
    let key ← Checked.index keys (← Checked.sub left.keys 1)
    ofExcept (← Checked.checkTransaction ctx.flags sig)
    ofExcept (← Checked.checkKey ctx.flags key)
    let success ← ask ctx (.signature sig key code)
    let sigsLeft ← (if success then Checked.sub left.sigs 1 else pure left.sigs : Checked Nat)
    let keysLeft ← Checked.sub left.keys 1
    return .again ⟨sigsLeft, keysLeft, sigsLeft ≤ keysLeft⟩
  else return .done (left.sigs, left.success)

def matchKeys (ctx : Context) (code : Script) (sigs keys : List Bytes) : GuardedMachine (Nat × Bool) :=
  Checked.loop Matching.keys (matchRound ctx code sigs keys) ⟨sigs.length, keys.length, true⟩

def checkMultiSig (ctx : Context) (ending : Ending) : GuardedMachine Unit := do
  let (keyCount, sigCount) ← multisigCounts ctx
  let _ ← pop
  let keys := (← popMany keyCount).reverse
  let _ ← pop
  let sigs := (← popMany sigCount).reverse
  let code ← ofExcept (← Checked.scriptCode ctx (← get).codeStart sigs)
  ensure (sameScheme sigs) .mixedSchemeMultisig
  let (left, success) ← matchKeys ctx code sigs keys
  let lenient ← Checked.provided (!success && ctx.flags.has .nullFail) do
    let others ← Checked.slice sigs 0 left
    pure (others.all List.isEmpty)
  ensure lenient .sigNullFail
  let unused ← pop
  ensure (!ctx.flags.has .nullDummy || unused.isEmpty) .sigNullDummy
  conclude ending .checkMultiSigVerify success

/-- An operation. Those that look at no place and count nothing are plain. -/
def execute (ctx : Context) (place : Nat) : Operation → GuardedMachine Unit
  | .pushInt n => pushNumber n
  | .checkLockTime => checkLockTime ctx
  | .checkSequence => checkSequence ctx
  | .branch negated => branch ctx negated
  | .verify => verify
  | .shuffle move => shuffle move
  | .dupIfTrue => dupIfTrue
  | .depth => do pushNumber (Checked.toInteger (← get).stack.length)
  | .fetch removed => fetch ctx removed
  | .size => do pushNumber (Checked.toInteger (← peek 0).length)
  | .unary function => unary ctx function
  | .binary function => binary ctx function
  | .numEqualVerify => numEqualVerify ctx
  | .within => within ctx
  | .codeSeparator => do
    let next ← Checked.add place 1
    modify fun state => { state with codeStart := next }
  | .checkSig ending => checkSig ctx ending
  | .checkDataSig ending => checkDataSig ctx ending
  | .checkMultiSig ending => checkMultiSig ctx ending
  | .setColor => setColor ctx
  | operation => Machine.execute ctx place operation

def pushPayload (ctx : Context) (chunk : Chunk) (payload : Bytes) : GuardedMachine Unit := do
  ensure (payload.length ≤ maxItem) .pushSize
  if (← get).executing then
    let minimal ← Checked.provided (ctx.flags.has .minimalData) (Checked.isMinimal chunk)
    ensure minimal .minimalData
    ensure (← Checked.isWellFormed chunk) .badOpcode
    push payload

def screen (ctx : Context) (opcode : Opcode) : GuardedMachine Unit := do
  if Opcode.sixteen < opcode then charge 1
  ensure (!opcode.isDisabled) .disabledOpcode
  ensure (!(opcode = Opcode.codeSeparator && ctx.flags.has .constScriptCode)) .opCodeSeparator

def step (ctx : Context) (place : Nat) (chunk : Chunk) : GuardedMachine Unit := do
  match chunk with
  | .push _ payload => pushPayload ctx chunk payload
  | _ =>
    screen ctx chunk.opcode
    if (← get).reaches chunk.opcode then
      execute ctx place (← Checked.operation chunk.opcode)

def advance (ctx : Context) (place : Nat) (chunk : Chunk) : GuardedMachine Unit := do
  step ctx place chunk
  let state ← get
  let items ← Checked.add state.stack.length state.alt.length
  ensure (items ≤ maxItems) .stackSize

def advanceAll (ctx : Context) : (place : Nat) → List Chunk → GuardedMachine Unit
  | _, [] => return ()
  | place, chunk :: rest => do
    advance ctx place chunk
    advanceAll ctx (place + 1) rest

def run (ctx : Context) : GuardedMachine Unit := do
  let bytes ← Checked.size ctx.script
  ensure (bytes ≤ Script.maxSize) .scriptSize
  advanceAll ctx 0 ctx.script
  ensure (← get).flow.isEmpty .unbalancedConditional

end GuardedMachine

end ColorScript
