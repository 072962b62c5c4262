import ColorScript.Machine
import ColorScript.Script.Deletion
import ColorScript.Signature.Encoding

/-! The operations that check signatures: of the transaction, of data, and several of the
transaction at once. -/
namespace ColorScript.Machine

/-- Deletes the push of a signature from the code that the signature commits to. Under
`constScriptCode` the code must not change. -/
def withoutSignature (flags : Flags) (code : Script) (sig : Bytes) : Except ScriptError Script :=
  match Chunk.ofData? sig with
  | .error _ => .error .unknownError
  | .ok push =>
    let stripped := code.delete [push]
    if stripped ≠ code ∧ flags.has .constScriptCode then .error .sigFindAndDelete
    else .ok stripped

/-- The code that signatures commit to: the script from the last code separator on,
without the pushes of the signatures. -/
def scriptCode (ctx : Context) (codeStart : Nat) (sigs : List Bytes) :
    Except ScriptError Script :=
  sigs.foldlM (withoutSignature ctx.flags) (ctx.script.subscript codeStart)

def requireNullFail (ctx : Context) (success : Bool) (sigs : List Bytes) : Machine Unit :=
  ensure (success || !ctx.flags.has .nullFail || sigs.all List.isEmpty) .sigNullFail

def checkSig (ctx : Context) (ending : Ending) : Machine Unit := do
  require 2
  let key ← pop
  let sig ← pop
  let code ← ofExcept (scriptCode ctx (← get).codeStart [sig])
  ofExcept (Signature.checkTransaction ctx.flags sig)
  ofExcept (Signature.checkKey ctx.flags key)
  let success ← ask ctx (.signature sig key code)
  requireNullFail ctx success [sig]
  conclude ending .checkSigVerify success

/-- Checks a signature of a message: the key is on top, then the message, then the
signature. An empty signature fails without a question. -/
def checkDataSig (ctx : Context) (ending : Ending) : Machine Unit := do
  require 3
  let key ← pop
  let message ← pop
  let sig ← pop
  ofExcept (Signature.checkData ctx.flags sig)
  ofExcept (Signature.checkKey ctx.flags key)
  let success ←
    if sig.isEmpty then pure false
    else ask ctx (.dataSignature sig key (Digest.sha256 message).val)
  requireNullFail ctx success [sig]
  conclude ending .checkDataSigVerify success

def sameScheme (sigs : List Bytes) : Bool :=
  match (sigs.filter (!·.isEmpty)).map Signature.transactionScheme with
  | [] => true
  | first :: others => others.all (· = first)

/-- Matches signatures to keys, both from the last one on. Each key is tried once, on the
signature whose turn it is. The answer is the signatures left without a key, where it is
no longer worth going on if they outnumber the keys left. -/
def matchKeys (ctx : Context) (code : Script) : (sigs keys : List Bytes) → Machine (List Bytes)
  | [], _ => pure []
  | sigs, [] => pure sigs
  | sig :: sigs, key :: keys => do
    ofExcept (Signature.checkTransaction ctx.flags sig)
    ofExcept (Signature.checkKey ctx.flags key)
    let success ← ask ctx (.signature sig key code)
    let left := if success then sigs else sig :: sigs
    if keys.length < left.length then pure left else matchKeys ctx code left keys

def maxKeys : Int := 20

/-- The number of keys, on top of the stack, and the number of signatures, below the keys.
The keys are charged for as operations, and all items but the last are on the stack. -/
def multisigCounts (ctx : Context) : Machine (Nat × Nat) := do
  require 1
  let keyCount ← peekNumber ctx 0 Number.operandSize
  ensure (0 ≤ keyCount && keyCount ≤ maxKeys) .pubkeyCount
  let keys := keyCount.toNat
  charge keys
  require (keys + 2)
  let sigCount ← peekNumber ctx (keys + 1) Number.operandSize
  ensure (0 ≤ sigCount && sigCount ≤ keyCount) .sigCount
  let sigs := sigCount.toNat
  require (keys + 2 + sigs)
  return (keys, sigs)

/-- Checks several signatures of the transaction against keys in the same order. Below
the signatures lies one more item that is not used. -/
def checkMultiSig (ctx : Context) (ending : Ending) : Machine Unit := do
  let (keyCount, sigCount) ← multisigCounts ctx
  let _ ← pop
  let keys ← popMany keyCount
  let _ ← pop
  let sigs ← popMany sigCount
  let code ← ofExcept (scriptCode ctx (← get).codeStart sigs.reverse)
  ensure (sameScheme sigs) .mixedSchemeMultisig
  let left ← matchKeys ctx code sigs keys
  requireNullFail ctx left.isEmpty left
  let unused ← pop
  ensure (!ctx.flags.has .nullDummy || unused.isEmpty) .sigNullDummy
  conclude ending .checkMultiSigVerify left.isEmpty

end ColorScript.Machine
