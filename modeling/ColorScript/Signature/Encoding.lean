import ColorScript.Flags
import ColorScript.Signature.Der

/-! The encodings of signatures and public keys that the set flags allow. An encoding is
judged before the oracle is asked, and never whether a signature is right. -/
namespace ColorScript

/-- A signature scheme. The length of a signature tells which one it is. -/
inductive Scheme where
  | ecdsa
  | schnorr
deriving DecidableEq

namespace Signature

/-- The scheme of a signature for a transaction, which ends in a hash type byte. -/
def transactionScheme (sig : Bytes) : Scheme := if sig.length = 65 then .schnorr else .ecdsa

/-- The scheme of a signature for data, which has no hash type byte. -/
def dataScheme (sig : Bytes) : Scheme := if sig.length = 64 then .schnorr else .ecdsa

def isHashType (byte : UInt8) : Bool := 1 ≤ byte &&& 0x7f && byte &&& 0x7f ≤ 3

def hasDefinedHashType (sig : Bytes) : Bool := sig.getLast?.any isHashType

def isPublicKey (key : Bytes) : Bool :=
  match key with
  | [] => false
  | first :: _ =>
    (key.length = 33 && (first = 0x02 || first = 0x03)) || (key.length = 65 && first = 0x04)

def checkHashType (flags : Flags) (sig : Bytes) : Except ScriptError Unit :=
  if flags.has .strictEnc && !hasDefinedHashType sig then .error .sigHashType else .ok ()

section LowNumbers

variable (isLow : Bytes → Bool) (flags : Flags) (sig : Bytes)

def checkEcdsaBy : Except ScriptError Unit :=
  if (flags.has .derSig || flags.has .lowS || flags.has .strictEnc) && !isStrictDER sig then
    .error .sigDer
  else if flags.has .lowS && !isLow sig.dropLast then .error .sigHighS
  else .ok ()

/-- The rules for a signature for a transaction. The empty signature is always allowed. -/
def checkTransactionBy : Except ScriptError Unit :=
  if sig.isEmpty then .ok ()
  else if transactionScheme sig = .schnorr then checkHashType flags sig
  else checkEcdsaBy isLow flags sig >>= fun _ => checkHashType flags sig

/-- The rules for a signature for data: those of a transaction with some hash type. -/
def checkDataBy : Except ScriptError Unit :=
  if sig.isEmpty ∨ dataScheme sig = .schnorr then .ok () else checkEcdsaBy isLow flags (sig ++ [0x01])

end LowNumbers

def checkEcdsa : Flags → Bytes → Except ScriptError Unit := checkEcdsaBy isLowS

def checkTransaction : Flags → Bytes → Except ScriptError Unit := checkTransactionBy isLowS

def checkData : Flags → Bytes → Except ScriptError Unit := checkDataBy isLowS

def checkKey (flags : Flags) (key : Bytes) : Except ScriptError Unit :=
  if flags.has .strictEnc && !isPublicKey key then .error .pubkeyType else .ok ()

end Signature

end ColorScript
