import ColorScript.Text.Blank

/-! The outcomes of running a script, with their names and wordings. -/
namespace ColorScript

/-- The outcome of running a script. Every way to reject one has an outcome of its own;
`ok` stands for acceptance. -/
inductive ScriptError where
  | ok
  | unknownError
  | evalFalse
  | opReturn
  | scriptSize
  | pushSize
  | opCount
  | stackSize
  | sigCount
  | pubkeyCount
  | verify
  | equalVerify
  | checkMultiSigVerify
  | checkSigVerify
  | checkDataSigVerify
  | numEqualVerify
  | badOpcode
  | disabledOpcode
  | invalidStackOperation
  | invalidAltstackOperation
  | unbalancedConditional
  | negativeLocktime
  | unsatisfiedLocktime
  | sigHashType
  | sigDer
  | minimalData
  | sigPushOnly
  | sigHighS
  | sigNullDummy
  | pubkeyType
  | cleanStack
  | minimalIf
  | sigNullFail
  | discourageUpgradableNops
  | opCodeSeparator
  | sigFindAndDelete
  | sigBadLength
  | mixedSchemeMultisig
  | opColorUnexpected
  | opColorId
  | opColorMultiple
  | opColorInBranch
  | opColorInRedeemScript
deriving DecidableEq

namespace ScriptError

/-- The texts of an outcome: the label it is stored under, its name and its wording. -/
structure Texts where
  label : String
  name : String
  message : String

def texts : ScriptError → Texts
  | .ok => ⟨"Ok", "OK", "No error"⟩
  | .unknownError => ⟨"UnknownError", "UNKNOWN_ERROR", "Unknown error"⟩
  | .evalFalse =>
    ⟨"EvalFalse", "EVAL_FALSE",
      "Script evaluated without error but finished with a false/empty top stack element"⟩
  | .opReturn => ⟨"OpReturn", "OP_RETURN", "OP_RETURN was encountered"⟩
  | .scriptSize => ⟨"ScriptSize", "SCRIPT_SIZE", "Script is too big"⟩
  | .pushSize => ⟨"PushSize", "PUSH_SIZE", "Push value size limit exceeded"⟩
  | .opCount => ⟨"OpCount", "OP_COUNT", "Operation limit exceeded"⟩
  | .stackSize => ⟨"StackSize", "STACK_SIZE", "Stack size limit exceeded"⟩
  | .sigCount =>
    ⟨"SigCount", "SIG_COUNT",
      "Signature count negative or greater than pubkey count"⟩
  | .pubkeyCount => ⟨"PubkeyCount", "PUBKEY_COUNT", "Pubkey count negative or limit exceeded"⟩
  | .verify => ⟨"Verify", "VERIFY", "Script failed an OP_VERIFY operation"⟩
  | .equalVerify => ⟨"EqualVerify", "EQUALVERIFY", "Script failed an OP_EQUALVERIFY operation"⟩
  | .checkMultiSigVerify =>
    ⟨"CheckMultiSigVerify", "CHECKMULTISIGVERIFY",
      "Script failed an OP_CHECKMULTISIGVERIFY operation"⟩
  | .checkSigVerify =>
    ⟨"CheckSigVerify", "CHECKSIGVERIFY",
      "Script failed an OP_CHECKSIGVERIFY operation"⟩
  | .checkDataSigVerify =>
    ⟨"CheckDataSigVerify", "CHECKDATASIGVERIFY",
      "Script failed an OP_CHECKDATASIGVERIFY operation"⟩
  | .numEqualVerify =>
    ⟨"NumEqualVerify", "NUMEQUALVERIFY",
      "Script failed an OP_NUMEQUALVERIFY operation"⟩
  | .badOpcode => ⟨"BadOpcode", "BAD_OPCODE", "Opcode missing or not understood"⟩
  | .disabledOpcode => ⟨"DisabledOpcode", "DISABLED_OPCODE", "Attempted to use a disabled opcode"⟩
  | .invalidStackOperation =>
    ⟨"InvalidStackOperation", "INVALID_STACK_OPERATION",
      "Operation not valid with the current stack size"⟩
  | .invalidAltstackOperation =>
    ⟨"InvalidAltstackOperation", "INVALID_ALTSTACK_OPERATION",
      "Operation not valid with the current altstack size"⟩
  | .unbalancedConditional =>
    ⟨"UnbalancedConditional", "UNBALANCED_CONDITIONAL",
      "Invalid OP_IF construction"⟩
  | .negativeLocktime => ⟨"NegativeLocktime", "NEGATIVE_LOCKTIME", "Negative locktime"⟩
  | .unsatisfiedLocktime =>
    ⟨"UnsatisfiedLocktime", "UNSATISFIED_LOCKTIME",
      "Locktime requirement not satisfied"⟩
  | .sigHashType =>
    ⟨"SigHashType", "SIG_HASHTYPE",
      "Signature hash type missing or not understood"⟩
  | .sigDer => ⟨"SigDer", "SIG_DER", "Non-canonical DER signature"⟩
  | .minimalData => ⟨"MinimalData", "MINIMALDATA", "Data push larger than necessary"⟩
  | .sigPushOnly => ⟨"SigPushOnly", "SIG_PUSHONLY", "Only push operators allowed in signatures"⟩
  | .sigHighS =>
    ⟨"SigHighS", "SIG_HIGH_S",
      "Non-canonical signature: S value is unnecessarily high"⟩
  | .sigNullDummy =>
    ⟨"SigNullDummy", "SIG_NULLDUMMY",
      "Dummy CHECKMULTISIG argument must be zero"⟩
  | .pubkeyType =>
    ⟨"PubkeyType", "PUBKEYTYPE",
      "Public key is neither compressed or uncompressed"⟩
  | .cleanStack => ⟨"CleanStack", "CLEANSTACK", "Extra items left on stack after execution"⟩
  | .minimalIf => ⟨"MinimalIf", "MINIMALIF", "OP_IF/NOTIF argument must be minimal"⟩
  | .sigNullFail =>
    ⟨"SigNullFail", "NULLFAIL",
      "Signature must be zero for failed CHECK(MULTI)SIG operation"⟩
  | .discourageUpgradableNops =>
    ⟨"DiscourageUpgradableNops", "DISCOURAGE_UPGRADABLE_NOPS",
      "NOPx reserved for soft-fork upgrades"⟩
  | .opCodeSeparator =>
    ⟨"OpCodeSeparator", "OP_CODESEPARATOR",
      "Using OP_CODESEPARATOR in non-witness script"⟩
  | .sigFindAndDelete =>
    ⟨"SigFindAndDelete", "SIG_FINDANDDELETE",
      "Signature is found in scriptCode"⟩
  | .sigBadLength => ⟨"SigBadLength", "SIG_BADLENGTH", "Signature has invalid length"⟩
  | .mixedSchemeMultisig =>
    ⟨"MixedSchemeMultisig", "MIXED_SCHEME_MULTISIG",
      "Mixed signature schemes in a single OP_CHECKMULTISIG"⟩
  | .opColorUnexpected =>
    ⟨"OpColorUnexpected", "OP_COLORUNEXPECTED",
      "OP_COLOR is not expected here"⟩
  | .opColorId => ⟨"OpColorId", "OP_COLORID", "Invalid color identifier for OP_COLOR"⟩
  | .opColorMultiple =>
    ⟨"OpColorMultiple", "OP_COLORMULTIPLE",
      "Multiple OP_COLOR in a single script"⟩
  | .opColorInBranch =>
    ⟨"OpColorInBranch", "OP_COLORINBRANCH",
      "OP_COLOR inside a conditional branch"⟩
  | .opColorInRedeemScript =>
    ⟨"OpColorInRedeemScript", "OP_COLORINREDEEMSCRIPT",
      "OP_COLOR inside a P2SH redeem script"⟩

def all : List ScriptError :=
  [.ok, .unknownError, .evalFalse, .opReturn, .scriptSize, .pushSize, .opCount, .stackSize,
   .sigCount, .pubkeyCount, .verify, .equalVerify, .checkMultiSigVerify, .checkSigVerify,
   .checkDataSigVerify, .numEqualVerify, .badOpcode, .disabledOpcode, .invalidStackOperation,
   .invalidAltstackOperation, .unbalancedConditional, .negativeLocktime, .unsatisfiedLocktime,
   .sigHashType, .sigDer, .minimalData, .sigPushOnly, .sigHighS, .sigNullDummy, .pubkeyType,
   .cleanStack, .minimalIf, .sigNullFail, .discourageUpgradableNops, .opCodeSeparator,
   .sigFindAndDelete, .sigBadLength, .mixedSchemeMultisig, .opColorUnexpected, .opColorId,
   .opColorMultiple, .opColorInBranch, .opColorInRedeemScript]

def name (outcome : ScriptError) : String := outcome.texts.name

def message (outcome : ScriptError) : String := outcome.texts.message

def label (outcome : ScriptError) : String := outcome.texts.label

/-- The outcome that a text names. Blanks around the name and the letters
`SCRIPT_ERR_` in front of it are ignored. -/
def ofText? (text : String) : Option ScriptError :=
  let name := String.ofList (Text.dropLead "SCRIPT_ERR_".toList (Text.trim text.toList))
  all.find? fun outcome => outcome.name = name

def ofLabel? (label : String) : Option ScriptError := all.find? fun outcome => outcome.label = label

end ScriptError

end ColorScript
