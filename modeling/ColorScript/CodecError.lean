import ColorScript.ScriptError
import ColorScript.Text.Hex

/-! Why a value cannot be read, written or built, with the wording of each cause. -/
namespace ColorScript

inductive ColorFault where
  | wrongLength (length : Nat)
  | unknownType (code : UInt8)
deriving DecidableEq

inductive TemplateFault where
  | multisig (required keys : Nat)
  | notColorable
deriving DecidableEq

/-- Why a value cannot be read, written or built. Sizes are those of the whole input. -/
inductive CodecError where
  | pushTooLarge (size : Nat)
  | numberOverflow (size : Nat)
  | nonMinimalNumber
  | invalidColor (fault : ColorFault)
  | unknownFlag (name : String)
  | unknownScriptError (text : String)
  | invalidAsm (word : String)
  | invalidHex (fault : Text.Hex.Fault)
  | invalidTemplate (fault : TemplateFault)
  | execution (error : ScriptError)
deriving DecidableEq

open Text

def ColorFault.message : ColorFault → String
  | .wrongLength length => "expected 33 bytes, got " ++ Decimal.text length
  | .unknownType code => "unknown token type 0x" ++ Hex.encode [code]

def TemplateFault.message : TemplateFault → String
  | .multisig required keys => Decimal.text required ++ "-of-" ++ Decimal.text keys ++ " multisig"
  | .notColorable => "only P2PKH and P2SH scripts can be colored"

def CodecError.message : CodecError → String
  | .pushTooLarge size => "Push data too large: " ++ Decimal.text size ++ " bytes"
  | .numberOverflow size => "Script number overflow: " ++ Decimal.text size ++ " bytes"
  | .nonMinimalNumber => "Non-minimally encoded script number"
  | .invalidColor fault => "Invalid color identifier: " ++ fault.message
  | .unknownFlag name => "Unknown verification flag: " ++ name
  | .unknownScriptError text => "Unknown script error name: " ++ text
  | .invalidAsm word => "Invalid script asm: " ++ word
  | .invalidHex fault => "Invalid hex: " ++ fault.message
  | .invalidTemplate fault => "Invalid script template: " ++ fault.message
  | .execution error => "Script execution failed: " ++ error.message

end ColorScript
