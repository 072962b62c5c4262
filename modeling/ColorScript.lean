import ColorScript.Bytes
import ColorScript.Checked
import ColorScript.Checked.Codec
import ColorScript.Checked.Encoding
import ColorScript.Checked.Guarded
import ColorScript.Checked.Machine
import ColorScript.Checked.Number
import ColorScript.Checked.Session
import ColorScript.Checked.Template
import ColorScript.Chunk
import ColorScript.CodecError
import ColorScript.Color
import ColorScript.Digest
import ColorScript.Digest.Block
import ColorScript.Digest.Ripemd160
import ColorScript.Digest.Sha1
import ColorScript.Digest.Sha256
import ColorScript.Flags
import ColorScript.Form
import ColorScript.Journal
import ColorScript.Machine
import ColorScript.Machine.Conditional
import ColorScript.Machine.Execute
import ColorScript.Machine.SignatureCheck
import ColorScript.Machine.Visit
import ColorScript.Number
import ColorScript.Opcode
import ColorScript.Operation
import ColorScript.Oracle
import ColorScript.Proofs.Arithmetic
import ColorScript.Proofs.Assembly
import ColorScript.Proofs.Boundaries
import ColorScript.Proofs.Branches
import ColorScript.Proofs.ByteDeletion
import ColorScript.Proofs.BuiltPushes
import ColorScript.Proofs.BytePatterns
import ColorScript.Proofs.Charges
import ColorScript.Proofs.Codec
import ColorScript.Proofs.Coloring
import ColorScript.Proofs.ColorOnce
import ColorScript.Proofs.DataSignature
import ColorScript.Proofs.Decimal
import ColorScript.Proofs.Deletion
import ColorScript.Proofs.EnoughItems
import ColorScript.Proofs.ErrorCauses
import ColorScript.Proofs.ExactText
import ColorScript.Proofs.Faultless
import ColorScript.Proofs.Faultless.Codec
import ColorScript.Proofs.Faultless.Demands
import ColorScript.Proofs.Faultless.Encoding
import ColorScript.Proofs.Faultless.Memory
import ColorScript.Proofs.Faultless.Number
import ColorScript.Proofs.Faultless.Operation
import ColorScript.Proofs.Faultless.Run
import ColorScript.Proofs.Faultless.Session
import ColorScript.Proofs.Faultless.SignatureCheck
import ColorScript.Proofs.Faultless.Stack
import ColorScript.Proofs.Faultless.Template
import ColorScript.Proofs.FlagMonotonicity
import ColorScript.Proofs.Footprint
import ColorScript.Proofs.FusedVerify
import ColorScript.Proofs.GenericShuffles
import ColorScript.Proofs.Hex
import ColorScript.Proofs.Invariant
import ColorScript.Proofs.ItemSize
import ColorScript.Proofs.KeyDigest
import ColorScript.Proofs.KeyMatching
import ColorScript.Proofs.LockTimes
import ColorScript.Proofs.Lockstep
import ColorScript.Proofs.MachineLockstep
import ColorScript.Proofs.Marks
import ColorScript.Proofs.MultisigFrame
import ColorScript.Proofs.MultisigTemplate
import ColorScript.Proofs.NullFail
import ColorScript.Proofs.NumberCodec
import ColorScript.Proofs.NumberSize
import ColorScript.Proofs.OpcodeNames
import ColorScript.Proofs.OperationInvariant
import ColorScript.Proofs.OperationLockstep
import ColorScript.Proofs.OracleUse
import ColorScript.Proofs.PlainStep
import ColorScript.Proofs.PushEncoding
import ColorScript.Proofs.PushOnly
import ColorScript.Proofs.Questions
import ColorScript.Proofs.Reassembly
import ColorScript.Proofs.Relaxation
import ColorScript.Proofs.ResourceLimits
import ColorScript.Proofs.RunLockstep
import ColorScript.Proofs.Screening
import ColorScript.Proofs.ScriptDigest
import ColorScript.Proofs.ShortestPush
import ColorScript.Proofs.SignatureLockstep
import ColorScript.Proofs.SignatureStripping
import ColorScript.Proofs.SignedCode
import ColorScript.Proofs.SkippedBranch
import ColorScript.Proofs.StackLocality
import ColorScript.Proofs.StrictDER
import ColorScript.Proofs.StructuredControl
import ColorScript.Proofs.Success
import ColorScript.Proofs.Template
import ColorScript.Proofs.TemplateRun
import ColorScript.Proofs.Truth
import ColorScript.Proofs.UncoloredOutput
import ColorScript.Proofs.Underflow
import ColorScript.Proofs.Unspendable
import ColorScript.Proofs.Verification
import ColorScript.Proofs.VerificationLockstep
import ColorScript.Proofs.VerificationRuns
import ColorScript.Proofs.Visits
import ColorScript.Proofs.WellFormed
import ColorScript.Proofs.Words
import ColorScript.Script
import ColorScript.Script.Asm
import ColorScript.Script.Balance
import ColorScript.Script.Builder
import ColorScript.Script.Deletion
import ColorScript.Script.Template
import ColorScript.ScriptError
import ColorScript.Session
import ColorScript.Session.Requests
import ColorScript.Session.Runs
import ColorScript.Signature.Der
import ColorScript.Signature.Encoding
import ColorScript.Stack
import ColorScript.Text.Blank
import ColorScript.Text.Decimal
import ColorScript.Text.Hex
