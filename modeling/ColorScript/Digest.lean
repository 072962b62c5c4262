import ColorScript.Digest.Sha256
import ColorScript.Digest.Sha1
import ColorScript.Digest.Ripemd160

/-! The five digests that scripts can ask for, with their lengths. -/
namespace ColorScript

/-- A digest of twenty bytes, as key hashes and script hashes are. -/
abbrev Digest160 := { bytes : Bytes // bytes.length = 20 }

abbrev Digest256 := { bytes : Bytes // bytes.length = 32 }

namespace Digest

def sha256 (message : Bytes) : Digest256 := ⟨Sha256.digest message, Sha256.length_digest _⟩

def hash160 (message : Bytes) : Digest160 :=
  ⟨Ripemd160.digest (Sha256.digest message), Ripemd160.length_digest _⟩

def hash256 (message : Bytes) : Digest256 := sha256 (Sha256.digest message)

end Digest

inductive DigestFunction where
  | ripemd160
  | sha1
  | sha256
  | hash160
  | hash256
deriving DecidableEq

namespace DigestFunction

def apply : DigestFunction → Bytes → Bytes
  | .ripemd160, message => Digest.Ripemd160.digest message
  | .sha1, message => Digest.Sha1.digest message
  | .sha256, message => (Digest.sha256 message).val
  | .hash160, message => (Digest.hash160 message).val
  | .hash256, message => (Digest.hash256 message).val

theorem length_apply_le (function : DigestFunction) (message : Bytes) :
    (function.apply message).length ≤ 32 := by
  cases function <;> simp [apply, Digest.sha256, Digest.hash160, Digest.hash256]

end DigestFunction

end ColorScript
