import ColorScript.Digest.Block

/-! The digest function SHA-1. -/
namespace ColorScript.Digest.Sha1

structure Chain where
  a : UInt32
  b : UInt32
  c : UInt32
  d : UInt32
  e : UInt32

def initial : Chain := ⟨0x67452301, 0xefcdab89, 0x98badcfe, 0x10325476, 0xc3d2e1f0⟩

def nextWord (window : List UInt32) : UInt32 :=
  rotateLeft (window.getD 13 0 ^^^ window.getD 8 0 ^^^ window.getD 2 0 ^^^ window.getD 0 0) 1

def mix (number : Nat) (b c d : UInt32) : UInt32 :=
  if number < 20 then (b &&& c) ||| ((~~~b) &&& d)
  else if number < 40 then b ^^^ c ^^^ d
  else if number < 60 then (b &&& c) ||| (b &&& d) ||| (c &&& d)
  else b ^^^ c ^^^ d

def constant (number : Nat) : UInt32 :=
  if number < 20 then 0x5a827999
  else if number < 40 then 0x6ed9eba1
  else if number < 60 then 0x8f1bbcdc
  else 0xca62c1d6

def round (v : Chain) (input : UInt32 × Nat) : Chain :=
  ⟨rotateLeft v.a 5 + mix input.2 v.b v.c v.d + v.e + constant input.2 + input.1,
   v.a, rotateLeft v.b 30, v.c, v.d⟩

def compress (v : Chain) (block : Bytes) : Chain :=
  let words := schedule nextWord 80 (blockWords (fun word => Bytes.toNat word.reverse) block)
  let w := words.zipIdx.foldl round v
  ⟨v.a + w.a, v.b + w.b, v.c + w.c, v.d + w.d, v.e + w.e⟩

def Chain.bytes (v : Chain) : Bytes := [v.a, v.b, v.c, v.d, v.e].flatMap bigEndian

def digest (message : Bytes) : Bytes :=
  ((groups 64 (padded (fun n => (Bytes.ofNat 8 n).reverse) message)).foldl compress initial).bytes

@[simp] theorem length_digest (message : Bytes) : (digest message).length = 20 := by
  simp [digest, Chain.bytes]

end ColorScript.Digest.Sha1
