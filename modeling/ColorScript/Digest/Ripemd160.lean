import ColorScript.Digest.Block

/-! The digest function RIPEMD-160: two lines of eighty rounds over the same block. -/
namespace ColorScript.Digest.Ripemd160

structure Chain where
  a : UInt32
  b : UInt32
  c : UInt32
  d : UInt32
  e : UInt32

def initial : Chain := ⟨0x67452301, 0xefcdab89, 0x98badcfe, 0x10325476, 0xc3d2e1f0⟩

def leftOrder : List Nat :=
  [0, 1, 2, 3, 4, 5, 6, 7, 8, 9, 10, 11, 12, 13, 14, 15,
   7, 4, 13, 1, 10, 6, 15, 3, 12, 0, 9, 5, 2, 14, 11, 8,
   3, 10, 14, 4, 9, 15, 8, 1, 2, 7, 0, 6, 13, 11, 5, 12,
   1, 9, 11, 10, 0, 8, 12, 4, 13, 3, 7, 15, 14, 5, 6, 2,
   4, 0, 5, 9, 7, 12, 2, 10, 14, 1, 3, 8, 11, 6, 15, 13]

def rightOrder : List Nat :=
  [5, 14, 7, 0, 9, 2, 11, 4, 13, 6, 15, 8, 1, 10, 3, 12,
   6, 11, 3, 7, 0, 13, 5, 10, 14, 15, 8, 12, 4, 9, 1, 2,
   15, 5, 1, 3, 7, 14, 6, 9, 11, 8, 12, 2, 10, 0, 4, 13,
   8, 6, 4, 1, 3, 11, 15, 0, 5, 12, 2, 13, 9, 7, 10, 14,
   12, 15, 10, 4, 1, 5, 8, 7, 6, 2, 13, 14, 0, 3, 9, 11]

def leftShifts : List UInt32 :=
  [11, 14, 15, 12, 5, 8, 7, 9, 11, 13, 14, 15, 6, 7, 9, 8,
   7, 6, 8, 13, 11, 9, 7, 15, 7, 12, 15, 9, 11, 7, 13, 12,
   11, 13, 6, 7, 14, 9, 13, 15, 14, 8, 13, 6, 5, 12, 7, 5,
   11, 12, 14, 15, 14, 15, 9, 8, 9, 14, 5, 6, 8, 6, 5, 12,
   9, 15, 5, 11, 6, 8, 13, 12, 5, 12, 13, 14, 11, 8, 5, 6]

def rightShifts : List UInt32 :=
  [8, 9, 9, 11, 13, 15, 15, 5, 7, 7, 8, 11, 14, 14, 12, 6,
   9, 13, 15, 7, 12, 8, 9, 11, 7, 7, 12, 7, 6, 15, 13, 11,
   9, 7, 15, 11, 8, 6, 6, 14, 12, 13, 5, 14, 13, 13, 7, 5,
   15, 5, 8, 11, 14, 14, 6, 14, 6, 9, 12, 9, 12, 5, 15, 8,
   8, 5, 12, 9, 12, 5, 14, 6, 8, 13, 6, 5, 15, 13, 11, 11]

def leftConstants : List UInt32 := [0x00000000, 0x5a827999, 0x6ed9eba1, 0x8f1bbcdc, 0xa953fd4e]

def rightConstants : List UInt32 := [0x50a28be6, 0x5c4dd124, 0x6d703ef3, 0x7a6d76e9, 0x00000000]

/-- The mixing function of a group of rounds; the right line takes the groups in reverse. -/
def mix (group : Nat) (x y z : UInt32) : UInt32 :=
  match group with
  | 0 => x ^^^ y ^^^ z
  | 1 => (x &&& y) ||| ((~~~x) &&& z)
  | 2 => (x ||| (~~~y)) ^^^ z
  | 3 => (x &&& z) ||| (y &&& (~~~z))
  | _ => x ^^^ (y ||| (~~~z))

def round (v : Chain) (mixed constant word shift : UInt32) : Chain :=
  ⟨v.e, rotateLeft (v.a + mixed + word + constant) shift + v.e, v.b, rotateLeft v.c 10, v.d⟩

def line (words : List UInt32) (order : List Nat) (shifts constants : List UInt32)
    (groupOf : Nat → Nat) (v : Chain) : Chain :=
  ((order.zip shifts).zipIdx).foldl (fun v ((place, shift), number) =>
    round v (mix (groupOf (number / 16)) v.b v.c v.d) (constants.getD (number / 16) 0)
      (words.getD place 0) shift) v

def compress (v : Chain) (block : Bytes) : Chain :=
  let words := blockWords Bytes.toNat block
  let l := line words leftOrder leftShifts leftConstants id v
  let r := line words rightOrder rightShifts rightConstants (4 - ·) v
  ⟨v.b + l.c + r.d, v.c + l.d + r.e, v.d + l.e + r.a, v.e + l.a + r.b, v.a + l.b + r.c⟩

def Chain.bytes (v : Chain) : Bytes := [v.a, v.b, v.c, v.d, v.e].flatMap littleEndian

def digest (message : Bytes) : Bytes :=
  ((groups 64 (padded (Bytes.ofNat 8) message)).foldl compress initial).bytes

@[simp] theorem length_digest (message : Bytes) : (digest message).length = 20 := by
  simp [digest, Chain.bytes]

end ColorScript.Digest.Ripemd160
