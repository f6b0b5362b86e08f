import ClickA.Python.Struct

/-!
# MD5

`hashlib.md5`, of a message of whole bytes.

## Main definitions

* `md5`: the digest of a message

## Main results

* `length_md5`: a digest has 16 bytes
-/

namespace Python

namespace Md5

/-- The words of the state. -/
structure State where
  a : UInt32 := 0x67452301
  b : UInt32 := 0xefcdab89
  c : UInt32 := 0x98badcfe
  d : UInt32 := 0x10325476

/-- The integer parts of the sines, scaled. -/
def sines : List UInt32 :=
  [0xd76aa478, 0xe8c7b756, 0x242070db, 0xc1bdceee, 0xf57c0faf, 0x4787c62a,
    0xa8304613, 0xfd469501, 0x698098d8, 0x8b44f7af, 0xffff5bb1, 0x895cd7be,
    0x6b901122, 0xfd987193, 0xa679438e, 0x49b40821, 0xf61e2562, 0xc040b340,
    0x265e5a51, 0xe9b6c7aa, 0xd62f105d, 0x02441453, 0xd8a1e681, 0xe7d3fbc8,
    0x21e1cde6, 0xc33707d6, 0xf4d50d87, 0x455a14ed, 0xa9e3e905, 0xfcefa3f8,
    0x676f02d9, 0x8d2a4c8a, 0xfffa3942, 0x8771f681, 0x6d9d6122, 0xfde5380c,
    0xa4beea44, 0x4bdecfa9, 0xf6bb4b60, 0xbebfbc70, 0x289b7ec6, 0xeaa127fa,
    0xd4ef3085, 0x04881d05, 0xd9d4d039, 0xe6db99e5, 0x1fa27cf8, 0xc4ac5665,
    0xf4292244, 0x432aff97, 0xab9423a7, 0xfc93a039, 0x655b59c3, 0x8f0ccc92,
    0xffeff47d, 0x85845dd1, 0x6fa87e4f, 0xfe2ce6e0, 0xa3014314, 0x4e0811a1,
    0xf7537e82, 0xbd3af235, 0x2ad7d2bb, 0xeb86d391]

/-- The rotations of a round. -/
def rotations : ℕ → List UInt32
  | 0 => [7, 12, 17, 22]
  | 1 => [5, 9, 14, 20]
  | 2 => [4, 11, 16, 23]
  | _ => [6, 10, 15, 21]

def rotateLeft (x n : UInt32) : UInt32 := x <<< n ||| x >>> (32 - n)

/-- The function of a round. -/
def mix (s : State) : ℕ → UInt32
  | 0 => s.b &&& s.c ||| ~~~s.b &&& s.d
  | 1 => s.d &&& s.b ||| ~~~s.d &&& s.c
  | 2 => s.b ^^^ s.c ^^^ s.d
  | _ => s.c ^^^ (s.b ||| ~~~s.d)

/-- The word of a block that an operation takes. -/
def wordIndex (i : ℕ) : ℕ :=
  match i / 16 with
  | 0 => i
  | 1 => (5 * i + 1) % 16
  | 2 => (3 * i + 5) % 16
  | _ => 7 * i % 16

/-- One operation on the state. -/
def operation (words : List UInt32) (s : State) (i : ℕ) : State :=
  let f := mix s (i / 16) + s.a + sines.getD i 0 + words.getD (wordIndex i) 0
  ⟨s.d, s.b + rotateLeft f ((rotations (i / 16)).getD (i % 4) 0), s.b, s.c⟩

/-- A block of 64 bytes. -/
def compress (s : State) (block : Bytes) : State :=
  let words := (List.range 16).map fun i => UInt32.ofNat (leNat ((block.drop (4 * i)).take 4))
  let s' := (List.range 64).foldl (operation words) s
  ⟨s.a + s'.a, s.b + s'.b, s.c + s'.c, s.d + s'.d⟩

/-- A message with its padding. -/
def padded (message : Bytes) : Bytes :=
  message ++ 0x80 :: List.replicate ((119 - message.length % 64) % 64) 0 ++
    leBytes 8 (8 * message.length % 2 ^ 64)

end Md5

/-- `hashlib.md5(message).digest()`. -/
def md5 (message : Bytes) : Bytes :=
  let padded := Md5.padded message
  let s := (List.range (padded.length / 64)).foldl
    (fun s i => Md5.compress s ((padded.drop (64 * i)).take 64)) {}
  leBytes 4 s.a.toNat ++ leBytes 4 s.b.toNat ++ leBytes 4 s.c.toNat ++ leBytes 4 s.d.toNat

/-- A digest has 16 bytes. -/
theorem length_md5 (message : Bytes) : (md5 message).length = 16 := by
  simp [md5]

example : md5 [0x61, 0x62, 0x63] = [0x90, 0x01, 0x50, 0x98, 0x3c, 0xd2, 0x4f, 0xb0, 0xd6, 0x96,
    0x3f, 0x7d, 0x28, 0xe1, 0x7f, 0x72] := by
  decide +kernel

end Python
