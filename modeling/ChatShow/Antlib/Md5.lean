import ChatShow.Lib.Bytes
import ChatShow.Lib.Cells

/-! # The digest of a password

`md5.c`: MD5 over 32-bit words, and `MYMD5_ENCRYPT2`, which takes the digest of a head, two strings and
a tail and writes it in an alphabet of its own. The bytes of the buffer that nothing has been written to
are not read. -/

namespace ChatShow.Antlib.Md5

open ChatShow.Lib.Bytes ChatShow.Lib.Cells

structure State where
  a : UInt32
  b : UInt32
  c : UInt32
  d : UInt32

structure MD5_CTX where
  count : UInt32 × UInt32
  state : State
  buffer : ℕ → UInt8

def PADDING : List UInt8 := 0x80 :: List.replicate 63 0

def F (x y z : UInt32) : UInt32 := (x &&& y) ||| (~~~x &&& z)
def G (x y z : UInt32) : UInt32 := (x &&& z) ||| (y &&& ~~~z)
def H (x y z : UInt32) : UInt32 := x ^^^ y ^^^ z
def I (x y z : UInt32) : UInt32 := y ^^^ (x ||| ~~~z)

def rotateLeft (x n : UInt32) : UInt32 := (x <<< n) ||| (x >>> (32 - n))

/-- `FF`, `GG`, `HH` and `II`, after which the names of the four words move on by one. -/
def turn (f : UInt32 → UInt32 → UInt32 → UInt32) (q : State) (x s ac : UInt32) : State :=
  ⟨q.d, rotateLeft (q.a + (f q.b q.c q.d + x + ac)) s + q.b, q.b, q.c⟩

/-- The turns of a round: the word of the block, the shift and the constant of each. -/
abbrev Round := List (ℕ × UInt32 × UInt32)

def round1 : Round :=
  [(0, 7, 0xd76aa478), (1, 12, 0xe8c7b756), (2, 17, 0x242070db), (3, 22, 0xc1bdceee),
    (4, 7, 0xf57c0faf), (5, 12, 0x4787c62a), (6, 17, 0xa8304613), (7, 22, 0xfd469501),
    (8, 7, 0x698098d8), (9, 12, 0x8b44f7af), (10, 17, 0xffff5bb1), (11, 22, 0x895cd7be),
    (12, 7, 0x6b901122), (13, 12, 0xfd987193), (14, 17, 0xa679438e), (15, 22, 0x49b40821)]

def round2 : Round :=
  [(1, 5, 0xf61e2562), (6, 9, 0xc040b340), (11, 14, 0x265e5a51), (0, 20, 0xe9b6c7aa),
    (5, 5, 0xd62f105d), (10, 9, 0x2441453), (15, 14, 0xd8a1e681), (4, 20, 0xe7d3fbc8),
    (9, 5, 0x21e1cde6), (14, 9, 0xc33707d6), (3, 14, 0xf4d50d87), (8, 20, 0x455a14ed),
    (13, 5, 0xa9e3e905), (2, 9, 0xfcefa3f8), (7, 14, 0x676f02d9), (12, 20, 0x8d2a4c8a)]

def round3 : Round :=
  [(5, 4, 0xfffa3942), (8, 11, 0x8771f681), (11, 16, 0x6d9d6122), (14, 23, 0xfde5380c),
    (1, 4, 0xa4beea44), (4, 11, 0x4bdecfa9), (7, 16, 0xf6bb4b60), (10, 23, 0xbebfbc70),
    (13, 4, 0x289b7ec6), (0, 11, 0xeaa127fa), (3, 16, 0xd4ef3085), (6, 23, 0x4881d05),
    (9, 4, 0xd9d4d039), (12, 11, 0xe6db99e5), (15, 16, 0x1fa27cf8), (2, 23, 0xc4ac5665)]

def round4 : Round :=
  [(0, 6, 0xf4292244), (7, 10, 0x432aff97), (14, 15, 0xab9423a7), (5, 21, 0xfc93a039),
    (12, 6, 0x655b59c3), (3, 10, 0x8f0ccc92), (10, 15, 0xffeff47d), (1, 21, 0x85845dd1),
    (8, 6, 0x6fa87e4f), (15, 10, 0xfe2ce6e0), (6, 15, 0xa3014314), (13, 21, 0x4e0811a1),
    (4, 6, 0xf7537e82), (11, 10, 0xbd3af235), (2, 15, 0x2ad7d2bb), (9, 21, 0xeb86d391)]

/-- `MD5Encode` of some words. -/
def md5Encode (input : List UInt32) : List UInt8 := input.flatMap fun w => leBytes 4 w.toNat

/-- The word `k` of `MD5Decode`. -/
def md5Decode (input : ℕ → UInt8) (k : ℕ) : UInt32 := UInt32.ofNat (ofLe (slice input (4 * k) 4))

def md5Transform (state : State) (block : ℕ → UInt8) : State :=
  let go (f : UInt32 → UInt32 → UInt32 → UInt32) (q : State) (r : Round) : State :=
    r.foldl (fun q t => turn f q (md5Decode block t.1) t.2.1 t.2.2) q
  let q := go I (go H (go G (go F state round1) round2) round3) round4
  ⟨state.a + q.a, state.b + q.b, state.c + q.c, state.d + q.d⟩

def md5Init : MD5_CTX :=
  { count := (0, 0), state := ⟨0x67452301, 0xEFCDAB89, 0x98BADCFE, 0x10325476⟩, buffer := fun _ => 0 }

/-- The bytes that are in the buffer. -/
def MD5_CTX.index (context : MD5_CTX) : ℕ := ((context.count.1 >>> 3) &&& 0x3F).toNat

def md5Update (context : MD5_CTX) (input : List UInt8) : MD5_CTX :=
  let index := context.index
  let partlen := 64 - index
  let inputlen := UInt32.ofNat input.length
  let count0 := context.count.1 + inputlen <<< 3
  let count1 := (if count0 < inputlen <<< 3 then context.count.2 + 1 else context.count.2) + inputlen >>> 29
  if partlen ≤ input.length then
    let buffer := store context.buffer index (input.take partlen)
    let blocks := (input.length - partlen) / 64
    let state := (List.range blocks).foldl
      (fun state j => md5Transform state (cells (input.drop (partlen + 64 * j))))
      (md5Transform context.state buffer)
    { count := (count0, count1), state := state
      buffer := store buffer 0 (input.drop (partlen + 64 * blocks)) }
  else { context with count := (count0, count1), buffer := store context.buffer index input }

def md5Final (context : MD5_CTX) : List UInt8 :=
  let index := context.index
  let padlen := if index < 56 then 56 - index else 120 - index
  let bits := md5Encode [context.count.1, context.count.2]
  let context := md5Update (md5Update context (PADDING.take padlen)) bits
  md5Encode [context.state.a, context.state.b, context.state.c, context.state.d]

def B16MD5 (input : List UInt8) : List UInt8 := md5Final (md5Update md5Init input)

/-- The digest of no bytes. -/
example : B16MD5 [] = [0xd4, 0x1d, 0x8c, 0xd9, 0x8f, 0x00, 0xb2, 0x04, 0xe9, 0x80, 0x09, 0x98, 0xec, 0xf8,
    0x42, 0x7e] := by decide +kernel

def MYX16CODE : List UInt8 := [70, 69, 67, 68, 65, 48, 55, 54, 56, 57, 49, 53, 52, 50, 51, 66]
def MYMD5_HEAD : List UInt8 := [123, 32, 126, 38, 0, 36, 35, 33, 92, 10, 9, 13, 34, 255, 1, 125]
def MYMD5_TAIL : List UInt8 := [136, 93, 67, 0, 177, 64, 83, 104, 101, 110, 121, 118, 46, 99, 111, 109]

/-- The two characters of a byte. -/
def code (b : UInt8) : List UInt8 :=
  [MYX16CODE.getD (b &&& 0x0F).toNat 0, MYX16CODE.getD ((b >>> 4) &&& 0x0F).toNat 0]

/-- `MYMD5_ENCRYPT2`: the string in `output`. -/
def mymd5Encrypt2 (input1 input2 : List UInt8) : List UInt8 :=
  (md5Final (md5Update (md5Update (md5Update (md5Update md5Init MYMD5_HEAD) input1) input2)
    MYMD5_TAIL)).flatMap code

/-! ### The string -/

@[simp] theorem length_md5Encode (input : List UInt32) : (md5Encode input).length = 4 * input.length := by
  unfold md5Encode
  rw [List.length_flatMap]
  simp only [length_leBytes, List.map_const', List.sum_replicate_nat, Nat.mul_comm]

theorem length_mymd5Encrypt2 (input1 input2 : List UInt8) : (mymd5Encrypt2 input1 input2).length = 32 := by
  unfold mymd5Encrypt2
  rw [List.length_flatMap]
  have hcode : ∀ b, (code b).length = 2 := fun _ => rfl
  simp only [hcode, List.map_const', List.sum_replicate_nat]
  unfold md5Final
  rw [length_md5Encode]
  rfl

/-- The characters are those of the alphabet. -/
theorem mem_mymd5Encrypt2 {input1 input2 : List UInt8} {c : UInt8}
    (h : c ∈ mymd5Encrypt2 input1 input2) : c ∈ MYX16CODE := by
  have hcode : ∀ n < 256, ∀ c ∈ code (UInt8.ofNat n), c ∈ MYX16CODE := by decide +kernel
  obtain ⟨b, -, hc⟩ := List.mem_flatMap.mp h
  have := hcode b.toNat b.toNat_lt
  rw [UInt8.ofNat_toNat] at this
  exact this c hc

end ChatShow.Antlib.Md5
