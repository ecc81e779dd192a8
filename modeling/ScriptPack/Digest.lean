/-!
The MD5 digest, as a stable fingerprint of a text. The message is padded to blocks of sixteen
words, and each block is mixed into four state words in sixty-four rounds.
-/

namespace ScriptPack.Digest

def rotations : List (List UInt32) :=
  [[7, 12, 17, 22], [5, 9, 14, 20], [4, 11, 16, 23], [6, 10, 15, 21]]

def constants : List UInt32 := [
  0xd76aa478, 0xe8c7b756, 0x242070db, 0xc1bdceee, 0xf57c0faf, 0x4787c62a, 0xa8304613, 0xfd469501,
  0x698098d8, 0x8b44f7af, 0xffff5bb1, 0x895cd7be, 0x6b901122, 0xfd987193, 0xa679438e, 0x49b40821,
  0xf61e2562, 0xc040b340, 0x265e5a51, 0xe9b6c7aa, 0xd62f105d, 0x02441453, 0xd8a1e681, 0xe7d3fbc8,
  0x21e1cde6, 0xc33707d6, 0xf4d50d87, 0x455a14ed, 0xa9e3e905, 0xfcefa3f8, 0x676f02d9, 0x8d2a4c8a,
  0xfffa3942, 0x8771f681, 0x6d9d6122, 0xfde5380c, 0xa4beea44, 0x4bdecfa9, 0xf6bb4b60, 0xbebfbc70,
  0x289b7ec6, 0xeaa127fa, 0xd4ef3085, 0x04881d05, 0xd9d4d039, 0xe6db99e5, 0x1fa27cf8, 0xc4ac5665,
  0xf4292244, 0x432aff97, 0xab9423a7, 0xfc93a039, 0x655b59c3, 0x8f0ccc92, 0xffeff47d, 0x85845dd1,
  0x6fa87e4f, 0xfe2ce6e0, 0xa3014314, 0x4e0811a1, 0xf7537e82, 0xbd3af235, 0x2ad7d2bb, 0xeb86d391]

structure State where
  a : UInt32
  b : UInt32
  c : UInt32
  d : UInt32

def start : State := ⟨0x67452301, 0xefcdab89, 0x98badcfe, 0x10325476⟩

def rotateLeft (word amount : UInt32) : UInt32 :=
  (word <<< amount) ||| (word >>> (32 - amount))

def mix (round : Nat) (state : State) : UInt32 × Nat :=
  match round / 16 with
  | 0 => ((state.b &&& state.c) ||| (~~~state.b &&& state.d), round)
  | 1 => ((state.d &&& state.b) ||| (~~~state.d &&& state.c), (5 * round + 1) % 16)
  | 2 => (state.b ^^^ state.c ^^^ state.d, (3 * round + 5) % 16)
  | _ => (state.c ^^^ (state.b ||| ~~~state.d), 7 * round % 16)

def runRound (block : List UInt32) (state : State) (round : Nat) : State :=
  let (mixed, place) := mix round state
  let amount := ((rotations.getD (round / 16) []).getD (round % 4) 0)
  let sum := state.a + mixed + constants.getD round 0 + block.getD place 0
  ⟨state.d, state.b + rotateLeft sum amount, state.b, state.c⟩

def runBlock (state : State) (block : List UInt32) : State :=
  let mixed := (List.range 64).foldl (runRound block) state
  ⟨state.a + mixed.a, state.b + mixed.b, state.c + mixed.c, state.d + mixed.d⟩

def lowBytes : Nat → Nat → List UInt8
  | 0, _ => []
  | count + 1, value => UInt8.ofNat (value % 256) :: lowBytes count (value / 256)

def pad (message : List UInt8) : List UInt8 :=
  let zeros := (119 - message.length % 64) % 64
  message ++ 0x80 :: List.replicate zeros 0 ++ lowBytes 8 (8 * message.length)

def toWords : List UInt8 → List UInt32
  | a :: b :: c :: d :: rest =>
      (a.toUInt32 ||| (b.toUInt32 <<< 8) ||| (c.toUInt32 <<< 16) ||| (d.toUInt32 <<< 24)) ::
        toWords rest
  | _ => []

def toBlocks : Nat → List UInt32 → List (List UInt32)
  | 0, _ => []
  | count + 1, words => words.take 16 :: toBlocks count (words.drop 16)

def md5 (message : List UInt8) : List UInt8 :=
  let words := toWords (pad message)
  let final := (toBlocks (words.length / 16) words).foldl runBlock start
  [final.a, final.b, final.c, final.d].flatMap fun word => lowBytes 4 word.toNat

def fingerprint (text : String) : String :=
  String.ofList ((md5 text.toUTF8.toList).flatMap fun byte =>
    [Nat.digitChar (byte.toNat / 16), Nat.digitChar (byte.toNat % 16)])

end ScriptPack.Digest
