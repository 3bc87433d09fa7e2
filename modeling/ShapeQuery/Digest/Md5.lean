import ShapeQuery.Text.Quoted

/-!
The MD5 digest. The message is padded to blocks of sixteen words, and each block is mixed into four
words of state in sixty-four steps.
-/
namespace ShapeQuery.Md5

def constants : List UInt32 := [
  0xD76AA478, 0xE8C7B756, 0x242070DB, 0xC1BDCEEE, 0xF57C0FAF, 0x4787C62A, 0xA8304613, 0xFD469501,
  0x698098D8, 0x8B44F7AF, 0xFFFF5BB1, 0x895CD7BE, 0x6B901122, 0xFD987193, 0xA679438E, 0x49B40821,
  0xF61E2562, 0xC040B340, 0x265E5A51, 0xE9B6C7AA, 0xD62F105D, 0x02441453, 0xD8A1E681, 0xE7D3FBC8,
  0x21E1CDE6, 0xC33707D6, 0xF4D50D87, 0x455A14ED, 0xA9E3E905, 0xFCEFA3F8, 0x676F02D9, 0x8D2A4C8A,
  0xFFFA3942, 0x8771F681, 0x6D9D6122, 0xFDE5380C, 0xA4BEEA44, 0x4BDECFA9, 0xF6BB4B60, 0xBEBFBC70,
  0x289B7EC6, 0xEAA127FA, 0xD4EF3085, 0x04881D05, 0xD9D4D039, 0xE6DB99E5, 0x1FA27CF8, 0xC4AC5665,
  0xF4292244, 0x432AFF97, 0xAB9423A7, 0xFC93A039, 0x655B59C3, 0x8F0CCC92, 0xFFEFF47D, 0x85845DD1,
  0x6FA87E4F, 0xFE2CE6E0, 0xA3014314, 0x4E0811A1, 0xF7537E82, 0xBD3AF235, 0x2AD7D2BB, 0xEB86D391]

/-- The rotations of the steps: four amounts in turn, which change every
sixteen steps. -/
def rotations : List UInt32 :=
  [[7, 12, 17, 22], [5, 9, 14, 20], [4, 11, 16, 23], [6, 10, 15, 21]].flatMap fun round =>
    (List.replicate 4 round).flatten

structure State where
  a : UInt32 := 0x67452301
  b : UInt32 := 0xEFCDAB89
  c : UInt32 := 0x98BADCFE
  d : UInt32 := 0x10325476

def rotate (word amount : UInt32) : UInt32 :=
  (word <<< amount) ||| (word >>> (32 - amount))

/-- The mixing function of a step, and the word of the block that the step
takes. Both change every sixteen steps. -/
def mix (s : State) (step : Nat) : UInt32 × Nat :=
  if step < 16 then ((s.b &&& s.c) ||| (~~~s.b &&& s.d), step)
  else if step < 32 then ((s.d &&& s.b) ||| (~~~s.d &&& s.c), (5 * step + 1) % 16)
  else if step < 48 then (s.b ^^^ s.c ^^^ s.d, (3 * step + 5) % 16)
  else (s.c ^^^ (s.b ||| ~~~s.d), (7 * step) % 16)

def step (block : List UInt32) (s : State) (index : Nat) (constant amount : UInt32) : State :=
  let (mixed, word) := mix s index
  let sum := s.a + mixed + constant + block.getD word 0
  { a := s.d, b := s.b + rotate sum amount, c := s.b, d := s.c }

/-- The steps on a block from a given one on. -/
def steps (block : List UInt32) (s : State) : Nat → List UInt32 → List UInt32 → State
  | index, constant :: constants, amount :: amounts =>
    steps block (step block s index constant amount) (index + 1) constants amounts
  | _, _, _ => s

def absorb (s : State) (block : List UInt32) : State :=
  let t := steps block s 0 constants rotations
  { a := s.a + t.a, b := s.b + t.b, c := s.c + t.c, d := s.d + t.d }

/-- A number as bytes, the lowest first. -/
def littleEndian : Nat → Nat → List UInt8
  | 0, _ => []
  | count + 1, n => UInt8.ofNat (n % 256) :: littleEndian count (n / 256)

/-- The bytes of a message with the padding: a one bit, zeros up to eight bytes
before the end of a block, and the length in bits. -/
def padded (bytes : List UInt8) : List UInt8 :=
  let zeros := (119 - bytes.length % 64) % 64
  bytes ++ 0x80 :: List.replicate zeros 0 ++ littleEndian 8 (bytes.length * 8)

def words : List UInt8 → List UInt32
  | b₀ :: b₁ :: b₂ :: b₃ :: rest =>
    (b₀.toUInt32 ||| (b₁.toUInt32 <<< 8) ||| (b₂.toUInt32 <<< 16) ||| (b₃.toUInt32 <<< 24)) ::
      words rest
  | _ => []

def blocks (words : List UInt32) : List (List UInt32) :=
  if words.isEmpty then [] else words.take 16 :: blocks (words.drop 16)
termination_by words.length
decreasing_by
  rename_i nonempty
  have := List.length_pos_iff.mpr (by simpa using nonempty)
  simp only [List.length_drop]
  omega

/-- The digest of a message, in hexadecimal. The blocks are mixed in one after
the other, and the four words of the last state are written with their lowest
bytes first. -/
def digest (bytes : List UInt8) : List Char :=
  let s := (blocks (words (padded bytes))).foldl absorb {}
  [s.a, s.b, s.c, s.d].flatMap fun word =>
    (littleEndian 4 word.toNat).flatMap fun byte => Text.hexDigits 2 byte.toNat

end ShapeQuery.Md5
