import ServiciosRed.Text

namespace ServiciosRed.Digest

open Text

abbrev Word := BitVec 32

def sines : List Word := [
  0xd76aa478, 0xe8c7b756, 0x242070db, 0xc1bdceee, 0xf57c0faf, 0x4787c62a, 0xa8304613, 0xfd469501,
  0x698098d8, 0x8b44f7af, 0xffff5bb1, 0x895cd7be, 0x6b901122, 0xfd987193, 0xa679438e, 0x49b40821,
  0xf61e2562, 0xc040b340, 0x265e5a51, 0xe9b6c7aa, 0xd62f105d, 0x02441453, 0xd8a1e681, 0xe7d3fbc8,
  0x21e1cde6, 0xc33707d6, 0xf4d50d87, 0x455a14ed, 0xa9e3e905, 0xfcefa3f8, 0x676f02d9, 0x8d2a4c8a,
  0xfffa3942, 0x8771f681, 0x6d9d6122, 0xfde5380c, 0xa4beea44, 0x4bdecfa9, 0xf6bb4b60, 0xbebfbc70,
  0x289b7ec6, 0xeaa127fa, 0xd4ef3085, 0x04881d05, 0xd9d4d039, 0xe6db99e5, 0x1fa27cf8, 0xc4ac5665,
  0xf4292244, 0x432aff97, 0xab9423a7, 0xfc93a039, 0x655b59c3, 0x8f0ccc92, 0xffeff47d, 0x85845dd1,
  0x6fa87e4f, 0xfe2ce6e0, 0xa3014314, 0x4e0811a1, 0xf7537e82, 0xbd3af235, 0x2ad7d2bb, 0xeb86d391]

def shifts : List ℕ := [7, 12, 17, 22, 5, 9, 14, 20, 4, 11, 16, 23, 6, 10, 15, 21]

def bytes (s : Texto) : List ℕ := s.flatMap fun c ↦ (String.utf8EncodeChar c).map UInt8.toNat

def littleEndian : ℕ → ℕ → List ℕ
  | 0, _ => []
  | n + 1, x => x % 256 :: littleEndian n (x / 256)

def ofLittleEndian (b : List ℕ) : ℕ := b.foldr (fun x y ↦ x + 256 * y) 0

def padded (b : List ℕ) : List ℕ :=
  b ++ 128 :: (List.replicate ((119 - b.length % 64) % 64) 0 ++ littleEndian 8 (8 * b.length))

structure State where
  a : Word
  b : Word
  c : Word
  d : Word

def State.init : State := ⟨0x67452301, 0xefcdab89, 0x98badcfe, 0x10325476⟩

/-- The mixing function and the word of the block that round `i` uses. -/
def mix (i : ℕ) (s : State) : Word × ℕ :=
  match i / 16 with
  | 0 => ((s.b &&& s.c) ||| (~~~s.b &&& s.d), i)
  | 1 => ((s.d &&& s.b) ||| (~~~s.d &&& s.c), (5 * i + 1) % 16)
  | 2 => (s.b ^^^ s.c ^^^ s.d, (3 * i + 5) % 16)
  | _ => (s.c ^^^ (s.b ||| ~~~s.d), 7 * i % 16)

def round (block : List Word) (s : State) (i : ℕ) : State :=
  let m := mix i s
  let f := m.1 + s.a + sines.getD i 0 + block.getD m.2 0
  ⟨s.d, s.b + f.rotateLeft (shifts.getD (i / 16 * 4 + i % 4) 0), s.b, s.c⟩

def compress (s : State) (b : List ℕ) : State :=
  let block :=
    (List.range 16).map fun i ↦ BitVec.ofNat 32 (ofLittleEndian ((b.drop (4 * i)).take 4))
  let t := (List.range 64).foldl (round block) s
  ⟨s.a + t.a, s.b + t.b, s.c + t.c, s.d + t.d⟩

def chunks : ℕ → List ℕ → List (List ℕ)
  | 0, _ => []
  | n + 1, b => b.take 64 :: chunks n (b.drop 64)

def digest (b : List ℕ) : State :=
  (chunks ((padded b).length / 64) (padded b)).foldl compress State.init

def hexByte (x : ℕ) : Texto := [Nat.digitChar (x / 16 % 16), Nat.digitChar (x % 16)]

/-- `md5($s)`, in lower case hexadecimal. -/
def md5 (s : Texto) : Texto :=
  let t := digest (bytes s)
  [t.a, t.b, t.c, t.d].flatMap fun w ↦ (littleEndian 4 w.toNat).flatMap hexByte

theorem length_md5 (s : Texto) : (md5 s).length = 32 := rfl

theorem mem_md5 {s : Texto} {c : Char} (h : c ∈ md5 s) : c.isDigit ∨ 'a' ≤ c ∧ c ≤ 'f' := by
  have hdigit : ∀ n < 16, (Nat.digitChar n).isDigit ∨ 'a' ≤ Nat.digitChar n ∧
      Nat.digitChar n ≤ 'f' := by
    decide
  obtain ⟨w, -, hw⟩ := List.mem_flatMap.mp h
  obtain ⟨x, -, hx⟩ := List.mem_flatMap.mp hw
  rcases List.mem_pair.mp hx with rfl | rfl <;>
    exact hdigit _ (Nat.mod_lt _ (by omega))

example : md5 "".toList = "d41d8cd98f00b204e9800998ecf8427e".toList := by decide +kernel

end ServiciosRed.Digest
