import AuditedPetitions.Text.Hex

/-! The digest SHA-256, byte by byte. A hasher takes one byte at a time, so hashing a text in two
pieces and hashing it at once are the same fold; the search for a nonce relies on that. The digest
is written as 64 lower-case hexadecimal digits, and nothing else is used of it. -/

namespace AuditedPetitions.Sha256

/-- The eight words that are carried from block to block. -/
structure Words where
  a : UInt32
  b : UInt32
  c : UInt32
  d : UInt32
  e : UInt32
  f : UInt32
  g : UInt32
  h : UInt32
  deriving DecidableEq

def initialWords : Words :=
  ⟨0x6a09e667, 0xbb67ae85, 0x3c6ef372, 0xa54ff53a, 0x510e527f, 0x9b05688c, 0x1f83d9ab, 0x5be0cd19⟩

def roundConstants : Array UInt32 := #[
  0x428a2f98, 0x71374491, 0xb5c0fbcf, 0xe9b5dba5, 0x3956c25b, 0x59f111f1, 0x923f82a4, 0xab1c5ed5,
  0xd807aa98, 0x12835b01, 0x243185be, 0x550c7dc3, 0x72be5d74, 0x80deb1fe, 0x9bdc06a7, 0xc19bf174,
  0xe49b69c1, 0xefbe4786, 0x0fc19dc6, 0x240ca1cc, 0x2de92c6f, 0x4a7484aa, 0x5cb0a9dc, 0x76f988da,
  0x983e5152, 0xa831c66d, 0xb00327c8, 0xbf597fc7, 0xc6e00bf3, 0xd5a79147, 0x06ca6351, 0x14292967,
  0x27b70a85, 0x2e1b2138, 0x4d2c6dfc, 0x53380d13, 0x650a7354, 0x766a0abb, 0x81c2c92e, 0x92722c85,
  0xa2bfe8a1, 0xa81a664b, 0xc24b8b70, 0xc76c51a3, 0xd192e819, 0xd6990624, 0xf40e3585, 0x106aa070,
  0x19a4c116, 0x1e376c08, 0x2748774c, 0x34b0bcb5, 0x391c0cb3, 0x4ed8aa4a, 0x5b9cca4f, 0x682e6ff3,
  0x748f82ee, 0x78a5636f, 0x84c87814, 0x8cc70208, 0x90befffa, 0xa4506ceb, 0xbef9a3f7, 0xc67178f2]

def rotate (x n : UInt32) : UInt32 := (x >>> n) ||| (x <<< (32 - n))

def wordAt (block : Array UInt8) (i : Nat) : UInt32 :=
  let byte (k : Nat) : UInt32 := (block.getD (4 * i + k) 0).toUInt32
  (byte 0 <<< 24) ||| (byte 1 <<< 16) ||| (byte 2 <<< 8) ||| byte 3

def extend (w : Array UInt32) : Nat → Array UInt32
  | 0 => w
  | n + 1 =>
    let t := w.size
    let x := w.getD (t - 15) 0
    let y := w.getD (t - 2) 0
    let s0 := rotate x 7 ^^^ rotate x 18 ^^^ (x >>> 3)
    let s1 := rotate y 17 ^^^ rotate y 19 ^^^ (y >>> 10)
    extend (w.push (w.getD (t - 16) 0 + s0 + w.getD (t - 7) 0 + s1)) n

def schedule (block : Array UInt8) : Array UInt32 :=
  extend ((List.range 16).foldl (fun w i => w.push (wordAt block i)) #[]) 48

def round (s : Words) (constant word : UInt32) : Words :=
  let s1 := rotate s.e 6 ^^^ rotate s.e 11 ^^^ rotate s.e 25
  let choice := (s.e &&& s.f) ^^^ ((~~~ s.e) &&& s.g)
  let t1 := s.h + s1 + choice + constant + word
  let s0 := rotate s.a 2 ^^^ rotate s.a 13 ^^^ rotate s.a 22
  let majority := (s.a &&& s.b) ^^^ (s.a &&& s.c) ^^^ (s.b &&& s.c)
  ⟨t1 + (s0 + majority), s.a, s.b, s.c, s.d + t1, s.e, s.f, s.g⟩

def compress (s : Words) (block : Array UInt8) : Words :=
  let w := schedule block
  let r := (List.range 64).foldl
    (fun s i => round s (roundConstants.getD i 0) (w.getD i 0)) s
  ⟨s.a + r.a, s.b + r.b, s.c + r.c, s.d + r.d, s.e + r.e, s.f + r.f, s.g + r.g, s.h + r.h⟩

/-- Words so far, the bytes of the unfinished block, and the number of bytes taken. -/
structure Hasher where
  words : Words
  block : Array UInt8
  count : Nat

namespace Hasher

def empty : Hasher := ⟨initialWords, #[], 0⟩

def push (s : Hasher) (byte : UInt8) : Hasher :=
  let block := s.block.push byte
  if block.size = 64 then ⟨compress s.words block, #[], s.count + 1⟩
  else ⟨s.words, block, s.count + 1⟩

def absorb (s : Hasher) (bytes : List UInt8) : Hasher := bytes.foldl push s

theorem absorb_append (s : Hasher) (xs ys : List UInt8) :
    s.absorb (xs ++ ys) = (s.absorb xs).absorb ys := List.foldl_append

/-- The closing bit, zeros up to the last eight bytes of a block, and the length in bits. -/
def padding (count : Nat) : List UInt8 :=
  0x80 :: List.replicate ((119 - count % 64) % 64) 0 ++
    (List.range 8).map fun i => UInt8.ofNat (8 * count / Nat.pow 256 (7 - i))

def finish (s : Hasher) : Words := (s.absorb (padding s.count)).words

end Hasher

def Words.hex (s : Words) : List Char :=
  [s.a, s.b, s.c, s.d, s.e, s.f, s.g, s.h].flatMap fun w => Hex.fixed 8 w.toNat

theorem Words.length_hex (s : Words) : s.hex.length = 64 := by
  simp [Words.hex]

theorem Words.mem_hex {s : Words} {c : Char} (h : c ∈ s.hex) : c ∈ Hex.lowerDigits := by
  simp only [Words.hex, List.mem_flatMap] at h
  obtain ⟨_, _, h⟩ := h
  exact Hex.mem_fixed h

/-- Bytes of a text in UTF-8. -/
def bytes (s : String) : List UInt8 := s.toByteArray.data.toList

theorem bytes_append (s t : String) : bytes (s ++ t) = bytes s ++ bytes t := by
  simp [bytes]

theorem bytes_injective {s t : String} (h : bytes s = bytes t) : s = t := by
  apply String.toByteArray_inj.1
  cases hs : s.toByteArray
  cases ht : t.toByteArray
  simp only [bytes, hs, ht] at h
  rw [Array.toList_inj.1 h]

/-- Digest of a message, written out. -/
def hexDigest (message : List UInt8) : String :=
  String.ofList (Hasher.empty.absorb message).finish.hex

end AuditedPetitions.Sha256
