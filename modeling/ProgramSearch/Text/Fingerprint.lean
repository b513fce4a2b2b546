/-!
# 64-bit fingerprints

The XXH3 hash with seed 0 and its fixed secret. Inputs of up to 240 bytes are mixed directly, by a
rule for each range of lengths; longer ones run through eight accumulators, stripe by stripe.
-/
namespace ProgramSearch.Text.Fingerprint

def secret : Array UInt8 :=
  #[0xB8, 0xFE, 0x6C, 0x39, 0x23, 0xA4, 0x4B, 0xBE, 0x7C, 0x01, 0x81, 0x2C,
    0xF7, 0x21, 0xAD, 0x1C, 0xDE, 0xD4, 0x6D, 0xE9, 0x83, 0x90, 0x97, 0xDB,
    0x72, 0x40, 0xA4, 0xA4, 0xB7, 0xB3, 0x67, 0x1F, 0xCB, 0x79, 0xE6, 0x4E,
    0xCC, 0xC0, 0xE5, 0x78, 0x82, 0x5A, 0xD0, 0x7D, 0xCC, 0xFF, 0x72, 0x21,
    0xB8, 0x08, 0x46, 0x74, 0xF7, 0x43, 0x24, 0x8E, 0xE0, 0x35, 0x90, 0xE6,
    0x81, 0x3A, 0x26, 0x4C, 0x3C, 0x28, 0x52, 0xBB, 0x91, 0xC3, 0x00, 0xCB,
    0x88, 0xD0, 0x65, 0x8B, 0x1B, 0x53, 0x2E, 0xA3, 0x71, 0x64, 0x48, 0x97,
    0xA2, 0x0D, 0xF9, 0x4E, 0x38, 0x19, 0xEF, 0x46, 0xA9, 0xDE, 0xAC, 0xD8,
    0xA8, 0xFA, 0x76, 0x3F, 0xE3, 0x9C, 0x34, 0x3F, 0xF9, 0xDC, 0xBB, 0xC7,
    0xC7, 0x0B, 0x4F, 0x1D, 0x8A, 0x51, 0xE0, 0x4B, 0xCD, 0xB4, 0x59, 0x31,
    0xC8, 0x9F, 0x7E, 0xC9, 0xD9, 0x78, 0x73, 0x64, 0xEA, 0xC5, 0xAC, 0x83,
    0x34, 0xD3, 0xEB, 0xC3, 0xC5, 0x81, 0xA0, 0xFF, 0xFA, 0x13, 0x63, 0xEB,
    0x17, 0x0D, 0xDD, 0x51, 0xB7, 0xF0, 0xDA, 0x49, 0xD3, 0x16, 0x55, 0x26,
    0x29, 0xD4, 0x68, 0x9E, 0x2B, 0x16, 0xBE, 0x58, 0x7D, 0x47, 0xA1, 0xFC,
    0x8F, 0xF8, 0xB8, 0xD1, 0x7A, 0xD0, 0x31, 0xCE, 0x45, 0xCB, 0x3A, 0x8F,
    0x95, 0x16, 0x04, 0x28, 0xAF, 0xD7, 0xFB, 0xCA, 0xBB, 0x4B, 0x40, 0x7E]

def prime32a : UInt64 := 0x9E3779B1
def prime32b : UInt64 := 0x85EBCA77
def prime32c : UInt64 := 0xC2B2AE3D
def prime64a : UInt64 := 0x9E3779B185EBCA87
def prime64b : UInt64 := 0xC2B2AE3D27D4EB4F
def prime64c : UInt64 := 0x165667B19E3779F9
def prime64d : UInt64 := 0x85EBCA77C2B2AE63
def prime64e : UInt64 := 0x27D4EB2F165667C5
def mixer1 : UInt64 := 0x165667919E3779F9
def mixer2 : UInt64 := 0x9FB21C651E98DF25

def byte (data : Array UInt8) (i : Nat) : UInt64 := (data.getD i 0).toUInt64

/-- Four bytes, the lowest first. -/
def word32 (data : Array UInt8) (i : Nat) : UInt64 :=
  byte data i ||| byte data (i + 1) <<< 8 ||| byte data (i + 2) <<< 16 ||| byte data (i + 3) <<< 24

/-- Eight bytes, the lowest first. -/
def word64 (data : Array UInt8) (i : Nat) : UInt64 :=
  word32 data i ||| word32 data (i + 4) <<< 32

def rotateLeft (x : UInt64) (k : UInt64) : UInt64 := x <<< k ||| x >>> (64 - k)

/-- The bytes of a word in the opposite order. -/
def swapBytes (x : UInt64) : UInt64 :=
  (List.range 8).foldl (fun y i => y <<< 8 ||| (x >>> (8 * i).toUInt64) &&& 0xFF) 0

/-- The two halves of a 128-bit product, combined. -/
def foldProduct (x y : UInt64) : UInt64 :=
  let p := x.toNat * y.toNat
  (p % 0x10000000000000000).toUInt64 ^^^ (p / 0x10000000000000000).toUInt64

def avalanche (h : UInt64) : UInt64 :=
  let h := (h ^^^ h >>> 37) * mixer1
  h ^^^ h >>> 32

def strongAvalanche (h : UInt64) : UInt64 :=
  let h := (h ^^^ h >>> 33) * prime64b
  let h := (h ^^^ h >>> 29) * prime64c
  h ^^^ h >>> 32

def upTo3 (data : Array UInt8) : UInt64 :=
  let size := data.size
  let combined := byte data 0 <<< 16 ||| byte data (size / 2) <<< 24 ||| byte data (size - 1) |||
    size.toUInt64 <<< 8
  strongAvalanche (combined ^^^ (word32 secret 0 ^^^ word32 secret 4))

def upTo8 (data : Array UInt8) : UInt64 :=
  let size := data.size
  let input := word32 data (size - 4) + word32 data 0 <<< 32
  let h := input ^^^ (word64 secret 8 ^^^ word64 secret 16)
  let h := (h ^^^ rotateLeft h 49 ^^^ rotateLeft h 24) * mixer2
  let h := (h ^^^ (h >>> 35 + size.toUInt64)) * mixer2
  h ^^^ h >>> 28

def upTo16 (data : Array UInt8) : UInt64 :=
  let size := data.size
  let low := word64 data 0 ^^^ (word64 secret 24 ^^^ word64 secret 32)
  let high := word64 data (size - 8) ^^^ (word64 secret 40 ^^^ word64 secret 48)
  avalanche (size.toUInt64 + swapBytes low + high + foldProduct low high)

/-- Mixes sixteen bytes of data with sixteen of the secret. -/
def mix16 (data : Array UInt8) (i s : Nat) : UInt64 :=
  foldProduct (word64 data i ^^^ word64 secret s) (word64 data (i + 8) ^^^ word64 secret (s + 8))

def upTo128 (data : Array UInt8) : UInt64 :=
  let size := data.size
  let pairs := (size - 1) / 32 + 1
  avalanche ((List.range pairs).foldl (fun h i =>
    h + mix16 data (16 * i) (32 * i) + mix16 data (size - 16 * (i + 1)) (32 * i + 16))
    (size.toUInt64 * prime64a))

def upTo240 (data : Array UInt8) : UInt64 :=
  let size := data.size
  let first := (List.range 8).foldl (fun h i => h + mix16 data (16 * i) (16 * i))
    (size.toUInt64 * prime64a)
  let more := (List.range (size / 16 - 8)).foldl (fun h i =>
    h + mix16 data (16 * (i + 8)) (16 * i + 3)) (avalanche first)
  avalanche (more + mix16 data (size - 16) 119)

/-- What lane `k` gains from a stripe: its neighbour's word and the product of the halves of its
own keyed word. -/
def laneGain (data : Array UInt8) (i s k : Nat) : UInt64 :=
  let neighbour := if k % 2 == 0 then k + 1 else k - 1
  let key := word64 data (i + 8 * k) ^^^ word64 secret (s + 8 * k)
  word64 data (i + 8 * neighbour) + (key &&& (0xFFFFFFFF : UInt64)) * (key >>> 32)

/-- Adds a stripe of 64 bytes to the accumulators. -/
def addStripe (data : Array UInt8) (acc : Array UInt64) (i s : Nat) : Array UInt64 :=
  acc.mapIdx fun k a => a + laneGain data i s k

def scrambleLane (k : Nat) (a : UInt64) : UInt64 :=
  (a ^^^ a >>> 47 ^^^ word64 secret (128 + 8 * k)) * prime32a

def scramble (acc : Array UInt64) : Array UInt64 := acc.mapIdx scrambleLane

/-- Stripes in a block, after which the accumulators are scrambled. -/
def stripesPerBlock : Nat := 16

def addStripes (data : Array UInt8) (acc : Array UInt64) (start count : Nat) : Array UInt64 :=
  (List.range count).foldl (fun acc k => addStripe data acc (start + 64 * k) (8 * k)) acc

def long (data : Array UInt8) : UInt64 :=
  let size := data.size
  let start : Array UInt64 :=
    #[prime32c, prime64a, prime64b, prime64c, prime64d, prime32b, prime64e, prime32a]
  let blockSize := 64 * stripesPerBlock
  let blocks := (size - 1) / blockSize
  let acc := (List.range blocks).foldl (fun acc b =>
    scramble (addStripes data acc (b * blockSize) stripesPerBlock)) start
  let acc := addStripes data acc (blocks * blockSize) ((size - 1 - blocks * blockSize) / 64)
  let acc := addStripe data acc (size - 64) 121
  avalanche ((List.range 4).foldl (fun h i =>
    h + foldProduct (acc.getD (2 * i) 0 ^^^ word64 secret (11 + 16 * i))
      (acc.getD (2 * i + 1) 0 ^^^ word64 secret (19 + 16 * i))) (size.toUInt64 * prime64a))

/-- The hash of some bytes. -/
def hash (data : Array UInt8) : UInt64 :=
  if data.size == 0 then strongAvalanche (word64 secret 56 ^^^ word64 secret 64)
  else if data.size ≤ 3 then upTo3 data
  else if data.size ≤ 8 then upTo8 data
  else if data.size ≤ 16 then upTo16 data
  else if data.size ≤ 128 then upTo128 data
  else if data.size ≤ 240 then upTo240 data
  else long data

end ProgramSearch.Text.Fingerprint

namespace ProgramSearch.Text

/-- The fingerprint of a text is the hash of its UTF-8 bytes. -/
def fingerprint (s : String) : UInt64 := Fingerprint.hash s.toUTF8.data

end ProgramSearch.Text
