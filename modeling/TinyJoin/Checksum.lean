import TinyJoin.Lib.Bytes

/-! The checksums stored pages carry: CRC-32 for superblocks, sixteen bytes at a time from tables,
and XXH64 for every other page, for overflow values and for fingerprints. -/
namespace TinyJoin
open Bytes

/-- The whole chunks of `n` bytes, and the bytes after them. -/
def asChunks (n : Nat) (bytes : List UInt8) : List (List UInt8) × List UInt8 :=
  ((List.range (bytes.length / n)).map (fun index => slice bytes (index * n) (index * n + n)),
    bytes.drop (bytes.length / n * n))

def u32FromLe (bytes : List UInt8) : UInt32 := UInt32.ofNat (ofLeBytes bytes)
def u64FromLe (bytes : List UInt8) : UInt64 := UInt64.ofNat (ofLeBytes bytes)

namespace Crc32

def polynomial : UInt32 := 0xedb88320

/-- One step over the lowest bit of the state. -/
def shiftBit (checksum : UInt32) : UInt32 :=
  (checksum >>> 1) ^^^ (polynomial &&& (0 - (checksum &&& 1)))

/-- Table 0: the checksum of each byte value alone. -/
def table0 (byte : UInt32) : UInt32 := Nat.iterate shiftBit 8 byte

/-- Table `slice`: the checksum of a byte value followed by `slice` zero bytes. -/
def table : Nat → UInt32 → UInt32
  | 0, byte => table0 byte
  | slice + 1, byte =>
    let previous := table slice byte
    (previous >>> 8) ^^^ table0 (previous &&& 255)

/-- The state after sixteen zero bytes: a slicing step with nothing but the state folded in. -/
def skip (state : UInt32) : UInt32 :=
  table 15 (state &&& 255) ^^^ table 14 ((state >>> 8) &&& 255)
    ^^^ table 13 ((state >>> 16) &&& 255) ^^^ table 12 (state >>> 24)

/-- What one bit of the state becomes over 256 zero bytes. -/
def farBit (bit : Nat) : UInt32 := Nat.iterate skip 16 (1 <<< UInt32.ofNat bit)

/-- Table `16 + k`: what the state `value << 8k` becomes over 256 zero bytes. -/
def farTable (k : Nat) (value : UInt32) : UInt32 :=
  (List.range 8).foldl (fun entry bit =>
    if value &&& (1 <<< UInt32.ofNat bit) != 0 then entry ^^^ farBit (8 * k + bit) else entry) 0

def skipFar (state : UInt32) : UInt32 :=
  farTable 0 (state &&& 255) ^^^ farTable 1 ((state >>> 8) &&& 255)
    ^^^ farTable 2 ((state >>> 16) &&& 255) ^^^ farTable 3 (state >>> 24)

/-- A slicing step over one chunk of sixteen bytes. -/
def chunkStep (checksum : UInt32) (chunk : List UInt8) : UInt32 :=
  let word (offset : Nat) : UInt32 := u32FromLe (slice chunk offset (offset + 4))
  let first := word 0 ^^^ checksum
  let second := word 4
  let third := word 8
  let fourth := word 12
  let look (slice : Nat) (word : UInt32) (shift : UInt32) : UInt32 :=
    table slice ((word >>> shift) &&& 255)
  look 15 first 0 ^^^ look 14 first 8 ^^^ look 13 first 16 ^^^ look 12 first 24
    ^^^ look 11 second 0 ^^^ look 10 second 8 ^^^ look 9 second 16 ^^^ look 8 second 24
    ^^^ look 7 third 0 ^^^ look 6 third 8 ^^^ look 5 third 16 ^^^ look 4 third 24
    ^^^ look 3 fourth 0 ^^^ look 2 fourth 8 ^^^ look 1 fourth 16 ^^^ look 0 fourth 24

def zeroChunk (chunk : List UInt8) : Bool := chunk.all (· == 0)

/-- The loop over the chunks. A run of zero chunks is passed sixteen chunks at a time, then one at
a time; `fuel` is the number of chunks. -/
def chunks : Nat → UInt32 → List (List UInt8) → UInt32
  | 0, checksum, _ => checksum
  | _, checksum, [] => checksum
  | fuel + 1, checksum, chunk :: rest =>
    if zeroChunk chunk then
      let run := ((chunk :: rest).takeWhile zeroChunk).length
      let far := Nat.iterate skipFar (run / 16) checksum
      chunks fuel (Nat.iterate skip (run % 16) far) ((chunk :: rest).drop run)
    else chunks fuel (chunkStep checksum chunk) rest

def byteStep (checksum : UInt32) (byte : UInt8) : UInt32 :=
  (checksum >>> 8) ^^^ table 0 ((checksum ^^^ byte.toUInt32) &&& 255)

end Crc32

/-- Continues a CRC-32 over further bytes. -/
def crc32Update (checksum : UInt32) (bytes : List UInt8) : UInt32 :=
  let (chunks, remainder) := asChunks 16 bytes
  remainder.foldl Crc32.byteStep (Crc32.chunks chunks.length checksum chunks)

namespace Xxh64

def prime1 : UInt64 := 0x9e3779b185ebca87
def prime2 : UInt64 := 0xc2b2ae3d27d4eb4f
def prime3 : UInt64 := 0x165667b19e3779f9
def prime4 : UInt64 := 0x85ebca77c2b2ae63
def prime5 : UInt64 := 0x27d4eb2f165667c5

def rotateLeft (x : UInt64) (k : UInt64) : UInt64 := (x <<< k) ||| (x >>> (64 - k))

def round (accumulator lane : UInt64) : UInt64 :=
  rotateLeft (accumulator + lane * prime2) 31 * prime1

end Xxh64

/-- Four little-endian lanes: a stripe of 32 bytes, or the four accumulators. -/
structure Lanes where
  first : UInt64
  second : UInt64
  third : UInt64
  fourth : UInt64

/-- XXH64 of a message given as its whole 32-byte stripes and then the bytes after them. -/
structure Xxh64 where
  seed : UInt64
  accumulators : Lanes
  striped : Bool

namespace Xxh64

def new (seed : UInt64) : Xxh64 where
  seed := seed
  accumulators := ⟨seed + prime1 + prime2, seed + prime2, seed, seed - prime1⟩
  striped := false

def lanes (stripe : List UInt8) : Lanes where
  first := u64FromLe (slice stripe 0 8)
  second := u64FromLe (slice stripe 8 16)
  third := u64FromLe (slice stripe 16 24)
  fourth := u64FromLe (slice stripe 24 32)

def stripe (hash : Xxh64) (lanes : Lanes) : Xxh64 where
  seed := hash.seed
  accumulators :=
    ⟨round hash.accumulators.first lanes.first, round hash.accumulators.second lanes.second,
      round hash.accumulators.third lanes.third, round hash.accumulators.fourth lanes.fourth⟩
  striped := true

def merge (hash accumulator : UInt64) : UInt64 :=
  (hash ^^^ round 0 accumulator) * prime1 + prime4

def wordStep (hash : UInt64) (word : List UInt8) : UInt64 :=
  rotateLeft (hash ^^^ round 0 (u64FromLe word)) 27 * prime1 + prime4

def halfStep (hash : UInt64) (word : List UInt8) : UInt64 :=
  rotateLeft (hash ^^^ (u32FromLe word).toUInt64 * prime1) 23 * prime2 + prime3

def byteStep (hash : UInt64) (byte : UInt8) : UInt64 :=
  rotateLeft (hash ^^^ byte.toUInt64 * prime5) 11 * prime1

def avalanche (hash : UInt64) : UInt64 :=
  let hash := (hash ^^^ (hash >>> 33)) * prime2
  let hash := (hash ^^^ (hash >>> 29)) * prime3
  hash ^^^ (hash >>> 32)

/-- The hash of a message of `length` bytes, whose bytes after the stripes added are `tail`. -/
def finish (hash : Xxh64) (length : Nat) (tail : List UInt8) : UInt64 :=
  let a := hash.accumulators
  let start :=
    if hash.striped then
      [a.first, a.second, a.third, a.fourth].foldl merge
        (rotateLeft a.first 1 + rotateLeft a.second 7 + rotateLeft a.third 12
          + rotateLeft a.fourth 18)
    else hash.seed + prime5
  let (words, rest) := asChunks 8 tail
  let sum := words.foldl wordStep (start + UInt64.ofNat length)
  let (sum, rest) := if 4 ≤ rest.length then (halfStep sum (rest.take 4), rest.drop 4)
    else (sum, rest)
  avalanche (rest.foldl byteStep sum)

end Xxh64

/-- XXH64 of `bytes` with `seed`. -/
def xxh64 (bytes : List UInt8) (seed : UInt64) : UInt64 :=
  let (stripes, tail) := asChunks 32 bytes
  (stripes.foldl (fun hash stripe => hash.stripe (Xxh64.lanes stripe)) (Xxh64.new seed)).finish
    bytes.length tail

/-- Folds a 64-bit hash into 32 bits, keeping a contribution from every bit. -/
def fold (hash : UInt64) : UInt32 := (hash ^^^ (hash >>> 32)).toUInt32

def checksum32 (bytes : List UInt8) : UInt32 := fold (xxh64 bytes 0)

example : xxh64 [] 0 = 0xef46db3751d8e999 := by decide
example : xxh64 [0x61, 0x62, 0x63] 0 = 0x44bc2cf5ad770999 := by decide

end TinyJoin
