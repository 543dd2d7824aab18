/-!
# Interop.Digest.Xxh64 — the 64-bit XXH digest of a byte sequence.

The digest reads the bytes in stripes of four little-endian words, each word feeding one of four
lanes; the lanes are folded into one word, the rest that fills no stripe is mixed in by words,
half words and single bytes, and a final avalanche spreads every bit. All arithmetic is modulo
`2 ^ 64`.

Of what is shown of types and tables, two things depend on the values of this digest: that the
standard types have fingerprints of their own, and that two structs share theirs with the pointers
to them. Statements about single names compute it. Everywhere else it stands for any function from
names to words.
-/

namespace Interop.Digest

/-- Rotation of a 64-bit word to the left by `k` bits. -/
def rotl (w : UInt64) (k : Nat) : UInt64 := ⟨w.toBitVec.rotateLeft k⟩

namespace Xxh64

/-! ## The mixing steps -/

def prime1 : UInt64 := 0x9E3779B185EBCA87
def prime2 : UInt64 := 0xC2B2AE3D27D4EB4F
def prime3 : UInt64 := 0x165667B19E3779F9
def prime4 : UInt64 := 0x85EBCA77C2B2AE63
def prime5 : UInt64 := 0x27D4EB2F165667C5

/-- One lane takes in one word. -/
def round (lane word : UInt64) : UInt64 := rotl (lane + word * prime2) 31 * prime1

/-- The bytes as a little-endian number. -/
def littleEndian : List UInt8 → UInt64
  | [] => 0
  | b :: bs => b.toUInt64 ||| (littleEndian bs <<< 8)

/-- The little-endian word in the eight bytes that start at `i`. -/
def wordAt (bytes : List UInt8) (i : Nat) : UInt64 := littleEndian ((bytes.drop i).take 8)

/-! ## Stripes -/

/-- The four lanes that the stripes feed. -/
structure Lanes where
  one : UInt64
  two : UInt64
  three : UInt64
  four : UInt64
  deriving DecidableEq, Repr

namespace Lanes

/-- The lanes before any stripe. -/
def start (seed : UInt64) : Lanes :=
  ⟨seed + prime1 + prime2, seed + prime2, seed, seed - prime1⟩

/-- The lanes after the stripe in the first thirty-two bytes. -/
def absorb (l : Lanes) (bytes : List UInt8) : Lanes :=
  ⟨round l.one (wordAt bytes 0), round l.two (wordAt bytes 8),
    round l.three (wordAt bytes 16), round l.four (wordAt bytes 24)⟩

/-- The lanes after the first `n` stripes. -/
def absorbAll : Nat → Lanes → List UInt8 → Lanes
  | 0, l, _ => l
  | n + 1, l, bytes => absorbAll n (l.absorb bytes) (bytes.drop 32)

/-- One lane is folded into the running word. -/
def fold (h lane : UInt64) : UInt64 := (h ^^^ round 0 lane) * prime1 + prime4

/-- The four lanes in one word. -/
def merge (l : Lanes) : UInt64 :=
  let h := rotl l.one 1 + rotl l.two 7 + rotl l.three 12 + rotl l.four 18
  fold (fold (fold (fold h l.one) l.two) l.three) l.four

end Lanes

/-! ## The rest and the avalanche -/

/-- The first `n` words of the rest are mixed in. -/
def mixWords : Nat → UInt64 → List UInt8 → UInt64
  | 0, h, _ => h
  | n + 1, h, bytes =>
    mixWords n (rotl (h ^^^ round 0 (wordAt bytes 0)) 27 * prime1 + prime4) (bytes.drop 8)

/-- A half word is mixed in. -/
def mixHalf (h : UInt64) (half : UInt64) : UInt64 :=
  rotl (h ^^^ half * prime1) 23 * prime2 + prime3

/-- One byte is mixed in. -/
def mixByte (h : UInt64) (b : UInt8) : UInt64 :=
  rotl (h ^^^ b.toUInt64 * prime5) 11 * prime1

/-- Fewer than thirty-two bytes are mixed in: whole words, then a half word if four bytes are
left, then the bytes one by one. -/
def mixRest (h : UInt64) (rest : List UInt8) : UInt64 :=
  let h := mixWords (rest.length / 8) h rest
  let rest := rest.drop (rest.length / 8 * 8)
  if rest.length < 4 then rest.foldl mixByte h
  else (rest.drop 4).foldl mixByte (mixHalf h (littleEndian (rest.take 4)))

/-- The last step spreads every bit over the whole word. -/
def avalanche (h : UInt64) : UInt64 :=
  let h := (h ^^^ (h >>> 33)) * prime2
  let h := (h ^^^ (h >>> 29)) * prime3
  h ^^^ (h >>> 32)

/-! ## The digest -/

/-- The digest of the bytes under a seed. -/
def digest (seed : UInt64) (bytes : List UInt8) : UInt64 :=
  let stripes := bytes.length / 32
  let h := if stripes = 0 then seed + prime5
    else (Lanes.absorbAll stripes (Lanes.start seed) bytes).merge
  avalanche (mixRest (h + UInt64.ofNat bytes.length) (bytes.drop (stripes * 32)))

end Xxh64

end Interop.Digest
