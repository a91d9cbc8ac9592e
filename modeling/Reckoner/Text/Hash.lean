/-!
# A hash of strings

The hash of a string is computed on 64-bit words from its UTF-8 bytes. Two lanes
are mixed with the bytes, sixteen of them at a time; the mixing step multiplies
two words and folds the upper half of the product onto the lower one. Short
strings skip the loop: a few words that may overlap cover all their bytes. The
length, and an end mark after it, enter last.

Every step is total on words, so the hash of a string is a definite number, and
where a string is stored in a table can be computed.
-/

namespace Reckoner.Text

/-- The first eight of some bytes as one word, the lowest byte first. -/
def word (bs : List UInt8) : UInt64 :=
  (bs.take 8).foldr (fun b w => b.toUInt64 ||| (w <<< 8)) 0

/-- **The folded product**: the lower half of the product of two words, combined
with its upper half. -/
def foldedMul (x y : UInt64) : UInt64 :=
  let p := x.toNat * y.toNat
  UInt64.ofNat p ^^^ UInt64.ofNat (p >>> 64)

/-- The start of the first lane. -/
def laneSeed₀ : UInt64 := 0x243f6a8885a308d3

/-- The start of the second lane. -/
def laneSeed₁ : UInt64 := 0x13198a2e03707344

/-- What keeps the second factor of a mixing step from being zero on zero bytes. -/
def blockSeed : UInt64 := 0xa4093822299f31d0

/-- What the state is multiplied with. -/
def multiplier : UInt64 := 0xf1357aea2e62a9c5

/-- The lanes after some blocks of sixteen bytes. -/
def mixBlocks : Nat → List UInt8 → UInt64 × UInt64 → UInt64 × UInt64
  | 0, _, lanes => lanes
  | n + 1, bs, (s, t) =>
    mixBlocks n (bs.drop 16) (t, foldedMul (s ^^^ word bs) (blockSeed ^^^ word (bs.drop 8)))

/-- The lanes after all bytes, of which there are `n`. -/
def mixBytes (bs : List UInt8) (n : Nat) : UInt64 × UInt64 :=
  if n = 0 then (laneSeed₀, laneSeed₁)
  else if n < 4 then
    (laneSeed₀ ^^^ word (bs.take 1),
      laneSeed₁ ^^^ word ((bs.drop (n / 2)).take 1 ++ bs.drop (n - 1)))
  else if n < 8 then (laneSeed₀ ^^^ word (bs.take 4), laneSeed₁ ^^^ word (bs.drop (n - 4)))
  else if n ≤ 16 then (laneSeed₀ ^^^ word bs, laneSeed₁ ^^^ word (bs.drop (n - 8)))
  else
    let (s, t) := mixBlocks ((n - 1) / 16) bs (laneSeed₀, laneSeed₁)
    (s ^^^ word (bs.drop (n - 16)), t ^^^ word (bs.drop (n - 8)))

/-- A word rotated to the left by 26 bits. -/
def rotate (w : UInt64) : UInt64 := (w <<< 26) ||| (w >>> 38)

/-- **The hash of a string.** -/
def hash (x : String) : UInt64 :=
  let bs := x.toList.flatMap String.utf8EncodeChar
  let n := bs.length
  let (s, t) := mixBytes bs n
  rotate (((foldedMul s t ^^^ UInt64.ofNat n) * multiplier + 0xff) * multiplier)

end Reckoner.Text
