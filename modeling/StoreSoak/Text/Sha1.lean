import StoreSoak.Text.Basic
import StoreSoak.Text.Utf8

/-!
The SHA-1 digest of a text, by which a script that the server already holds is named.

* `pad` fills the message up to whole blocks of 64 bytes, the length in bits at the end.
* `schedule` stretches the sixteen words of a block to eighty.
* `compress` runs the eighty rounds of a block and adds the result to the running digest.
* `hexDigest` is the digest in forty hexadecimal digits.
-/

namespace StoreSoak.Text.Sha1

/-- The five words of the running digest. -/
structure Digest where
  a : UInt32
  b : UInt32
  c : UInt32
  d : UInt32
  e : UInt32
  deriving DecidableEq, Repr

/-- The digest of no block at all. -/
def Digest.start : Digest :=
  ⟨0x67452301, 0xefcdab89, 0x98badcfe, 0x10325476, 0xc3d2e1f0⟩

/-- The word with its bits moved `n` places to the left, those that fall out coming back in. -/
def rotateLeft (w : UInt32) (n : UInt32) : UInt32 :=
  (w <<< n) ||| (w >>> (32 - n))

/-- `n` in `width` bytes, the most significant first. -/
def bigEndian : Nat → Nat → List UInt8
  | 0, _ => []
  | width + 1, n => bigEndian width (n / 256) ++ [UInt8.ofNat n]

/-- The message, a one bit, zeros, and the length in bits: whole blocks of 64 bytes. -/
def pad (bytes : List UInt8) : List UInt8 :=
  let zeros := (119 - bytes.length % 64) % 64
  bytes ++ 128 :: List.replicate zeros 0 ++ bigEndian 8 (bytes.length * 8)

/-- The bytes four by four, as words. -/
def words : List UInt8 → List UInt32
  | a :: b :: c :: d :: rest =>
    (a.toUInt32 <<< 24 ||| b.toUInt32 <<< 16 ||| c.toUInt32 <<< 8 ||| d.toUInt32) :: words rest
  | _ => []

/-- `count` further words after `recent`, the last sixteen words in reverse order. -/
def stretch : Nat → List UInt32 → List UInt32
  | 0, _ => []
  | count + 1, recent =>
    let w := rotateLeft (recent.getD 2 0 ^^^ recent.getD 7 0 ^^^ recent.getD 13 0
      ^^^ recent.getD 15 0) 1
    w :: stretch count (w :: recent.take 15)

/-- The eighty words of a block. -/
def schedule (block : List UInt32) : List UInt32 :=
  block ++ stretch 64 block.reverse

/-- The choice of the round `t` among three words, with its constant. -/
def mix (t : Nat) (s : Digest) : UInt32 :=
  if t < 20 then ((s.b &&& s.c) ||| (~~~s.b &&& s.d)) + 0x5a827999
  else if t < 40 then (s.b ^^^ s.c ^^^ s.d) + 0x6ed9eba1
  else if t < 60 then ((s.b &&& s.c) ||| (s.b &&& s.d) ||| (s.c &&& s.d)) + 0x8f1bbcdc
  else (s.b ^^^ s.c ^^^ s.d) + 0xca62c1d6

/-- One round, with its word. -/
def round (s : Digest) (w : UInt32 × Nat) : Digest :=
  ⟨rotateLeft s.a 5 + mix w.2 s + s.e + w.1, s.a, rotateLeft s.b 30, s.c, s.d⟩

/-- The digest after one more block. -/
def compress (h : Digest) (block : List UInt32) : Digest :=
  let s := (schedule block).zipIdx.foldl round h
  ⟨h.a + s.a, h.b + s.b, h.c + s.c, h.d + s.d, h.e + s.e⟩

/-- The digest after the blocks of `ws`, at most `count` of them. -/
def compressAll : Nat → Digest → List UInt32 → Digest
  | 0, h, _ => h
  | count + 1, h, ws => compressAll count (compress h (ws.take 16)) (ws.drop 16)

/-- The digest of a byte sequence. -/
def digest (bytes : List UInt8) : Digest :=
  let ws := words (pad bytes)
  compressAll (ws.length / 16) .start ws

/-- The digest of a text in forty hexadecimal digits. -/
def hexDigest (s : String) : String :=
  let h := digest (utf8 s)
  String.ofList ([h.a, h.b, h.c, h.d, h.e].flatMap fun w => padded 16 8 w.toNat)

end StoreSoak.Text.Sha1
