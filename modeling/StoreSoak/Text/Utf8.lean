/-!
Reading bytes as text.

A byte sequence is text when it is a row of well-formed characters of one to four bytes. Where it is
not, the fault names the index of the first byte that belongs to no character, and either how many
bytes could still have begun one, or that the sequence ended in the middle of a character.

* `Head` is what the first bytes of a sequence are, `head` reads it off.
* `decode` reads a whole sequence or reports the first fault.
-/

namespace StoreSoak.Text

/-- Why a byte sequence is no text. -/
inductive Utf8Fault where
  /-- From `index` on, `width` bytes begin no character. -/
  | invalid (width index : Nat)
  /-- The sequence ends inside the character that begins at `index`. -/
  | incomplete (index : Nat)
  deriving DecidableEq, Repr

/-- The wording of a fault. -/
def Utf8Fault.message : Utf8Fault → String
  | .invalid width index =>
    "invalid utf-8 sequence of " ++ toString width ++ " bytes from index " ++ toString index
  | .incomplete index => "incomplete utf-8 byte sequence from index " ++ toString index

namespace Utf8

/-- What stands at the head of a byte sequence. -/
inductive Head where
  /-- A character and the bytes after it. -/
  | char (c : Char) (rest : List UInt8)
  /-- So many bytes that cannot be the beginning of a character. -/
  | invalid (width : Nat)
  /-- The beginning of a character and nothing after it. -/
  | cut

/-- A byte that continues a character: `10xxxxxx`. -/
def isContinuation (b : UInt8) : Bool :=
  128 ≤ b && b ≤ 191

/-- The six bits a continuation byte carries. -/
def payload (b : UInt8) : Nat :=
  b.toNat % 64

/-- Which second byte may follow a first byte of a three-byte character: none of a shorter spelling
and none of a surrogate. -/
def mayFollowThree (first second : UInt8) : Bool :=
  isContinuation second && (first != 224 || 160 ≤ second) && (first != 237 || second ≤ 159)

/-- Which second byte may follow a first byte of a four-byte character: none of a shorter spelling
and none beyond the last code point. -/
def mayFollowFour (first second : UInt8) : Bool :=
  isContinuation second && (first != 240 || 144 ≤ second) && (first != 244 || second ≤ 143)

/-- A character of two bytes, the first of them given. -/
def headTwo (a : UInt8) : List UInt8 → Head
  | [] => .cut
  | b :: rest =>
    if isContinuation b then .char (Char.ofNat (a.toNat % 32 * 64 + payload b)) rest
    else .invalid 1

/-- A character of three bytes, the first of them given. -/
def headThree (a : UInt8) : List UInt8 → Head
  | [] => .cut
  | b :: tail =>
    if mayFollowThree a b then
      match tail with
      | [] => .cut
      | c :: rest =>
        if isContinuation c then
          .char (Char.ofNat ((a.toNat % 16 * 64 + payload b) * 64 + payload c)) rest
        else .invalid 2
    else .invalid 1

/-- A character of four bytes, the first of them given. -/
def headFour (a : UInt8) : List UInt8 → Head
  | [] => .cut
  | b :: tail =>
    if mayFollowFour a b then
      match tail with
      | [] => .cut
      | c :: tail =>
        if isContinuation c then
          match tail with
          | [] => .cut
          | d :: rest =>
            if isContinuation d then
              .char (Char.ofNat
                (((a.toNat % 8 * 64 + payload b) * 64 + payload c) * 64 + payload d)) rest
            else .invalid 3
        else .invalid 2
    else .invalid 1

/-- What stands at the head of a sequence that begins with the byte `a`. -/
def head (a : UInt8) (rest : List UInt8) : Head :=
  if a ≤ 127 then .char (Char.ofNat a.toNat) rest
  else if 194 ≤ a && a ≤ 223 then headTwo a rest
  else if 224 ≤ a && a ≤ 239 then headThree a rest
  else if 240 ≤ a && a ≤ 244 then headFour a rest
  else .invalid 1

/-- Reads characters for at most `fuel` steps; `length` is that of the whole sequence, so that the
index of a fault is the length of what has been read. -/
def read (length : Nat) : Nat → List UInt8 → Except Utf8Fault (List Char)
  | 0, _ => .ok []
  | _ + 1, [] => .ok []
  | fuel + 1, a :: rest =>
    match head a rest with
    | .char c rest => (read length fuel rest).map (c :: ·)
    | .invalid width => .error (.invalid width (length - (rest.length + 1)))
    | .cut => .error (.incomplete (length - (rest.length + 1)))

/-- The characters of a byte sequence, or the first fault in it. Every step reads a byte, so as many
steps as there are bytes are enough. -/
def decode (bytes : List UInt8) : Except Utf8Fault (List Char) :=
  read bytes.length bytes.length bytes

/-- The characters of a byte sequence in at most `fuel` steps, with the replacement character for
every row of bytes that is none. -/
def readLossy : Nat → List UInt8 → List Char
  | 0, _ => []
  | _ + 1, [] => []
  | fuel + 1, a :: rest =>
    match head a rest with
    | .char c rest => c :: readLossy fuel rest
    | .invalid width => '\ufffd' :: readLossy fuel ((a :: rest).drop width)
    | .cut => ['\ufffd']

end Utf8

/-- The text that a byte sequence spells, with the replacement character where it spells none. -/
def ofUtf8Lossy (bytes : List UInt8) : String :=
  String.ofList (Utf8.readLossy bytes.length bytes)

/-- The text that a byte sequence spells, or the first fault in it. -/
def ofUtf8 (bytes : List UInt8) : Except Utf8Fault String :=
  (Utf8.decode bytes).map String.ofList

/-- The bytes of a text. -/
def utf8 (s : String) : List UInt8 :=
  s.toUTF8.toList

end StoreSoak.Text
