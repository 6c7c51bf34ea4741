/-!
# Bytes and texts

Strict and lossy decoding of UTF-8, and universal line ends. A lossy decoding puts one replacement
character for each maximal ill-formed sequence, so that no later character is swallowed by a
broken one before it.
-/

set_option autoImplicit false

namespace ThemeLocales.Text

/-- The bytes that may follow the lead byte of a sequence: how many, and the range of the first. -/
structure Continuation where
  count : Nat
  low : UInt8
  high : UInt8
  deriving DecidableEq, Repr

/-- What must follow a lead byte above U+007F; `none` if the byte can lead no sequence. -/
def continuation? (lead : UInt8) : Option Continuation :=
  if 0xC2 ≤ lead && lead ≤ 0xDF then some ⟨1, 0x80, 0xBF⟩
  else if lead == 0xE0 then some ⟨2, 0xA0, 0xBF⟩
  else if lead == 0xED then some ⟨2, 0x80, 0x9F⟩
  else if 0xE1 ≤ lead && lead ≤ 0xEF then some ⟨2, 0x80, 0xBF⟩
  else if lead == 0xF0 then some ⟨3, 0x90, 0xBF⟩
  else if lead == 0xF4 then some ⟨3, 0x80, 0x8F⟩
  else if 0xF1 ≤ lead && lead ≤ 0xF3 then some ⟨3, 0x80, 0xBF⟩
  else none

/-- Whether a byte lies in a range. -/
def inByteRange (low high b : UInt8) : Bool :=
  low ≤ b && b ≤ high

/-- How many bytes at the front fit a sequence's tail, the first within its own range. -/
def fittingBytes : Nat → UInt8 → UInt8 → List UInt8 → Nat
  | 0, _, _, _ => 0
  | _, _, _, [] => 0
  | n + 1, low, high, b :: bs =>
    if inByteRange low high b then 1 + fittingBytes n 0x80 0xBF bs else 0

/-- The number that a lead byte and its tail spell. -/
def codePoint (lead : UInt8) (tail : List UInt8) : Nat :=
  let mask := match tail.length with
    | 0 => 0x80
    | 1 => 0x20
    | 2 => 0x10
    | _ => 0x08
  tail.foldl (fun n b => n * 64 + b.toNat % 64) (lead.toNat % mask)

/-- Decodes the sequence that a lead byte starts: its character, or `none` when it is ill-formed,
and the number of further bytes that belong to it. -/
def decodeSequence (lead : UInt8) (rest : List UInt8) : Option Char × Nat :=
  if lead < 0x80 then (some (Char.ofNat lead.toNat), 0)
  else match continuation? lead with
    | none => (none, 0)
    | some k =>
      let fitting := fittingBytes k.count k.low k.high rest
      if fitting = k.count then (some (Char.ofNat (codePoint lead (rest.take fitting))), fitting)
      else (none, fitting)

/-- Decodes bytes after skipping some, with U+FFFD for each ill-formed sequence. -/
def decodeLossyFrom : Nat → List UInt8 → List Char
  | _, [] => []
  | skip + 1, _ :: bs => decodeLossyFrom skip bs
  | 0, b :: bs =>
    let (c, further) := decodeSequence b bs
    c.getD '\uFFFD' :: decodeLossyFrom further bs

/-- Why and where bytes are no UTF-8. -/
structure Undecodable where
  byte : UInt8
  offset : Nat
  reason : String
  deriving DecidableEq, Repr

/-- Finds the first ill-formed sequence. -/
def findUndecodable : Nat → Nat → List UInt8 → Option Undecodable
  | _, _, [] => none
  | offset, skip + 1, _ :: bs => findUndecodable (offset + 1) skip bs
  | offset, 0, b :: bs =>
    match decodeSequence b bs with
    | (some _, further) => findUndecodable (offset + 1) further bs
    | (none, further) =>
      some ⟨b, offset,
        if (continuation? b).isNone then "invalid start byte"
        else if further = bs.length then "unexpected end of data"
        else "invalid continuation byte"⟩

/-- Two lower-case hexadecimal digits of a byte. -/
def hexByte (b : UInt8) : String :=
  let digits := Nat.toDigits 16 b.toNat
  String.ofList (List.replicate (2 - digits.length) '0' ++ digits)

/-- The text of a decoding failure. -/
def Undecodable.message (u : Undecodable) : String :=
  "'utf-8' codec can't decode byte 0x" ++ hexByte u.byte ++ " in position " ++
    toString u.offset ++ ": " ++ u.reason

/-- Reads bytes as UTF-8. -/
def decode (bytes : ByteArray) : Except Undecodable String :=
  match String.fromUTF8? bytes with
  | some s => .ok s
  | none => .error ((findUndecodable 0 0 bytes.toList).getD ⟨0, 0, "invalid start byte"⟩)

/-- Reads bytes as UTF-8 and puts a replacement character for what is ill-formed. -/
def decodeLossy (bytes : ByteArray) : String :=
  match String.fromUTF8? bytes with
  | some s => s
  | none => String.ofList (decodeLossyFrom 0 bytes.toList)

/-- Bytes with every byte outside well-formed UTF-8 written as `\xHH`. -/
def decodeEscapedFrom : Nat → List UInt8 → List Char
  | _, [] => []
  | 0, b :: bs =>
    match decodeSequence b bs with
    | (some c, further) => c :: decodeEscapedFrom further bs
    | (none, _) => '\\' :: 'x' :: (hexByte b).toList ++ decodeEscapedFrom 0 bs
  | skip + 1, _ :: bs => decodeEscapedFrom skip bs

/-- Line feeds for all three line ends. -/
def unifyLineEnds : List Char → List Char
  | [] => []
  | '\r' :: '\n' :: cs => '\n' :: unifyLineEnds cs
  | '\r' :: cs => '\n' :: unifyLineEnds cs
  | c :: cs => c :: unifyLineEnds cs

/-- Reads bytes strictly, with unified line ends, as a text file is read. -/
def readText (bytes : ByteArray) : Except Undecodable String :=
  (decode bytes).map fun s => String.ofList (unifyLineEnds s.toList)

/-- Reads bytes leniently, with unified line ends. -/
def readTextLossy (bytes : ByteArray) : String :=
  String.ofList (unifyLineEnds (decodeLossy bytes).toList)

end ThemeLocales.Text
