import ApiSnippets.Fault
import ApiSnippets.Text.Case
import ApiSnippets.Text.Cut
import ApiSnippets.Text.Utf8
/-!
# Encodings of texts

How octets that come with a content type are read. The content type may name
the encoding in its parameter `charset`; it is UTF-8 where no name is given, or
one that is not known. Octets without a meaning in their encoding are read as
U+FFFD, so that reading fails in one case only: a mark tells the order of the
octets, and it is missing.
-/

namespace ApiSnippets

/-- An encoding of texts. -/
inductive Charset where
  | utf8
  /-- UTF-8, with a mark in front that is no part of the text. -/
  | markedUtf8
  /-- Units of two octets in an order that a mark tells. -/
  | utf16
  /-- Units of two octets. -/
  | plainUtf16 (bigEndian : Bool)
  /-- Units of four octets in an order that a mark tells. -/
  | utf32
  /-- Units of four octets. -/
  | plainUtf32 (bigEndian : Bool)
  | ascii
  | latin1
  | latin9
  | windows1252
  deriving DecidableEq, Repr

namespace Charset

/-! ## Names -/

/-- The names of the encodings, in lower case and with single underscores. -/
def names : List (String × Charset) :=
  (["utf_8", "utf8", "u8", "utf", "utf8_ucs2", "utf8_ucs4", "cp65001"].map fun n => (n, utf8)) ++
  [("utf_8_sig", markedUtf8), ("utf_16", utf16), ("utf16", utf16), ("u16", utf16),
    ("utf_16_le", plainUtf16 false), ("utf_16le", plainUtf16 false),
    ("unicodelittleunmarked", plainUtf16 false), ("utf_16_be", plainUtf16 true),
    ("utf_16be", plainUtf16 true), ("unicodebigunmarked", plainUtf16 true),
    ("utf_32", utf32), ("utf32", utf32), ("u32", utf32), ("utf_32_le", plainUtf32 false),
    ("utf_32le", plainUtf32 false), ("utf_32_be", plainUtf32 true), ("utf_32be", plainUtf32 true)] ++
  (["ascii", "646", "ansi_x3.4_1968", "ansi_x3.4_1986", "ansi_x3_4_1968", "cp367", "csascii",
    "ibm367", "iso646_us", "iso_646.irv_1991", "iso_ir_6", "us", "us_ascii"].map fun n => (n, ascii)) ++
  (["latin_1", "8859", "cp819", "csisolatin1", "ibm819", "iso8859", "iso8859_1", "iso_8859_1",
    "iso_8859_1_1987", "iso_ir_100", "l1", "latin", "latin1"].map fun n => (n, latin1)) ++
  [("iso8859_15", latin9), ("iso_8859_15", latin9), ("l9", latin9), ("latin9", latin9),
    ("cp1252", windows1252), ("1252", windows1252), ("windows_1252", windows1252)]

/-- Whether a character separates the parts of a name. -/
def separates (c : Char) : Bool :=
  !(Text.isAsciiLetter c || c.isDigit || c == '.')

/-- The encoding of a name. Case is of no account, nor is what separates the
parts of the name or stands around it, such as quotes. -/
def named? (name : String) : Option Charset :=
  if name.toList.any fun c => decide (128 ≤ c.toNat) then none
  else
    names.lookup
      (Text.lower (String.ofList (Text.join ['_'] (Text.fields separates name.toList))))

/-! ## Content types -/

/-- Whether a quote is open at the end of a text. -/
def isOpen : List Char → Bool
  | [] => false
  | '\\' :: '"' :: cs => isOpen cs
  | '"' :: cs => !isOpen cs
  | _ :: cs => isOpen cs

/-- Pieces between semicolons, given the first, put together again where a
quote is open. -/
def mended : List Char → List (List Char) → List (List Char)
  | piece, [] => [piece]
  | piece, next :: more =>
    if isOpen piece then mended (piece ++ ';' :: next) more else piece :: mended next more

/-- The parts of a content type: its media type and its parameters. -/
def parts (contentType : List Char) : List (List Char) :=
  match Text.splitAll ';' contentType with
  | [] => []
  | piece :: more => mended piece more

/-- The value of a parameter. -/
def parameter? (name contentType : String) : Option String :=
  ((parts contentType.toList).map (Text.cutAt '=')).findSome? fun p =>
    if Text.lower (Text.stripped (String.ofList p.1)) == name then some (String.ofList (p.2.getD []))
    else none

/-- The encoding that a content type tells of. -/
def ofContentType (contentType : String) : Charset :=
  ((parameter? "charset" contentType).bind named?).getD utf8

/-! ## Reading -/

/-- The character of a number, U+FFFD when there is none. -/
def character (n : Nat) : Char :=
  if n.isValidChar then Char.ofNat n else '\uFFFD'

/-- The number of two octets. -/
def unit (bigEndian : Bool) (a b : UInt8) : Nat :=
  if bigEndian then 256 * a.toNat + b.toNat else 256 * b.toNat + a.toNat

/-- The number of a pair of surrogates. -/
def joined? (high low : Nat) : Option Nat :=
  if 0xD800 ≤ high ∧ high < 0xDC00 ∧ 0xDC00 ≤ low ∧ low < 0xE000 then
    some (0x10000 + 0x400 * (high - 0xD800) + (low - 0xDC00))
  else none

/-- The text of units of two octets. A high surrogate too close to the end
takes what is left with it. -/
def read16 (bigEndian : Bool) : Bytes → List Char
  | [] => []
  | [_] => ['\uFFFD']
  | a :: b :: bs =>
    let n := unit bigEndian a b
    match bs with
    | c :: d :: more =>
      match joined? n (unit bigEndian c d) with
      | some m => character m :: read16 bigEndian more
      | none => character n :: read16 bigEndian (c :: d :: more)
    | rest =>
      if 0xD800 ≤ n ∧ n < 0xDC00 then ['\uFFFD'] else character n :: rest.map fun _ => '\uFFFD'

/-- The text of units of four octets. -/
def read32 (bigEndian : Bool) : Bytes → List Char
  | [] => []
  | a :: b :: c :: d :: bs =>
    let n :=
      if bigEndian then 65536 * unit true a b + unit true c d
      else unit false a b + 65536 * unit false c d
    character n :: read32 bigEndian bs
  | _ => ['\uFFFD']

/-- The text of octets that stand for one character each, where those beyond
ASCII have a reading of their own. -/
def readSingle (beyond : Nat → Char) (bs : Bytes) : List Char :=
  bs.map fun b => if b < 128 then Char.ofNat b.toNat else beyond b.toNat

/-- The characters of the octets from 128 to 159 in the encoding of Windows. -/
def windowsChars : List Char :=
  ['€', '\uFFFD', '‚', 'ƒ', '„', '…', '†', '‡', 'ˆ', '‰', 'Š', '‹', 'Œ', '\uFFFD', 'Ž', '\uFFFD',
    '\uFFFD', '‘', '’', '“', '”', '•', '–', '—', '˜', '™', 'š', '›', 'œ', '\uFFFD', 'ž', 'Ÿ']

/-- The octets that stand for other characters than their own in Latin-9. -/
def latin9Chars : List (Nat × Char) :=
  [(164, '€'), (166, 'Š'), (168, 'š'), (180, 'Ž'), (184, 'ž'), (188, 'Œ'), (189, 'œ'), (190, 'Ÿ')]

/-- **The text of octets** in an encoding. -/
def read : Charset → Bytes → Outcome (List Char)
  | utf8, bs => .ok (Utf8.decodeLossy bs)
  | markedUtf8, 0xEF :: 0xBB :: 0xBF :: bs => .ok (Utf8.decodeLossy bs)
  | markedUtf8, bs => .ok (Utf8.decodeLossy bs)
  | utf16, 0xFF :: 0xFE :: bs => .ok (read16 false bs)
  | utf16, 0xFE :: 0xFF :: bs => .ok (read16 true bs)
  | utf16, bs => if bs.length < 2 then .ok (read16 false bs) else .error (.defect .mark)
  | plainUtf16 bigEndian, bs => .ok (read16 bigEndian bs)
  | utf32, 0xFF :: 0xFE :: 0 :: 0 :: bs => .ok (read32 false bs)
  | utf32, 0 :: 0 :: 0xFE :: 0xFF :: bs => .ok (read32 true bs)
  | utf32, bs => if bs.length < 4 then .ok (read32 false bs) else .error (.defect .mark)
  | plainUtf32 bigEndian, bs => .ok (read32 bigEndian bs)
  | ascii, bs => .ok (readSingle (fun _ => '\uFFFD') bs)
  | latin1, bs => .ok (readSingle Char.ofNat bs)
  | latin9, bs => .ok (readSingle (fun n => (latin9Chars.lookup n).getD (Char.ofNat n)) bs)
  | windows1252, bs =>
    .ok (readSingle (fun n => (windowsChars[n - 128]?).getD (Char.ofNat n)) bs)

end Charset

end ApiSnippets
