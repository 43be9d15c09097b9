import PegMatch.Text.Numeral

set_option autoImplicit false

namespace PegMatch

inductive EncodingFlaw where
  | start
  | continuation
  | cutShort
  deriving Repr, DecidableEq

/-- The first flaw, with the bytes it concerns: the first of them, its position, and the position
after the last. -/
structure DecodeError where
  flaw : EncodingFlaw
  byte : Nat
  start : Nat
  stop : Nat
  deriving Repr, DecidableEq

def EncodingFlaw.message : EncodingFlaw → String
  | .start => "invalid start byte"
  | .continuation => "invalid continuation byte"
  | .cutShort => "unexpected end of data"

def DecodeError.message (e : DecodeError) : String :=
  let what :=
    if e.stop = e.start + 1 then
      s!"byte 0x{(Text.hexNumeral 2 e.byte).string} in position {e.start}"
    else s!"bytes in position {e.start}-{e.stop - 1}"
  s!"'utf-8' codec can't decode {what}: {e.flaw.message}"

/-- Why a text has no bytes: the first of a run of code points that have none, its position, and the
position after the run. -/
structure EncodeError where
  rune : Nat
  start : Nat
  stop : Nat
  deriving Repr, DecidableEq

def EncodeError.message (e : EncodeError) : String :=
  let hex := "'\\u" ++ (Text.hexNumeral 4 e.rune).string ++ "'"
  let what :=
    if e.stop = e.start + 1 then s!"character {hex} in position {e.start}"
    else s!"characters in position {e.start}-{e.stop - 1}"
  s!"'utf-8' codec can't encode {what}: surrogates not allowed"

namespace Text

def isContinuation (b : Nat) : Bool :=
  0x80 ≤ b && b < 0xc0

/-- Decodes bytes from position `i` on. Overlong forms, halves of surrogate pairs and numbers beyond
the last code point are refused by their second byte. -/
def decode (i : Nat) : List Nat → Except DecodeError Text
  | [] => .ok []
  | a :: rest =>
    let flawed (flaw : EncodingFlaw) (n : Nat) : Except DecodeError Text :=
      .error { flaw := flaw, byte := a, start := i, stop := i + n }
    if a < 0x80 then do .ok (a :: (← decode (i + 1) rest))
    else if a < 0xc2 then flawed .start 1
    else if a < 0xe0 then
      match rest with
      | [] => flawed .cutShort 1
      | b :: rest =>
        if isContinuation b then do
          .ok (((a - 0xc0) * 64 + (b - 0x80)) :: (← decode (i + 2) rest))
        else flawed .continuation 1
    else if a < 0xf0 then
      match rest with
      | [] => flawed .cutShort 1
      | b :: rest =>
        if !isContinuation b || (a == 0xe0 && b < 0xa0) || (a == 0xed && 0xa0 ≤ b) then
          flawed .continuation 1
        else
          match rest with
          | [] => flawed .cutShort 2
          | c :: rest =>
            if isContinuation c then do
              .ok ((((a - 0xe0) * 64 + (b - 0x80)) * 64 + (c - 0x80)) :: (← decode (i + 3) rest))
            else flawed .continuation 2
    else if a < 0xf5 then
      match rest with
      | [] => flawed .cutShort 1
      | b :: rest =>
        if !isContinuation b || (a == 0xf0 && b < 0x90) || (a == 0xf4 && 0x90 ≤ b) then
          flawed .continuation 1
        else
          match rest with
          | [] => flawed .cutShort 2
          | c :: rest =>
            if isContinuation c then
              match rest with
              | [] => flawed .cutShort 3
              | d :: rest =>
                if isContinuation d then do
                  .ok (((((a - 0xf0) * 64 + (b - 0x80)) * 64 + (c - 0x80)) * 64 + (d - 0x80)) ::
                    (← decode (i + 4) rest))
                else flawed .continuation 3
            else flawed .continuation 2
    else flawed .start 1

def ofUtf8 (bytes : ByteArray) : Except DecodeError Text :=
  decode 0 (bytes.toList.map UInt8.toNat)

def encodeRune (c : Nat) : Option (List Nat) :=
  if c < 0x80 then some [c]
  else if c < 0x800 then some [0xc0 + c / 64, 0x80 + c % 64]
  else if 0xd800 ≤ c ∧ c < 0xe000 then none
  else if c < 0x10000 then some [0xe0 + c / 4096, 0x80 + c / 64 % 64, 0x80 + c % 64]
  else if c < 0x110000 then
    some [0xf0 + c / 262144, 0x80 + c / 4096 % 64, 0x80 + c / 64 % 64, 0x80 + c % 64]
  else none

def encode (i : Nat) : Text → Except EncodeError (List Nat)
  | [] => .ok []
  | c :: t =>
    match encodeRune c with
    | some bytes => do .ok (bytes ++ (← encode (i + 1) t))
    | none =>
      let run := t.takeWhile fun d => (encodeRune d).isNone
      .error { rune := c, start := i, stop := i + 1 + run.length }

def toUtf8 (t : Text) : Except EncodeError ByteArray :=
  (encode 0 t).map fun bytes => ⟨(bytes.map Nat.toUInt8).toArray⟩

/-- The text as messages show it, where a code point without bytes is written by its number. -/
def shown (t : Text) : Text :=
  t.flatMap fun c => if (encodeRune c).isNone then '\\' :: 'u' :: hexNumeral 4 c else [c]

/-- What a file holds once the text is written to it. Opening the file empties it, and it stays
empty if the text has no bytes. -/
def fileContent (t : Text) : ByteArray × Option EncodeError :=
  match t.toUtf8 with
  | .ok bytes => (bytes, none)
  | .error e => (.empty, some e)

end Text

end PegMatch
