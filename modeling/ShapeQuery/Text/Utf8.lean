import ShapeQuery.Number.Decimal
import ShapeQuery.Text.Quoted

/-!
Reading UTF-8. A malformed sequence is reported with the bytes that are wrong: up to the first byte
that cannot continue it, or up to the end of the input if that comes too early. A string that holds
surrogates has no UTF-8, and the first of them are reported.
-/
namespace ShapeQuery.Text

inductive Utf8Problem where
  | startByte
  | continuationByte
  | endOfData
deriving DecidableEq, Repr

def Utf8Problem.message : Utf8Problem → String
  | .startByte => "invalid start byte"
  | .continuationByte => "invalid continuation byte"
  | .endOfData => "unexpected end of data"

/-- A malformed sequence: where it starts, its first byte, its length, and what
is wrong. -/
structure Utf8Fault where
  offset : Nat
  byte : UInt8
  length : Nat
  problem : Utf8Problem
deriving DecidableEq, Repr

def Utf8Fault.message (fault : Utf8Fault) : String :=
  let place :=
    if fault.length = 1 then
      "byte 0x" ++ String.ofList (hexDigits 2 fault.byte.toNat) ++ " in position " ++
        decimalText fault.offset
    else
      "bytes in position " ++ decimalText fault.offset ++ "-" ++
        decimalText (fault.offset + fault.length - 1)
  "'utf-8' codec can't decode " ++ place ++ ": " ++ fault.problem.message

/-- The message for a string without UTF-8. It names the surrogates in a row
that come first, by their places, and a single one by its code as well. -/
def unencodableMessage (codes : List Nat) : String :=
  let isCharacter := fun code : Nat => decide code.isValidChar
  let offset := (codes.takeWhile isCharacter).length
  let surrogates := (codes.drop offset).takeWhile (!isCharacter ·)
  let place :=
    match surrogates with
    | [code] =>
      "character '\\u" ++ String.ofList (hexDigits 4 code) ++ "' in position " ++ decimalText offset
    | _ =>
      "characters in position " ++ decimalText offset ++ "-" ++
        decimalText (offset + surrogates.length - 1)
  "'utf-8' codec can't encode " ++ place ++ ": surrogates not allowed"

def isContinuation (byte : UInt8) : Bool :=
  0x80 ≤ byte && byte < 0xC0

/-- Whether a second byte fits a first one: overlong forms, surrogates and
values beyond the last code point do not. -/
def fitsSecond (first second : UInt8) : Bool :=
  isContinuation second &&
    (first != 0xE0 || 0xA0 ≤ second) && (first != 0xED || second < 0xA0) &&
    (first != 0xF0 || 0x90 ≤ second) && (first != 0xF4 || second < 0x90)

/-- The number of bytes in the sequence that a byte starts. -/
def sequenceLength (first : UInt8) : Option Nat :=
  if first < 0x80 then some 1
  else if first < 0xC2 then none
  else if first < 0xE0 then some 2
  else if first < 0xF0 then some 3
  else if first < 0xF5 then some 4
  else none

/-- The number of bytes, the first one included, that fit together at the start
of a sequence. A fault is reported for as many bytes as fit. -/
def fittingBytes (first : UInt8) (more : List UInt8) : Nat :=
  match more with
  | [] => 1
  | second :: others =>
    if fitsSecond first second then 2 + (others.takeWhile isContinuation).length else 1

def leadingBits (first : UInt8) (length : Nat) : Nat :=
  match length with
  | 1 => first.toNat
  | 2 => first.toNat % 0x20
  | 3 => first.toNat % 0x10
  | _ => first.toNat % 0x08

/-- The text that bytes from a given offset on stand for. -/
def decodeFrom (offset : Nat) (bytes : List UInt8) : Except Utf8Fault (List Char) :=
  match bytes with
  | [] => .ok []
  | first :: rest =>
    match sequenceLength first with
    | none => .error ⟨offset, first, 1, .startByte⟩
    | some length =>
      let more := rest.take (length - 1)
      let fitting := fittingBytes first more
      if length = 1 ∨ fitting = length then
        let code := more.foldl (fun bits byte => bits * 64 + byte.toNat % 64)
          (leadingBits first length)
        match decodeFrom (offset + length) (rest.drop (length - 1)) with
        | .ok text => .ok (Char.ofNat code :: text)
        | .error fault => .error fault
      else if fitting = more.length + 1 then
        .error ⟨offset, first, fitting, .endOfData⟩
      else
        .error ⟨offset, first, fitting, .continuationByte⟩
termination_by bytes.length
decreasing_by simp only [List.length_drop, List.length_cons]; omega

def decode (bytes : List UInt8) : Except Utf8Fault (List Char) :=
  decodeFrom 0 bytes

/-- A text with every line end written as a line feed. -/
def unifyLineEnds : List Char → List Char
  | '\r' :: '\n' :: rest => '\n' :: unifyLineEnds rest
  | c :: rest => (if c = '\r' then '\n' else c) :: unifyLineEnds rest
  | [] => []

end ShapeQuery.Text
