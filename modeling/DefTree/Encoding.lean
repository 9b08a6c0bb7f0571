/-
Text in bytes.

Three encodings are known. Decoding either gives all characters or the
first fault: the bytes that are wrong, where they stand, and why. Line ends
are then made uniform, so that every line of a text ends in a line feed.
-/
import DefTree.Fault

namespace DefTree

inductive Encoding where
  | utf8 | latin1 | ascii
  deriving DecidableEq, Repr

namespace Encoding

def label : Encoding → String
  | .utf8 => "utf-8"
  | .latin1 => "latin-1"
  | .ascii => "ascii"

def ofLabel? (s : String) : Option Encoding :=
  [Encoding.utf8, .latin1, .ascii].find? (·.label == s)

/-- How many bytes are wrong, and why. -/
abbrev ByteFault := Nat × String

def invalidStart : ByteFault := (1, "invalid start byte")

def invalidContinuation (valid : Nat) : ByteFault := (valid, "invalid continuation byte")

def unexpectedEnd (valid : Nat) : ByteFault := (valid, "unexpected end of data")

def isContinuation (b : Nat) : Bool := 0x80 ≤ b && b < 0xC0

/-- Whether a byte may follow a first byte: the shortest form is required, codes of surrogates are
refused, and codes end at `0x10FFFF`. -/
def mayFollow (first b : Nat) : Bool :=
  isContinuation b && !(first == 0xE0 && b < 0xA0) && !(first == 0xED && 0xA0 ≤ b) &&
    !(first == 0xF0 && b < 0x90) && !(first == 0xF4 && 0x90 ≤ b)

/-- Reads `count` more bytes of a character, of which `valid` bytes with the bits `code` came
before. -/
def utf8More (code valid : Nat) : Nat → List Nat → Except ByteFault Nat
  | 0, _ => .ok code
  | _ + 1, [] => .error (unexpectedEnd valid)
  | count + 1, b :: bs =>
    if isContinuation b then utf8More (code * 64 + b % 64) (valid + 1) count bs
    else .error (invalidContinuation valid)

def utf8Step (first : Nat) (bs : List Nat) : Except ByteFault (Nat × Nat) :=
  if first < 0x80 then .ok (first, 1)
  else if first < 0xC2 ∨ 0xF5 ≤ first then .error invalidStart
  else
    let count := if first < 0xE0 then 1 else if first < 0xF0 then 2 else 3
    let bits := if first < 0xE0 then first % 32 else if first < 0xF0 then first % 16 else first % 8
    match bs with
    | [] => .error (unexpectedEnd 1)
    | b :: bs =>
      if mayFollow first b then
        (utf8More (bits * 64 + b % 64) 2 (count - 1) bs).map fun code => (code, count + 1)
      else .error (invalidContinuation 1)

def latin1Step (first : Nat) (_ : List Nat) : Except ByteFault (Nat × Nat) := .ok (first, 1)

def asciiStep (first : Nat) (_ : List Nat) : Except ByteFault (Nat × Nat) :=
  if first < 0x80 then .ok (first, 1) else .error (1, "ordinal not in range(128)")

def step : Encoding → Nat → List Nat → Except ByteFault (Nat × Nat)
  | .utf8 => utf8Step
  | .latin1 => latin1Step
  | .ascii => asciiStep

def decodeFrom (e : Encoding) (position : Nat) : List Nat → Except DecodeFault (List Char)
  | [] => .ok []
  | b :: bs =>
    match e.step b bs with
    | .error (length, reason) => .error { encoding := e.label, byte := b, position, length, reason }
    | .ok (code, size) =>
      (decodeFrom e (position + size) (bs.drop (size - 1))).map (Char.ofNat code :: ·)
termination_by bs => bs.length
decreasing_by simp only [List.length_drop, List.length_cons]; omega

def uniformLines : List Char → List Char
  | [] => []
  | '\r' :: '\n' :: cs => '\n' :: uniformLines cs
  | '\r' :: cs => '\n' :: uniformLines cs
  | c :: cs => c :: uniformLines cs

def decode (e : Encoding) (bytes : List UInt8) : Except DecodeFault String :=
  (decodeFrom e 0 (bytes.map (·.toNat))).map fun cs => String.ofList (uniformLines cs)

def encode (s : String) : List UInt8 := s.toUTF8.data.toList

end Encoding

end DefTree
