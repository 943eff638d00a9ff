/-!
# UTF-8

Text as bytes and back. Decoding never fails: a sequence that is broken off or not allowed becomes the
replacement character, one for each longest start of a legal sequence.
-/

namespace PigChain.Utf8

def encode (cs : List Char) : List UInt8 := cs.flatMap String.utf8EncodeChar

def replacement : Char := '\ufffd'

def isContinuation (b : UInt8) : Bool := 0x80 ≤ b && b < 0xC0

/-- Whether `b` may follow the first byte `a` of a longer sequence: overlong forms, surrogates and numbers
beyond the last code point are excluded here. -/
def follows (a b : UInt8) : Bool :=
  if a == 0xE0 then 0xA0 ≤ b && b < 0xC0
  else if a == 0xED then 0x80 ≤ b && b < 0xA0
  else if a == 0xF0 then 0x90 ≤ b && b < 0xC0
  else if a == 0xF4 then 0x80 ≤ b && b < 0x90
  else 0xC2 ≤ a && a < 0xF5 && isContinuation b

/-- The code point of a first byte with `lead` bits of payload and the bytes after it. -/
def codePoint (lead : Nat) (a : UInt8) (rest : List UInt8) : Char :=
  Char.ofNat (rest.foldl (fun n b => n * 64 + b.toNat % 64) (a.toNat % Nat.pow 2 lead))

/-- The first character of bytes that start with `a`, and how many bytes after `a` belong to it. -/
def first (a : UInt8) (rest : List UInt8) : Char × Nat :=
  if a < 0x80 then (Char.ofNat a.toNat, 0)
  else
    match rest with
    | [] => (replacement, 0)
    | b :: rest =>
      if !follows a b then (replacement, 0)
      else if a < 0xE0 then (codePoint 5 a [b], 1)
      else
        match rest with
        | [] => (replacement, 1)
        | c :: rest =>
          if !isContinuation c then (replacement, 1)
          else if a < 0xF0 then (codePoint 4 a [b, c], 2)
          else
            match rest with
            | [] => (replacement, 2)
            | d :: _ => if isContinuation d then (codePoint 3 a [b, c, d], 3) else (replacement, 2)

/-- Decodes bytes after passing over the first `skip` of them. -/
def decodeFrom : (skip : Nat) → List UInt8 → List Char
  | _, [] => []
  | skip + 1, _ :: rest => decodeFrom skip rest
  | 0, a :: rest =>
    let (c, more) := first a rest
    c :: decodeFrom more rest

def decode (bytes : List UInt8) : List Char := decodeFrom 0 bytes

end PigChain.Utf8
