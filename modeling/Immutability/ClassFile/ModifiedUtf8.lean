/-!
# Modified UTF-8

The text of class files. It differs from UTF-8 in two ways: the character zero takes two bytes, and
a character beyond the first plane is written as a pair of surrogates of three bytes each. A
sequence of bytes that is UTF-8 is read as such.

* `decodeChar` reads one character off the front of a sequence of bytes;
* `decode` reads a whole sequence.
-/

namespace Immutability.ModifiedUtf8

/-- The six payload bits of a continuation byte. -/
def continuation? (b : UInt8) : Option Nat :=
  if 0x80 ≤ b.toNat ∧ b.toNat ≤ 0xBF then some (b.toNat - 0x80) else none

/-- The character of two surrogates of three bytes each, given the payload of the bytes behind the
leading byte of each. -/
def surrogatePair (a b c d : Nat) : Char :=
  Char.ofNat (0x10000 + (((a % 16) * 64 + b) * 1024 + (c % 16) * 64 + d))

/-- Read one character off the front of a sequence of bytes. -/
def decodeChar : List UInt8 → Option (Char × List UInt8)
  | [] => none
  | a :: rest =>
    let first := a.toNat
    if first = 0 then none
    else if first < 0x80 then some (Char.ofNat first, rest)
    else match rest with
      | [] => none
      | b :: rest =>
        if first = 0xC0 then if b = 0x80 then some (Char.ofNat 0, rest) else none
        else do
          let second ← continuation? b
          if 0xC2 ≤ first ∧ first ≤ 0xDF then
            return (Char.ofNat ((first - 0xC0) * 64 + second), rest)
          if first < 0xE0 ∨ 0xEF < first then none
          match rest with
          | [] => none
          | c :: rest =>
            let third ← continuation? c
            if first = 0xE0 ∧ second < 0x20 then none
            if first = 0xED ∧ 0x30 ≤ second then none
            if first = 0xED ∧ 0x20 ≤ second then
              match rest with
              | d :: e :: f :: rest =>
                let fifth ← continuation? e
                let sixth ← continuation? f
                if d = 0xED ∧ 0x30 ≤ fifth then
                  return (surrogatePair second third fifth sixth, rest)
                none
              | _ => none
            else return (Char.ofNat ((first - 0xE0) * 4096 + second * 64 + third), rest)

/-- Read characters until the bytes are used up; every character takes at least one byte. -/
def decodeChars : Nat → List UInt8 → List Char → Option (List Char)
  | _, [], done => some done.reverse
  | 0, _, _ => none
  | fuel + 1, bytes, done =>
    match decodeChar bytes with
    | some (c, rest) => decodeChars fuel rest (c :: done)
    | none => none

/-- The text of a sequence of bytes. -/
def decode (bytes : ByteArray) : Option String :=
  match String.fromUTF8? bytes with
  | some s => some s
  | none =>
    let bytes := bytes.toList
    (decodeChars bytes.length bytes []).map String.ofList

end Immutability.ModifiedUtf8
