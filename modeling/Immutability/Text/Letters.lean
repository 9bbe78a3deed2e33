/-!
# Letter case against a keyword

A word of the input is compared with keywords made of ASCII letters, digits and underscores,
whatever the case of its letters. Only the characters whose changed form is ASCII can take part in
such a match, so the maps below leave every other character as it stands.

* `lowerAscii` and `upperAscii` are those two maps; `lower` and `upper` extend them to words;
* `underscored` reads a hyphen as an underscore.
-/

namespace Immutability.Text

/-- The lower-case form of a character where that form is ASCII; U+212A is the Kelvin sign. -/
def lowerAscii (c : Char) : Char :=
  if c.toNat = 0x212A then 'k' else c.toLower

/-- The upper-case form of a character where that form is ASCII, possibly several letters long:
the dotless i, the long s, the sharp s and the Latin ligatures. -/
def upperAscii (c : Char) : List Char :=
  match c.toNat with
  | 0x131 => ['I']
  | 0x17F => ['S']
  | 0xDF => ['S', 'S']
  | 0xFB00 => ['F', 'F']
  | 0xFB01 => ['F', 'I']
  | 0xFB02 => ['F', 'L']
  | 0xFB03 => ['F', 'F', 'I']
  | 0xFB04 => ['F', 'F', 'L']
  | 0xFB05 => ['S', 'T']
  | 0xFB06 => ['S', 'T']
  | _ => [c.toUpper]

/-- The lower-case form of a word, for a comparison with an ASCII keyword. -/
def lower (s : String) : String := String.ofList (s.toList.map lowerAscii)

/-- The upper-case form of a word, for a comparison with an ASCII keyword. -/
def upper (s : String) : String := String.ofList (s.toList.flatMap upperAscii)

/-- Hyphens read as underscores. -/
def underscored (s : String) : String :=
  String.ofList (s.toList.map fun c => if c = '-' then '_' else c)

end Immutability.Text
