/-!
# Text — what the standard library does with a text

White space and the lower case of ASCII are fixed sets.  The debug form of a text is the text in double quotes, with what
cannot be shown escaped; which characters beyond ASCII those are is a table of the library, and a parameter.
-/
namespace Kirino
namespace Lib

/-- The `White_Space` characters of Unicode. -/
def isWhitespace (c : Char) : Bool :=
  (0x9 ≤ c.toNat && c.toNat ≤ 0xd) || (0x2000 ≤ c.toNat && c.toNat ≤ 0x200a) ||
    [0x20, 0x85, 0xa0, 0x1680, 0x2028, 0x2029, 0x202f, 0x205f, 0x3000].contains c.toNat

/-- The lower case of ASCII; every other character stays. -/
def asciiLowercase (s : String) : String := String.ofList (s.toList.map Char.toLower)

/-- A character by its code point, in hexadecimal digits. -/
def unicodeEscape (c : Char) : String := "\\u\x7b" ++ String.ofList (Nat.toDigits 16 c.toNat) ++ "\x7d"

def debugChar (unprintable : Char → Bool) (c : Char) : String :=
  match c.toNat with
  | 0 => "\\0"
  | 9 => "\\t"
  | 10 => "\\n"
  | 13 => "\\r"
  | 34 => "\\\""
  | 92 => "\\\\"
  | n => if n < 0x20 ∨ n = 0x7f ∨ 0x80 ≤ n ∧ unprintable c = true then unicodeEscape c else String.singleton c

/-- The debug form of a text. -/
def debugText (unprintable : Char → Bool) (s : String) : String :=
  "\"" ++ String.join (s.toList.map (debugChar unprintable)) ++ "\""

end Lib
end Kirino
