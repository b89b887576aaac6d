import PicBaseline.Text.Basic

/-!
# JSON — values and their text

JSON values as far as the formats here tell them apart.  The members of an object keep their order
and have distinct names.  A number is a natural number written in plain digits, or any other
number in its spelling: reading an integer accepts only the former.

A *tagged* value is a name with a payload: `"X"` alone, with no payload, or `{"X": payload}`.

Pretty printing takes one line for an item or member and two more spaces for each level, members in
the order they have.  An empty array or object takes no line of its own.
-/

namespace PicBaseline

inductive Json where
  | null
  | bool (value : Bool)
  | nat (value : Nat)
  | number (spelling : String)
  | str (value : String)
  | arr (items : List Json)
  | obj (members : List (String × Json))

namespace Json

/-- A name with a payload. -/
def tagged (tag : String) (payload : Json) : Json :=
  .obj [(tag, payload)]

/-- The name and the payload of a tagged value; the payload is `null` where there is none. -/
def tagged? : Json → Option (String × Json)
  | str tag              => some (tag, null)
  | obj [(tag, payload)] => some (tag, payload)
  | _                    => none

/-- A natural number below a bound. -/
def natBelow? (bound : Nat) : Json → Option Nat
  | nat n => if n < bound then some n else none
  | _     => none

/-! ### Pretty printing -/

/-- What stands for a character between the quotes of a string. -/
def stringEscape (c : Char) : String :=
  if c = '\x22' then "\\\""
  else if c = '\\' then "\\\\"
  else if c = '\x08' then "\\b"
  else if c = '\t' then "\\t"
  else if c = '\n' then "\\n"
  else if c = '\x0c' then "\\f"
  else if c = '\r' then "\\r"
  else if c.toNat < 0x20 then "\\u" ++ Text.lowerHex 4 c.toNat
  else String.singleton c

/-- A string in double quotes, with its escapes. -/
def quoted (s : String) : String :=
  "\"" ++ String.join (s.toList.map stringEscape) ++ "\""

/-- The start of a line at some depth. -/
def newline (depth : Nat) : String :=
  "\n" ++ String.ofList (List.replicate (2 * depth) ' ')

mutual

/-- A value whose first line starts at some depth. -/
def prettyAt (depth : Nat) : Json → String
  | null          => "null"
  | bool true     => "true"
  | bool false    => "false"
  | nat n         => Text.decimal n
  | number s      => s
  | str s         => quoted s
  | arr []        => "[]"
  | arr (x :: xs) =>
      "[" ++ newline (depth + 1) ++ prettyAt (depth + 1) x
        ++ prettyItems (depth + 1) xs ++ newline depth ++ "]"
  | obj []        => "\x7b\x7d"
  | obj (m :: ms) =>
      "\x7b" ++ newline (depth + 1) ++ prettyMember (depth + 1) m
        ++ prettyMembers (depth + 1) ms ++ newline depth ++ "\x7d"

/-- The items after the first. -/
def prettyItems (depth : Nat) : List Json → String
  | []      => ""
  | x :: xs => "," ++ newline depth ++ prettyAt depth x ++ prettyItems depth xs

/-- A name with its value behind it, on the same line. -/
def prettyMember (depth : Nat) : String × Json → String
  | (name, value) => quoted name ++ ": " ++ prettyAt depth value

/-- The members after the first. -/
def prettyMembers (depth : Nat) : List (String × Json) → String
  | []      => ""
  | m :: ms => "," ++ newline depth ++ prettyMember depth m ++ prettyMembers depth ms

end

/-- The text of a value, without a line feed at its end. -/
def pretty (j : Json) : String :=
  prettyAt 0 j

end Json

end PicBaseline
