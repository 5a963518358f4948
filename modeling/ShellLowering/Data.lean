import ShellLowering.Term.Basic

namespace ShellLowering

/-- Nested arrays and objects over numbers, texts, truth values and null. The members of an object
keep their order. -/
inductive Data where
  | null
  | bool (value : Bool)
  | int (value : Int)
  | float (value : Float)
  | text (value : String)
  | array (items : List Data)
  | object (members : List (String × Data))

namespace Data

def unitEscape (unit : Nat) : List Char :=
  '\\' :: 'u' :: (Nat.toDigits 16 unit).leftpad 4 '0'

/-- The 16-bit units of a character; beyond the first plane there are two. -/
def units (c : Char) : List Nat :=
  if c.toNat < 0x10000 then [c.toNat]
  else [0xd800 + (c.toNat - 0x10000) / 0x400, 0xdc00 + (c.toNat - 0x10000) % 0x400]

/-- How a character is written in a text. Controls and non-ASCII characters are written by their
units, but some controls have a letter. -/
def jsonChar (c : Char) : List Char :=
  if c = '"' ∨ c = '\\' then ['\\', c]
  else if c = '\n' then ['\\', 'n']
  else if c = '\r' then ['\\', 'r']
  else if c = '\t' then ['\\', 't']
  else if c = '\x08' then ['\\', 'b']
  else if c = '\x0c' then ['\\', 'f']
  else if 0x20 ≤ c.toNat ∧ c.toNat < 0x7f then [c]
  else (units c).flatMap unitEscape

def jsonText (s : String) : String :=
  String.ofList ('"' :: s.toList.flatMap jsonChar ++ ['"'])

/-- Floating-point numbers are laid out as elsewhere, but infinity and not-a-number have words of
their own. -/
def jsonFloat : Decimal.Layout :=
  { Decimal.Layout.plain with infinityWord := "Infinity", notANumberWord := "NaN" }

def line (level : Nat) : String :=
  String.ofList ('\n' :: List.replicate (2 * level) ' ')

/-- Puts items on lines of their own, one level deeper, between two brackets. -/
def block (level : Nat) (opening closing : String) (items : List String) : String :=
  if items.isEmpty then opening ++ closing
  else
    let inner := line (level + 1)
    .join [opening, inner, ("," ++ inner).intercalate items, line level, closing]

mutual

/-- The text of data that starts on a line of the given level. There is none if an integer in the
data has too many digits. -/
def jsonAt? (level : Nat) : Data → Option String
  | .null => some "null"
  | .bool true => some "true"
  | .bool false => some "false"
  | .int value => Number.integerText? value
  | .float value => some (jsonFloat.float value)
  | .text value => some (jsonText value)
  | .array items => (jsonItems? (level + 1) items).map (block level "[" "]")
  | .object members => (jsonMembers? (level + 1) members).map (block level "\x7b" "\x7d")

def jsonItems? (level : Nat) : List Data → Option (List String)
  | [] => some []
  | item :: items => do return (← jsonAt? level item) :: (← jsonItems? level items)

def jsonMembers? (level : Nat) : List (String × Data) → Option (List String)
  | [] => some []
  | (name, value) :: members => do
    let text ← jsonAt? level value
    return .join [jsonText name, ": ", text] :: (← jsonMembers? level members)

end

/-- The text of data, without a new line at its end. -/
def json? (data : Data) : Option String :=
  jsonAt? 0 data

end Data
end ShellLowering
