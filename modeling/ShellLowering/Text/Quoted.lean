import ShellLowering.Text.Printable

namespace ShellLowering.Text

/-- The code point in lower-case hexadecimal digits, filled up with zeros to the width. -/
def hexCode (width : Nat) (c : Char) : List Char :=
  (Nat.toDigits 16 c.toNat).leftpad width '0'

/-- The shortest of the three code point escapes that fits. -/
def codeEscape (c : Char) : List Char :=
  if c.toNat < 0x100 then '\\' :: 'x' :: hexCode 2 c
  else if c.toNat < 0x10000 then '\\' :: 'u' :: hexCode 4 c
  else '\\' :: 'U' :: hexCode 8 c

/-- How a character is written between the given quote marks. -/
def quotedChar (mark c : Char) : List Char :=
  if c = mark ∨ c = '\\' then ['\\', c]
  else if c = '\n' then ['\\', 'n']
  else if c = '\r' then ['\\', 'r']
  else if c = '\t' then ['\\', 't']
  else if isPrintable c then [c]
  else codeEscape c

/-- Single quotes, unless the text holds single quotes and no double quote. -/
def quoteMark (s : List Char) : Char :=
  if '\'' ∈ s ∧ '"' ∉ s then '"' else '\''

def quotedList (s : List Char) : List Char :=
  let mark := quoteMark s
  mark :: s.flatMap (quotedChar mark) ++ [mark]

def quoted (s : String) : String :=
  String.ofList (quotedList s.toList)

/-- A text in which every character stands for itself is only put between the marks. -/
theorem quotedList_of_plain {s : List Char}
    (plain : ∀ c ∈ s, quotedChar (quoteMark s) c = [c]) :
    quotedList s = quoteMark s :: s ++ [quoteMark s] := by
  have same : ∀ t : List Char, (∀ c ∈ t, quotedChar (quoteMark s) c = [c]) →
      t.flatMap (quotedChar (quoteMark s)) = t := by
    intro t
    induction t with
    | nil => simp
    | cons c t ih => simp_all
  simp [quotedList, same s plain]

def absentWord : String := "None"

/-- An absent text is shown by the word for it, without quotes. -/
def quotedOption : Option String → String
  | some s => quoted s
  | none => absentWord

end ShellLowering.Text
