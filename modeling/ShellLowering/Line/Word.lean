import ShellLowering.Line.Error
import ShellLowering.Text.CharClass
import ShellLowering.Token

namespace ShellLowering.Line

/-- A word that is being read: its text without quotes and escapes, and whether it has had a
quoted and an unquoted part. -/
structure Word where
  text : String
  quoted : Bool
  bare : Bool

namespace Word

def empty : Word := ⟨"", false, false⟩

def pushBare (word : Word) (c : Char) : Word :=
  { word with text := word.text.push c, bare := true }

def pushQuoted (word : Word) (c : Char) : Word :=
  { word with text := word.text.push c, quoted := true }

/-- The word with a quote mark passed, which makes even an empty text a part of it. -/
def passQuote (word : Word) : Word :=
  { word with quoted := true }

/-- The token of a word that is not quoted throughout. Digits make a number if no zero stands in
front of another digit, and are refused when there are too many of them. -/
def unquotedToken (text : String) : Except ReadError Token :=
  if Text.isDigitText text then
    if digitLimit < text.length then .error (.tooManyDigits text.length)
    else if text = "0" ∨ text.toList.head? ≠ some '0' then
      .ok (.number (.int (Text.asciiDigitsValue text)))
    else .ok (.symbol text)
  else .ok (.symbol text)

/-- The token that a word stands for: a word that is quoted throughout is a string. -/
def token (word : Word) : Except ReadError Token :=
  if word.quoted && !word.bare then .ok (.string word.text) else unquotedToken word.text

end Word
end ShellLowering.Line
