import ShellLowering.Options.FlagGroup
import ShellLowering.Text.CharClass

namespace ShellLowering

/-- An argument. An option that is spelled wrongly is refused only when it is reached. -/
inductive Argument where
  | plain (text : String)
  | separator
  | flags (group : Except OptionError FlagGroup)
  | unknown (text : String)

namespace Argument

def separatorText : String := "--"

/-- The part before the first equals sign, and the part after it. -/
def splitValue (s : List Char) : List Char × Option String :=
  let name := s.takeWhile (· != '=')
  match s.dropWhile (· != '=') with
  | [] => (name, none)
  | _ :: value => (name, some (String.ofList value))

/-- A minus and digits, with at most one point, which digits follow. The number may end in a new
line. -/
def isNegativeNumber : List Char → Bool
  | '-' :: s =>
    let isEnd := fun rest : List Char => rest = [] || rest = ['\n']
    match s.dropWhile Text.isDecimalDigit with
    | '.' :: rest =>
      !(rest.takeWhile Text.isDecimalDigit).isEmpty && isEnd (rest.dropWhile Text.isDecimalDigit)
    | rest => !(s.takeWhile Text.isDecimalDigit).isEmpty && isEnd rest
  | _ => false

/-- An argument that starts with a minus but is no option: a number or a text with a space is a
plain word. -/
def ofOther (text : String) : Argument :=
  if isNegativeNumber text.toList || text.toList.contains ' ' then .plain text else .unknown text

/-- Long names may be cut short as long as one option is meant; two minus signs alone fit all. -/
def ofLong (text : String) : Except OptionError Argument :=
  let (name, value) := splitValue text.toList
  match Flag.longNames.find? fun entry => entry.1.toList = name with
  | some (_, flag) => .ok (.flags (FlagGroup.ofLong flag value))
  | none =>
    match Flag.longNames.filter fun entry => name.isPrefixOf entry.1.toList with
    | [] => .ok (ofOther text)
    | [(_, flag)] => .ok (.flags (FlagGroup.ofLong flag value))
    | _ => .error (.ambiguous text)

/-- What follows the letter of a short option is attached to it. -/
def ofShort (text : String) (letter : Char) (attached : List Char) : Argument :=
  match Flag.ofLetter? letter with
  | some flag => .flags (FlagGroup.ofShort flag attached)
  | none => ofOther text

def ofText (text : String) : Except OptionError Argument :=
  match text.toList with
  | '-' :: '-' :: _ => ofLong text
  | '-' :: letter :: attached => .ok (ofShort text letter attached)
  | _ => .ok (.plain text)

/-- The arguments that texts are; after the separator all are plain. -/
def ofTexts : List String → Except OptionError (List Argument)
  | [] => .ok []
  | text :: texts =>
    if text = separatorText then .ok (.separator :: texts.map .plain)
    else do
      let argument ← ofText text
      return argument :: (← ofTexts texts)

end Argument
end ShellLowering
