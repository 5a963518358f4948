import ShellLowering.Line.Error
import ShellLowering.Term.Basic
import ShellLowering.Text.CharClass

/-!
Groups: parenthesized calls inside a line. A group holds a name and further items: groups, quoted
texts and bare texts. There are no escapes, and a quoted text ends at the next mark of its kind.
Groups are read one character at a time.
-/

namespace ShellLowering.Line

/-- A group that is not closed yet, with its items from the last to the first. -/
structure OpenGroup where
  column : Nat
  items : List Term

inductive GroupPart where
  | gap
  | bare (text : String)
  | quoted (mark : Char) (text : String)

/-- A group that is being read: the innermost open group and those around it, inside out. -/
structure GroupReader where
  part : GroupPart
  innermost : OpenGroup
  around : List OpenGroup

inductive GroupReader.Progress where
  | reading (reader : GroupReader)
  | closed (form : Term)

/-- The call that a closed group stands for; its first item has to be a text. -/
def OpenGroup.form (group : OpenGroup) : Except ReadError Term :=
  match group.items.reverse with
  | [] => .error (.emptyGroup group.column)
  | .text head :: args => .ok (.form head args)
  | _ => .error (.unnamedGroup group.column)

namespace GroupReader

def start (column : Nat) : GroupReader :=
  ⟨.gap, ⟨column, []⟩, []⟩

def push (reader : GroupReader) (item : Term) : GroupReader :=
  { reader with
    part := .gap
    innermost := { reader.innermost with items := item :: reader.innermost.items } }

def isDelimiter (c : Char) : Bool :=
  Text.isBlank c || c = '(' || c = ')' || c = '"' || c = '\''

def delimit (reader : GroupReader) (column : Nat) (c : Char) : Except ReadError Progress :=
  if c = '(' then
    .ok (.reading ⟨.gap, ⟨column, []⟩, reader.innermost :: reader.around⟩)
  else if c = ')' then do
    let form ← reader.innermost.form
    match reader.around with
    | [] => return .closed form
    | outer :: around => return .reading (push ⟨.gap, outer, around⟩ form)
  else if c = '"' ∨ c = '\'' then .ok (.reading { reader with part := .quoted c "" })
  else .ok (.reading { reader with part := .gap })

def step (reader : GroupReader) (column : Nat) (c : Char) : Except ReadError Progress :=
  match reader.part with
  | .quoted mark text =>
    if c = mark then .ok (.reading (reader.push (.text text)))
    else .ok (.reading { reader with part := .quoted mark (text.push c) })
  | .bare text =>
    if isDelimiter c then (reader.push (.text text)).delimit column c
    else .ok (.reading { reader with part := .bare (text.push c) })
  | .gap =>
    if isDelimiter c then reader.delimit column c
    else .ok (.reading { reader with part := .bare (String.singleton c) })

def unfinished (reader : GroupReader) : ReadError :=
  match reader.part with
  | .quoted .. => .unterminatedQuote
  | _ => .unterminatedGroup reader.innermost.column

/-- Reads up to the parenthesis that closes the outermost group, and gives its call with the
characters that follow. -/
def run (reader : GroupReader) (column : Nat) : List Char → Except ReadError (Term × List Char)
  | [] => .error reader.unfinished
  | c :: rest => do
    match ← reader.step column c with
    | .closed form => return (form, rest)
    | .reading next => run next (column + 1) rest

theorem length_lt_of_run {reader : GroupReader} {column : Nat} {chars rest : List Char}
    {form : Term} (h : reader.run column chars = .ok (form, rest)) :
    rest.length < chars.length := by
  induction chars generalizing reader column with
  | nil => cases h
  | cons c chars ih =>
    rw [run] at h
    cases stepped : reader.step column c with
    | error e => rw [stepped] at h; cases h
    | ok progress =>
      rw [stepped] at h
      cases progress with
      | closed form => cases h; simp
      | reading next => exact Nat.lt_succ_of_lt (ih h)

end GroupReader
end ShellLowering.Line
