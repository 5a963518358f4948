import ShellLowering.Line.Group
import ShellLowering.Line.Word

/-!
Reading a line into tokens. A line is a sequence of words, operators and groups, which blanks may
separate; it is read one character at a time. Operators are taken as long as possible: every part
of an operator from its start on is an operator too, so it is enough to extend the last one.
-/

namespace ShellLowering.Line

inductive Quoting where
  | bare
  | single
  | double
  | bareEscape
  | doubleEscape
  deriving DecidableEq, Repr

inductive Reader where
  | between
  | word (word : Word) (quoting : Quoting)
  | operator (op : Operator)
  | group (group : GroupReader)

namespace Reader

def operatorChar? (c : Char) : Option Operator :=
  Operator.ofText? (String.singleton c)

def start (column : Nat) (c : Char) : Reader :=
  if Text.isBlank c then .between
  else if c = '\'' then .word Word.empty.passQuote .single
  else if c = '"' then .word Word.empty.passQuote .double
  else if c = '\\' then .word Word.empty .bareEscape
  else if c = '(' then .group (.start column)
  else match operatorChar? c with
    | some op => .operator op
    | none => .word (Word.empty.pushBare c) .bare

/-- A character after the beginning of a word. An opening parenthesis is a part of the word. -/
def stepWord (column : Nat) (word : Word) (quoting : Quoting) (c : Char) :
    Except ReadError (List Token × Reader) :=
  match quoting with
  | .single =>
    if c = '\'' then .ok ([], .word word.passQuote .bare)
    else .ok ([], .word (word.pushQuoted c) .single)
  | .double =>
    if c = '"' then .ok ([], .word word.passQuote .bare)
    else if c = '\\' then .ok ([], .word word .doubleEscape)
    else .ok ([], .word (word.pushQuoted c) .double)
  | .bareEscape => .ok ([], .word (word.pushBare c) .bare)
  | .doubleEscape => .ok ([], .word (word.pushQuoted c) .double)
  | .bare =>
    if c = '\'' then .ok ([], .word word.passQuote .single)
    else if c = '"' then .ok ([], .word word.passQuote .double)
    else if c = '\\' then .ok ([], .word word .bareEscape)
    else if Text.isBlank c || (operatorChar? c).isSome then do
      return ([← word.token], start column c)
    else .ok ([], .word (word.pushBare c) .bare)

/-- The tokens that a character completes, and what is being read after it. -/
def step (reader : Reader) (column : Nat) (c : Char) : Except ReadError (List Token × Reader) :=
  match reader with
  | .between => .ok ([], start column c)
  | .word w quoting => stepWord column w quoting c
  | .operator op =>
    match Operator.ofText? (op.text.push c) with
    | some longer => .ok ([], .operator longer)
    | none => .ok ([.operator op], start column c)
  | .group g => do
    match ← g.step column c with
    | .reading next => return ([], .group next)
    | .closed form => return ([.embedded form], .between)

/-- The tokens that the end of the line completes. A backslash at the end stands for itself. -/
def finish : Reader → Except ReadError (List Token)
  | .between => .ok []
  | .word w .bare => do return [← w.token]
  | .word w .bareEscape => do return [← (w.pushBare '\\').token]
  | .word _ _ => .error .unterminatedQuote
  | .operator op => .ok [.operator op]
  | .group g => .error g.unfinished

/-- The tokens that characters complete, the first of which is at the given column, and what is
being read after them. -/
def feed (reader : Reader) (column : Nat) : List Char → Except ReadError (List Token × Reader)
  | [] => .ok ([], reader)
  | c :: rest => do
    let (tokens, next) ← reader.step column c
    let (following, last) ← feed next (column + 1) rest
    return (tokens ++ following, last)

def run (reader : Reader) (column : Nat) (rest : List Char) : Except ReadError (List Token) := do
  let (tokens, last) ← reader.feed column rest
  return tokens ++ (← last.finish)

theorem feed_append (reader : Reader) (column : Nat) (first second : List Char) :
    reader.feed column (first ++ second) = (do
      let (tokens, next) ← reader.feed column first
      let (following, last) ← next.feed (column + first.length) second
      return (tokens ++ following, last)) := by
  induction first generalizing reader column with
  | nil =>
    change reader.feed column second = reader.feed column second >>= fun x => pure (x.1, x.2)
    simp
  | cons c first ih =>
    have shifted : column + 1 + first.length = column + (first.length + 1) := by omega
    simp [feed, ih, shifted]

/-- A line can be read in two parts, the second with the columns that it has in the line. -/
theorem run_append (reader : Reader) (column : Nat) (first second : List Char) :
    reader.run column (first ++ second) = (do
      let (tokens, next) ← reader.feed column first
      let following ← next.run (column + first.length) second
      return tokens ++ following) := by
  simp only [run, feed_append, bind_assoc, pure_bind, List.append_assoc]

theorem run_cons (reader : Reader) (column : Nat) (c : Char) (rest : List Char) :
    reader.run column (c :: rest) = (do
      let (tokens, next) ← reader.step column c
      return tokens ++ (← next.run (column + 1) rest)) := by
  simp only [run, feed, bind_assoc, pure_bind, List.append_assoc]

/-- Inside a group the line is read as the group itself is, up to its closing parenthesis. -/
theorem run_group (group : GroupReader) (column : Nat) (chars : List Char) :
    (Reader.group group).run column chars = (do
      let (form, rest) ← group.run column chars
      let following ← Reader.between.run (column + (chars.length - rest.length)) rest
      return .embedded form :: following) := by
  induction chars generalizing group column with
  | nil => rfl
  | cons c chars ih =>
    rw [run_cons, GroupReader.run, step]
    cases group.step column c with
    | error e => rfl
    | ok progress =>
      cases progress with
      | closed form =>
        have one : chars.length + 1 - chars.length = 1 := by omega
        simp [bind, Except.bind, pure, Except.pure, one]
      | reading next =>
        change (Reader.group next).run (column + 1) chars >>= pure = _
        rw [bind_pure, ih]
        cases result : next.run (column + 1) chars with
        | error e => simp [bind, Except.bind, result]
        | ok read =>
          have shorter := GroupReader.length_lt_of_run result
          have shifted : column + 1 + (chars.length - read.2.length) =
              column + (chars.length + 1 - read.2.length) := by omega
          simp [bind, Except.bind, pure, Except.pure, result, shifted]

end Reader

def read (line : String) : Except ReadError (List Token) :=
  Reader.between.run 0 line.toList

end ShellLowering.Line
