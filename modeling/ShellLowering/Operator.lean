/-!
The operators of a command line: seven redirections, and the connectors that join commands into
pipelines, pipelines into clauses and clauses into a command list.
-/

namespace ShellLowering

inductive RedirectOp where
  | output
  | input
  | append
  | outputBoth
  | appendBoth
  | readWrite
  | duplicate
  deriving DecidableEq, Repr

inductive PipeOp where
  | pipe
  | multi
  | filter
  | reduce
  deriving DecidableEq, Repr

inductive ClauseOp where
  | and
  | or
  deriving DecidableEq, Repr

/-- An operator that stands between two commands. -/
inductive Connector where
  | pipe (op : PipeOp)
  | clause (op : ClauseOp)
  | background
  deriving DecidableEq, Repr

inductive Operator where
  | redirect (op : RedirectOp)
  | connect (connector : Connector)
  deriving DecidableEq, Repr

def RedirectOp.text : RedirectOp → String
  | .output => ">"
  | .input => "<"
  | .append => ">>"
  | .outputBoth => "&>"
  | .appendBoth => "&>>"
  | .readWrite => "<>"
  | .duplicate => ">&"

def RedirectOp.ofText? : String → Option RedirectOp
  | ">" => some .output
  | "<" => some .input
  | ">>" => some .append
  | "&>" => some .outputBoth
  | "&>>" => some .appendBoth
  | "<>" => some .readWrite
  | ">&" => some .duplicate
  | _ => none

def PipeOp.text : PipeOp → String
  | .pipe => "|"
  | .multi => "|>"
  | .filter => "|?"
  | .reduce => "|&"

def PipeOp.ofText? : String → Option PipeOp
  | "|" => some .pipe
  | "|>" => some .multi
  | "|?" => some .filter
  | "|&" => some .reduce
  | _ => none

def ClauseOp.text : ClauseOp → String
  | .and => "&&"
  | .or => "||"

def ClauseOp.ofText? : String → Option ClauseOp
  | "&&" => some .and
  | "||" => some .or
  | _ => none

def Connector.text : Connector → String
  | .pipe op => op.text
  | .clause op => op.text
  | .background => "&"

def Connector.ofText? (s : String) : Option Connector :=
  if s = "&" then some .background
  else ((PipeOp.ofText? s).map .pipe).or ((ClauseOp.ofText? s).map .clause)

namespace Operator

def text : Operator → String
  | .redirect op => op.text
  | .connect connector => connector.text

def ofText? (s : String) : Option Operator :=
  ((RedirectOp.ofText? s).map .redirect).or ((Connector.ofText? s).map .connect)

end Operator

theorem RedirectOp.ofText?_text (op : RedirectOp) : ofText? op.text = some op := by
  cases op <;> rfl

theorem PipeOp.ofText?_text (op : PipeOp) : ofText? op.text = some op := by
  cases op <;> rfl

theorem ClauseOp.ofText?_text (op : ClauseOp) : ofText? op.text = some op := by
  cases op <;> rfl

theorem Operator.ofText?_text (op : Operator) : ofText? op.text = some op := by
  rcases op with op | ⟨op | op | _⟩ <;> first | cases op <;> rfl | rfl

theorem RedirectOp.eq_text_of_ofText? {s : String} {op : RedirectOp} (h : ofText? s = some op) :
    s = op.text := by
  unfold ofText? at h
  split at h <;> cases h <;> rfl

theorem PipeOp.eq_text_of_ofText? {s : String} {op : PipeOp} (h : ofText? s = some op) :
    s = op.text := by
  unfold ofText? at h
  split at h <;> cases h <;> rfl

theorem ClauseOp.eq_text_of_ofText? {s : String} {op : ClauseOp} (h : ofText? s = some op) :
    s = op.text := by
  unfold ofText? at h
  split at h <;> cases h <;> rfl

theorem Connector.eq_text_of_ofText? {s : String} {connector : Connector}
    (h : ofText? s = some connector) : s = connector.text := by
  unfold ofText? at h
  split at h
  · cases h
    assumption
  · rcases Option.or_eq_some_iff.1 h with h | ⟨_, h⟩ <;>
      obtain ⟨op, found, rfl⟩ := Option.map_eq_some_iff.1 h
    · exact PipeOp.eq_text_of_ofText? found
    · exact ClauseOp.eq_text_of_ofText? found

/-- A text spells at most one operator, and only the operator's own text spells it. -/
theorem Operator.ofText?_eq_some_iff {s : String} {op : Operator} :
    ofText? s = some op ↔ s = op.text := by
  constructor
  · intro h
    rcases Option.or_eq_some_iff.1 h with h | ⟨_, h⟩ <;>
      obtain ⟨op, found, rfl⟩ := Option.map_eq_some_iff.1 h
    · exact RedirectOp.eq_text_of_ofText? found
    · exact Connector.eq_text_of_ofText? found
  · rintro rfl
    exact ofText?_text op

end ShellLowering
