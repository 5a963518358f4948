import ShellLowering.Grammar.Error
import ShellLowering.Tree.Basic

namespace ShellLowering

/-- Tokens cut at the connectors: the first segment, and the others with the connector before each
of them. -/
structure Segments where
  first : List Token
  others : List (Connector × List Token)

def Segments.ofTokens : List Token → Segments
  | [] => ⟨[], []⟩
  | token :: tokens =>
    let rest := ofTokens tokens
    match token.connector? with
    | some connector => ⟨[], (connector, rest.first) :: rest.others⟩
    | none => ⟨token :: rest.first, rest.others⟩

namespace Segment

/-- The words and redirections of a segment, whose first token has the given index. What follows
the segment is named if its last redirection lacks a target. Numbers stay words here. -/
def items (following : Found) (index : Nat) : List Token → Except GrammarError (List Item)
  | [] => .ok []
  | token :: rest =>
    match token.redirect? with
    | none => return .word token :: (← items following (index + 1) rest)
    | some op =>
      match rest with
      | [] => .error (.missingTarget op following)
      | target :: rest =>
        match target.operator? with
        | some found => .error (.missingTarget op (.operator found (index + 1)))
        | none => return .redirect ⟨some op.text, target, none⟩ ::
            (← items following (index + 2) rest)

/-- Takes a number directly in front of a redirection for its file descriptor. -/
def attachFds : List Item → List Item
  | .word token :: .redirect redirection :: rest =>
    match token.fd? with
    | some fd => .redirect { redirection with fd := some fd } :: attachFds rest
    | none => .word token :: .redirect redirection :: attachFds rest
  | item :: rest => item :: attachFds rest
  | [] => []

end Segment

structure Stage where
  negated : Bool
  command : Command

/-- Why an empty segment is an error: that depends on the connector before it, and on whether the
tokens end there. -/
def GrammarError.ofEmptySegment (before : Option Connector) : Found → GrammarError
  | .operator op index => .expectedCommand (.operator op index)
  | .endOfInput =>
    match before with
    | none => .emptyLine
    | some (.pipe _) => .expectedCommand .endOfInput
    | some (.clause op) => .missingPipeline op
    | some .background => .missingCommand

/-- Whether the segment after a connector, or at the start, is the first of its pipeline. -/
def startsPipeline : Option Connector → Bool
  | some (.pipe _) => false
  | _ => true

namespace Stage

def negationWord : String := "!"

/-- Takes the negation off the front of a segment that starts a pipeline. A negation with nothing
after it is an ordinary word. -/
def splitNegation (before : Option Connector) : List Token → Bool × List Token
  | .symbol name :: token :: rest =>
    if startsPipeline before ∧ name = negationWord then (true, token :: rest)
    else (false, .symbol name :: token :: rest)
  | tokens => (false, tokens)

def ofSegment (before : Option Connector) (following : Found) (index : Nat)
    (tokens : List Token) : Except GrammarError Stage :=
  if tokens.isEmpty then .error (.ofEmptySegment before following)
  else do
    let (negated, words) := splitNegation before tokens
    let items ← Segment.items following (if negated then index + 1 else index) words
    return ⟨negated, ⟨Segment.attachFds items⟩⟩

def ofSegments (before : Option Connector) (index : Nat) (first : List Token) :
    List (Connector × List Token) → Except GrammarError (Stage × List (Connector × Stage))
  | [] => return (← ofSegment before .endOfInput index first, [])
  | (connector, second) :: others => do
    let next := index + first.length
    let stage ← ofSegment before (.operator (.connect connector) next) index first
    let (following, stages) ← ofSegments (some connector) (next + 1) second others
    return (stage, (connector, following) :: stages)

end Stage
end ShellLowering
