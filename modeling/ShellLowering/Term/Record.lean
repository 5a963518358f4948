import ShellLowering.Term.Basic

/-!
Terms laid open as records. Every compound term is a record with a tag, a name and its fields in
order; the data form and the written form of a term are both read off its record.
-/

namespace ShellLowering

inductive Record where
  | absent
  | number (value : Number)
  | text (value : String)
  | endpoint (value : Endpoint)
  | tuple (items : List Record)
  | node (tag name : String) (fields : List (String × Record))

def Endpoint.name : Endpoint → String
  | .stdin => "stdin"
  | .stdout => "stdout"
  | .stderr => "stderr"
  | .pipe => "pipe"

def FdAction.Kind.tag : FdAction.Kind → String
  | .plain => "fd-action"
  | .output => "out"
  | .input => "in"
  | .append => "append"
  | .readWrite => "rw"
  | .set => "set"

def FdAction.Kind.name : FdAction.Kind → String
  | .plain => "FdAction"
  | .output => "Out"
  | .input => "In"
  | .append => "Append"
  | .readWrite => "Rw"
  | .set => "Set"

def Expansion.tag : Expansion → String
  | .plain => "expansion"
  | .full => "full-expand"
  | .interpolation => "partial-expand"
  | .redirectTarget => "expand-redirect-target"

def Expansion.name : Expansion → String
  | .plain => "Expansion"
  | .full => "FullExpand"
  | .interpolation => "PartialExpand"
  | .redirectTarget => "ExpandRedirectTarget"

def Record.ofFd : Option Int → Record
  | some fd => .number (.int fd)
  | none => .absent

namespace Term

mutual

def record : Term → Record
  | .absent => .absent
  | .number value => .number value
  | .text value => .text value
  | .endpoint value => .endpoint value
  | .tuple items => .tuple (records items)
  | .fdAction action => actionRecord action
  | .expansion kind value => .node kind.tag kind.name [("value", .text value)]
  | .builtin name args =>
    .node "builtin" "Builtin" [("name", .text name), ("args", .tuple (records args))]
  | .external name args redirects =>
    .node "external" "External" [("name", name.record), ("args", .tuple (records args)),
      ("redirects", redirectsRecord redirects)]
  | .form head args =>
    .node "form" "Form" [("head", .text head), ("args", .tuple (records args))]
  | .sequence steps => .node "do" "Do" [("steps", .tuple (records steps))]
  | .deferred term => .node "partial" "Partial" [("term", term.record)]
  | .pipeCall combinator source target =>
    .node "pipe-call" "PipeCall" [("combinator", .text combinator), ("source", source.record),
      ("target", target.record)]
  | .wait term => .node "wait-pipeline" "WaitPipeline" [("term", term.record)]
  | .condition term => .node "pipeline-condition" "PipelineCondition" [("term", term.record)]
  | .negation term => .node "not" "Not" [("term", term.record)]
  | .ref name => .node "ref" "Ref" [("name", .text name)]
  | .binding name value body =>
    .node "let" "Let" [("name", .text name), ("value", value.record), ("body", body.record)]
  | .conditional test onTrue onFalse =>
    .node "if" "If" [("test", test.record), ("then", onTrue.record), ("orelse", onFalse.record)]

def records : List Term → List Record
  | [] => []
  | term :: terms => term.record :: records terms

def actionRecord : FdAction Term → Record
  | ⟨kind, fd, target⟩ =>
    .node kind.tag kind.name [("fd", Record.ofFd fd), ("target", target.record)]

def actionRecords : List (FdAction Term) → List Record
  | [] => []
  | action :: actions => actionRecord action :: actionRecords actions

def redirectsRecord : Option (List (FdAction Term)) → Record
  | none => .absent
  | some actions => .tuple (actionRecords actions)

end

@[simp] theorem records_eq_map (terms : List Term) : records terms = terms.map record := by
  induction terms with
  | nil => rfl
  | cons term terms ih => simp [records, ih]

@[simp] theorem actionRecords_eq_map (actions : List (FdAction Term)) :
    actionRecords actions = actions.map actionRecord := by
  induction actions with
  | nil => rfl
  | cons action actions ih => simp [actionRecords, ih]

end Term
end ShellLowering
