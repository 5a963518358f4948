import Mathlib.Data.List.Chain
import ShellLowering.Grammar.Parser

namespace ShellLowering

namespace Token

/-- A word that is spelled like an operator, as that operator. -/
def normalized (token : Token) : Token :=
  token.operator?.elim token .operator

/-- The operator in front of a group; a text that spells no operator is not written. -/
def ofOperator (op : Option String) : List Token :=
  (op.bind Operator.ofText?).toList.map .operator

end Token

/-- A redirection is written with its file descriptor in front. -/
def Item.tokens : Item → List Token
  | .word token => [token]
  | .redirect ⟨op, target, fd⟩ =>
    (fd.toList.map fun fd => .number (.int fd)) ++ Token.ofOperator op ++ [target]

def Command.tokens (command : Command) : List Token :=
  command.items.flatMap Item.tokens

namespace Tree

def joinTokens {α : Type} (tokens : α → List Token) (children : List (Option String × α)) :
    List Token :=
  children.flatMap fun (op, child) => Token.ofOperator op ++ tokens child

theorem subset_joinTokens {α : Type} {tokens : α → List Token} {child : Option String × α}
    {children : List (Option String × α)} (h : child ∈ children) :
    tokens child.2 ⊆ joinTokens tokens children := by
  intro token htoken
  exact List.mem_flatMap.mpr ⟨child, h, List.mem_append_right _ htoken⟩

/-- Groups that follow a first one, each behind an operator of the level. -/
def Follow {α : Type} (isOperator : String → Prop) (good : α → Prop)
    (children : List (Option String × α)) : Prop :=
  ∀ child ∈ children, (∃ text, child.1 = some text ∧ isOperator text) ∧ good child.2

theorem follow_cons {α : Type} {isOperator : String → Prop} {good : α → Prop}
    {child : Option String × α} {children : List (Option String × α)} :
    Follow isOperator good (child :: children) ↔
      ((∃ text, child.1 = some text ∧ isOperator text) ∧ good child.2) ∧
        Follow isOperator good children :=
  List.forall_mem_cons

/-- At least one group; the first one has no operator. -/
def Joined {α : Type} (isOperator : String → Prop) (good : α → Prop) :
    List (Option String × α) → Prop
  | [] => False
  | (op, first) :: others => op = none ∧ good first ∧ Follow isOperator good others

theorem Joined.forall_mem {α : Type} {isOperator : String → Prop} {good : α → Prop}
    {children : List (Option String × α)} (h : Joined isOperator good children) :
    ∀ child ∈ children, (∀ text ∈ child.1, isOperator text) ∧ good child.2 := by
  cases children with
  | nil => simp
  | cons first others =>
      obtain ⟨op, group⟩ := first
      obtain ⟨rfl, hgroup, hothers⟩ := h
      refine List.forall_mem_cons.mpr ⟨⟨by simp, hgroup⟩, fun child hchild => ?_⟩
      obtain ⟨⟨text, htext, hop⟩, hgood⟩ := hothers child hchild
      exact ⟨by simpa [htext] using hop, hgood⟩

end Tree

def negationTokens (negated : Bool) : List Token :=
  if negated then [.symbol Stage.negationWord] else []

def Pipeline.tokens (pipeline : Pipeline) : List Token :=
  negationTokens pipeline.negated ++ Tree.joinTokens Command.tokens pipeline.commands

def Clause.tokens (clause : Clause) : List Token :=
  Tree.joinTokens Pipeline.tokens clause.pipelines

def CommandList.tokens (list : CommandList) : List Token :=
  Tree.joinTokens Clause.tokens list.clauses

namespace Item

def IsCanonical : Item → Prop
  | .word token => token.isArgument = true
  | .redirect redirection =>
    redirection.target.isArgument = true ∧ ∃ op : RedirectOp, redirection.op = some op.text

/-- A number in front of a redirection is its file descriptor, unless the redirection has one. -/
def IsSeparate : Item → Item → Prop
  | .word token, .redirect redirection => token.fd?.isSome → redirection.fd.isSome
  | _, _ => True

end Item

structure Command.IsCanonical (command : Command) : Prop where
  nonempty : command.items ≠ []
  items : ∀ item ∈ command.items, item.IsCanonical
  separate : command.items.IsChain Item.IsSeparate

/-- Whether a command looks like the start of a negated pipeline: a bare exclamation mark and
something after it. -/
def Command.LooksNegated (command : Command) : Prop :=
  ∃ item items, command.items = .word (.symbol Stage.negationWord) :: item :: items

structure Pipeline.IsCanonical (pipeline : Pipeline) : Prop where
  joined : Tree.Joined (fun text => ∃ op : PipeOp, text = op.text) Command.IsCanonical
    pipeline.commands
  negated : pipeline.negated = false → ∀ op first others,
    pipeline.commands = (op, first) :: others → ¬ first.LooksNegated

def Clause.IsCanonical (clause : Clause) : Prop :=
  Tree.Joined (fun text => ∃ op : ClauseOp, text = op.text) Pipeline.IsCanonical clause.pipelines

def CommandList.IsCanonical (list : CommandList) : Prop :=
  Tree.Joined (fun text => text = Connector.background.text) Clause.IsCanonical list.clauses

namespace Item

theorem target_mem_tokens (redirection : Redirection) :
    redirection.target ∈ (redirect redirection).tokens := by
  simp [tokens]

theorem fd_mem_tokens {redirection : Redirection} {fd : Int} (h : redirection.fd = some fd) :
    Token.number (.int fd) ∈ (redirect redirection).tokens := by
  simp [tokens, h]

theorem tokens_subset {command : Command} {item : Item} (h : item ∈ command.items) :
    item.tokens ⊆ command.tokens :=
  fun _ htoken => List.mem_flatMap.mpr ⟨item, h, htoken⟩

end Item

namespace Token

theorem normalized_of_operator? {token : Token} {op : Operator} (h : token.operator? = some op) :
    token.normalized = .operator op := by
  simp [normalized, h]

theorem normalized_of_isArgument {token : Token} (h : token.isArgument = true) :
    token.normalized = token := by
  simp [normalized, isArgument_iff.mp h]

/-- What holds of the operators and of some tokens holds of the tokens normalized. -/
theorem forall_mem_normalized {p : Token → Prop} (hoperator : ∀ op, p (.operator op))
    {tokens : List Token} (h : ∀ token ∈ tokens, p token) :
    ∀ token ∈ tokens.map normalized, p token := by
  rw [List.forall_mem_map]
  intro token htoken
  cases hop : token.operator? with
  | none =>
      rw [normalized_of_isArgument (isArgument_iff.mpr hop)]
      exact h token htoken
  | some op =>
      rw [normalized_of_operator? hop]
      exact hoperator op

@[simp] theorem ofOperator_none : ofOperator none = [] := rfl

@[simp] theorem ofOperator_text (op : Operator) : ofOperator (some op.text) = [.operator op] := by
  simp [ofOperator, Operator.ofText?_text]

@[simp] theorem ofOperator_redirect (op : RedirectOp) :
    ofOperator (some op.text) = [.operator (.redirect op)] :=
  ofOperator_text (.redirect op)

@[simp] theorem ofOperator_connector (connector : Connector) :
    ofOperator (some connector.text) = [.operator (.connect connector)] :=
  ofOperator_text (.connect connector)

theorem redirect?_eq_some_iff {token : Token} {op : RedirectOp} :
    token.redirect? = some op ↔ token.operator? = some (.redirect op) := by
  rcases h : token.operator? with _ | op | connector <;> simp [redirect?, h]

theorem connector?_eq_some_iff {token : Token} {connector : Connector} :
    token.connector? = some connector ↔ token.operator? = some (.connect connector) := by
  rcases h : token.operator? with _ | op | connector <;> simp [connector?, h]

theorem operator?_cases (token : Token) :
    token.isArgument = true ∨ (∃ op, token.operator? = some (.redirect op)) ∨
      ∃ connector, token.operator? = some (.connect connector) := by
  rcases h : token.operator? with _ | op | connector
  · exact .inl (isArgument_iff.mpr h)
  · exact .inr (.inl ⟨op, rfl⟩)
  · exact .inr (.inr ⟨connector, rfl⟩)

theorem argument_or_redirect {token : Token} (h : token.connector? = none) :
    token.isArgument = true ∨ ∃ op, token.operator? = some (.redirect op) := by
  rcases token.operator?_cases with hargument | hredirect | ⟨connector, hconnector⟩
  · exact .inl hargument
  · exact .inr hredirect
  · rw [connector?_eq_some_iff.mpr hconnector] at h
    cases h

theorem isArgument_eq_false {token : Token} {op : Operator} (h : token.operator? = some op) :
    token.isArgument = false := by
  rw [← Bool.not_eq_true, isArgument_iff, h]
  simp

theorem isArgument_number (value : Number) : (Token.number value).isArgument = true :=
  isArgument_iff.mpr rfl

theorem isArgument_negationWord : (Token.symbol Stage.negationWord).isArgument = true := by
  decide

end Token
end ShellLowering
