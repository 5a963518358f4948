import Mathlib.Data.List.ModifyLast
import ShellLowering.Proofs.ErrorPosition

namespace ShellLowering

namespace Tree

variable {α : Type}

/-- The second groups behind the first ones, with the operator in between. -/
def append (op : String) (first : List (Option String × α)) :
    List (Option String × α) → List (Option String × α)
  | [] => first
  | (_, child) :: children => first ++ (some op, child) :: children

/-- The second groups behind the first ones, where the groups in the middle become one. -/
def merge (join : α → α → α) (first : List (Option String × α)) :
    List (Option String × α) → List (Option String × α)
  | [] => first
  | (_, child) :: children => first.modifyLast (Prod.map id (join · child)) ++ children

end Tree

namespace Pipeline

/-- The commands of a pipeline that does not start one: its negation is a word of the first. -/
def plainCommands (pipeline : Pipeline) : List (Option String × Command) :=
  match pipeline.negated, pipeline.commands with
  | true, (op, first) :: others =>
    (op, ⟨.word (.symbol Stage.negationWord) :: first.items⟩) :: others
  | _, commands => commands

def join (op : PipeOp) (first second : Pipeline) : Pipeline :=
  ⟨Tree.append op.text first.commands second.plainCommands, first.negated⟩

end Pipeline

namespace Clause

def join (op : ClauseOp) (first second : Clause) : Clause :=
  ⟨Tree.append op.text first.pipelines second.pipelines⟩

def joinPiped (op : PipeOp) (first second : Clause) : Clause :=
  ⟨Tree.merge (Pipeline.join op) first.pipelines second.pipelines⟩

end Clause

/-- The list that continues the first one, behind the connector, with the second one: the connector
tells at which level the two meet. -/
def CommandList.join (connector : Connector) (first second : CommandList) : CommandList :=
  match connector with
  | .background => ⟨Tree.append Connector.background.text first.clauses second.clauses⟩
  | .clause op => ⟨Tree.merge (Clause.join op) first.clauses second.clauses⟩
  | .pipe op => ⟨Tree.merge (Clause.joinPiped op) first.clauses second.clauses⟩

namespace Tree

variable {α : Type} {isOperator : String → Prop} {good : α → Prop} {tokens : α → List Token}

/-- What joins two good groups into a good one, written as the two with some tokens in between. -/
def Joins (good : α → Prop) (tokens : α → List Token) (between : List Token)
    (join : α → α → α) : Prop :=
  ∀ first second, good first → good second →
    good (join first second) ∧ tokens (join first second) = tokens first ++ between ++ tokens second

theorem exists_of_joined {children : List (Option String × α)}
    (h : Joined isOperator good children) : ∃ child others, children = (none, child) :: others ∧
      good child ∧ Follow isOperator good others := by
  rcases children with _ | ⟨⟨op, child⟩, others⟩
  · exact h.elim
  · obtain ⟨rfl, hchild, hothers⟩ := h
    exact ⟨child, others, rfl, hchild, hothers⟩

theorem joined_append_follow {first others : List (Option String × α)}
    (hfirst : Joined isOperator good first) (hothers : Follow isOperator good others) :
    Joined isOperator good (first ++ others) := by
  obtain ⟨child, rest, rfl, hchild, hrest⟩ := exists_of_joined hfirst
  exact ⟨rfl, hchild, List.forall_mem_append.mpr ⟨hrest, hothers⟩⟩

theorem exists_append_eq (op : String) (first second : List (Option String × α)) :
    ∃ more, append op first second = first ++ more := by
  rcases second with _ | ⟨⟨_, child⟩, children⟩
  · exact ⟨[], (List.append_nil first).symm⟩
  · exact ⟨(some op, child) :: children, rfl⟩

theorem joins_append (connector : Connector) (h : isOperator connector.text) :
    Joins (Joined isOperator good) (joinTokens tokens) [.operator (.connect connector)]
      (append connector.text) := by
  intro first second hfirst hsecond
  obtain ⟨child, others, rfl, hchild, hothers⟩ := exists_of_joined hsecond
  refine ⟨joined_append_follow hfirst (follow_cons.mpr ⟨⟨⟨_, rfl, h⟩, hchild⟩, hothers⟩), ?_⟩
  simp [append, joinTokens]

/-- Only the last group changes, so it is enough to know how that one is joined. -/
theorem joins_merge {between : List Token} {join : α → α → α}
    (h : Joins good tokens between join) :
    Joins (Joined isOperator good) (joinTokens tokens) between (merge join) := by
  intro first second hfirst hsecond
  obtain ⟨child, others, rfl, hchild, hothers⟩ := exists_of_joined hsecond
  rcases first.eq_nil_or_concat' with rfl | ⟨init, ⟨op, last⟩, rfl⟩
  · exact hfirst.elim
  · rw [merge, List.modifyLast_concat]
    rcases init with _ | ⟨⟨inner, head⟩, init⟩
    · obtain ⟨hop, hlast, -⟩ := hfirst
      obtain ⟨hjoined, htokens⟩ := h last child hlast hchild
      refine ⟨⟨hop, hjoined, hothers⟩, ?_⟩
      simp [joinTokens, htokens]
    · obtain ⟨hinner, hhead, hrest⟩ := hfirst
      obtain ⟨hinit, hfollow⟩ := List.forall_mem_append.mp hrest
      obtain ⟨⟨hop, hlast⟩, -⟩ := follow_cons.mp hfollow
      obtain ⟨hjoined, htokens⟩ := h last child hlast hchild
      refine ⟨joined_append_follow ⟨hinner, hhead, List.forall_mem_append.mpr ⟨hinit, ?_⟩⟩ hothers,
        ?_⟩
      · exact follow_cons.mpr ⟨⟨hop, hjoined⟩, List.forall_mem_nil _⟩
      · simp [joinTokens, htokens]

end Tree

/-- A negation in front of a canonical command is read as a word of it. -/
theorem Command.isCanonical_cons_negation {command : Command} (h : command.IsCanonical) :
    Command.IsCanonical ⟨.word (.symbol Stage.negationWord) :: command.items⟩ := by
  refine ⟨List.cons_ne_nil _ _, ?_, h.separate.cons fun item _ => ?_⟩
  · exact List.forall_mem_cons.mpr ⟨Token.isArgument_negationWord, h.items⟩
  · exact Item.isSeparate_of_fd? rfl item

namespace Pipeline

theorem plainCommands_of_isCanonical {pipeline : Pipeline} (h : pipeline.IsCanonical) :
    Tree.Joined (fun text => ∃ op : PipeOp, text = op.text) Command.IsCanonical
      pipeline.plainCommands ∧
    Tree.joinTokens Command.tokens pipeline.plainCommands = pipeline.tokens := by
  obtain ⟨commands, negated⟩ := pipeline
  obtain ⟨first, others, rfl, hfirst, hothers⟩ := Tree.exists_of_joined h.joined
  cases negated with
  | true => exact ⟨⟨rfl, Command.isCanonical_cons_negation hfirst, hothers⟩, rfl⟩
  | false => exact ⟨h.joined, rfl⟩

theorem joins_join (op : PipeOp) :
    Tree.Joins IsCanonical tokens [.operator (.connect (.pipe op))] (join op) := by
  intro first second hfirst hsecond
  obtain ⟨hplain, hplainTokens⟩ := plainCommands_of_isCanonical hsecond
  have hjoins : Tree.Joins
      (Tree.Joined (fun text => ∃ op : PipeOp, text = op.text) Command.IsCanonical)
      (Tree.joinTokens Command.tokens) [.operator (.connect (.pipe op))] (Tree.append op.text) :=
    Tree.joins_append (.pipe op) ⟨op, rfl⟩
  obtain ⟨hjoined, htokens⟩ :=
    hjoins first.commands second.plainCommands hfirst.joined hplain
  refine ⟨⟨hjoined, ?_⟩, ?_⟩
  · -- The joined pipeline starts as the first one does.
    intro hnegated text head others heq
    obtain ⟨more, hmore⟩ := Tree.exists_append_eq op.text first.commands second.plainCommands
    obtain ⟨command, rest, hcommands, -, -⟩ := Tree.exists_of_joined hfirst.joined
    rw [join, hmore, hcommands] at heq
    injection heq with hhead
    injection hhead with _ hhead
    exact hhead ▸ hfirst.negated hnegated none command rest hcommands
  · change negationTokens first.negated ++ Tree.joinTokens Command.tokens
      (Tree.append op.text first.commands second.plainCommands) = _
    rw [htokens, hplainTokens]
    simp [tokens]

end Pipeline

namespace Clause

theorem joins_join (op : ClauseOp) :
    Tree.Joins IsCanonical tokens [.operator (.connect (.clause op))] (join op) :=
  fun first second => Tree.joins_append (.clause op) ⟨op, rfl⟩ first.pipelines second.pipelines

theorem joins_joinPiped (op : PipeOp) :
    Tree.Joins IsCanonical tokens [.operator (.connect (.pipe op))] (joinPiped op) :=
  fun first second =>
    Tree.joins_merge (Pipeline.joins_join op) first.pipelines second.pipelines

end Clause

namespace Need

/-- The scan of the second part starts anew, once the first one asks for nothing more. -/
theorem verdict_scan_connector (first second : List Token) (connector : Connector) :
    verdict none (scan .command 0 (first ++ .operator (.connect connector) :: second)) = (do
      (verdict none (scan .command 0 first)).mapError fun p => some (p.getD first.length)
      (verdict none (scan .command 0 second)).mapError (Option.map (first.length + 1 + ·))) := by
  have hconnector : (Token.operator (.connect connector)).operator? =
      some (.connect connector) := rfl
  rw [scan_append, Nat.zero_add]
  rcases scan .command 0 first with p | need
  · rfl
  · cases need with
    | nothing =>
        rw [ok_bind, scan_cons_connector hconnector, ← Nat.add_zero (first.length + 1), scan_shift]
        rcases scan .command 0 second with p | _ | _ | _ <;> rfl
    | _ =>
        rw [ok_bind, scan, admits_of_connector hconnector]
        rfl

end Need

namespace CommandList

theorem joins_join (connector : Connector) :
    Tree.Joins IsCanonical tokens [.operator (.connect connector)] (join connector) := by
  intro first second
  cases connector with
  | background =>
      refine Tree.joins_append .background ?_ first.clauses second.clauses
      rfl
  | clause op => exact Tree.joins_merge (Clause.joins_join op) first.clauses second.clauses
  | pipe op => exact Tree.joins_merge (Clause.joins_joinPiped op) first.clauses second.clauses

theorem verdict_parse_append_connector (first second : List Token) (connector : Connector) :
    GrammarError.verdict (parse (first ++ .operator (.connect connector) :: second)) = (do
      (GrammarError.verdict (parse first)).mapError fun p => some (p.getD first.length)
      (GrammarError.verdict (parse second)).mapError (Option.map (first.length + 1 + ·))) := by
  rw [verdict_parse, verdict_parse, verdict_parse]
  exact Need.verdict_scan_connector first second connector

/-- A canonical list is told apart from others by what it is written as. -/
theorem eq_of_tokens_eq {list other : CommandList} (hlist : list.IsCanonical)
    (hother : other.IsCanonical) (h : list.tokens = other.tokens) : list = other := by
  have hparse := parse_tokens hlist
  rw [h, parse_tokens hother] at hparse
  injection hparse with heq
  exact heq.symm

theorem parse_append_connector_of_ok {first second : List Token} {left right : CommandList}
    (hfirst : parse first = .ok left) (hsecond : parse second = .ok right) (connector : Connector) :
    parse (first ++ .operator (.connect connector) :: second) =
      .ok (left.join connector right) := by
  obtain ⟨list, hlist⟩ : ∃ list, parse (first ++ .operator (.connect connector) :: second) =
      .ok list := by
    apply GrammarError.verdict_eq_ok
    rw [verdict_parse_append_connector, hfirst, hsecond]
    rfl
  obtain ⟨hcanonical, htokens⟩ := isCanonical_of_parse hlist
  obtain ⟨hleft, hleftTokens⟩ := isCanonical_of_parse hfirst
  obtain ⟨hright, hrightTokens⟩ := isCanonical_of_parse hsecond
  obtain ⟨hjoined, hjoinedTokens⟩ := joins_join connector left right hleft hright
  have heq : list = left.join connector right := by
    have hnormalized : (Token.operator (.connect connector)).normalized =
        .operator (.connect connector) := rfl
    refine eq_of_tokens_eq hcanonical hjoined ?_
    rw [htokens, hjoinedTokens, hleftTokens, hrightTokens]
    simp [hnormalized]
  rw [hlist, heq]

/-- A list with a connector in it is parsed if and only if both parts are, and then into the joined
list. An error of the first part keeps its index, and one at its end is now at the connector; an
error of the second part is shifted behind the connector. -/
theorem parse_append_connector (first second : List Token) (connector : Connector) :
    (parse (first ++ .operator (.connect connector) :: second)).mapError GrammarError.position = (do
      let left ← (parse first).mapError fun e => some (e.position.getD first.length)
      let right ← (parse second).mapError fun e => e.position.map (first.length + 1 + ·)
      return left.join connector right) := by
  have hverdict := verdict_parse_append_connector first second connector
  cases hfirst : parse first with
  | error e =>
      rw [hfirst] at hverdict
      obtain ⟨found, hfound, hposition⟩ := GrammarError.verdict_eq_error hverdict
      rw [hfound]
      exact congrArg Except.error hposition
  | ok left =>
      cases hsecond : parse second with
      | error e =>
          rw [hfirst, hsecond] at hverdict
          obtain ⟨found, hfound, hposition⟩ := GrammarError.verdict_eq_error hverdict
          rw [hfound]
          exact congrArg Except.error hposition
      | ok right =>
          rw [parse_append_connector_of_ok hfirst hsecond]
          rfl

/-- `a && b` piped into `! c || d` is `a && b | ! c || d`, where the negation is a word. -/
example :
    let word (name : String) : Command := ⟨[.word (.symbol name)]⟩
    let pipeline (name : String) : Pipeline := ⟨[(none, word name)], false⟩
    let left : CommandList := ⟨[(none, ⟨[(none, pipeline "a"), (some "&&", pipeline "b")]⟩)]⟩
    let right : CommandList :=
      ⟨[(none, ⟨[(none, ⟨[(none, word "c")], true⟩), (some "||", pipeline "d")]⟩)]⟩
    let middle : Pipeline :=
      ⟨[(none, word "b"), (some "|", ⟨[.word (.symbol "!"), .word (.symbol "c")]⟩)], false⟩
    left.join (.pipe .pipe) right =
      ⟨[(none, ⟨[(none, pipeline "a"), (some "&&", middle), (some "||", pipeline "d")]⟩)]⟩ := rfl

end CommandList
end ShellLowering
