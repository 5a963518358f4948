import ShellLowering.Proofs.StageYield

namespace ShellLowering

namespace Stage

def chainTokens (first : Stage) (others : List (Connector × Stage)) : List Token :=
  first.tokens ++
    others.flatMap fun (connector, stage) => .operator (.connect connector) :: stage.tokens

def IsCanonicalChain (before : Option Connector) (first : Stage)
    (others : List (Connector × Stage)) : Prop :=
  first.IsCanonical before ∧ ∀ other ∈ others, other.2.IsCanonical (some other.1)

def segments (first : Stage) (others : List (Connector × Stage)) : Segments :=
  ⟨first.tokens, others.map fun (connector, stage) => (connector, stage.tokens)⟩

theorem tokens_segments (first : Stage) (others : List (Connector × Stage)) :
    (segments first others).tokens = chainTokens first others := by
  simp [segments, Segments.tokens, chainTokens, List.flatMap_map]

theorem connector?_of_mem_tokens {before : Option Connector} {stage : Stage}
    (h : stage.IsCanonical before) {token : Token} (htoken : token ∈ stage.tokens) :
    token.connector? = none := by
  obtain ⟨negated, command⟩ := stage
  rcases List.mem_append.mp htoken with htoken | htoken
  · cases negated with
    | true =>
        rw [List.mem_singleton.mp htoken]
        decide
    | false => simp [negationTokens] at htoken
  · exact Command.connector?_of_mem_tokens h.command htoken

theorem isCut_segments {before : Option Connector} {first : Stage}
    {others : List (Connector × Stage)} (h : IsCanonicalChain before first others) :
    (segments first others).IsCut := by
  refine ⟨fun token htoken => connector?_of_mem_tokens h.1 htoken, ?_⟩
  intro other hother token htoken
  obtain ⟨⟨connector, stage⟩, hstage, rfl⟩ := List.mem_map.mp hother
  exact connector?_of_mem_tokens (h.2 _ hstage) htoken

theorem yield_of_ofSegments {before : Option Connector} {index : Nat} {first : List Token}
    {others : List (Connector × List Token)} {stage : Stage} {stages : List (Connector × Stage)}
    (hcut : Segments.IsCut ⟨first, others⟩)
    (h : ofSegments before index first others = .ok (stage, stages)) :
    IsCanonicalChain before stage stages ∧
      chainTokens stage stages = (Segments.tokens ⟨first, others⟩).map Token.normalized := by
  induction others generalizing before index first stage stages with
  | nil =>
      obtain ⟨stage, hstage, h⟩ := bind_eq_ok.mp h
      simp only [pure_eq_ok, Except.ok.injEq, Prod.mk.injEq] at h
      obtain ⟨rfl, rfl⟩ := h
      obtain ⟨hcanonical, htokens⟩ := yield_of_ofSegment hcut.1 hstage
      exact ⟨⟨hcanonical, by simp⟩, by simp [chainTokens, Segments.tokens, htokens]⟩
  | cons other others ih =>
      obtain ⟨connector, second⟩ := other
      obtain ⟨stage, hstage, h⟩ := bind_eq_ok.mp h
      obtain ⟨⟨next, rest⟩, hrest, h⟩ := bind_eq_ok.mp h
      simp only [pure_eq_ok, Except.ok.injEq, Prod.mk.injEq] at h
      obtain ⟨rfl, rfl⟩ := h
      obtain ⟨hcanonical, htokens⟩ := yield_of_ofSegment hcut.1 hstage
      obtain ⟨hsecond, hothers⟩ := List.forall_mem_cons.mp hcut.2
      obtain ⟨hchain, hrest⟩ := ih ⟨hsecond, hothers⟩ hrest
      have hconnector : (Token.operator (.connect connector)).normalized =
          .operator (.connect connector) := rfl
      refine ⟨⟨hcanonical, List.forall_mem_cons.mpr hchain⟩, ?_⟩
      simp only [chainTokens, Segments.tokens, List.map_append, List.flatMap_cons,
        List.cons_append, List.map_cons, htokens, hconnector] at hrest ⊢
      rw [hrest]

theorem ofSegments_segments {before : Option Connector} {first : Stage}
    {others : List (Connector × Stage)} (h : IsCanonicalChain before first others) (index : Nat) :
    ofSegments before index (segments first others).first (segments first others).others =
      .ok (first, others) := by
  induction others generalizing before first index with
  | nil =>
      change (ofSegment before .endOfInput index first.tokens >>= _) = _
      rw [ofSegment_tokens h.1]
      rfl
  | cons other others ih =>
      obtain ⟨connector, second⟩ := other
      have hrest := ih (List.forall_mem_cons.mp h.2) (index + first.tokens.length + 1)
      change (ofSegment before _ index first.tokens >>= fun stage =>
        ofSegments (some connector) (index + first.tokens.length + 1)
          (segments second others).first (segments second others).others >>= _) = _
      rw [ofSegment_tokens h.1, ok_bind, hrest]
      rfl

end Stage

namespace Spine

def tailTokens (spine : Spine) : List Token :=
  Tree.joinTokens Command.tokens spine.commands ++
    (Tree.joinTokens Pipeline.tokens spine.pipelines ++
      Tree.joinTokens Clause.tokens spine.clauses)

structure IsCanonicalTail (spine : Spine) : Prop where
  commands : Tree.Follow (fun text => ∃ op : PipeOp, text = op.text) Command.IsCanonical
    spine.commands
  pipelines : Tree.Follow (fun text => ∃ op : ClauseOp, text = op.text) Pipeline.IsCanonical
    spine.pipelines
  clauses : Tree.Follow (fun text => text = Connector.background.text) Clause.IsCanonical
    spine.clauses

theorem tokens_pipeline (spine : Spine) :
    spine.pipeline.tokens =
      spine.first.tokens ++ Tree.joinTokens Command.tokens spine.commands := by
  simp [pipeline, Pipeline.tokens, Tree.joinTokens, Stage.tokens]

theorem tokens_clause (spine : Spine) :
    spine.clause.tokens =
      spine.pipeline.tokens ++ Tree.joinTokens Pipeline.tokens spine.pipelines := by
  simp [clause, Clause.tokens, Tree.joinTokens]

theorem tokens_list (spine : Spine) :
    spine.list.tokens = spine.first.tokens ++ spine.tailTokens := by
  simp [list, CommandList.tokens, Tree.joinTokens, tokens_clause, tokens_pipeline, tailTokens]

theorem isCanonical_pipeline {before : Option Connector} {spine : Spine}
    (hstarts : startsPipeline before = true) (hfirst : spine.first.IsCanonical before)
    (htail : spine.IsCanonicalTail) : spine.pipeline.IsCanonical := by
  refine ⟨⟨rfl, hfirst.command, htail.commands⟩, ?_⟩
  intro hnegated op first others heq
  simp only [pipeline, List.cons.injEq, Prod.mk.injEq] at heq
  exact heq.1.2 ▸ hfirst.plain hstarts hnegated

theorem isCanonical_clause {before : Option Connector} {spine : Spine}
    (hstarts : startsPipeline before = true) (hfirst : spine.first.IsCanonical before)
    (htail : spine.IsCanonicalTail) : spine.clause.IsCanonical :=
  ⟨rfl, isCanonical_pipeline hstarts hfirst htail, htail.pipelines⟩

theorem isCanonical_list {before : Option Connector} {spine : Spine}
    (hstarts : startsPipeline before = true) (hfirst : spine.first.IsCanonical before)
    (htail : spine.IsCanonicalTail) : spine.list.IsCanonical :=
  ⟨rfl, isCanonical_clause hstarts hfirst htail, htail.clauses⟩

theorem first_ofStages (first : Stage) (others : List (Connector × Stage)) :
    (ofStages first others).first = first := by
  cases others with
  | nil => rfl
  | cons other others =>
      obtain ⟨connector, second⟩ := other
      cases connector <;> rfl

theorem yield_ofStages {before : Option Connector} {first : Stage}
    {others : List (Connector × Stage)} (h : Stage.IsCanonicalChain before first others) :
    (ofStages first others).IsCanonicalTail ∧
      first.tokens ++ (ofStages first others).tailTokens = Stage.chainTokens first others := by
  induction others generalizing before first with
  | nil =>
      refine ⟨⟨?_, ?_, ?_⟩, rfl⟩ <;> simp [Tree.Follow, ofStages, single]
  | cons other others ih =>
      obtain ⟨connector, second⟩ := other
      obtain ⟨hsecond, hothers⟩ := List.forall_mem_cons.mp h.2
      obtain ⟨htail, htokens⟩ := ih ⟨hsecond, hothers⟩
      have hchain : Stage.chainTokens first ((connector, second) :: others) =
          first.tokens ++ .operator (.connect connector) ::
            (second.tokens ++ (ofStages second others).tailTokens) := by
        simp only [Stage.chainTokens, List.flatMap_cons, htokens, List.cons_append]
      have hfirst := first_ofStages second others
      rw [hchain, ofStages]
      generalize ofStages second others = spine at htail hfirst ⊢
      subst hfirst
      cases connector with
      | pipe op =>
          have hplain : spine.first.negated = false := by
            cases hnegated : spine.first.negated with
            | false => rfl
            | true => cases hsecond.negated hnegated
          refine ⟨⟨List.forall_mem_cons.mpr ⟨⟨⟨op.text, rfl, op, rfl⟩, hsecond.command⟩,
            htail.commands⟩, htail.pipelines, htail.clauses⟩, ?_⟩
          simp [cons, tailTokens, Tree.joinTokens, Stage.tokens, hplain, negationTokens]
      | clause op =>
          refine ⟨⟨by simp [cons, Tree.Follow], List.forall_mem_cons.mpr
            ⟨⟨⟨op.text, rfl, op, rfl⟩, isCanonical_pipeline rfl hsecond htail⟩, htail.pipelines⟩,
            htail.clauses⟩, ?_⟩
          simp [cons, tailTokens, Tree.joinTokens, tokens_pipeline]
      | background =>
          refine ⟨⟨by simp [cons, Tree.Follow], by simp [cons, Tree.Follow],
            List.forall_mem_cons.mpr ⟨⟨⟨_, rfl, rfl⟩, isCanonical_clause rfl hsecond htail⟩,
            htail.clauses⟩⟩, ?_⟩
          simp [cons, tailTokens, Tree.joinTokens, tokens_clause, tokens_pipeline]

theorem exists_of_isCanonical_pipeline {before : Option Connector}
    (hstarts : startsPipeline before = true) {pipeline : Pipeline} (h : pipeline.IsCanonical) :
    ∃ first commands negated, pipeline = ⟨(none, first) :: commands, negated⟩ ∧
      Stage.IsCanonical before ⟨negated, first⟩ ∧
      Tree.Follow (fun text => ∃ op : PipeOp, text = op.text) Command.IsCanonical commands := by
  obtain ⟨_ | ⟨⟨op, first⟩, commands⟩, negated⟩ := pipeline
  · exact h.joined.elim
  · obtain ⟨rfl, hfirst, hcommands⟩ := h.joined
    exact ⟨first, commands, negated, rfl, ⟨hfirst, fun _ => hstarts, fun _ hnegated =>
      h.negated hnegated none first commands rfl⟩, hcommands⟩

/-- Whatever stage comes first, there are stages behind it that give this tail. -/
def IsBuilt (commands : List (Option String × Command))
    (pipelines : List (Option String × Pipeline)) (clauses : List (Option String × Clause)) : Prop :=
  ∀ before first, Stage.IsCanonical before first → ∃ others,
    ofStages first others = ⟨first, commands, pipelines, clauses⟩ ∧
      Stage.IsCanonicalChain before first others

theorem isBuilt_of_commands {commands : List (Option String × Command)}
    {pipelines : List (Option String × Pipeline)} {clauses : List (Option String × Clause)}
    (hcommands : Tree.Follow (fun text => ∃ op : PipeOp, text = op.text) Command.IsCanonical
      commands) (h : IsBuilt [] pipelines clauses) : IsBuilt commands pipelines clauses := by
  induction commands with
  | nil => exact h
  | cons command commands ih =>
      obtain ⟨op, command⟩ := command
      obtain ⟨⟨⟨text, rfl, op, rfl⟩, hcommand⟩, htail⟩ := Tree.follow_cons.mp hcommands
      intro before first hfirst
      have hsecond : Stage.IsCanonical (some (.pipe op)) ⟨false, command⟩ :=
        ⟨hcommand, by simp, fun hstarts => by cases hstarts⟩
      obtain ⟨others, hothers, hchain⟩ := ih htail _ _ hsecond
      refine ⟨(.pipe op, ⟨false, command⟩) :: others, ?_, hfirst, List.forall_mem_cons.mpr hchain⟩
      rw [ofStages, hothers]
      rfl

theorem isBuilt_of_pipelines {pipelines : List (Option String × Pipeline)}
    {clauses : List (Option String × Clause)}
    (hpipelines : Tree.Follow (fun text => ∃ op : ClauseOp, text = op.text) Pipeline.IsCanonical
      pipelines) (h : IsBuilt [] [] clauses) : IsBuilt [] pipelines clauses := by
  induction pipelines with
  | nil => exact h
  | cons pipeline pipelines ih =>
      obtain ⟨op, pipeline⟩ := pipeline
      obtain ⟨⟨⟨text, rfl, op, rfl⟩, hpipeline⟩, htail⟩ := Tree.follow_cons.mp hpipelines
      intro before first hfirst
      have hstarts : startsPipeline (some (.clause op)) = true := rfl
      obtain ⟨command, commands, negated, rfl, hsecond, hcommands⟩ :=
        exists_of_isCanonical_pipeline hstarts hpipeline
      obtain ⟨others, hothers, hchain⟩ := isBuilt_of_commands hcommands (ih htail) _ _ hsecond
      refine ⟨(.clause op, ⟨negated, command⟩) :: others, ?_, hfirst,
        List.forall_mem_cons.mpr hchain⟩
      rw [ofStages, hothers]
      rfl

theorem isBuilt_of_clauses {clauses : List (Option String × Clause)}
    (hclauses : Tree.Follow (fun text => text = Connector.background.text) Clause.IsCanonical
      clauses) : IsBuilt [] [] clauses := by
  induction clauses with
  | nil => exact fun before first hfirst => ⟨[], rfl, hfirst, by simp⟩
  | cons clause clauses ih =>
      obtain ⟨op, clause⟩ := clause
      obtain ⟨⟨⟨text, rfl, rfl⟩, hclause⟩, htail⟩ := Tree.follow_cons.mp hclauses
      obtain ⟨_ | ⟨⟨inner, pipeline⟩, pipelines⟩⟩ := clause
      · exact hclause.elim
      · obtain ⟨rfl, hpipeline, hpipelines⟩ := hclause
        intro before first hfirst
        have hstarts : startsPipeline (some .background) = true := rfl
        obtain ⟨command, commands, negated, rfl, hsecond, hcommands⟩ :=
          exists_of_isCanonical_pipeline hstarts hpipeline
        obtain ⟨others, hothers, hchain⟩ := isBuilt_of_commands hcommands
          (isBuilt_of_pipelines hpipelines (ih htail)) _ _ hsecond
        refine ⟨(.background, ⟨negated, command⟩) :: others, ?_, hfirst,
          List.forall_mem_cons.mpr hchain⟩
        rw [ofStages, hothers]
        rfl

end Spine

namespace CommandList

theorem parse_eq (tokens : List Token) :
    parse tokens =
      (Stage.ofSegments none 0 (Segments.ofTokens tokens).first (Segments.ofTokens tokens).others
        >>= fun (stage, stages) => .ok (Spine.ofStages stage stages).list) := rfl

theorem exists_stages_of_isCanonical {list : CommandList} (h : list.IsCanonical) :
    ∃ first others, Stage.IsCanonicalChain none first others ∧
      list = (Spine.ofStages first others).list := by
  obtain ⟨_ | ⟨⟨op, ⟨_ | ⟨⟨inner, pipeline⟩, pipelines⟩⟩⟩, clauses⟩⟩ := list
  · exact h.elim
  · exact h.2.1.elim
  · obtain ⟨rfl, ⟨rfl, hpipeline, hpipelines⟩, hclauses⟩ := h
    have hstarts : startsPipeline none = true := rfl
    obtain ⟨command, commands, negated, rfl, hfirst, hcommands⟩ :=
      Spine.exists_of_isCanonical_pipeline hstarts hpipeline
    obtain ⟨others, hothers, hchain⟩ := Spine.isBuilt_of_commands hcommands
      (Spine.isBuilt_of_pipelines hpipelines (Spine.isBuilt_of_clauses hclauses)) _ _ hfirst
    refine ⟨_, others, hchain, ?_⟩
    rw [hothers]
    rfl

theorem isCanonical_of_parse {tokens : List Token} {list : CommandList}
    (h : parse tokens = .ok list) :
    list.IsCanonical ∧ list.tokens = tokens.map Token.normalized := by
  rw [parse_eq] at h
  obtain ⟨⟨stage, stages⟩, hstages, h⟩ := bind_eq_ok.mp h
  injection h with h
  subst h
  obtain ⟨hchain, htokens⟩ := Stage.yield_of_ofSegments (Segments.isCut_ofTokens tokens) hstages
  obtain ⟨htail, hyield⟩ := Spine.yield_ofStages hchain
  have hfirst : (Spine.ofStages stage stages).first.IsCanonical none := by
    rw [Spine.first_ofStages]
    exact hchain.1
  refine ⟨Spine.isCanonical_list rfl hfirst htail, ?_⟩
  rw [Spine.tokens_list, Spine.first_ofStages, hyield, htokens]
  exact Segments.normalized_tokens_ofTokens tokens

theorem parse_tokens {list : CommandList} (h : list.IsCanonical) :
    parse list.tokens = .ok list := by
  obtain ⟨first, others, hchain, rfl⟩ := exists_stages_of_isCanonical h
  obtain ⟨htail, hyield⟩ := Spine.yield_ofStages hchain
  rw [Spine.tokens_list, Spine.first_ofStages, hyield, ← Stage.tokens_segments, parse_eq,
    Segments.ofTokens_tokens (Stage.isCut_segments hchain), Stage.ofSegments_segments hchain]
  rfl

theorem parse_yield :
    (∀ tokens list, parse tokens = .ok list →
      list.tokens = tokens.map Token.normalized ∧ list.IsCanonical) ∧
    ∀ list : CommandList, list.IsCanonical → parse list.tokens = .ok list := by
  refine ⟨?_, fun list h => parse_tokens h⟩
  intro tokens list h
  obtain ⟨hcanonical, htokens⟩ := isCanonical_of_parse h
  exact ⟨htokens, hcanonical⟩

/-- `! 3 2 > f | ! b`: the inner number is a file descriptor, the second exclamation mark a word. -/
theorem parse_yield_negated :
    let words : List Token := [.symbol "!", .number (.int 3), .number (.int 2), .symbol ">",
      .symbol "f", .string "|", .symbol "!", .symbol "b"]
    let list : CommandList := ⟨[(none, ⟨[(none, ⟨[
      (none, ⟨[.word (.number (.int 3)), .redirect ⟨some ">", .symbol "f", some 2⟩]⟩),
      (some "|", ⟨[.word (.symbol "!"), .word (.symbol "b")]⟩)], true⟩)]⟩)]⟩
    (list.tokens = words.map Token.normalized ∧ list.IsCanonical) ∧
      parse list.tokens = .ok list := by
  intro words list
  have hread : parse words = .ok list := rfl
  have hcanonical : list.IsCanonical := by
    have hfirst : Command.IsCanonical ⟨[.word (.number (.int 3)),
        .redirect ⟨some ">", .symbol "f", some 2⟩]⟩ := by
      refine ⟨by simp, ?_, by simp [Item.IsSeparate]⟩
      simp only [List.forall_mem_cons]
      exact ⟨rfl, ⟨by decide, .output, rfl⟩, by simp⟩
    have hsecond : Command.IsCanonical ⟨[.word (.symbol "!"), .word (.symbol "b")]⟩ := by
      refine ⟨by simp, ?_, by simp [Item.IsSeparate]⟩
      simp only [List.forall_mem_cons]
      exact ⟨rfl, rfl, by simp⟩
    refine ⟨rfl, ⟨rfl, ⟨⟨rfl, hfirst, ?_⟩, by simp⟩, by simp [Tree.Follow]⟩,
      by simp [Tree.Follow]⟩
    exact Tree.follow_cons.mpr ⟨⟨⟨_, rfl, .pipe, rfl⟩, hsecond⟩, by simp [Tree.Follow]⟩
  exact ⟨parse_yield.1 words list hread, parse_yield.2 list hcanonical⟩

end CommandList
end ShellLowering
