import ShellLowering.Proofs.ShortCircuit

/-!
Chains run in turn. Read so, an operator that does not go on passes over the pipeline behind it and
no further.
-/

namespace ShellLowering.Clause

variable {α : Type}

/-- Whether the pipelines are joined by one operator throughout. -/
def IsUniform (clause : Clause) : Prop :=
  ∃ op : ClauseOp, ∀ other ∈ clause.pipelines.tail, other.1 = some op.text

/-- The rest of a chain in turn. Each operator looks at the last pipeline that was run: either the
pipeline behind the operator is run as well, or only that one is passed over. -/
def runRest (mode : Mode) (execute : Executor α) (last : Pipeline) (outcome : Outcome α) :
    List (Option String × Pipeline) → Running (Outcome α)
  | [] => pure outcome
  | (op, next) :: others =>
    match op.bind ClauseOp.ofText? with
    | none => failure
    | some op =>
      if op.goesOn (outcome.succeeded ^^ last.negated) then do
        let following ← next.run mode execute
        runRest mode execute next following others
      else runRest mode execute last outcome others

def runInTurn (mode : Mode) (execute : Executor α) (clause : Clause) : Running (Outcome α) :=
  match clause.pipelines with
  | [] => failure
  | (_, first) :: others => do
    let outcome ← first.run mode execute
    runRest mode execute first outcome others

section Rest

variable (mode : Mode) (execute : Executor α)

theorem runRest_cons (last next : Pipeline) (outcome : Outcome α) (op : ClauseOp)
    (others : List (Option String × Pipeline)) :
    runRest mode execute last outcome ((some op.text, next) :: others) =
      if op.goesOn (outcome.succeeded ^^ last.negated) then
        next.run mode execute >>= fun following => runRest mode execute next following others
      else runRest mode execute last outcome others := by
  simp [runRest, ClauseOp.ofText?_text]

theorem runChain_cons (pipeline next : Pipeline) (op : ClauseOp)
    (others : List (Option String × Pipeline)) :
    runChain mode execute pipeline ((some op.text, next) :: others) =
      pipeline.run mode execute >>= fun outcome =>
        if op.goesOn (outcome.succeeded ^^ pipeline.negated) then
          runChain mode execute next others
        else pure outcome := by
  simp [runChain, ClauseOp.ofText?_text]

/-- Once an operator does not go on, none of its kind does. -/
theorem runRest_eq_pure {op : ClauseOp} {last : Pipeline} {outcome : Outcome α}
    (hstops : op.goesOn (outcome.succeeded ^^ last.negated) = false)
    {others : List (Option String × Pipeline)}
    (hothers : ∀ other ∈ others, other.1 = some op.text) :
    runRest mode execute last outcome others = pure outcome := by
  induction others with
  | nil => rfl
  | cons other others ih =>
      obtain ⟨text, next⟩ := other
      obtain ⟨rfl, hrest⟩ := List.forall_mem_cons.mp hothers
      rw [runRest_cons, hstops, if_neg Bool.false_ne_true]
      exact ih hrest

theorem runChain_eq_runRest {op : ClauseOp} {others : List (Option String × Pipeline)}
    (hothers : ∀ other ∈ others, other.1 = some op.text) (pipeline : Pipeline) :
    runChain mode execute pipeline others =
      pipeline.run mode execute >>= fun outcome =>
        runRest mode execute pipeline outcome others := by
  induction others generalizing pipeline with
  | nil => exact (bind_pure _).symm
  | cons other others ih =>
      obtain ⟨text, next⟩ := other
      obtain ⟨rfl, hrest⟩ := List.forall_mem_cons.mp hothers
      rw [runChain_cons]
      congr 1
      funext outcome
      rw [runRest_cons]
      split
      · exact ih hrest next
      · next hstops =>
          exact (runRest_eq_pure mode execute (Bool.eq_false_iff.mpr hstops) hrest).symm

end Rest

/-- A pipeline that has a term, behind a known operator. -/
def IsRunnable (mode : Mode) (other : Option String × Pipeline) : Prop :=
  (∃ op : ClauseOp, other.1 = some op.text) ∧ ∃ term, other.2.lower mode = .ok term

theorem isRunnable_of_lowerChain {mode : Mode} {index : Nat} {pipeline : Pipeline}
    {others : List (Option String × Pipeline)} {term : Term}
    (h : lowerChain mode index pipeline others = .ok term) :
    (∃ value, pipeline.lower mode = .ok value) ∧ ∀ other ∈ others, IsRunnable mode other := by
  induction others generalizing index pipeline term with
  | nil => exact ⟨⟨term, h⟩, List.forall_mem_nil _⟩
  | cons other others ih =>
      obtain ⟨op, next⟩ := other
      rw [lowerChain_cons] at h
      obtain ⟨rest, hrest, h⟩ := bind_eq_ok.mp h
      obtain ⟨value, hvalue, h⟩ := bind_eq_ok.mp h
      obtain ⟨test, htest, -⟩ := bind_eq_ok.mp h
      obtain ⟨hnext, hothers⟩ := ih hrest
      refine ⟨⟨value, hvalue⟩, List.forall_mem_cons.mpr ⟨⟨?_, hnext⟩, hothers⟩⟩
      rw [result_continueTest] at htest
      cases hop : op.bind ClauseOp.ofText? with
      | none => simp [hop] at htest
      | some operator =>
          obtain ⟨text, rfl, htext⟩ := Option.bind_eq_some_iff.mp hop
          exact ⟨operator, congrArg some (ClauseOp.eq_text_of_ofText? htext)⟩

theorem run_pipeline_bind {mode : Mode} {pipeline : Pipeline} {term : Term}
    (h : pipeline.lower mode = .ok term) (execute : Executor α)
    (next : Outcome α → Running (Outcome α)) (before : List Term) :
    (pipeline.run mode execute >>= next).run before =
      (next (execute before term)).run (before ++ [term]) := by
  rw [Pipeline.run, h]
  exact execute.run_bind term next before

/-- What is run in turn comes after what was run before. -/
theorem exists_runRest {mode : Mode} {others : List (Option String × Pipeline)}
    (hothers : ∀ other ∈ others, IsRunnable mode other) (execute : Executor α) (last : Pipeline)
    (outcome : Outcome α) (before : List Term) :
    ∃ value ran, (runRest mode execute last outcome others).run before =
      some (value, before ++ ran) := by
  induction others generalizing last outcome before with
  | nil => exact ⟨outcome, [], by rw [List.append_nil]; rfl⟩
  | cons other others ih =>
      obtain ⟨text, next⟩ := other
      obtain ⟨⟨⟨op, rfl⟩, term, hterm⟩, hrest⟩ := List.forall_mem_cons.mp hothers
      rw [runRest_cons]
      split
      · obtain ⟨value, ran, hrun⟩ := ih hrest next (execute before term) (before ++ [term])
        refine ⟨value, term :: ran, ?_⟩
        rw [run_pipeline_bind hterm, hrun, List.append_assoc]
        rfl
      · exact ih hrest last outcome before

/-- An operator of the other kind goes on where the first one does not. -/
theorem exists_runRest_of_mixed {mode : Mode} {others : List (Option String × Pipeline)}
    (hothers : ∀ other ∈ others, IsRunnable mode other) {op : ClauseOp} {last : Pipeline}
    {outcome : Outcome α} (hstops : op.goesOn (outcome.succeeded ^^ last.negated) = false)
    (hmixed : ¬ ∀ other ∈ others, other.1 = some op.text) (execute : Executor α)
    (before : List Term) :
    ∃ value next ran, (runRest mode execute last outcome others).run before =
      some (value, before ++ next :: ran) := by
  induction others with
  | nil => exact absurd (List.forall_mem_nil _) hmixed
  | cons other others ih =>
      obtain ⟨text, next⟩ := other
      obtain ⟨⟨⟨operator, rfl⟩, term, hterm⟩, hrest⟩ := List.forall_mem_cons.mp hothers
      rw [runRest_cons]
      by_cases hop : operator = op
      · subst hop
        rw [hstops, if_neg Bool.false_ne_true]
        exact ih hrest fun hall => hmixed (List.forall_mem_cons.mpr ⟨rfl, hall⟩)
      · have hgoes : operator.goesOn (outcome.succeeded ^^ last.negated) = true := by
          revert hop hstops
          cases operator <;> cases op <;> simp [ClauseOp.goesOn]
        obtain ⟨value, ran, hrun⟩ :=
          exists_runRest hrest execute next (execute before term) (before ++ [term])
        refine ⟨value, term, ran, ?_⟩
        rw [if_pos hgoes, run_pipeline_bind hterm, hrun, List.append_assoc]
        rfl

/-- Success or failure, whichever makes the operator stop after the pipeline. -/
theorem goesOn_continuesOnFailure (op : ClauseOp) (negated : Bool) :
    op.goesOn ((op.continuesOnFailure ^^ negated) ^^ negated) = false := by
  cases op <;> cases negated <;> rfl

theorem eval_lower_eq_runChain {mode : Mode} {op : Option String} {first : Pipeline}
    {others : List (Option String × Pipeline)} {term : Term}
    (h : lower mode ⟨(op, first) :: others⟩ = .ok term)
    (hclosed : (Clause.mk ((op, first) :: others)).references = []) (execute : Executor α)
    (env : Environment α) : term.eval execute env = runChain mode execute first others := by
  obtain ⟨hfirst, hothers⟩ := List.forall_mem_cons.mp (List.flatMap_eq_nil_iff.mp hclosed)
  exact eval_lowerChain h hfirst hothers execute env

theorem eval_lower_eq_runInTurn_of_isUniform {mode : Mode} {clause : Clause} {term : Term}
    (h : clause.lower mode = .ok term) (hclosed : clause.references = [])
    (huniform : clause.IsUniform) (execute : Executor α) (env : Environment α) :
    term.eval execute env = clause.runInTurn mode execute := by
  obtain ⟨_ | ⟨⟨text, first⟩, others⟩⟩ := clause
  · cases h
  · obtain ⟨op, hothers⟩ := huniform
    rw [eval_lower_eq_runChain h hclosed]
    exact runChain_eq_runRest mode execute hothers first

theorem exists_runInTurn {mode : Mode} {clause : Clause} {term : Term}
    (h : clause.lower mode = .ok term) (execute : Executor α) (before : List Term) :
    ∃ outcome ran, (clause.runInTurn mode execute).run before =
      some (outcome, before ++ ran) := by
  obtain ⟨_ | ⟨⟨text, first⟩, others⟩⟩ := clause
  · cases h
  · obtain ⟨⟨value, hvalue⟩, hothers⟩ := isRunnable_of_lowerChain h
    obtain ⟨outcome, ran, hrun⟩ :=
      exists_runRest hothers execute first (execute before value) (before ++ [value])
    refine ⟨outcome, value :: ran, ?_⟩
    rw [runInTurn, run_pipeline_bind hvalue, hrun, List.append_assoc]
    rfl

/-- Operators of both kinds part the term from the clause in turn if the first pipeline stops the
operator after it: the term stops there, and the clause in turn goes on at the first operator of the
other kind. -/
theorem exists_split_of_not_isUniform {mode : Mode} {clause : Clause} {term : Term}
    (h : clause.lower mode = .ok term) (hclosed : clause.references = [])
    (hmixed : ¬ clause.IsUniform) :
    ∃ succeeded : Bool, ∀ (α : Type) (execute : Executor α),
      (∀ ran term, (execute ran term).succeeded = succeeded) → ∀ env before,
        ∃ first outcome next ran,
          (term.eval execute env).run before = some (execute before first, before ++ [first]) ∧
          (clause.runInTurn mode execute).run before =
            some (outcome, before ++ first :: next :: ran) := by
  obtain ⟨_ | ⟨⟨text, first⟩, others⟩⟩ := clause
  · cases h
  · obtain ⟨⟨value, hvalue⟩, hothers⟩ := isRunnable_of_lowerChain h
    rcases others with _ | ⟨⟨_, second⟩, others⟩
    · exact absurd ⟨.and, List.forall_mem_nil _⟩ hmixed
    · obtain ⟨⟨⟨op, rfl⟩, -⟩, -⟩ := List.forall_mem_cons.mp hothers
      have hother : ¬ ∀ other ∈ (some op.text, second) :: others, other.1 = some op.text :=
        fun hall => hmixed ⟨op, hall⟩
      refine ⟨op.continuesOnFailure ^^ first.negated, ?_⟩
      intro α execute hexecute env before
      have hstops : op.goesOn ((execute before value).succeeded ^^ first.negated) = false := by
        rw [hexecute]
        exact goesOn_continuesOnFailure op first.negated
      obtain ⟨outcome, next, ran, hrun⟩ :=
        exists_runRest_of_mixed hothers hstops hother execute (before ++ [value])
      refine ⟨value, outcome, next, ran, ?_, ?_⟩
      · rw [eval_lower_eq_runChain h hclosed, runChain_cons, run_pipeline_bind hvalue, hstops]
        rfl
      · rw [runInTurn, run_pipeline_bind hvalue, hrun, List.append_assoc]
        rfl

/-- The term of a clause runs what the clause runs in turn, with the same value, for all outcomes of
the pipelines if and only if the clause is uniform. Otherwise the two part even if all pipelines
succeed alike: the term stops after the first one, and the clause in turn does not. -/
theorem eval_lower_eq_runInTurn_iff {mode : Mode} {clause : Clause} {term : Term}
    (h : clause.lower mode = .ok term) (hclosed : clause.references = []) :
    ((∀ (α : Type) (execute : Executor α) (env : Environment α),
        term.eval execute env = clause.runInTurn mode execute) ↔ clause.IsUniform) ∧
    (∀ (α : Type) (execute : Executor α) (before : List Term), ∃ outcome ran,
      (clause.runInTurn mode execute).run before = some (outcome, before ++ ran)) ∧
    (¬ clause.IsUniform → ∃ succeeded : Bool, ∀ (α : Type) (execute : Executor α),
      (∀ ran term, (execute ran term).succeeded = succeeded) → ∀ env before,
        ∃ first outcome next ran,
          (term.eval execute env).run before = some (execute before first, before ++ [first]) ∧
          (clause.runInTurn mode execute).run before =
            some (outcome, before ++ first :: next :: ran)) := by
  refine ⟨⟨?_, ?_⟩, fun α execute before => exists_runInTurn h execute before,
    exists_split_of_not_isUniform h hclosed⟩
  · intro hagree
    refine Classical.byContradiction fun hmixed => ?_
    obtain ⟨succeeded, hsplit⟩ := exists_split_of_not_isUniform h hclosed hmixed
    obtain ⟨first, outcome, next, ran, heval, hturn⟩ :=
      hsplit Unit (fun _ _ => ⟨(), succeeded⟩) (fun _ _ => rfl) (fun _ => none) []
    rw [hagree, hturn] at heval
    simp at heval
  · intro huniform α execute env
    exact eval_lower_eq_runInTurn_of_isUniform h hclosed huniform execute env

/-- `! a && b && c` runs as it does in turn. `! a && b || c` does not: if `a` succeeds, then in turn
`c` is run. -/
theorem eval_lower_eq_runInTurn_iff_negated :
    let uniform := ofNames ("a", true) [(.and, "b", false), (.and, "c", false)]
    let mixed := ofNames ("a", true) [(.and, "b", false), (.or, "c", false)]
    (∃ term, uniform.lower .batch = .ok term ∧
      ∀ (α : Type) (execute : Executor α) (env : Environment α),
        term.eval execute env = uniform.runInTurn .batch execute) ∧
    ∃ term, mixed.lower .batch = .ok term ∧
      ¬ ∀ (α : Type) (execute : Executor α) (env : Environment α),
        term.eval execute env = mixed.runInTurn .batch execute := by
  intro uniform mixed
  have huniform : uniform.IsUniform := by
    refine ⟨.and, ?_⟩
    simp [uniform, ofNames]
  have hmixed : ¬ mixed.IsUniform := by
    rintro ⟨op, hall⟩
    revert hall
    cases op <;> simp [mixed, ofNames, ClauseOp.text]
  refine ⟨⟨_, rfl, ?_⟩, _, rfl, ?_⟩
  · exact (eval_lower_eq_runInTurn_iff rfl rfl).1.mpr huniform
  · exact fun hagree => hmixed ((eval_lower_eq_runInTurn_iff rfl rfl).1.mp hagree)

end ShellLowering.Clause
