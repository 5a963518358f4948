import ShellLowering.Proofs.References

namespace ShellLowering

/-- What comes of running a pipeline: a value, and whether it counts as a success. -/
structure Outcome (α : Type) where
  value : α
  succeeded : Bool

/-- The outcome of running a term; it may depend on all the terms that were run before. -/
abbrev Executor (α : Type) := List Term → Term → Outcome α

abbrev Environment (α : Type) := String → Option (Outcome α)

def Environment.bind {α : Type} (env : Environment α) (name : String) (outcome : Outcome α) :
    Environment α :=
  fun other => if other = name then some outcome else env other

abbrev Running := StateT (List Term) Option

variable {α : Type}

def Executor.run (execute : Executor α) (term : Term) : Running (Outcome α) :=
  fun ran => some (execute ran term, ran ++ [term])

theorem Executor.run_bind {β : Type} (execute : Executor α) (term : Term)
    (next : Outcome α → Running β) (ran : List Term) :
    (execute.run term >>= next).run ran = (next (execute ran term)).run (ran ++ [term]) := rfl

namespace Term

/-- A term without references does not depend on what names are bound to. -/
def isClosed (term : Term) : Bool :=
  term.references.isEmpty

mutual

/-- The outcome of a term. A closed term is run as a whole; in all others the bindings, the
conditionals and the references are followed. -/
def eval (execute : Executor α) (env : Environment α) : Term → Running (Outcome α)
  | .ref name => fun ran => (env name).map (·, ran)
  | .binding name (.wait value) body =>
    if (Term.binding name (.wait value) body).isClosed then
      execute.run (.binding name (.wait value) body)
    else do
      let outcome ← eval execute env value
      eval execute (env.bind name outcome) body
  | .conditional test onTrue onFalse =>
    if (Term.conditional test onTrue onFalse).isClosed then
      execute.run (.conditional test onTrue onFalse)
    else do
      if ← holds execute env test then eval execute env onTrue else eval execute env onFalse
  | term => if term.isClosed then execute.run term else failure

def holds (execute : Executor α) (env : Environment α) : Term → Running Bool
  | .condition term => do return (← eval execute env term).succeeded
  | .negation test => do return !(← holds execute env test)
  | _ => failure

end

theorem eval_of_isClosed (execute : Executor α) (env : Environment α) {term : Term}
    (h : term.isClosed = true) : term.eval execute env = execute.run term := by
  cases term with
  | ref name => simp [isClosed, references] at h
  | binding name value body =>
      cases value <;> simp only [eval, if_pos h]
  | _ => simp only [eval, if_pos h]

theorem eval_binding_wait (execute : Executor α) (env : Environment α) (name : String)
    (value body : Term) (h : (Term.binding name (.wait value) body).isClosed = false) :
    (Term.binding name (.wait value) body).eval execute env =
      value.eval execute env >>= fun outcome => body.eval execute (env.bind name outcome) := by
  simp [eval, h]

theorem eval_conditional (execute : Executor α) (env : Environment α) (test onTrue onFalse : Term)
    (h : (Term.conditional test onTrue onFalse).isClosed = false) :
    (Term.conditional test onTrue onFalse).eval execute env =
      test.holds execute env >>= fun holds =>
        if holds then onTrue.eval execute env else onFalse.eval execute env := by
  simp [eval, h]

end Term

def ClauseOp.goesOn : ClauseOp → Bool → Bool
  | .and, succeeded => succeeded
  | .or, succeeded => !succeeded

/-- Runs a pipeline as a whole; one that has no term cannot be run. -/
def Pipeline.run (mode : Mode) (execute : Executor α) (pipeline : Pipeline) :
    Running (Outcome α) :=
  match pipeline.lower mode with
  | .ok term => execute.run term
  | .error _ => failure

theorem Pipeline.isClosed_of_lower {mode : Mode} {pipeline : Pipeline} {term : Term}
    (hclosed : pipeline.references = []) (h : pipeline.lower mode = .ok term) :
    term.isClosed = true := by
  have hsubset := Pipeline.references_lower_subset h
  rw [hclosed] at hsubset
  simp [Term.isClosed, List.eq_nil_of_subset_nil hsubset]

def Pipeline.ofName (name : String) (negated : Bool) : Pipeline :=
  ⟨[(none, ⟨[.word (.symbol name)]⟩)], negated⟩

namespace Clause

def ofNames (first : String × Bool) (others : List (ClauseOp × String × Bool)) : Clause :=
  ⟨(none, .ofName first.1 first.2) ::
    others.map fun (op, name, negated) => (some op.text, .ofName name negated)⟩

/-- The direct reading of a chain: run the first pipeline, and go on with the rest of the chain if
the operator after it says so; otherwise its outcome is that of the chain. -/
def runChain (mode : Mode) (execute : Executor α) (pipeline : Pipeline) :
    List (Option String × Pipeline) → Running (Outcome α)
  | [] => pipeline.run mode execute
  | (op, next) :: others => do
    let outcome ← pipeline.run mode execute
    match op.bind ClauseOp.ofText? with
    | none => failure
    | some op =>
      if op.goesOn (outcome.succeeded ^^ pipeline.negated) then runChain mode execute next others
      else return outcome

def run (mode : Mode) (execute : Executor α) (clause : Clause) : Running (Outcome α) :=
  match clause.pipelines with
  | [] => failure
  | (_, first) :: others => runChain mode execute first others

theorem goesOn_xor_eq (op : ClauseOp) (negated succeeded : Bool) :
    op.goesOn (succeeded ^^ negated) =
      if op.continuesOnFailure ^^ negated then !succeeded else succeeded := by
  cases op <;> cases negated <;> cases succeeded <;> rfl

theorem eval_ref_bind (execute : Executor α) (env : Environment α) (name : String)
    (outcome : Outcome α) :
    (Term.ref name).eval execute (env.bind name outcome) = pure outcome := by
  funext ran
  have hbound : env.bind name outcome name = some outcome := if_pos rfl
  rw [Term.eval, hbound]
  rfl

theorem holds_test (execute : Executor α) (env : Environment α) (name : String)
    (outcome : Outcome α) (inverted : Bool) :
    (if inverted then Term.negation (.condition (.ref name)) else .condition (.ref name)).holds
        execute (env.bind name outcome) =
      pure (if inverted then !outcome.succeeded else outcome.succeeded) := by
  cases inverted <;> simp [Term.holds, eval_ref_bind]

theorem isClosed_conditional (name : String) (test rest : Term) :
    (Term.conditional test rest (.ref name)).isClosed = false := by
  simp [Term.isClosed, Term.references]

theorem isClosed_binding (name : String) (value test rest : Term) :
    (Term.binding name value (.conditional test rest (.ref name))).isClosed = false := by
  simp [Term.isClosed, Term.references]

/-- The chain is evaluated as it is read, whatever the names are bound to outside. -/
theorem eval_lowerChain {mode : Mode} {index : Nat} {pipeline : Pipeline}
    {others : List (Option String × Pipeline)} {term : Term}
    (h : lowerChain mode index pipeline others = .ok term)
    (hfirst : pipeline.references = [])
    (hothers : ∀ other ∈ others, other.2.references = [])
    (execute : Executor α) (env : Environment α) :
    term.eval execute env = runChain mode execute pipeline others := by
  induction others generalizing index pipeline term env with
  | nil =>
      rw [lowerChain_nil] at h
      rw [Term.eval_of_isClosed execute env (Pipeline.isClosed_of_lower hfirst h)]
      simp only [runChain, Pipeline.run, h]
  | cons other others ih =>
      obtain ⟨op, next⟩ := other
      rw [lowerChain_cons] at h
      obtain ⟨rest, hrest, h⟩ := bind_eq_ok.mp h
      obtain ⟨value, hvalue, h⟩ := bind_eq_ok.mp h
      obtain ⟨test, htest, h⟩ := bind_eq_ok.mp h
      injection h with h
      subst h
      rw [result_continueTest] at htest
      cases hop : op.bind ClauseOp.ofText? with
      | none => simp [hop] at htest
      | some operator =>
          simp only [hop, Except.ok.injEq] at htest
          subst htest
          rw [Term.eval_binding_wait _ _ _ _ _ (isClosed_binding ..),
            Term.eval_of_isClosed execute env (Pipeline.isClosed_of_lower hfirst hvalue)]
          simp only [runChain, Pipeline.run, hvalue, hop]
          congr 1
          funext outcome
          rw [Term.eval_conditional _ _ _ _ _ (isClosed_conditional ..), holds_test, pure_bind,
            goesOn_xor_eq, eval_ref_bind,
            ih hrest (hothers _ List.mem_cons_self) fun other hother =>
              hothers other (List.mem_cons_of_mem _ hother)]

theorem exists_lowerChain {mode : Mode} {pipeline : Pipeline}
    {others : List (Option String × Pipeline)}
    (hops : ∀ other ∈ others, ∃ op : ClauseOp, other.1 = some op.text)
    (hfirst : ∃ term, pipeline.lower mode = .ok term)
    (hothers : ∀ other ∈ others, ∃ term, other.2.lower mode = .ok term) (index : Nat) :
    ∃ term, lowerChain mode index pipeline others = .ok term := by
  induction others generalizing pipeline index with
  | nil => exact hfirst
  | cons other others ih =>
      obtain ⟨op, next⟩ := other
      obtain ⟨operator, rfl⟩ := hops _ List.mem_cons_self
      obtain ⟨value, hvalue⟩ := hfirst
      obtain ⟨rest, hrest⟩ :=
        ih (fun other hother => hops other (List.mem_cons_of_mem _ hother))
          (hothers _ List.mem_cons_self)
          (fun other hother => hothers other (List.mem_cons_of_mem _ hother)) (index + 1)
      rw [lowerChain_cons, hrest, hvalue, result_continueTest]
      simp [ClauseOp.ofText?_text, pure_eq_ok]

theorem exists_runChain {mode : Mode} {pipeline : Pipeline}
    {others : List (Option String × Pipeline)}
    (hops : ∀ other ∈ others, ∃ op : ClauseOp, other.1 = some op.text)
    (hfirst : ∃ term, pipeline.lower mode = .ok term)
    (hothers : ∀ other ∈ others, ∃ term, other.2.lower mode = .ok term)
    (execute : Executor α) (ran : List Term) :
    ∃ outcome terms count, (runChain mode execute pipeline others).run ran =
        some (outcome, ran ++ terms) ∧
      0 < count ∧ terms.map Except.ok =
        ((pipeline :: others.map Prod.snd).take count).map (Pipeline.lower mode) := by
  induction others generalizing pipeline ran with
  | nil =>
      obtain ⟨term, hterm⟩ := hfirst
      refine ⟨execute ran term, [term], 1, ?_, Nat.one_pos, by simp [hterm]⟩
      simp only [runChain, Pipeline.run, hterm]
      rfl
  | cons other others ih =>
      obtain ⟨op, next⟩ := other
      obtain ⟨term, hterm⟩ := hfirst
      obtain ⟨operator, rfl⟩ := hops _ List.mem_cons_self
      obtain ⟨outcome, terms, count, hrun, hcount, hterms⟩ :=
        ih (fun other hother => hops other (List.mem_cons_of_mem _ hother))
          (hothers _ List.mem_cons_self)
          (fun other hother => hothers other (List.mem_cons_of_mem _ hother)) (ran ++ [term])
      have hstep : (runChain mode execute pipeline ((some operator.text, next) :: others)).run ran =
          if operator.goesOn ((execute ran term).succeeded ^^ pipeline.negated) then
            (runChain mode execute next others).run (ran ++ [term])
          else some (execute ran term, ran ++ [term]) := by
        simp only [runChain, Pipeline.run, hterm, Option.bind_some, ClauseOp.ofText?_text]
        rw [execute.run_bind]
        split <;> rfl
      by_cases hgoes : operator.goesOn ((execute ran term).succeeded ^^ pipeline.negated) = true
      · refine ⟨outcome, term :: terms, count + 1, ?_, Nat.succ_pos count, ?_⟩
        · rw [hstep, if_pos hgoes, hrun]
          simp
        · simp [hterm, hterms]
      · refine ⟨execute ran term, [term], 1, ?_, Nat.one_pos, by simp [hterm]⟩
        rw [hstep, if_neg hgoes]

/-- A clause whose pipelines can all be lowered becomes a term that runs the pipelines which the
direct reading of the clause runs, in the same order and each at most once. The outcome is the
same. -/
theorem eval_lower_eq_run (mode : Mode) (clause : Clause) (hne : clause.pipelines ≠ [])
    (hops : ∀ other ∈ clause.pipelines.tail, ∃ op : ClauseOp, other.1 = some op.text)
    (hlower : ∀ pipeline ∈ clause.pipelines, ∃ term, pipeline.2.lower mode = .ok term)
    (hclosed : clause.references = []) :
    ∃ term, clause.lower mode = .ok term ∧
      ∀ (α : Type) (execute : Executor α) (env : Environment α) (before : List Term),
        ∃ outcome ran count,
          (term.eval execute env).run before = some (outcome, before ++ ran) ∧
          (clause.run mode execute).run before = some (outcome, before ++ ran) ∧
          0 < count ∧ ran.map Except.ok =
            (clause.pipelines.take count).map fun pipeline => pipeline.2.lower mode := by
  obtain ⟨_ | ⟨⟨op, first⟩, others⟩⟩ := clause
  · exact absurd rfl hne
  · have hlowerFirst := hlower _ List.mem_cons_self
    have hlowerOthers : ∀ other ∈ others, ∃ term, other.2.lower mode = .ok term :=
      fun other hother => hlower other (List.mem_cons_of_mem _ hother)
    have hreferences : ∀ pipeline ∈ (op, first) :: others, pipeline.2.references = [] :=
      List.flatMap_eq_nil_iff.mp hclosed
    obtain ⟨term, hterm⟩ := exists_lowerChain hops hlowerFirst hlowerOthers 0
    refine ⟨term, hterm, ?_⟩
    intro α execute env before
    obtain ⟨outcome, ran, count, hrun, hcount, hran⟩ :=
      exists_runChain hops hlowerFirst hlowerOthers execute before
    have heval := eval_lowerChain hterm (hreferences _ List.mem_cons_self)
      (fun other hother => hreferences other (List.mem_cons_of_mem _ hother)) execute env
    refine ⟨outcome, ran, count, by rw [heval, hrun], hrun, hcount, ?_⟩
    rw [hran, List.map_take, List.map_take]
    simp [Function.comp_def]

theorem eval_lower_eq_run_negated_chain :
    ∃ term, (ofNames ("a", true) [(.and, "b", false), (.or, "c", false)]).lower .batch = .ok term ∧
      ∀ (α : Type) (execute : Executor α) (env : Environment α) (before : List Term),
        ∃ outcome ran count,
          (term.eval execute env).run before = some (outcome, before ++ ran) ∧
          ((ofNames ("a", true) [(.and, "b", false), (.or, "c", false)]).run .batch execute).run
            before = some (outcome, before ++ ran) ∧
          0 < count ∧ ran.map Except.ok =
            ((ofNames ("a", true) [(.and, "b", false), (.or, "c", false)]).pipelines.take count).map
              fun pipeline => pipeline.2.lower .batch :=
  eval_lower_eq_run .batch _ (by simp [ofNames])
    (by
      simp only [ofNames, List.map_cons, List.map_nil, List.tail_cons, List.forall_mem_cons]
      exact ⟨⟨.and, rfl⟩, ⟨.or, rfl⟩, by simp⟩)
    (by
      simp only [ofNames, List.map_cons, List.map_nil, List.forall_mem_cons]
      exact ⟨⟨_, rfl⟩, ⟨_, rfl⟩, ⟨_, rfl⟩, by simp⟩)
    rfl

end Clause
end ShellLowering
