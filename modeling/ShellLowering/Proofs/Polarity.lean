import Mathlib.Data.List.Forall2
import ShellLowering.Proofs.ShortCircuit

namespace ShellLowering

namespace Term

def opposite : Term → Term
  | .negation test => test
  | test => .negation test

/-- Turns the marked tests of nested conditionals round, the first mark being for the outermost. -/
def flipTests : List Bool → Term → Term
  | flip :: flips, .binding name value (.conditional test onTrue onFalse) =>
    .binding name value
      (.conditional (if flip then test.opposite else test) (onTrue.flipTests flips) onFalse)
  | _, term => term

end Term

/-- Pipelines of the same commands with the same operators between them. What stands in front of
the first command and the negations may differ. -/
structure Pipeline.IsAlike (first second : Pipeline) : Prop where
  commands : first.commands.map Prod.snd = second.commands.map Prod.snd
  operators : first.commands.tail.map Prod.fst = second.commands.tail.map Prod.fst

/-- The negation of a pipeline is not looked at when it is lowered. -/
theorem Pipeline.lower_eq_of_isAlike {first second : Pipeline} (h : first.IsAlike second)
    (mode : Mode) : first.lower mode = second.lower mode := by
  obtain ⟨_ | ⟨⟨op, command⟩, commands⟩, negated⟩ := first <;>
    obtain ⟨_ | ⟨⟨op', command'⟩, commands'⟩, negated'⟩ := second
  · rfl
  · cases h.commands
  · cases h.commands
  · obtain ⟨rfl, hcommands⟩ := List.cons.inj h.commands
    have hsame : commands = commands' :=
      (List.zip_of_prod h.operators hcommands).trans (List.zip_of_prod rfl rfl).symm
    rw [lower_cons, lower_cons, hsame]

namespace Clause

/-- Clauses of as many pipelines, which are alike one by one. -/
def IsAlike (first second : Clause) : Prop :=
  List.Forall₂ (fun first second => first.2.IsAlike second.2) first.pipelines second.pipelines

/-- For each pipeline but the last, whether the clause goes on behind it when it fails: the operator
after it says so, and its negation says the opposite. -/
def polarities (clause : Clause) : List Bool :=
  clause.pipelines.zipWith (fun (_, pipeline) (op, _) => op = some "||" ^^ pipeline.negated)
    clause.pipelines.tail

theorem polarities_cons (op between : Option String) (pipeline next : Pipeline)
    (others : List (Option String × Pipeline)) :
    polarities ⟨(op, pipeline) :: (between, next) :: others⟩ =
      (between = some "||" ^^ pipeline.negated) :: polarities ⟨(between, next) :: others⟩ := rfl

/-- The test that is behind a pipeline of the given polarity. -/
def test (polarity : Bool) (name : String) : Term :=
  if polarity then .negation (.condition (.ref name)) else .condition (.ref name)

/-- A test that is turned round where two polarities differ changes from the one to the other. -/
theorem flip_test (polarity polarity' : Bool) (name : String) :
    (if polarity ^^ polarity' then (test polarity name).opposite else test polarity name) =
      test polarity' name := by
  cases polarity <;> cases polarity' <;> rfl

theorem test_inj {polarity polarity' : Bool} {name : String} :
    test polarity name = test polarity' name ↔ polarity = polarity' := by
  cases polarity <;> cases polarity' <;> simp [test]

theorem eq_test_of_continueTest {op : Option String} {negated : Bool} {name : String} {term : Term}
    (h : (continueTest op negated name).result = .ok term) :
    term = test (op = some "||" ^^ negated) name := by
  rw [result_continueTest] at h
  cases hop : op.bind ClauseOp.ofText? with
  | none => simp [hop] at h
  | some operator =>
      obtain ⟨text, rfl, htext⟩ := Option.bind_eq_some_iff.mp hop
      obtain rfl := ClauseOp.eq_text_of_ofText? htext
      have hpolarity : operator.continuesOnFailure = decide (some operator.text = some "||") := by
        cases operator <;> rfl
      simp only [hop, Except.ok.injEq] at h
      rw [← h, hpolarity]
      rfl

/-- What a chain of two or more pipelines is lowered to. -/
theorem lowerChain_cons_eq_ok {mode : Mode} {index : Nat} {pipeline next : Pipeline}
    {op : Option String} {others : List (Option String × Pipeline)} {term : Term}
    (h : lowerChain mode index pipeline ((op, next) :: others) = .ok term) :
    ∃ rest value, lowerChain mode (index + 1) next others = .ok rest ∧
      pipeline.lower mode = .ok value ∧
      term = .binding (resultName index) (.wait value)
        (.conditional (test (op = some "||" ^^ pipeline.negated) (resultName index)) rest
          (.ref (resultName index))) := by
  rw [lowerChain_cons] at h
  obtain ⟨rest, hrest, h⟩ := bind_eq_ok.mp h
  obtain ⟨value, hvalue, h⟩ := bind_eq_ok.mp h
  obtain ⟨found, htest, h⟩ := bind_eq_ok.mp h
  obtain rfl := eq_test_of_continueTest htest
  injection h with h
  exact ⟨rest, value, hrest, hvalue, h.symm⟩

/-- Chains of alike pipelines. The induction is on both chains together: their pipelines have equal
terms, so only the tests can tell the two apart. -/
theorem lowerChain_of_isAlike {mode : Mode} {index : Nat} {pipeline pipeline' : Pipeline}
    {others others' : List (Option String × Pipeline)} {term term' : Term}
    (op op' : Option String) (halike : pipeline.IsAlike pipeline')
    (hothers : List.Forall₂ (fun first second => first.2.IsAlike second.2) others others')
    (h : lowerChain mode index pipeline others = .ok term)
    (h' : lowerChain mode index pipeline' others' = .ok term') :
    (term = term' ↔
      polarities ⟨(op, pipeline) :: others⟩ = polarities ⟨(op', pipeline') :: others'⟩) ∧
    term' = term.flipTests ((polarities ⟨(op, pipeline) :: others⟩).zipWith (· ^^ ·)
      (polarities ⟨(op', pipeline') :: others'⟩)) := by
  induction hothers generalizing index op op' pipeline pipeline' term term' with
  | nil =>
      rw [lowerChain_nil] at h h'
      rw [Pipeline.lower_eq_of_isAlike halike, h'] at h
      injection h with h
      subst h
      exact ⟨iff_of_true rfl rfl, rfl⟩
  | @cons other other' others others' hnext _ ih =>
      obtain ⟨between, next⟩ := other
      obtain ⟨between', next'⟩ := other'
      obtain ⟨rest, value, hrest, hvalue, rfl⟩ := lowerChain_cons_eq_ok h
      obtain ⟨rest', value', hrest', hvalue', rfl⟩ := lowerChain_cons_eq_ok h'
      rw [Pipeline.lower_eq_of_isAlike halike, hvalue'] at hvalue
      injection hvalue with hvalue
      subst hvalue
      obtain ⟨hiff, hflip⟩ := ih between between' hnext hrest hrest'
      rw [polarities_cons, polarities_cons, List.zipWith_cons_cons, Term.flipTests, flip_test,
        ← hflip]
      refine ⟨?_, rfl⟩
      simp only [Term.binding.injEq, Term.conditional.injEq, test_inj, hiff, List.cons.injEq,
        true_and, and_true]

section Congruence

variable {mode : Mode} {pipeline pipeline' : Pipeline}
  {others others' : List (Option String × Pipeline)}

/-- A chain depends on its end only through what the end is lowered to. -/
theorem lower_append_congr
    (h : ∀ index, lowerChain mode index pipeline others = lowerChain mode index pipeline' others')
    (before : List (Option String × Pipeline)) (op : Option String) :
    lower mode ⟨before ++ (op, pipeline) :: others⟩ =
      lower mode ⟨before ++ (op, pipeline') :: others'⟩ := by
  have hchain : ∀ (before : List (Option String × Pipeline)) (first : Pipeline) (index : Nat),
      lowerChain mode index first (before ++ (op, pipeline) :: others) =
        lowerChain mode index first (before ++ (op, pipeline') :: others') := by
    intro before
    induction before with
    | nil =>
        intro first index
        rw [List.nil_append, List.nil_append, lowerChain_cons, lowerChain_cons, h]
    | cons other before ih =>
        intro first index
        rw [List.cons_append, List.cons_append, lowerChain_cons, lowerChain_cons, ih]
  cases before with
  | nil => exact h 0
  | cons first before => exact hchain before first.2 0

end Congruence

/-- Clauses of alike pipelines that can both be lowered have the same term if and only if they have
the same polarities, and otherwise only the tests behind the pipelines whose polarities differ are
opposite. So it never matters whether the last pipeline of a clause is negated, and `! p && rest` is
lowered as `p || rest` is, wherever it stands. -/
theorem lower_eq_iff_polarities_eq {mode : Mode} {first second : Clause}
    (halike : first.IsAlike second) {term term' : Term} (hfirst : first.lower mode = .ok term)
    (hsecond : second.lower mode = .ok term') :
    (term = term' ↔ first.polarities = second.polarities) ∧
    term' = term.flipTests (first.polarities.zipWith (· ^^ ·) second.polarities) ∧
    (∀ before op commands negated negated',
      lower mode ⟨before ++ [(op, ⟨commands, negated⟩)]⟩ =
        lower mode ⟨before ++ [(op, ⟨commands, negated'⟩)]⟩) ∧
    (∀ before op commands next after,
      lower mode ⟨before ++ (op, ⟨commands, true⟩) :: (some "&&", next) :: after⟩ =
        lower mode ⟨before ++ (op, ⟨commands, false⟩) :: (some "||", next) :: after⟩) := by
  have hterms : (term = term' ↔ first.polarities = second.polarities) ∧
      term' = term.flipTests (first.polarities.zipWith (· ^^ ·) second.polarities) := by
    obtain ⟨pipelines⟩ := first
    obtain ⟨pipelines'⟩ := second
    cases halike with
    | nil => cases hfirst
    | cons hpipeline hothers => exact lowerChain_of_isAlike _ _ hpipeline hothers hfirst hsecond
  have hsame : ∀ commands negated negated',
      Pipeline.lower mode ⟨commands, negated⟩ = Pipeline.lower mode ⟨commands, negated'⟩ :=
    fun commands negated negated' => Pipeline.lower_eq_of_isAlike ⟨rfl, rfl⟩ mode
  refine ⟨hterms.1, hterms.2, ?_, ?_⟩
  · intro before op commands negated negated'
    have hlast : ∀ index, lowerChain mode index ⟨commands, negated⟩ [] =
        lowerChain mode index ⟨commands, negated'⟩ [] := fun _ => hsame commands negated negated'
    exact lower_append_congr hlast before op
  · intro before op commands next after
    refine lower_append_congr (fun index => ?_) before op
    rw [lowerChain_cons, lowerChain_cons, hsame commands true false]
    rfl

/-- `! a && ! b || c` and `a || ! b && ! c` agree on what comes of `a`, and part behind `b`. -/
theorem lower_eq_iff_polarities_eq_opposite_second :
    let first := ofNames ("a", true) [(.and, "b", true), (.or, "c", false)]
    let second := ofNames ("a", false) [(.or, "b", true), (.and, "c", true)]
    first.polarities = [true, false] ∧ second.polarities = [true, true] ∧
      ∃ term term', first.lower .interactive = .ok term ∧ second.lower .interactive = .ok term' ∧
        term ≠ term' ∧ term' = term.flipTests [false, true] := by
  intro first second
  have halike : first.IsAlike second :=
    .cons ⟨rfl, rfl⟩ (.cons ⟨rfl, rfl⟩ (.cons ⟨rfl, rfl⟩ .nil))
  have hpolarities : first.polarities = [true, false] := by rfl
  have hpolarities' : second.polarities = [true, true] := by rfl
  refine ⟨hpolarities, hpolarities', _, _, rfl, rfl, ?_, ?_⟩
  · rw [ne_eq, (lower_eq_iff_polarities_eq halike rfl rfl).1, hpolarities, hpolarities']
    decide
  · rw [(lower_eq_iff_polarities_eq halike rfl rfl).2.1, hpolarities, hpolarities']
    rfl

end Clause
end ShellLowering
