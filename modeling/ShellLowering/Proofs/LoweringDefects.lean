import ShellLowering.Proofs.Polarity

namespace ShellLowering

section ReportsFirst

variable {ε α β : Type}

/-- The result is an error if and only if there is a fault, and then it is the first one. -/
def ReportsFirst (faults : List ε) (result : Except ε α) : Prop :=
  ∀ e, result = .error e ↔ faults.head? = some e

namespace ReportsFirst

variable {faults later : List ε}

theorem ok (a : α) : ReportsFirst [] (.ok a : Except ε α) := by
  intro e
  simp

theorem error (cause : ε) : ReportsFirst [cause] (.error cause : Except ε α) := by
  intro e
  simp

theorem bind {result : Except ε α} {next : α → Except ε β} (h : ReportsFirst faults result)
    (hnext : ∀ a, ReportsFirst later (next a)) :
    ReportsFirst (faults ++ later) (result >>= next) := by
  intro e
  cases result with
  | error cause =>
      rw [error_bind, List.head?_append, (h cause).mp rfl]
      simp
  | ok a =>
      have hnone : faults = [] := by
        cases faults with
        | nil => rfl
        | cons cause faults => cases (h cause).mpr rfl
      rw [ok_bind, hnone, List.nil_append]
      exact hnext a e

/-- A last step that cannot fail. -/
theorem bind_ok {result : Except ε α} {next : α → β} (h : ReportsFirst faults result) :
    ReportsFirst faults (result >>= fun a => .ok (next a)) := by
  simpa using h.bind fun a => ok (next a)

theorem mapM {f : α → Except ε β} {faultsOf : α → List ε} (h : ∀ a, ReportsFirst (faultsOf a) (f a))
    (as : List α) : ReportsFirst (as.flatMap faultsOf) (as.mapM f) := by
  induction as with
  | nil => exact .ok []
  | cons a as ih =>
      rw [List.flatMap_cons, List.mapM_cons]
      exact (h a).bind fun b => ih.bind_ok

theorem exists_error_iff {result : Except ε α} (h : ReportsFirst faults result) :
    (∃ e, result = .error e) ↔ faults ≠ [] := by
  simp only [h _, ← Option.isSome_iff_exists, List.isSome_head?, ne_eq]

end ReportsFirst

end ReportsFirst

/-- The fault of an operator slot that is to hold the text of an operator. -/
def slotDefects {α : Type} (ofText? : String → Option α) (fault : Option String → LoweringError)
    (slot : Option String) : List LoweringError :=
  if (slot.bind ofText?).isSome then [] else [fault slot]

/-- An integer of too many digits cannot be written. -/
def Token.defects (token : Token) : List LoweringError :=
  if token.isOverlong then [.tooManyDigits] else []

def Redirection.defects (redirection : Redirection) : List LoweringError :=
  slotDefects RedirectOp.ofText? .unknownRedirection redirection.op

/-- The faults of a command. The words behind the first one come before the redirections, and these
before the name. Redirections and the name are looked at only if the command is an external one. -/
def Command.defects (command : Command) : List LoweringError :=
  if command.items = [] then [.emptyCommand]
  else match command.embedded? with
    | some (_, words) => words.flatMap Token.defects
    | none =>
      match command.words with
      | [] => [.namelessCommand]
      | name :: params =>
        params.flatMap Token.defects ++
          if (builtin? name).isSome then []
          else command.redirections.flatMap Redirection.defects ++ name.defects

/-- The faults of a pipeline, each command coming before the operator in front of it. -/
def Pipeline.defects (pipeline : Pipeline) : List LoweringError :=
  match pipeline.commands with
  | [] => [.emptyPipeline]
  | (_, first) :: others =>
    first.defects ++ others.flatMap fun (op, command) =>
      command.defects ++ slotDefects PipeOp.ofText? .unknownPipeOp op

/-- The faults of a clause: those of the last pipeline, and then, going back to the first one, those
of each pipeline and of the operator behind it. -/
def Clause.defects (clause : Clause) : List LoweringError :=
  match clause.pipelines.getLast? with
  | none => [.emptyClause]
  | some (_, last) =>
    last.defects ++ (clause.pipelines.zip clause.pipelines.tail).reverse.flatMap
      fun ((_, pipeline), (op, _)) =>
        pipeline.defects ++ slotDefects ClauseOp.ofText? .unknownClauseOp op

/-- Only the first clause counts. -/
def CommandList.defects (list : CommandList) : List LoweringError :=
  match list.clauses with
  | [] => [.emptyList]
  | (_, clause) :: _ => clause.defects

def Command.HasOverlongWord (command : Command) : Prop :=
  ∃ word ∈ command.words, word.isOverlong = true

theorem slotDefects_eq_nil_iff {α : Type} {ofText? : String → Option α} {text : α → String}
    (htext : ∀ op, ofText? (text op) = some op)
    (hofText : ∀ {s op}, ofText? s = some op → s = text op)
    (fault : Option String → LoweringError) (slot : Option String) :
    slotDefects ofText? fault slot = [] ↔ ∃ op, slot = some (text op) := by
  have hslot : (slot.bind ofText?).isSome ↔ ∃ op, slot = some (text op) := by
    rw [Option.isSome_iff_exists]
    refine exists_congr fun op => ⟨fun h => ?_, ?_⟩
    · obtain ⟨s, rfl, hs⟩ := Option.bind_eq_some_iff.mp h
      rw [hofText hs]
    · rintro rfl
      exact htext op
  rw [← hslot, slotDefects]
  split <;> simp [*]

theorem eq_of_mem_slotDefects {α : Type} {ofText? : String → Option α}
    {fault : Option String → LoweringError} {slot : Option String} {e : LoweringError}
    (h : e ∈ slotDefects ofText? fault slot) : e = fault slot := by
  unfold slotDefects at h
  split at h
  · cases h
  · exact List.mem_singleton.mp h

namespace Redirection

theorem tooManyDigits_notMem_defects (redirections : List Redirection) :
    .tooManyDigits ∉ redirections.flatMap defects := by
  intro h
  obtain ⟨redirection, -, h⟩ := List.mem_flatMap.mp h
  cases eq_of_mem_slotDefects h

theorem reportsFirst_lower (redirection : Redirection) :
    ReportsFirst redirection.defects redirection.lower := by
  unfold defects slotDefects lower
  cases redirection.op.bind RedirectOp.ofText? with
  | none => exact .error _
  | some op => exact .ok _

theorem reportsFirst_lowerAll (redirections : List Redirection) :
    ReportsFirst (redirections.flatMap defects) (lowerAll redirections) := by
  induction redirections with
  | nil => exact .ok []
  | cons redirection redirections ih =>
      rw [List.flatMap_cons, lowerAll]
      exact redirection.reportsFirst_lower.bind fun actions => ih.bind_ok

end Redirection

namespace Token

theorem mem_defects_iff {token : Token} {e : LoweringError} :
    e ∈ token.defects ↔ e = .tooManyDigits ∧ token.isOverlong = true := by
  rw [defects]
  split <;> simp [*]

theorem mem_flatMap_defects_iff {tokens : List Token} {e : LoweringError} :
    e ∈ tokens.flatMap defects ↔
      e = .tooManyDigits ∧ ∃ token ∈ tokens, token.isOverlong = true := by
  simp only [List.mem_flatMap, mem_defects_iff]
  tauto

theorem reportsFirst_argument (token : Token) : ReportsFirst token.defects token.argument := by
  rw [defects]
  rcases token.argument_and_commandName_cases with ⟨hover, harg, -⟩ | ⟨hover, arg, -, harg, -⟩
  · rw [if_pos hover, harg]
    exact .error _
  · rw [if_neg (by simp [hover]), harg]
    exact .ok _

theorem reportsFirst_commandName (token : Token) :
    ReportsFirst token.defects token.commandName := by
  rw [defects]
  rcases token.argument_and_commandName_cases with ⟨hover, -, hname⟩ | ⟨hover, -, name, -, hname⟩
  · rw [if_pos hover, hname]
    exact .error _
  · rw [if_neg (by simp [hover]), hname]
    exact .ok _

theorem reportsFirst_arguments (tokens : List Token) :
    ReportsFirst (tokens.flatMap defects) (arguments tokens) :=
  .mapM reportsFirst_argument tokens

end Token

namespace Command

theorem reportsFirst_lowerExternal (command : Command) (wiring : List (FdAction Term))
    (name : Token) (args : List Term) :
    ReportsFirst (command.redirections.flatMap Redirection.defects ++ name.defects)
      (command.lowerExternal wiring name args) :=
  (Redirection.reportsFirst_lowerAll _).bind fun _ => name.reportsFirst_commandName.bind_ok

/-- How a command is wired does not change its faults. -/
theorem reportsFirst_lower (command : Command) (wiring : List (FdAction Term)) :
    ReportsFirst command.defects (command.lower wiring) := by
  rw [lower_eq, defects]
  simp only [List.isEmpty_iff]
  split
  · exact .error _
  · rcases command.embedded? with _ | ⟨start, _ | ⟨word, words⟩⟩
    · cases command.words with
      | nil => exact .error _
      | cons name params =>
          refine (Token.reportsFirst_arguments params).bind fun args => ?_
          cases builtin? name with
          | some builtin => exact .ok _
          | none => exact command.reportsFirst_lowerExternal wiring name args
    · exact .ok _
    · exact (Token.reportsFirst_arguments _).bind_ok

theorem hasOverlongWord_of_mem_defects {command : Command}
    (h : .tooManyDigits ∈ command.defects) : command.HasOverlongWord := by
  rw [defects] at h
  split at h
  · simp at h
  · cases hstart : command.embedded? with
    | some start =>
        rw [hstart] at h
        obtain ⟨-, word, hword, hover⟩ := Token.mem_flatMap_defects_iff.mp h
        exact ⟨word, words_of_embedded? hstart ▸ List.mem_cons_of_mem _ hword, hover⟩
    | none =>
        cases hwords : command.words with
        | nil => simp [hstart, hwords] at h
        | cons name params =>
            simp only [hstart, hwords] at h
            rw [HasOverlongWord, hwords]
            rcases List.mem_append.mp h with h | h
            · obtain ⟨-, word, hword, hover⟩ := Token.mem_flatMap_defects_iff.mp h
              exact ⟨word, List.mem_cons_of_mem _ hword, hover⟩
            · split at h
              · cases h
              · have hname := (List.mem_append.mp h).resolve_left
                  (Redirection.tooManyDigits_notMem_defects _)
                exact ⟨name, List.mem_cons_self, (Token.mem_defects_iff.mp hname).2⟩

end Command

namespace Pipeline

theorem reportsFirst_compose (op : Option String) (source target : Term) :
    ReportsFirst (slotDefects PipeOp.ofText? .unknownPipeOp op)
      (compose op source target).result := by
  rw [result_compose, slotDefects]
  cases op.bind PipeOp.ofText? with
  | none => exact .error _
  | some op => exact .ok _

theorem reportsFirst_traceAfter (lastWiring : List (FdAction Term)) (source : Term)
    (commands : List (Option String × Command)) :
    ReportsFirst
      (commands.flatMap fun (op, command) =>
        command.defects ++ slotDefects PipeOp.ofText? .unknownPipeOp op)
      (traceAfter lastWiring source commands).result := by
  induction commands generalizing source with
  | nil => exact .ok source
  | cons command commands ih =>
      obtain ⟨op, command⟩ := command
      rw [result_traceAfter_cons, List.flatMap_cons, List.append_assoc]
      exact (command.reportsFirst_lower _).bind fun target =>
        (reportsFirst_compose op source target).bind fun call => ih call

theorem reportsFirst_lower (pipeline : Pipeline) (mode : Mode) :
    ReportsFirst pipeline.defects (pipeline.lower mode) := by
  obtain ⟨_ | ⟨⟨op, first⟩, commands⟩, negated⟩ := pipeline
  · exact .error _
  · rw [lower_cons]
    exact (first.reportsFirst_lower _).bind fun source => reportsFirst_traceAfter _ source commands

theorem hasOverlongWord_of_mem_defects {pipeline : Pipeline}
    (h : .tooManyDigits ∈ pipeline.defects) :
    ∃ command ∈ pipeline.commands, command.2.HasOverlongWord := by
  obtain ⟨_ | ⟨⟨op, first⟩, commands⟩, negated⟩ := pipeline
  · simp [defects] at h
  · rcases List.mem_append.mp h with h | h
    · exact ⟨(op, first), List.mem_cons_self, Command.hasOverlongWord_of_mem_defects h⟩
    · obtain ⟨command, hcommand, h⟩ := List.mem_flatMap.mp h
      rcases List.mem_append.mp h with h | h
      · exact ⟨command, List.mem_cons_of_mem _ hcommand, Command.hasOverlongWord_of_mem_defects h⟩
      · cases eq_of_mem_slotDefects h

theorem defects_eq_nil_iff {pipeline : Pipeline} :
    pipeline.defects = [] ↔ pipeline.commands ≠ [] ∧
      (∀ command ∈ pipeline.commands, command.2.defects = []) ∧
      ∀ command ∈ pipeline.commands.tail, ∃ op : PipeOp, command.1 = some op.text := by
  obtain ⟨_ | ⟨⟨op, first⟩, commands⟩, negated⟩ := pipeline
  · simp [defects]
  · simp only [defects, List.append_eq_nil_iff, List.flatMap_eq_nil_iff, ne_eq, reduceCtorEq,
      not_false_eq_true, true_and, List.forall_mem_cons, List.tail_cons, forall_and,
      slotDefects_eq_nil_iff PipeOp.ofText?_text PipeOp.eq_text_of_ofText?, and_assoc]

end Pipeline

namespace Clause

/-- One more pipeline in front of a clause adds its faults behind those of the clause. -/
theorem defects_cons (slot op : Option String) (pipeline next : Pipeline)
    (others : List (Option String × Pipeline)) :
    defects ⟨(slot, pipeline) :: (op, next) :: others⟩ =
      defects ⟨(op, next) :: others⟩ ++
        (pipeline.defects ++ slotDefects ClauseOp.ofText? .unknownClauseOp op) := by
  simp only [defects, List.getLast?_cons_cons, List.tail_cons, List.zip_cons_cons,
    List.reverse_cons, List.flatMap_append, List.flatMap_singleton]
  cases h : ((op, next) :: others).getLast? with
  | none => simp at h
  | some last => exact (List.append_assoc _ _ _).symm

theorem reportsFirst_continueTest (op : Option String) (negated : Bool) (name : String) :
    ReportsFirst (slotDefects ClauseOp.ofText? .unknownClauseOp op)
      (continueTest op negated name).result := by
  rw [result_continueTest, slotDefects]
  cases op.bind ClauseOp.ofText? with
  | none => exact .error _
  | some op => exact .ok _

theorem reportsFirst_lowerChain (slot : Option String) (pipeline : Pipeline)
    (others : List (Option String × Pipeline)) (mode : Mode) (index : Nat) :
    ReportsFirst (defects ⟨(slot, pipeline) :: others⟩)
      (lowerChain mode index pipeline others) := by
  induction others generalizing slot pipeline index with
  | nil =>
      have hdefects : defects ⟨[(slot, pipeline)]⟩ = pipeline.defects := List.append_nil _
      rw [hdefects]
      exact pipeline.reportsFirst_lower mode
  | cons other others ih =>
      obtain ⟨op, next⟩ := other
      rw [defects_cons, lowerChain_cons]
      exact (ih op next (index + 1)).bind fun rest =>
        (pipeline.reportsFirst_lower mode).bind fun value =>
          (reportsFirst_continueTest op pipeline.negated _).bind_ok

theorem reportsFirst_lower (clause : Clause) (mode : Mode) :
    ReportsFirst clause.defects (clause.lower mode) := by
  obtain ⟨_ | ⟨⟨op, first⟩, others⟩⟩ := clause
  · exact .error _
  · exact reportsFirst_lowerChain op first others mode 0

theorem defects_eq_nil_iff {clause : Clause} :
    clause.defects = [] ↔ clause.pipelines ≠ [] ∧
      (∀ pipeline ∈ clause.pipelines, pipeline.2.defects = []) ∧
      ∀ pipeline ∈ clause.pipelines.tail, ∃ op : ClauseOp, pipeline.1 = some op.text := by
  obtain ⟨_ | ⟨⟨slot, first⟩, others⟩⟩ := clause
  · simp [defects]
  · induction others generalizing slot first with
    | nil => simp [defects]
    | cons other others ih =>
        obtain ⟨op, next⟩ := other
        simp only [ne_eq, reduceCtorEq, not_false_eq_true, true_and, List.tail_cons,
          List.forall_mem_cons] at ih ⊢
        rw [defects_cons, List.append_eq_nil_iff, List.append_eq_nil_iff, ih,
          slotDefects_eq_nil_iff ClauseOp.ofText?_text ClauseOp.eq_text_of_ofText?]
        tauto

theorem hasOverlongWord_of_mem_defects {clause : Clause} (h : .tooManyDigits ∈ clause.defects) :
    ∃ pipeline ∈ clause.pipelines, ∃ command ∈ pipeline.2.commands, command.2.HasOverlongWord := by
  obtain ⟨_ | ⟨⟨slot, first⟩, others⟩⟩ := clause
  · simp [defects] at h
  · induction others generalizing slot first with
    | nil =>
        have hfirst : .tooManyDigits ∈ first.defects := by simpa [defects] using h
        exact ⟨(slot, first), List.mem_cons_self, Pipeline.hasOverlongWord_of_mem_defects hfirst⟩
    | cons other others ih =>
        obtain ⟨op, next⟩ := other
        rw [defects_cons, List.mem_append, List.mem_append] at h
        rcases h with h | h | h
        · obtain ⟨pipeline, hpipeline, hcommand⟩ := ih op next h
          exact ⟨pipeline, List.mem_cons_of_mem _ hpipeline, hcommand⟩
        · exact ⟨(slot, first), List.mem_cons_self, Pipeline.hasOverlongWord_of_mem_defects h⟩
        · cases eq_of_mem_slotDefects h

/-- A clause has a fault if and only if one of five checks fails somewhere. -/
theorem exists_lower_eq_error_iff {clause : Clause} (mode : Mode) :
    (∃ e, clause.lower mode = .error e) ↔
      clause.pipelines = [] ∨
      (∃ pipeline ∈ clause.pipelines, pipeline.2.commands = []) ∨
      (∃ pipeline ∈ clause.pipelines, ∃ command ∈ pipeline.2.commands, ∃ e,
        command.2.lower [] = .error e) ∨
      (∃ pipeline ∈ clause.pipelines, ∃ command ∈ pipeline.2.commands.tail,
        ∀ op : PipeOp, command.1 ≠ some op.text) ∨
      ∃ pipeline ∈ clause.pipelines.tail, ∀ op : ClauseOp, pipeline.1 ≠ some op.text := by
  have hcommand : ∀ command : Command, (∃ e, command.lower [] = .error e) ↔ command.defects ≠ [] :=
    fun command => (command.reportsFirst_lower []).exists_error_iff
  rw [(clause.reportsFirst_lower mode).exists_error_iff, ← not_iff_not, not_ne_iff]
  simp only [hcommand]
  push Not
  simp only [defects_eq_nil_iff, Pipeline.defects_eq_nil_iff, imp_and, forall_and, and_assoc]

/-- The operator in front of the first command of a pipeline is not looked at, wherever the pipeline
stands in the clause. -/
theorem lower_replace_firstSlot (mode : Mode) (before : List (Option String × Pipeline))
    (op slot slot' : Option String) (first : Command) (commands : List (Option String × Command))
    (negated : Bool) (after : List (Option String × Pipeline)) :
    lower mode ⟨before ++ (op, ⟨(slot, first) :: commands, negated⟩) :: after⟩ =
      lower mode ⟨before ++ (op, ⟨(slot', first) :: commands, negated⟩) :: after⟩ := by
  refine lower_append_congr (fun index => ?_) before op
  have hsame : Pipeline.lower mode ⟨(slot, first) :: commands, negated⟩ =
      Pipeline.lower mode ⟨(slot', first) :: commands, negated⟩ :=
    Pipeline.lower_eq_of_isAlike ⟨rfl, rfl⟩ mode
  cases after with
  | nil => exact hsame
  | cons other after => rw [lowerChain_cons, lowerChain_cons, hsame]

end Clause

theorem CommandList.reportsFirst_lower (list : CommandList) (mode : Mode) :
    ReportsFirst list.defects (list.lower mode) := by
  obtain ⟨_ | ⟨⟨op, clause⟩, others⟩⟩ := list
  · exact .error _
  · rw [lower_cons]
    exact clause.reportsFirst_lower mode

/-- Clauses, commands however they are wired, and command lists report the first of their faults,
and no other; a clause has one if and only if a pipeline is missing or empty, a command by itself
has one, or an operator that is looked at is unknown. A number that cannot be written is reported
only if a word of a command is overlong. What stands in front of the first pipeline and of the first
command of a pipeline is not looked at. -/
theorem Clause.lower_eq_error_iff_first_defect (mode : Mode) :
    (∀ (clause : Clause) e, clause.lower mode = .error e ↔ clause.defects.head? = some e) ∧
    (∀ clause : Clause, (∃ e, clause.lower mode = .error e) ↔
      clause.pipelines = [] ∨
      (∃ pipeline ∈ clause.pipelines, pipeline.2.commands = []) ∨
      (∃ pipeline ∈ clause.pipelines, ∃ command ∈ pipeline.2.commands, ∃ e,
        command.2.lower [] = .error e) ∨
      (∃ pipeline ∈ clause.pipelines, ∃ command ∈ pipeline.2.commands.tail,
        ∀ op : PipeOp, command.1 ≠ some op.text) ∨
      ∃ pipeline ∈ clause.pipelines.tail, ∀ op : ClauseOp, pipeline.1 ≠ some op.text) ∧
    (∀ clause : Clause, clause.lower mode = .error .tooManyDigits →
      ∃ pipeline ∈ clause.pipelines, ∃ command ∈ pipeline.2.commands,
        command.2.HasOverlongWord) ∧
    (∀ (command : Command) wiring e,
      command.lower wiring = .error e ↔ command.defects.head? = some e) ∧
    (∀ (list : CommandList) e, list.lower mode = .error e ↔ list.defects.head? = some e) ∧
    (∀ slot slot' pipeline others,
      lower mode ⟨(slot, pipeline) :: others⟩ = lower mode ⟨(slot', pipeline) :: others⟩) ∧
    (∀ before op slot slot' first commands negated after,
      lower mode ⟨before ++ (op, ⟨(slot, first) :: commands, negated⟩) :: after⟩ =
        lower mode ⟨before ++ (op, ⟨(slot', first) :: commands, negated⟩) :: after⟩) :=
  ⟨fun clause => clause.reportsFirst_lower mode,
    fun _ => exists_lower_eq_error_iff mode,
    fun clause hclause => hasOverlongWord_of_mem_defects
      (List.mem_of_head? ((clause.reportsFirst_lower mode _).mp hclause)),
    fun command => command.reportsFirst_lower,
    fun list => list.reportsFirst_lower mode,
    fun _ _ _ _ => rfl,
    lower_replace_firstSlot mode⟩

/-- An overlong word behind an empty pipeline is reached before it, and it is not a fault of the
tree. -/
theorem Clause.lower_emptyPipeline_before_overlong :
    let ls : Command := ⟨[.word (.symbol "ls"), .word (.number (.int (10 ^ digitLimit)))]⟩
    let clause : Clause := ⟨[(none, ⟨[], false⟩), (some "&&", ⟨[(none, ls)], false⟩)]⟩
    (∃ pipeline ∈ clause.pipelines, pipeline.2.commands = []) ∧
      clause.lower .batch = .error .tooManyDigits ∧
      clause.lower .interactive = .error .tooManyDigits := by
  intro ls clause
  have hclause : ∀ mode, clause.lower mode = .error .tooManyDigits := by
    intro mode
    rw [lower_cons, lowerChain_cons, lowerChain_nil, Pipeline.lower_cons,
      Command.lower_of_isOverlong "ls" Token.isOverlong_pow_digitLimit]
    rfl
  exact ⟨⟨(none, ⟨[], false⟩), List.mem_cons_self, rfl⟩, hclause .batch, hclause .interactive⟩

/-- Behind an empty command and `;` comes `b` piped by `?` into a command without a name: of the
four faults the missing name is reached first. -/
example :
    let nameless : Command := ⟨[.redirect ⟨some ">", .symbol "f", none⟩]⟩
    let clause : Clause := ⟨[(none, ⟨[(none, ⟨[]⟩)], false⟩),
      (some ";", ⟨[(some "|", ⟨[.word (.symbol "b")]⟩), (some "?", nameless)], true⟩)]⟩
    clause.defects = [.namelessCommand, .unknownPipeOp (some "?"), .emptyCommand,
      .unknownClauseOp (some ";")] ∧ clause.lower .batch = .error .namelessCommand :=
  ⟨rfl, rfl⟩

end ShellLowering
