import ShellLowering.Proofs.DefaultWiring
import ShellLowering.Proofs.ShortCircuit

namespace ShellLowering

namespace Term

/-- What a walk through a term meets. -/
inductive Stop where
  | stage (term : Term)
  | combinator (name : String)

/-- The walk goes through what is waited for before what is done after it, and through the source of
a pipe before its target. All terms that are not made of others in this way are stages. -/
def walk : Term → List Stop
  | .binding _ (.wait value) (.conditional _ onTrue _) => value.walk ++ onTrue.walk
  | .pipeCall combinator source target => source.walk ++ .combinator combinator :: target.walk
  | .deferred term => term.walk
  | term => [.stage term]

end Term

/-- Only interactive pipelines are wired, and only at their ends: the first command, and the last
one if it is another. -/
def Mode.wiringAt (mode : Mode) (count index : Nat) : List (FdAction Term) :=
  match mode with
  | .batch => []
  | .interactive =>
    if index = 0 then Endpoint.stdin.wiring (if 2 < count then .pipe else .stdout)
    else if index + 1 = count then Endpoint.pipe.wiring .stdout
    else []

namespace Pipeline

def operatorStop (op : Option String) : Except LoweringError Term.Stop :=
  match op.bind PipeOp.ofText? with
  | some op => .ok (.combinator op.combinator)
  | none => .error (.unknownPipeOp op)

/-- The stops of a command at an index of a pipeline of so many commands: its operator, which the
first command does without, and the command lowered by itself. -/
def commandStops (mode : Mode) (count : Nat) (place : (Option String × Command) × Nat) :
    List (Except LoweringError Term.Stop) :=
  let ((op, command), index) := place
  (if index = 0 then [] else [operatorStop op]) ++
    [(command.lower (mode.wiringAt count index)).map .stage]

def stops (mode : Mode) (pipeline : Pipeline) : List (Except LoweringError Term.Stop) :=
  pipeline.commands.zipIdx.flatMap (commandStops mode pipeline.commands.length)

end Pipeline

def Clause.stops (mode : Mode) (clause : Clause) : List (Except LoweringError Term.Stop) :=
  clause.pipelines.flatMap fun (_, pipeline) => pipeline.stops mode

/-- Whether all terms embedded in the words of a command are calls. -/
def Command.EmbedsForms (command : Command) : Prop :=
  ∀ term, .embedded term ∈ command.words → ∃ head args, term = .form head args

def Pipeline.EmbedsForms (pipeline : Pipeline) : Prop :=
  ∀ command ∈ pipeline.commands, command.2.EmbedsForms

def Clause.EmbedsForms (clause : Clause) : Prop :=
  ∀ pipeline ∈ clause.pipelines, pipeline.2.EmbedsForms

/-- A command is one stage, because a call that is embedded has no parts of its own. -/
theorem Command.walk_lower {command : Command} (hforms : command.EmbedsForms)
    {wiring : List (FdAction Term)} {term : Term} (h : command.lower wiring = .ok term) :
    term.walk = [.stage term] := by
  rcases lower_cases h with ⟨start, words, args, hstart, -, rfl⟩ |
    ⟨name, params, builtin, args, -, -, -, -, rfl⟩ |
    ⟨name, params, actions, called, args, -, -, -, -, -, -, rfl⟩
  · have hmem : .embedded start ∈ command.words := by
      rw [words_of_embedded? hstart]
      exact List.mem_cons_self
    obtain ⟨head, args, rfl⟩ := hforms start hmem
    split <;> rfl
  · rfl
  · rfl

namespace Pipeline

variable {mode : Mode}

theorem walk_compose {op : Option String} {source target call : Term}
    (htarget : target.walk = [.stage target]) (h : (compose op source target).result = .ok call) :
    ∃ name, operatorStop op = .ok (.combinator name) ∧
      call.walk = source.walk ++ [.combinator name, .stage target] := by
  rw [result_compose] at h
  cases hop : op.bind PipeOp.ofText? with
  | none => simp [hop] at h
  | some operator =>
      simp only [hop, Except.ok.injEq] at h
      subst h
      refine ⟨operator.combinator, by simp [operatorStop, hop], ?_⟩
      split <;> simp [Term.walk, htarget]

theorem wiringAt_zero (count : Nat) : mode.wiringAt count 0 = (mode.wiring count).first := by
  cases mode <;> rfl

/-- Behind the first command, having no command after it is having the last index. -/
theorem wiringAt_of_pos {count index : Nat} (hindex : 0 < index)
    {commands : List (Option String × Command)} (hcount : index + (commands.length + 1) = count) :
    mode.wiringAt count index = if commands.isEmpty then (mode.wiring count).last else [] := by
  have hfirst : index ≠ 0 := by omega
  cases mode with
  | batch => exact (ite_self _).symm
  | interactive =>
      have hlast : index + 1 = count ↔ commands.isEmpty = true := by
        rw [List.isEmpty_iff, ← List.length_eq_zero_iff]
        omega
      simp only [Mode.wiringAt, hfirst, hlast, if_false]
      rfl

theorem commandStops_of_pos (count : Nat) {index : Nat} (hindex : 0 < index) (op : Option String)
    (command : Command) :
    commandStops mode count ((op, command), index) =
      [operatorStop op, (command.lower (mode.wiringAt count index)).map .stage] := by
  have hfirst : index ≠ 0 := by omega
  simp [commandStops, hfirst]

/-- The commands behind the first one, which has been lowered to the source. -/
theorem walk_traceAfter {count index : Nat} (hindex : 0 < index) {source term : Term}
    {commands : List (Option String × Command)} (hcount : index + commands.length = count)
    (hforms : ∀ command ∈ commands, command.2.EmbedsForms)
    (h : (traceAfter (mode.wiring count).last source commands).result = .ok term) :
    term.walk.map Except.ok = source.walk.map Except.ok ++
      (commands.zipIdx index).flatMap (commandStops mode count) := by
  induction commands generalizing index source with
  | nil =>
      injection h with h
      simp [h]
  | cons command commands ih =>
      obtain ⟨op, command⟩ := command
      obtain ⟨hcommand, hcommands⟩ := List.forall_mem_cons.mp hforms
      rw [result_traceAfter_cons, ← wiringAt_of_pos hindex hcount] at h
      obtain ⟨target, htarget, h⟩ := bind_eq_ok.mp h
      obtain ⟨call, hcall, h⟩ := bind_eq_ok.mp h
      obtain ⟨name, hname, hwalk⟩ := walk_compose (Command.walk_lower hcommand htarget) hcall
      have hstops : commandStops mode count ((op, command), index) =
          [.ok (.combinator name), .ok (.stage target)] := by
        rw [commandStops_of_pos count hindex, hname, htarget]
        rfl
      rw [ih (Nat.succ_pos index) (by rw [← hcount, List.length_cons]; omega) hcommands h, hwalk,
        List.zipIdx_cons, List.flatMap_cons, hstops, List.map_append, List.append_assoc]
      rfl

theorem walk_lower {pipeline : Pipeline} (hforms : pipeline.EmbedsForms) {term : Term}
    (h : pipeline.lower mode = .ok term) : term.walk.map Except.ok = pipeline.stops mode := by
  obtain ⟨_ | ⟨⟨op, first⟩, commands⟩, negated⟩ := pipeline
  · cases h
  · obtain ⟨hfirst, hcommands⟩ := List.forall_mem_cons.mp hforms
    rw [lower_cons, ← wiringAt_zero] at h
    obtain ⟨source, hsource, h⟩ := bind_eq_ok.mp h
    have hstops : commandStops mode (commands.length + 1) ((op, first), 0) =
        [.ok (.stage source)] := by
      rw [commandStops, hsource]
      rfl
    rw [walk_traceAfter Nat.one_pos (Nat.add_comm 1 _) hcommands h,
      Command.walk_lower hfirst hsource, stops, List.zipIdx_cons, List.flatMap_cons,
      List.length_cons, hstops]
    rfl

end Pipeline

namespace Clause

theorem walk_lowerChain {mode : Mode} {index : Nat} {pipeline : Pipeline}
    {others : List (Option String × Pipeline)} {term : Term}
    (hfirst : pipeline.EmbedsForms) (hothers : ∀ other ∈ others, other.2.EmbedsForms)
    (h : lowerChain mode index pipeline others = .ok term) :
    term.walk.map Except.ok =
      pipeline.stops mode ++ others.flatMap fun (_, other) => other.stops mode := by
  induction others generalizing index pipeline term with
  | nil =>
      rw [List.flatMap_nil, List.append_nil]
      exact Pipeline.walk_lower hfirst h
  | cons other others ih =>
      obtain ⟨op, next⟩ := other
      obtain ⟨hnext, hothers⟩ := List.forall_mem_cons.mp hothers
      rw [lowerChain_cons] at h
      obtain ⟨rest, hrest, h⟩ := bind_eq_ok.mp h
      obtain ⟨value, hvalue, h⟩ := bind_eq_ok.mp h
      obtain ⟨test, -, h⟩ := bind_eq_ok.mp h
      injection h with h
      subst h
      rw [Term.walk, List.map_append, Pipeline.walk_lower hfirst hvalue, ih hnext hothers hrest]
      rfl

/-- The term of a clause holds each of its commands once, lowered by itself with the wiring of its
place, and the operators of its pipelines as combinators, all in the order of the clause. -/
theorem walk_lower_eq_stops {mode : Mode} {clause : Clause} {term : Term}
    (h : clause.lower mode = .ok term) (hforms : clause.EmbedsForms) :
    term.walk.map Except.ok = clause.stops mode := by
  obtain ⟨_ | ⟨⟨op, first⟩, others⟩⟩ := clause
  · cases h
  · obtain ⟨hfirst, hothers⟩ := List.forall_mem_cons.mp hforms
    exact walk_lowerChain hfirst hothers h

/-- `a | (f "x") |> b && quit`: the call in between is not wired, and neither is the builtin. -/
theorem walk_lower_eq_stops_three_commands :
    let call : Term := .form "f" [.text "x"]
    let pipeline : Pipeline := ⟨[(none, ⟨[.word (.symbol "a")]⟩),
      (some "|", ⟨[.word (.embedded call)]⟩), (some "|>", ⟨[.word (.symbol "b")]⟩)], false⟩
    let clause : Clause := ⟨[(none, pipeline), (some "&&", .ofName "quit" false)]⟩
    let first : Term := .external (.text "a") [] (some (Endpoint.stdin.wiring .pipe))
    let last : Term := .external (.text "b") [] (some (Endpoint.pipe.wiring .stdout))
    ∃ term, clause.lower .interactive = .ok term ∧ clause.EmbedsForms ∧
      term.walk.map Except.ok =
        [.ok (.stage first), .ok (.combinator "pipe"), .ok (.stage call),
          .ok (.combinator "pipe-multi"), .ok (.stage last),
          (.ok (.stage (.builtin "quit" [])) : Except LoweringError Term.Stop)] := by
  intro call pipeline clause first last
  have hforms : clause.EmbedsForms := by
    have hplain : ∀ name, (Command.mk [.word (.symbol name)]).EmbedsForms := by
      intro name term hterm
      simp [Command.words, Item.word?] at hterm
    have hcall : (Command.mk [.word (.embedded call)]).EmbedsForms := by
      intro term hterm
      simp only [Command.words, Item.word?, List.filterMap_cons, List.filterMap_nil,
        List.mem_singleton, Token.embedded.injEq] at hterm
      exact ⟨"f", [.text "x"], hterm⟩
    have hpipeline : pipeline.EmbedsForms := by
      simp only [Pipeline.EmbedsForms, pipeline, List.forall_mem_cons]
      exact ⟨hplain "a", hcall, hplain "b", List.forall_mem_nil _⟩
    have hlast : (Pipeline.ofName "quit" false).EmbedsForms := by
      simp only [Pipeline.EmbedsForms, Pipeline.ofName, List.forall_mem_cons]
      exact ⟨hplain "quit", List.forall_mem_nil _⟩
    simp only [Clause.EmbedsForms, clause, List.forall_mem_cons]
    exact ⟨hpipeline, hlast, List.forall_mem_nil _⟩
  exact ⟨_, rfl, hforms, walk_lower_eq_stops rfl hforms⟩

end Clause
end ShellLowering
