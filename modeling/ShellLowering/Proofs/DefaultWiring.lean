import ShellLowering.Proofs.LoweringCases

namespace ShellLowering

def Endpoint.wiring (input output : Endpoint) : List (FdAction Term) :=
  [.of .set 0 (.endpoint input), .of .set 1 (.endpoint output), .of .set 2 (.endpoint .stderr)]

namespace Term

/-- Changes the stage at the far left of a nest of pipe calls that is so deep. -/
def mapFirstStage (f : Term → Term) : Nat → Term → Term
  | 0, term => f term
  | depth + 1, .pipeCall combinator source target =>
    .pipeCall combinator (source.mapFirstStage f depth) target
  | _ + 1, term => term

def mapLastStage (f : Term → Term) : Term → Term
  | .pipeCall combinator source target => .pipeCall combinator source (f target)
  | term => term

end Term

/-- Puts a wiring in front of the redirections of the external command that a command is lowered
to. A command that starts with a term is that term, so it is left alone even if the term is an
external command itself. -/
def Command.rewire (command : Command) (wiring : List (FdAction Term)) : Term → Term
  | .external name args redirects =>
    if command.embedded?.isSome then .external name args redirects
    else .external name args (some (wiring ++ redirects.getD []))
  | term => term

def Pipeline.rewireLast (wiring : List (FdAction Term))
    (commands : List (Option String × Command)) (term : Term) : Term :=
  match commands.getLast? with
  | none => term
  | some (_, last) => term.mapLastStage (last.rewire wiring)

/-- Wires both ends of a pipeline. The first command writes to a pipe only if there are commands in
between, and a single command is wired once. -/
def Pipeline.rewire (pipeline : Pipeline) (term : Term) : Term :=
  match pipeline.commands with
  | [] => term
  | (_, first) :: others =>
    let output := if 2 < pipeline.commands.length then Endpoint.pipe else .stdout
    rewireLast (Endpoint.pipe.wiring .stdout) others
      (term.mapFirstStage (first.rewire (Endpoint.stdin.wiring output)) others.length)

/-- Wires every pipeline of a chain; names, tests and references stay. -/
def Clause.rewireChain (pipeline : Pipeline) : List (Option String × Pipeline) → Term → Term
  | [], term => pipeline.rewire term
  | (_, next) :: others, .binding name (.wait value) (.conditional test rest result) =>
    .binding name (.wait (pipeline.rewire value))
      (.conditional test (rewireChain next others rest) result)
  | _, term => term

def Clause.rewire (clause : Clause) (term : Term) : Term :=
  match clause.pipelines with
  | [] => term
  | (_, first) :: others => rewireChain first others term

def CommandList.rewire (list : CommandList) (term : Term) : Term :=
  match list.clauses with
  | [] => term
  | (_, clause) :: _ => clause.rewire term

namespace Command

theorem rewire_of_embedded? {command : Command} (h : command.embedded?.isSome)
    (wiring : List (FdAction Term)) (term : Term) : command.rewire wiring term = term := by
  cases term <;> simp [rewire, h]

theorem lowerExternal_eq_map_rewire (command : Command) {wiring : List (FdAction Term)}
    (hwiring : wiring ≠ []) (hstart : command.embedded? = none) (name : Token)
    (args : List Term) :
    command.lowerExternal wiring name args =
      (command.lowerExternal [] name args).map (command.rewire wiring) := by
  cases hactions : Redirection.lowerAll command.redirections with
  | error e => simp [lowerExternal, hactions, Except.map]
  | ok actions =>
      cases hname : name.commandName with
      | error e => simp [lowerExternal, hactions, hname, Except.map]
      | ok called =>
          cases actions <;>
            simp [lowerExternal, hactions, hname, Except.map, pure_eq_ok, rewire, hstart, hwiring]

theorem lower_eq_map_rewire (command : Command) {wiring : List (FdAction Term)}
    (hwiring : wiring ≠ []) :
    command.lower wiring = (command.lower []).map (command.rewire wiring) := by
  rw [lower_eq, lower_eq]
  split
  · rfl
  · split
    · next start hstart =>
        simp [Except.map, rewire_of_embedded?, hstart]
    · next start words hwords hstart =>
        cases Token.arguments words with
        | error e => rfl
        | ok args => simp [Except.map, rewire_of_embedded?, hstart]
    · next hstart =>
        split
        · rfl
        · next name params hname =>
            cases Token.arguments params with
            | error e => rfl
            | ok args =>
                cases hbuiltin : builtin? name with
                | some builtin => rfl
                | none => simpa using command.lowerExternal_eq_map_rewire hwiring hstart name args

theorem isSpecial_rewire (command : Command) (wiring : List (FdAction Term)) (term : Term) :
    (command.rewire wiring term).isSpecial = term.isSpecial := by
  unfold rewire
  split
  · split <;> rfl
  · rfl

end Command

namespace Pipeline

theorem compose_mapFirstStage (f : Term → Term) (depth : Nat) (op : Option String)
    (source target : Term) :
    (compose op (source.mapFirstStage f depth) target).result =
      ((compose op source target).result).map (Term.mapFirstStage f (depth + 1)) := by
  rw [result_compose, result_compose]
  split <;> rfl

theorem rewire_of_not_isSpecial (command : Command) (wiring : List (FdAction Term)) {term : Term}
    (h : term.isSpecial = false) : command.rewire wiring term = term := by
  cases term with
  | external name args redirects => simp [Term.isSpecial] at h
  | _ => rfl

theorem compose_rewire (command : Command) (wiring : List (FdAction Term)) (op : Option String)
    (source target : Term) :
    (compose op source (command.rewire wiring target)).result =
      ((compose op source target).result).map (Term.mapLastStage (command.rewire wiring)) := by
  rw [result_compose, result_compose, Command.isSpecial_rewire]
  split
  · rfl
  · next operator hop =>
      cases hdefer : operator.defersTarget && !target.isSpecial with
      | false => rfl
      | true =>
          simp only [Bool.and_eq_true, Bool.not_eq_true'] at hdefer
          rw [rewire_of_not_isSpecial command wiring hdefer.2]
          rfl

theorem traceAfter_mapFirstStage (f : Term → Term) {lastWiring : List (FdAction Term)}
    (hwiring : lastWiring ≠ []) (depth : Nat) (source : Term)
    (commands : List (Option String × Command)) :
    (traceAfter lastWiring (source.mapFirstStage f depth) commands).result =
      ((traceAfter [] source commands).result).map fun term =>
        rewireLast lastWiring commands (term.mapFirstStage f (depth + commands.length)) := by
  induction commands generalizing depth source with
  | nil => rfl
  | cons command commands ih =>
      obtain ⟨op, command⟩ := command
      rw [result_traceAfter_cons, result_traceAfter_cons]
      cases commands with
      | nil =>
          rw [List.isEmpty_nil, if_pos rfl, if_pos rfl, Command.lower_eq_map_rewire command hwiring]
          cases htarget : command.lower [] with
          | error e => rfl
          | ok target =>
              simp only [Except.map, ok_bind]
              rw [compose_rewire, compose_mapFirstStage]
              cases hcall : (compose op source target).result <;> rfl
      | cons next commands =>
          rw [List.isEmpty_cons, if_neg Bool.false_ne_true, if_neg Bool.false_ne_true]
          cases htarget : command.lower [] with
          | error e => rfl
          | ok target =>
              simp only [ok_bind]
              rw [compose_mapFirstStage]
              cases hcall : (compose op source target).result with
              | error e => rfl
              | ok call =>
                  simp only [Except.map, ok_bind]
                  rw [ih (depth + 1) call, Nat.add_assoc, Nat.add_comm 1]
                  rfl

theorem lower_interactive (pipeline : Pipeline) :
    pipeline.lower .interactive = (pipeline.lower .batch).map pipeline.rewire := by
  obtain ⟨_ | ⟨⟨op, first⟩, commands⟩, negated⟩ := pipeline
  · rfl
  · let output := if 2 < commands.length + 1 then Endpoint.pipe else .stdout
    let firstWiring := Endpoint.stdin.wiring output
    let lastWiring := Endpoint.pipe.wiring .stdout
    rw [lower_cons, lower_cons]
    change (first.lower firstWiring >>= fun source =>
      (traceAfter lastWiring source commands).result) =
        (first.lower [] >>= fun source => (traceAfter [] source commands).result).map _
    have hfirst : firstWiring ≠ [] := by simp [firstWiring, Endpoint.wiring]
    have hlast : lastWiring ≠ [] := by simp [lastWiring, Endpoint.wiring]
    rw [Command.lower_eq_map_rewire first hfirst]
    cases hsource : first.lower [] with
    | error e => rfl
    | ok source =>
        change (traceAfter lastWiring (source.mapFirstStage (first.rewire firstWiring) 0)
          commands).result = ((traceAfter [] source commands).result).map _
        rw [traceAfter_mapFirstStage _ hlast, Nat.zero_add]
        rfl

end Pipeline

namespace Clause

theorem lowerChain_interactive (index : Nat) (pipeline : Pipeline)
    (others : List (Option String × Pipeline)) :
    lowerChain .interactive index pipeline others =
      (lowerChain .batch index pipeline others).map (rewireChain pipeline others) := by
  induction others generalizing index pipeline with
  | nil => exact pipeline.lower_interactive
  | cons other others ih =>
      obtain ⟨op, next⟩ := other
      rw [lowerChain_cons, lowerChain_cons, ih, Pipeline.lower_interactive]
      cases hrest : lowerChain .batch (index + 1) next others with
      | error e => rfl
      | ok rest =>
          cases hvalue : pipeline.lower .batch with
          | error e => rfl
          | ok value =>
              cases htest : (continueTest op pipeline.negated (resultName index)).result <;> rfl

theorem lower_interactive (clause : Clause) :
    clause.lower .interactive = (clause.lower .batch).map clause.rewire := by
  obtain ⟨_ | ⟨⟨op, first⟩, others⟩⟩ := clause
  · rfl
  · exact lowerChain_interactive 0 first others

end Clause

/-- The interactive term of a list is its batch term with the default wiring added; one fails if and
only if the other does, with the same error. -/
theorem CommandList.lower_interactive_eq_map_rewire (list : CommandList) :
    list.lower .interactive = (list.lower .batch).map list.rewire := by
  obtain ⟨_ | ⟨⟨op, clause⟩, others⟩⟩ := list
  · rfl
  · rw [lower_cons, lower_cons]
    exact clause.lower_interactive

end ShellLowering
