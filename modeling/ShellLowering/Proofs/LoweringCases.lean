import ShellLowering.Lowering.Clause
import ShellLowering.Proofs.NumeralText
import ShellLowering.Proofs.Outcome

/-!
What a lowered term can be. The notes of the lowering are gone here: every definition is turned into
an equation between results, and every success is traced back to the shape of the command.
-/

namespace ShellLowering

namespace Token

/-- A number that cannot be written, because it is an integer of too many digits. -/
def isOverlong : Token → Bool
  | .number value => value.text?.isNone
  | _ => false

theorem isOverlong_number_iff {value : Number} :
    (number value).isOverlong = true ↔ ∃ n : Int, value = .int n ∧ 10 ^ digitLimit ≤ n.natAbs := by
  rw [isOverlong, Option.isNone_iff_eq_none]
  cases value with
  | int n => rw [Number.text?_int_eq_none_iff]; simp
  | float value => simp [Number.text?]
  | flag value => cases value <;> simp [Number.text?]

theorem isOverlong_pow_digitLimit : (number (.int (10 ^ digitLimit))).isOverlong = true :=
  isOverlong_number_iff.mpr ⟨_, rfl, by simp⟩

/-- The two ways in which lowering takes a token: what it becomes, unless it is overlong. -/
theorem argument_and_commandName_cases (token : Token) :
    token.isOverlong = true ∧ token.argument = .error .tooManyDigits ∧
      token.commandName = .error .tooManyDigits ∨
    token.isOverlong = false ∧ ∃ arg name, token.argument = .ok arg ∧
      token.commandName = .ok name := by
  cases token with
  | number value =>
      cases htext : value.text? with
      | none =>
          refine .inl ⟨by simp [isOverlong, htext], ?_, ?_⟩ <;>
            simp [argument, commandName, written, text?, htext]
      | some text =>
          refine .inr ⟨by simp [isOverlong, htext], .expansion .full text, .text text, ?_, ?_⟩ <;>
            simp [argument, commandName, written, text?, htext]
  | _ => exact .inr ⟨rfl, _, _, rfl, rfl⟩

/-- The words behind the first one are lowered in order, and one that is overlong is enough to stop
them. -/
theorem arguments_cases (tokens : List Token) :
    (∃ token ∈ tokens, token.isOverlong = true) ∧ arguments tokens = .error .tooManyDigits ∨
    (∀ token ∈ tokens, token.isOverlong = false) ∧ ∃ args, arguments tokens = .ok args := by
  induction tokens with
  | nil => exact .inr ⟨by simp, [], rfl⟩
  | cons token tokens ih =>
      have hcons : arguments (token :: tokens) = token.argument >>= fun arg =>
        arguments tokens >>= fun args => .ok (arg :: args) := List.mapM_cons
      rw [hcons]
      rcases token.argument_and_commandName_cases with
        ⟨hover, harg, -⟩ | ⟨hover, arg, -, harg, -⟩
      · exact .inl ⟨⟨token, List.mem_cons_self, hover⟩, by simp [harg]⟩
      · rcases ih with ⟨⟨other, hother, hover'⟩, hargs⟩ | ⟨hovers, args, hargs⟩
        · exact .inl ⟨⟨other, List.mem_cons_of_mem _ hother, hover'⟩, by simp [harg, hargs]⟩
        · exact .inr ⟨List.forall_mem_cons.mpr ⟨hover, hovers⟩, arg :: args, by simp [harg, hargs]⟩

theorem arguments_of_isOverlong {tokens : List Token}
    (h : ∃ token ∈ tokens, token.isOverlong = true) :
    arguments tokens = .error .tooManyDigits := by
  obtain ⟨token, htoken, hover⟩ := h
  rcases arguments_cases tokens with ⟨-, hargs⟩ | ⟨hshort, -⟩
  · exact hargs
  · simp [hshort token htoken] at hover

theorem exists_arguments {tokens : List Token} (h : ∀ token ∈ tokens, token.isOverlong = false) :
    ∃ args, arguments tokens = .ok args := by
  rcases arguments_cases tokens with ⟨⟨token, htoken, hover⟩, -⟩ | ⟨-, hargs⟩
  · simp [h token htoken] at hover
  · exact hargs

theorem exists_commandName {token : Token} (h : token.isOverlong = false) :
    ∃ name, token.commandName = .ok name := by
  rcases token.argument_and_commandName_cases with ⟨hover, -⟩ | ⟨-, -, name, -, hname⟩
  · simp [h] at hover
  · exact ⟨name, hname⟩

theorem written_eq_ok {token : Token} {text : String} :
    token.written = .ok text ↔ token.text? = some text := by
  unfold written
  split <;> simp_all

theorem argument_eq_ok {token : Token} {arg : Term} (h : token.argument = .ok arg) :
    token = .embedded arg ∨ (∃ value, arg = .expansion .interpolation value) ∨
      ∃ text, token.text? = some text ∧ arg = .expansion .full text := by
  unfold argument at h
  split at h
  · exact .inl (by injection h with h; rw [h])
  · exact .inr (.inl ⟨_, by injection h with h; exact h.symm⟩)
  · obtain ⟨text, htext, h⟩ := bind_eq_ok.mp h
    injection h with h
    exact .inr (.inr ⟨text, written_eq_ok.mp htext, h.symm⟩)

theorem commandName_eq_ok {token : Token} {name : Term} (h : token.commandName = .ok name) :
    token = .embedded name ∨ ∃ text, token.text? = some text ∧ name = .text text := by
  unfold commandName at h
  split at h
  · exact .inl (by injection h with h; rw [h])
  · obtain ⟨text, htext, h⟩ := bind_eq_ok.mp h
    injection h with h
    exact .inr ⟨text, written_eq_ok.mp htext, h.symm⟩

end Token

namespace Redirection

/-- The operator of the redirection is one of the seven. -/
def IsKnown (redirection : Redirection) : Prop :=
  ∃ op : RedirectOp, redirection.op = some op.text

theorem lower_of_op {redirection : Redirection} {op : RedirectOp}
    (h : redirection.op = some op.text) :
    redirection.lower = .ok (op.actions redirection.fd redirection.target.redirectTarget) := by
  simp [lower, h, RedirectOp.ofText?_text]

theorem lower_eq_ok {redirection : Redirection} {actions : List (FdAction Term)}
    (h : redirection.lower = .ok actions) :
    ∃ op : RedirectOp, redirection.op = some op.text ∧
      actions = op.actions redirection.fd redirection.target.redirectTarget := by
  unfold lower at h
  split at h
  · next op hop =>
      obtain ⟨text, htext, hop⟩ := Option.bind_eq_some_iff.mp hop
      injection h with h
      exact ⟨op, by rw [htext, RedirectOp.eq_text_of_ofText? hop], h.symm⟩
  · cases h

/-- What one more redirection in front adds to the actions. -/
theorem lowerAll_cons_eq_ok {redirection : Redirection} {redirections : List Redirection}
    {actions : List (FdAction Term)} (h : lowerAll (redirection :: redirections) = .ok actions) :
    ∃ (op : RedirectOp) (rest : List (FdAction Term)), redirection.op = some op.text ∧
      lowerAll redirections = .ok rest ∧
      actions = op.actions redirection.fd redirection.target.redirectTarget ++ rest := by
  obtain ⟨own, hown, h⟩ := bind_eq_ok.mp h
  obtain ⟨rest, hrest, h⟩ := bind_eq_ok.mp h
  obtain ⟨op, hop, rfl⟩ := lower_eq_ok hown
  injection h with h
  exact ⟨op, rest, hop, hrest, h.symm⟩

theorem exists_lowerAll {redirections : List Redirection}
    (h : ∀ redirection ∈ redirections, redirection.IsKnown) :
    ∃ actions, lowerAll redirections = .ok actions := by
  induction redirections with
  | nil => exact ⟨[], rfl⟩
  | cons redirection redirections ih =>
      obtain ⟨⟨op, hop⟩, hrest⟩ := List.forall_mem_cons.mp h
      obtain ⟨rest, hrest⟩ := ih hrest
      exact ⟨_ ++ rest, by rw [lowerAll, lower_of_op hop, ok_bind, hrest]; rfl⟩

end Redirection

namespace Command

theorem word_mem_items {command : Command} {token : Token} (h : token ∈ command.words) :
    Item.word token ∈ command.items := by
  obtain ⟨item, hitem, hword⟩ := List.mem_filterMap.mp h
  cases item with
  | word word =>
      injection hword with hword
      exact hword ▸ hitem
  | redirect redirection => cases hword

theorem redirect_mem_items {command : Command} {redirection : Redirection}
    (h : redirection ∈ command.redirections) : Item.redirect redirection ∈ command.items := by
  obtain ⟨item, hitem, hredirection⟩ := List.mem_filterMap.mp h
  cases item with
  | word token => cases hredirection
  | redirect other =>
      injection hredirection with hredirection
      exact hredirection ▸ hitem

theorem words_of_embedded? {command : Command} {start : Term} {words : List Token}
    (h : command.embedded? = some (start, words)) :
    command.words = .embedded start :: words := by
  unfold embedded? at h
  split at h
  · next term rest hitems =>
      split at h
      · simp only [Option.some.injEq, Prod.mk.injEq] at h
        simp [Command.words, hitems, Item.word?, h]
      · cases h
  · cases h

theorem lower_eq (command : Command) (wiring : List (FdAction Term)) :
    command.lower wiring =
      if command.items.isEmpty then .error .emptyCommand
      else match command.embedded? with
        | some (term, []) => .ok term
        | some (term, words) => Token.arguments words >>= fun args => .ok (.sequence (term :: args))
        | none =>
          match command.words with
          | [] => .error .namelessCommand
          | name :: params =>
            Token.arguments params >>= fun args =>
              match builtin? name with
              | some builtin => .ok (.builtin builtin args)
              | none => command.lowerExternal wiring name args := by
  unfold lower trace
  split
  · rfl
  · rcases command.embedded? with _ | ⟨term, _ | ⟨word, words⟩⟩
    · cases command.words with
      | nil => rfl
      | cons name params =>
          refine (Traced.result_bind _ _).trans ?_
          refine bind_congr fun args => ?_
          cases hname : builtin? name <;> rfl
    · rfl
    · exact Traced.result_bind _ _

theorem lower_cases {command : Command} {wiring : List (FdAction Term)} {term : Term}
    (h : command.lower wiring = .ok term) :
    (∃ start words args, command.embedded? = some (start, words) ∧
      Token.arguments words = .ok args ∧
      term = if words = [] then start else .sequence (start :: args)) ∨
    (∃ name params builtin args, command.embedded? = none ∧ command.words = name :: params ∧
      builtin? name = some builtin ∧ Token.arguments params = .ok args ∧
      term = .builtin builtin args) ∨
    (∃ name params actions called args, command.embedded? = none ∧
      command.words = name :: params ∧ builtin? name = none ∧
      Redirection.lowerAll command.redirections = .ok actions ∧ name.commandName = .ok called ∧
      Token.arguments params = .ok args ∧
      term = .external called args
        (if (wiring ++ actions).isEmpty then none else some (wiring ++ actions))) := by
  rw [lower_eq] at h
  split at h
  · cases h
  · split at h
    · next start hstart =>
        exact .inl ⟨start, [], [], hstart, rfl, by simpa using h.symm⟩
    · next start words hwords hstart =>
        have hne : words ≠ [] := hwords
        obtain ⟨args, hargs, hterm⟩ := bind_eq_ok.mp h
        exact .inl ⟨start, words, args, hstart, hargs, by simpa [hne] using hterm.symm⟩
    · next hstart =>
        split at h
        · cases h
        · next name params hname =>
            obtain ⟨args, hargs, h⟩ := bind_eq_ok.mp h
            cases hbuiltin : builtin? name with
            | some builtin =>
                rw [hbuiltin] at h
                exact .inr (.inl ⟨name, params, builtin, args, hstart, hname, hbuiltin, hargs,
                  by simpa using h.symm⟩)
            | none =>
                rw [hbuiltin] at h
                obtain ⟨actions, hactions, h⟩ := bind_eq_ok.mp h
                obtain ⟨called, hcalled, hterm⟩ := bind_eq_ok.mp h
                exact .inr (.inr ⟨name, params, actions, called, args, hstart, hname, hbuiltin,
                  hactions, hcalled, hargs, by simpa [pure_eq_ok] using hterm.symm⟩)

/-- An overlong word behind the name is reached before anything else of the command. -/
theorem lower_of_isOverlong (name : String) {param : Token} (h : param.isOverlong = true)
    (wiring : List (FdAction Term)) :
    lower ⟨[.word (.symbol name), .word param]⟩ wiring = .error .tooManyDigits := by
  have hargs : Token.arguments [param] = .error .tooManyDigits :=
    Token.arguments_of_isOverlong ⟨param, List.mem_singleton_self param, h⟩
  rw [lower_eq]
  change Token.arguments [param] >>= _ = _
  rw [hargs]
  rfl

end Command

namespace Pipeline

theorem result_compose (op : Option String) (source target : Term) :
    (compose op source target).result =
      match op.bind PipeOp.ofText? with
      | none => .error (.unknownPipeOp op)
      | some op => .ok (.pipeCall op.combinator source
          (if op.defersTarget && !target.isSpecial then .deferred target else target)) := by
  unfold compose
  cases op.bind PipeOp.ofText? with
  | none => rfl
  | some op =>
      cases hdefer : op.defersTarget && !target.isSpecial <;> simp [hdefer, -bind_pure_comp]

theorem result_traceAfter_cons (lastWiring : List (FdAction Term)) (source : Term)
    (op : Option String) (command : Command) (commands : List (Option String × Command)) :
    (traceAfter lastWiring source ((op, command) :: commands)).result =
      command.lower (if commands.isEmpty then lastWiring else []) >>= fun target =>
        (compose op source target).result >>= fun call =>
          (traceAfter lastWiring call commands).result := by
  simp [traceAfter, Command.lower]

theorem lower_cons (mode : Mode) (op : Option String) (first : Command)
    (commands : List (Option String × Command)) (negated : Bool) :
    lower mode ⟨(op, first) :: commands, negated⟩ =
      first.lower (mode.wiring (commands.length + 1)).first >>= fun source =>
        (traceAfter (mode.wiring (commands.length + 1)).last source commands).result := by
  simp [lower, trace, Command.lower]

end Pipeline

namespace Clause

theorem result_continueTest (op : Option String) (negated : Bool) (name : String) :
    (continueTest op negated name).result =
      match op.bind ClauseOp.ofText? with
      | none => .error (.unknownClauseOp op)
      | some op => .ok (if op.continuesOnFailure ^^ negated then
          .negation (.condition (.ref name)) else .condition (.ref name)) := by
  unfold continueTest
  cases op.bind ClauseOp.ofText? with
  | none => rfl
  | some op => simp

def lowerChain (mode : Mode) (index : Nat) (pipeline : Pipeline)
    (others : List (Option String × Pipeline)) : Except LoweringError Term :=
  (traceChain (Pipeline.trace mode) index pipeline others).result

theorem lowerChain_nil (mode : Mode) (index : Nat) (pipeline : Pipeline) :
    lowerChain mode index pipeline [] = pipeline.lower mode := rfl

theorem lowerChain_cons (mode : Mode) (index : Nat) (pipeline : Pipeline) (op : Option String)
    (next : Pipeline) (others : List (Option String × Pipeline)) :
    lowerChain mode index pipeline ((op, next) :: others) = do
      let rest ← lowerChain mode (index + 1) next others
      let value ← pipeline.lower mode
      let test ← (continueTest op pipeline.negated (resultName index)).result
      return .binding (resultName index) (.wait value)
        (.conditional test rest (.ref (resultName index))) := by
  simp [lowerChain, traceChain, Pipeline.lower, pure_eq_ok, -bind_pure_comp]

theorem lower_cons (mode : Mode) (op : Option String) (first : Pipeline)
    (others : List (Option String × Pipeline)) :
    lower mode ⟨(op, first) :: others⟩ = lowerChain mode 0 first others := rfl

end Clause

namespace CommandList

theorem lower_cons (mode : Mode) (op : Option String) (clause : Clause)
    (others : List (Option String × Clause)) :
    lower mode ⟨(op, clause) :: others⟩ = clause.lower mode := by
  cases others with
  | nil => rfl
  | cons other others => simp [lower, trace, traceWith, Clause.lower, Clause.trace]

end CommandList
end ShellLowering
