import ShellLowering.Line.Lowering
import ShellLowering.Proofs.LoweringCases
import ShellLowering.Proofs.ParseYield
import ShellLowering.Proofs.ReadableTokens
import ShellLowering.Proofs.References
import ShellLowering.Proofs.TermGrammar

namespace ShellLowering

open Term

namespace Token

theorem isOverlong_of_isReadable {token : Token} (h : token.IsReadable) :
    token.isOverlong = false := by
  cases token with
  | number value =>
      obtain ⟨n, rfl, hlimit⟩ := h
      simp [isOverlong, Number.text?, Number.integerText?_natCast hlimit]
  | _ => rfl

theorem isArgument_of_argument {token : Token} {arg : Term} (h : token.IsReadable)
    (harg : token.argument = .ok arg) : arg.IsArgument := by
  rcases argument_eq_ok harg with rfl | ⟨value, rfl⟩ | ⟨text, -, rfl⟩
  · exact .call h
  · exact .interpolation value
  · exact .full text

theorem isRedirectTarget_redirectTarget {token : Token} (h : token.IsReadable) :
    token.redirectTarget.IsRedirectTarget := by
  cases token with
  | operator op => exact .expansion _
  | symbol name => exact .expansion _
  | string value => exact .expansion _
  | number value =>
      obtain ⟨n, rfl, hlimit⟩ := h
      exact .number ⟨n, rfl, hlimit⟩
  | embedded term => exact .call h

theorem commandName_cases {token : Token} {name : Term} (h : token.IsReadable)
    (hname : token.commandName = .ok name) :
    (∃ text, name = .text text) ∨ name.IsCall Line.IsQuotable := by
  rcases commandName_eq_ok hname with rfl | ⟨text, -, rfl⟩
  · exact .inr h
  · exact .inl ⟨text, rfl⟩

/-- Tokens that some line can be read into. -/
def AreReadable (tokens : List Token) : Prop :=
  ∀ token ∈ tokens, token.IsReadable

theorem AreReadable.of_subset {tokens others : List Token} (h : AreReadable tokens)
    (hsubset : others ⊆ tokens) : AreReadable others :=
  fun token htoken => h token (hsubset htoken)

theorem AreReadable.normalized {tokens : List Token} (h : AreReadable tokens) :
    AreReadable (tokens.map Token.normalized) :=
  forall_mem_normalized (fun _ => trivial) h

theorem AreReadable.isArgument {tokens : List Token} {args : List Term} (h : AreReadable tokens)
    (hargs : arguments tokens = .ok args) : ∀ arg ∈ args, arg.IsArgument := by
  intro arg harg
  obtain ⟨token, htoken, harg⟩ := exists_of_mem_mapM hargs harg
  exact isArgument_of_argument (h token htoken) harg

end Token

variable {mode : Mode}

namespace Redirection

theorem isAction_actions (op : RedirectOp) {fd : Option Int} {target : Term}
    (hfd : ∀ n ∈ fd, IsDescriptor n) (htarget : target.IsRedirectTarget) :
    ∀ action ∈ op.actions fd target, IsAction mode action := by
  have hdefault : ∀ fallback : Int, IsDescriptor fallback → IsDescriptor (fd.getD fallback) := by
    intro fallback hfallback
    cases fd with
    | none => exact hfallback
    | some n => exact hfd n rfl
  have hone : IsDescriptor 1 := isDescriptor_of_lt 1 (by decide)
  have htwo : IsDescriptor 2 := isDescriptor_of_lt 2 (by decide)
  have hinput := hdefault 0 (isDescriptor_of_lt 0 (by decide))
  have houtput := hdefault 1 hone
  have hsame : IsAction mode (.of .set 2 (.number (.int 1))) :=
    .redirect (by decide) htwo (.number hone)
  cases op with
  | output => exact List.forall_mem_singleton.mpr (.redirect (by decide) houtput htarget)
  | input => exact List.forall_mem_singleton.mpr (.redirect (by decide) hinput htarget)
  | append => exact List.forall_mem_singleton.mpr (.redirect (by decide) houtput htarget)
  | outputBoth =>
      exact forall_mem_pair.mpr ⟨.redirect (by decide) hone htarget, hsame⟩
  | appendBoth =>
      exact forall_mem_pair.mpr ⟨.redirect (by decide) hone htarget, hsame⟩
  | readWrite => exact List.forall_mem_singleton.mpr (.redirect (by decide) hinput htarget)
  | duplicate => exact List.forall_mem_singleton.mpr (.redirect (by decide) houtput htarget)

theorem isAction_lowerAll {redirections : List Redirection} {actions : List (FdAction Term)}
    (hreadable : ∀ redirection ∈ redirections,
      (∀ n ∈ redirection.fd, IsDescriptor n) ∧ redirection.target.IsReadable)
    (h : lowerAll redirections = .ok actions) : ∀ action ∈ actions, IsAction mode action := by
  induction redirections generalizing actions with
  | nil =>
      injection h with h
      exact h ▸ List.forall_mem_nil _
  | cons redirection redirections ih =>
      obtain ⟨⟨hfd, htarget⟩, hredirections⟩ := List.forall_mem_cons.mp hreadable
      obtain ⟨op, rest, -, hrest, rfl⟩ := lowerAll_cons_eq_ok h
      refine List.forall_mem_append.mpr ⟨?_, ih hredirections hrest⟩
      exact isAction_actions op hfd (Token.isRedirectTarget_redirectTarget htarget)

end Redirection

theorem Mode.isAction_wiring (mode : Mode) (count : Nat) :
    (∀ action ∈ (mode.wiring count).first, IsAction mode action) ∧
      ∀ action ∈ (mode.wiring count).last, IsAction mode action := by
  cases mode with
  | batch => exact ⟨List.forall_mem_nil _, List.forall_mem_nil _⟩
  | interactive =>
      have hset : ∀ fd : Nat, fd < 10 → ∀ endpoint : Endpoint,
          IsAction .interactive (.of .set fd (.endpoint endpoint)) :=
        fun fd hfd endpoint => .wire rfl (isDescriptor_of_lt fd hfd) endpoint
      have hstdio : ∀ input output : Endpoint, ∀ action ∈ [FdAction.of .set 0 (Term.endpoint input),
          .of .set 1 (.endpoint output), .of .set 2 (.endpoint .stderr)],
          IsAction .interactive action := by
        intro input output
        refine List.forall_mem_cons.mpr ⟨hset 0 (by decide) _, forall_mem_pair.mpr ?_⟩
        exact ⟨hset 1 (by decide) _, hset 2 (by decide) _⟩
      exact ⟨hstdio _ _, hstdio _ _⟩

namespace Command

theorem words_subset_tokens (command : Command) : command.words ⊆ command.tokens :=
  fun word hword => Item.tokens_subset (word_mem_items hword) (List.mem_singleton_self word)

theorem isReadable_redirection {command : Command} (h : Token.AreReadable command.tokens) :
    ∀ redirection ∈ command.redirections,
      (∀ n ∈ redirection.fd, IsDescriptor n) ∧ redirection.target.IsReadable := by
  intro redirection hredirection
  have htokens : Token.AreReadable (Item.redirect redirection).tokens :=
    h.of_subset (Item.tokens_subset (redirect_mem_items hredirection))
  refine ⟨fun fd hfd => ?_, htokens redirection.target (Item.target_mem_tokens redirection)⟩
  obtain ⟨n, hn, hlimit⟩ := htokens _ (Item.fd_mem_tokens hfd)
  injection hn with hn
  exact ⟨n, hn, hlimit⟩

theorem isCommand_of_embedded? {command : Command} {start : Term} {words : List Token}
    (h : command.embedded? = some (start, words)) : start.isCommand = true := by
  unfold embedded? at h
  split at h
  · split at h
    · next hcommand =>
        injection h with h
        injection h with h
        exact h ▸ hcommand
    · cases h
  · cases h

theorem mem_builtinNames_of_builtin? {token : Token} {name : String}
    (h : builtin? token = some name) : name ∈ builtinNames := by
  unfold builtin? at h
  split at h
  · split at h
    · next hname =>
        injection h with h
        exact h ▸ hname
    · cases h
  · cases h

theorem isStage_lower {command : Command} {wiring : List (FdAction Term)} {term : Term}
    (hwiring : ∀ action ∈ wiring, IsAction mode action)
    (hreadable : Token.AreReadable command.tokens) (h : command.lower wiring = .ok term) :
    IsStage mode term := by
  have hwords := hreadable.of_subset command.words_subset_tokens
  rcases lower_cases h with ⟨start, words, steps, hstart, hsteps, rfl⟩ |
    ⟨name, params, builtin, args, -, hname, hbuiltin, hargs, rfl⟩ |
    ⟨name, params, actions, called, args, -, hname, -, hactions, hcalled, hargs, rfl⟩
  · rw [words_of_embedded? hstart] at hwords
    obtain ⟨hcall, hparams⟩ := List.forall_mem_cons.mp hwords
    obtain ⟨_, head, args, rfl⟩ := id hcall
    have hhead : head ≠ commandNameHead := by
      simpa [Term.isCommand] using isCommand_of_embedded? hstart
    split
    · exact .form hhead hcall
    · next hne =>
        have hsome : steps ≠ [] := by
          rintro rfl
          exact hne (List.forall₂_nil_right_iff.mp (mapM_eq_ok.mp hsteps))
        exact .sequence hhead hcall hsome (Token.AreReadable.isArgument hparams hsteps)
  · rw [hname] at hwords
    obtain ⟨_, hparams⟩ := List.forall_mem_cons.mp hwords
    exact .builtin (mem_builtinNames_of_builtin? hbuiltin)
      (Token.AreReadable.isArgument hparams hargs)
  · rw [hname] at hwords
    obtain ⟨hfirst, hparams⟩ := List.forall_mem_cons.mp hwords
    refine .external (Token.commandName_cases hfirst hcalled)
      (Token.AreReadable.isArgument hparams hargs) ?_
    have hall := List.forall_mem_append.mpr
      ⟨hwiring, Redirection.isAction_lowerAll (isReadable_redirection hreadable) hactions⟩
    split
    · intro redirects hredirects
      cases hredirects
    · next hne =>
        intro redirects hredirects
        injection hredirects with hredirects
        subst hredirects
        exact ⟨by simpa using hne, hall⟩

end Command

namespace Pipeline

theorem isSpecial_eq_false_iff {target : Term} (h : IsStage mode target) :
    target.isSpecial = false ↔ target.LeavesOpen := by
  cases h with
  | external => simp [Term.isSpecial, LeavesOpen]
  | builtin => simp [Term.isSpecial, LeavesOpen]
  | form => simp [Term.isSpecial, LeavesOpen]
  | sequence => simp [Term.isSpecial, LeavesOpen]

theorem isPipeline_compose {op : Option String} {source target call : Term}
    (hsource : IsPipeline mode source) (htarget : IsStage mode target)
    (h : (compose op source target).result = .ok call) : IsPipeline mode call := by
  have hiff := isSpecial_eq_false_iff htarget
  rw [result_compose] at h
  split at h
  · cases h
  · next op _ =>
      injection h with h
      subst h
      cases hdefers : op.defersTarget with
      | false =>
          have hbare : op.combinator ∈ bareCombinators := by
            revert hdefers
            cases op <;> decide
          exact .bare hbare hsource htarget
      | true =>
          have hopening : op.combinator ∈ openingCombinators := by
            revert hdefers
            cases op <;> decide
          cases hspecial : target.isSpecial with
          | false => exact .deferred hopening hsource htarget (hiff.mp hspecial)
          | true =>
              refine .closed hopening hsource htarget fun hopen => ?_
              rw [hiff.mpr hopen] at hspecial
              cases hspecial

theorem isPipeline_traceAfter {lastWiring : List (FdAction Term)} {source term : Term}
    {commands : List (Option String × Command)}
    (hwiring : ∀ action ∈ lastWiring, IsAction mode action)
    (hreadable : ∀ command ∈ commands, Token.AreReadable command.2.tokens)
    (hsource : IsPipeline mode source)
    (h : (traceAfter lastWiring source commands).result = .ok term) : IsPipeline mode term := by
  induction commands generalizing source with
  | nil =>
      injection h with h
      exact h ▸ hsource
  | cons command commands ih =>
      obtain ⟨hcommand, hcommands⟩ := List.forall_mem_cons.mp hreadable
      rw [result_traceAfter_cons] at h
      obtain ⟨target, htarget, h⟩ := bind_eq_ok.mp h
      obtain ⟨call, hcall, h⟩ := bind_eq_ok.mp h
      have hstage : IsStage mode target := by
        refine Command.isStage_lower ?_ hcommand htarget
        split
        · exact hwiring
        · exact List.forall_mem_nil _
      exact ih hcommands (isPipeline_compose hsource hstage hcall) h

theorem isPipeline_lower {pipeline : Pipeline} {term : Term}
    (hreadable : Token.AreReadable pipeline.tokens) (h : pipeline.lower mode = .ok term) :
    IsPipeline mode term := by
  have hcommands : ∀ command ∈ pipeline.commands, Token.AreReadable command.2.tokens := by
    intro command hcommand
    exact hreadable.of_subset
      (List.subset_append_of_subset_right _ (Tree.subset_joinTokens hcommand))
  obtain ⟨_ | ⟨⟨op, first⟩, commands⟩, negated⟩ := pipeline
  · cases h
  · obtain ⟨hfirst, hcommands⟩ := List.forall_mem_cons.mp hcommands
    obtain ⟨hfirstWiring, hlastWiring⟩ := mode.isAction_wiring (commands.length + 1)
    rw [lower_cons] at h
    obtain ⟨source, hsource, h⟩ := bind_eq_ok.mp h
    have hstage := Command.isStage_lower hfirstWiring hfirst hsource
    exact isPipeline_traceAfter hlastWiring hcommands (.stage hstage) h

end Pipeline

namespace Clause

theorem isClause_lowerChain {index : Nat} {pipeline : Pipeline}
    {others : List (Option String × Pipeline)} {term : Term}
    (hfirst : Token.AreReadable pipeline.tokens)
    (hothers : ∀ other ∈ others, Token.AreReadable other.2.tokens)
    (h : lowerChain mode index pipeline others = .ok term) : IsClause mode index term := by
  induction others generalizing index pipeline term with
  | nil => exact .pipeline (Pipeline.isPipeline_lower hfirst h)
  | cons other others ih =>
      obtain ⟨hnext, hothers⟩ := List.forall_mem_cons.mp hothers
      rw [lowerChain_cons] at h
      obtain ⟨rest, hrest, h⟩ := bind_eq_ok.mp h
      obtain ⟨value, hvalue, h⟩ := bind_eq_ok.mp h
      obtain ⟨test, htest, h⟩ := bind_eq_ok.mp h
      injection h with h
      subst h
      refine .binding (Pipeline.isPipeline_lower hfirst hvalue) ?_ (ih hnext hothers hrest)
      rw [result_continueTest] at htest
      split at htest
      · cases htest
      · injection htest with htest
        subst htest
        split
        · exact .inr rfl
        · exact .inl rfl

theorem isClause_lower {clause : Clause} {term : Term}
    (hreadable : Token.AreReadable clause.tokens) (h : clause.lower mode = .ok term) :
    IsClause mode 0 term := by
  have hpipelines : ∀ pipeline ∈ clause.pipelines, Token.AreReadable pipeline.2.tokens :=
    fun pipeline hpipeline => hreadable.of_subset (Tree.subset_joinTokens hpipeline)
  obtain ⟨_ | ⟨⟨op, first⟩, others⟩⟩ := clause
  · cases h
  · obtain ⟨hfirst, hothers⟩ := List.forall_mem_cons.mp hpipelines
    exact isClause_lowerChain hfirst hothers h

end Clause

theorem CommandList.isClause_lower {list : CommandList} {term : Term}
    (hreadable : Token.AreReadable list.tokens) (h : list.lower mode = .ok term) :
    IsClause mode 0 term := by
  have hclauses : ∀ clause ∈ list.clauses, Token.AreReadable clause.2.tokens :=
    fun clause hclause => hreadable.of_subset (Tree.subset_joinTokens hclause)
  obtain ⟨_ | ⟨⟨op, first⟩, others⟩⟩ := list
  · cases h
  · rw [lower_cons] at h
    exact Clause.isClause_lower (hclauses _ List.mem_cons_self) h

namespace Line

theorem isClause_lower {line : String} {term : Term} (h : lower mode line = .ok term) :
    IsClause mode 0 term := by
  obtain ⟨tokens, htokens, h⟩ := bind_eq_ok.mp h
  obtain ⟨list, hlist, h⟩ := bind_eq_ok.mp h
  have hread : read line = .ok tokens := mapError_eq_ok htokens
  obtain ⟨_, htokens⟩ := CommandList.isCanonical_of_parse (mapError_eq_ok hlist)
  have hreadable : Token.AreReadable tokens := isReadable_of_read hread
  exact CommandList.isClause_lower (htokens ▸ hreadable.normalized) (mapError_eq_ok h)

/-- Whenever a line has a term, that is in the grammar. The names that it binds are distinct, every
name stands in its scope, and there is nothing deferred and no endpoint out of place. -/
theorem isClause_and_isResolved_of_lower {line : String} {term : Term}
    (h : lower mode line = .ok term) :
    IsClause mode 0 term ∧ (term.boundNames []).Nodup ∧ ¬ term.IsDeferred ∧
      ∀ part ∈ term.parts [], IsResolved mode part := by
  have hclause := isClause_lower h
  have hresolves : ResolvesIn mode [] term := .of_isClause hclause
  exact ⟨hclause, hclause.nodup_boundNames [], hresolves.notDeferred, hresolves.resolved⟩

/-- A negated pipeline of a builtin, a call with an argument and a deferred call, a filter with a
special call, and a builtin alone. -/
theorem isClause_and_isResolved_of_lower_chain :
    let line := "! cd d |> (f 'x y') z | (g a) && sort 3< x |? (if b) || quit"
    let first : Term := .pipeCall "pipe" (.pipeCall "pipe-multi"
      (.builtin "cd" [.expansion .full "d"])
      (.sequence [.form "f" [.text "x y"], .expansion .full "z"]))
      (.deferred (.form "g" [.text "a"]))
    let second : Term := .pipeCall "pipe-filter"
      (.external (.text "sort") [] (some [.of .input 3 (.expansion .redirectTarget "x")]))
      (.form "if" [.text "b"])
    let rest : Term := .binding "__pipeline_result_1" (.wait second)
      (.conditional (.negation (.condition (.ref "__pipeline_result_1"))) (.builtin "quit" [])
        (.ref "__pipeline_result_1"))
    let term : Term := .binding "__pipeline_result_0" (.wait first)
      (.conditional (.negation (.condition (.ref "__pipeline_result_0"))) rest
        (.ref "__pipeline_result_0"))
    lower .batch line = .ok term ∧ IsClause .batch 0 term ∧ (term.boundNames []).Nodup ∧
      ¬ term.IsDeferred ∧ ∀ part ∈ term.parts [], IsResolved .batch part := by
  have hgrammar : ∀ {line : String} {term : Term}, lower .batch line = .ok term →
      lower .batch line = .ok term ∧ IsClause .batch 0 term ∧ (term.boundNames []).Nodup ∧
        ¬ term.IsDeferred ∧ ∀ part ∈ term.parts [], IsResolved .batch part :=
    fun h => ⟨h, isClause_and_isResolved_of_lower h⟩
  exact hgrammar (by rfl)

end Line
end ShellLowering
