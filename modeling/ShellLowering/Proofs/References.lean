import ShellLowering.Proofs.LoweringCases

namespace ShellLowering

namespace Term

mutual

/-- The names of all references in a term. -/
def references : Term → List String
  | .absent => []
  | .number _ => []
  | .text _ => []
  | .endpoint _ => []
  | .tuple items => referencesIn items
  | .fdAction action => actionReferences action
  | .expansion _ _ => []
  | .builtin _ args => referencesIn args
  | .external name args redirects =>
    name.references ++ referencesIn args ++ redirectReferences redirects
  | .form _ args => referencesIn args
  | .sequence steps => referencesIn steps
  | .deferred term => term.references
  | .pipeCall _ source target => source.references ++ target.references
  | .wait term => term.references
  | .condition term => term.references
  | .negation term => term.references
  | .ref name => [name]
  | .binding _ value body => value.references ++ body.references
  | .conditional test onTrue onFalse =>
    test.references ++ onTrue.references ++ onFalse.references

def referencesIn : List Term → List String
  | [] => []
  | term :: terms => term.references ++ referencesIn terms

def actionReferences : FdAction Term → List String
  | ⟨_, _, target⟩ => target.references

def actionsReferences : List (FdAction Term) → List String
  | [] => []
  | action :: actions => actionReferences action ++ actionsReferences actions

def redirectReferences : Option (List (FdAction Term)) → List String
  | none => []
  | some actions => actionsReferences actions

end

@[simp] theorem referencesIn_eq_flatMap (terms : List Term) :
    referencesIn terms = terms.flatMap references := by
  induction terms with
  | nil => rfl
  | cons term terms ih => simp [referencesIn, ih]

@[simp] theorem actionsReferences_eq_flatMap (actions : List (FdAction Term)) :
    actionsReferences actions = actions.flatMap actionReferences := by
  induction actions with
  | nil => rfl
  | cons action actions ih => simp [actionsReferences, ih]

@[simp] theorem actionReferences_of (kind : FdAction.Kind) (fd : Int) (target : Term) :
    actionReferences (.of kind fd target) = target.references := by
  simp [actionReferences]

end Term

def Token.references : Token → List String
  | .embedded term => term.references
  | _ => []

def Item.references : Item → List String
  | .word token => token.references
  | .redirect redirection => redirection.target.references

def Command.references (command : Command) : List String :=
  command.items.flatMap Item.references

def Pipeline.references (pipeline : Pipeline) : List String :=
  pipeline.commands.flatMap fun (_, command) => command.references

def Clause.references (clause : Clause) : List String :=
  clause.pipelines.flatMap fun (_, pipeline) => pipeline.references

namespace Token

theorem references_argument_subset {token : Token} {arg : Term} (h : token.argument = .ok arg) :
    arg.references ⊆ token.references := by
  rcases argument_eq_ok h with rfl | ⟨value, rfl⟩ | ⟨text, -, rfl⟩ <;>
    simp [references, Term.references]

@[simp] theorem references_redirectTarget (token : Token) :
    token.redirectTarget.references = token.references := by
  cases token <;> simp [redirectTarget, references, Term.references]

theorem references_commandName_subset {token : Token} {name : Term}
    (h : token.commandName = .ok name) : name.references ⊆ token.references := by
  rcases commandName_eq_ok h with rfl | ⟨text, -, rfl⟩ <;> simp [references, Term.references]

end Token

theorem RedirectOp.references_actions_subset (op : RedirectOp) (fd : Option Int) (target : Term) :
    (op.actions fd target).flatMap Term.actionReferences ⊆ target.references := by
  cases op <;> simp [actions, Term.references]

theorem Redirection.references_lowerAll_subset {redirections : List Redirection}
    {actions : List (FdAction Term)} (h : lowerAll redirections = .ok actions) :
    actions.flatMap Term.actionReferences ⊆
      redirections.flatMap fun redirection => redirection.target.references := by
  induction redirections generalizing actions with
  | nil =>
      injection h with h
      subst h
      simp
  | cons redirection redirections ih =>
      obtain ⟨op, rest, -, hrest, rfl⟩ := lowerAll_cons_eq_ok h
      have hown := op.references_actions_subset redirection.fd redirection.target.redirectTarget
      rw [Token.references_redirectTarget] at hown
      rw [List.flatMap_append, List.flatMap_cons]
      exact List.append_subset.mpr ⟨List.subset_append_of_subset_left _ hown,
        List.subset_append_of_subset_right _ (ih hrest)⟩

namespace Command

theorem references_word_subset {command : Command} {token : Token}
    (h : token ∈ command.words) : token.references ⊆ command.references :=
  fun _ hname => List.mem_flatMap.mpr ⟨.word token, word_mem_items h, hname⟩

theorem references_redirection_subset {command : Command} {redirection : Redirection}
    (h : redirection ∈ command.redirections) :
    redirection.target.references ⊆ command.references :=
  fun _ hname => List.mem_flatMap.mpr ⟨.redirect redirection, redirect_mem_items h, hname⟩

theorem references_lower_subset {command : Command} {wiring : List (FdAction Term)} {term : Term}
    (hwiring : wiring.flatMap Term.actionReferences = [])
    (h : command.lower wiring = .ok term) : term.references ⊆ command.references := by
  have hargs : ∀ {tokens : List Token} {args : List Term}, tokens ⊆ command.words →
      Token.arguments tokens = .ok args → args.flatMap Term.references ⊆ command.references := by
    intro tokens args htokens hargs name hname
    obtain ⟨arg, harg, hname⟩ := List.mem_flatMap.mp hname
    obtain ⟨token, htoken, harg⟩ := exists_of_mem_mapM hargs harg
    exact references_word_subset (htokens htoken) (Token.references_argument_subset harg hname)
  rcases lower_cases h with ⟨start, words, args, hstart, hlowered, rfl⟩ |
    ⟨name, params, builtin, args, -, hwords, -, hlowered, rfl⟩ |
    ⟨name, params, actions, called, args, -, hwords, -, hactions, hcalled, hlowered, rfl⟩
  · have hwords := words_of_embedded? hstart
    have hmem : Token.embedded start ∈ command.words := by simp [hwords]
    have hhead : start.references ⊆ command.references := references_word_subset hmem
    split
    · exact hhead
    · simp only [Term.references, Term.referencesIn_eq_flatMap, List.flatMap_cons]
      exact List.append_subset.mpr ⟨hhead, hargs (by simp [hwords]) hlowered⟩
  · simp only [Term.references, Term.referencesIn_eq_flatMap]
    exact hargs (by simp [hwords]) hlowered
  · have hredirects : actions.flatMap Term.actionReferences ⊆ command.references := by
      intro name hname
      obtain ⟨redirection, hredirection, hname⟩ :=
        List.mem_flatMap.mp (Redirection.references_lowerAll_subset hactions hname)
      exact references_redirection_subset hredirection hname
    have hname : called.references ⊆ command.references := fun _ hname =>
      references_word_subset (by simp [hwords]) (Token.references_commandName_subset hcalled hname)
    simp only [Term.references, Term.referencesIn_eq_flatMap]
    refine List.append_subset.mpr
      ⟨List.append_subset.mpr ⟨hname, hargs (by simp [hwords]) hlowered⟩, ?_⟩
    split
    · simp [Term.redirectReferences]
    · simpa [Term.redirectReferences, hwiring] using hredirects

end Command

theorem Mode.references_wiring (mode : Mode) (count : Nat) :
    (mode.wiring count).first.flatMap Term.actionReferences = [] ∧
      (mode.wiring count).last.flatMap Term.actionReferences = [] := by
  cases mode <;> simp [wiring, Term.references]

namespace Pipeline

theorem references_compose_subset {op : Option String} {source target call : Term}
    (h : (compose op source target).result = .ok call) :
    call.references ⊆ source.references ++ target.references := by
  rw [result_compose] at h
  split at h
  · cases h
  · injection h with h
    subst h
    split <;> simp [Term.references]

theorem references_traceAfter_subset {lastWiring : List (FdAction Term)} {source term : Term}
    {commands : List (Option String × Command)}
    (hwiring : lastWiring.flatMap Term.actionReferences = [])
    (h : (traceAfter lastWiring source commands).result = .ok term) :
    term.references ⊆
      source.references ++ commands.flatMap fun (_, command) => command.references := by
  induction commands generalizing source with
  | nil =>
      injection h with h
      simp [h]
  | cons command commands ih =>
      rw [result_traceAfter_cons] at h
      obtain ⟨target, htarget, h⟩ := bind_eq_ok.mp h
      obtain ⟨call, hcall, h⟩ := bind_eq_ok.mp h
      have htarget : target.references ⊆ command.2.references :=
        Command.references_lower_subset (by split <;> simp [hwiring]) htarget
      have hcall := references_compose_subset hcall
      intro name hname
      have := ih h hname
      simp only [List.mem_append, List.flatMap_cons] at this ⊢
      rcases this with hname | hname
      · rcases List.mem_append.mp (hcall hname) with hname | hname
        · exact .inl hname
        · exact .inr (.inl (htarget hname))
      · exact .inr (.inr hname)

theorem references_lower_subset {mode : Mode} {pipeline : Pipeline} {term : Term}
    (h : pipeline.lower mode = .ok term) : term.references ⊆ pipeline.references := by
  obtain ⟨_ | ⟨⟨op, first⟩, commands⟩, negated⟩ := pipeline
  · cases h
  · rw [lower_cons] at h
    obtain ⟨source, hsource, h⟩ := bind_eq_ok.mp h
    obtain ⟨hfirst, hlast⟩ := Mode.references_wiring mode (commands.length + 1)
    have hsource := Command.references_lower_subset hfirst hsource
    intro name hname
    have := references_traceAfter_subset hlast h hname
    simp only [references, List.flatMap_cons, List.mem_append] at this ⊢
    exact this.imp_left (hsource ·)

end Pipeline
end ShellLowering
