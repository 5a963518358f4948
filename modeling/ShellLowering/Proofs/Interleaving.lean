import ShellLowering.Proofs.References

namespace ShellLowering

theorem Redirection.lowerAll_ne_nil {redirections : List Redirection}
    {actions : List (FdAction Term)} (hne : redirections ≠ [])
    (h : lowerAll redirections = .ok actions) : actions ≠ [] := by
  obtain _ | ⟨redirection, redirections⟩ := redirections
  · exact (hne rfl).elim
  · obtain ⟨op, rest, -, -, rfl⟩ := lowerAll_cons_eq_ok h
    cases op <;> simp [RedirectOp.actions]

namespace Command

/-- The command begins with a term that is no call which computes a name. -/
def StartsEmbedded (command : Command) : Prop :=
  ∃ term rest, command.items = .word (.embedded term) :: rest ∧
    ∀ args, term ≠ .form commandNameHead args

/-- The first word is a bare word that names a builtin. -/
def NamesBuiltin (command : Command) : Prop :=
  ∃ name params, command.words = .symbol name :: params ∧ name ∈ builtinNames

/-- What becomes of a command that begins with a term: the term alone, or a sequence of it and the
arguments, if they can be lowered. -/
def embeddedCall (term : Term) (params : List Token) : Except LoweringError Term :=
  (Token.arguments params).map fun args => if params = [] then term else .sequence (term :: args)

/-- What becomes of a command that is external and named by a term. -/
def embeddedName (term : Term) (params : List Token) (redirections : List Redirection)
    (wiring : List (FdAction Term)) : Except LoweringError Term := do
  let args ← Token.arguments params
  let actions ← Redirection.lowerAll redirections
  return .external term args (some (wiring ++ actions))

theorem isCommand_iff {term : Term} :
    term.isCommand = true ↔ ∀ args, term ≠ .form commandNameHead args := by
  cases term <;> simp [Term.isCommand]

theorem embedded?_eq_some_of_startsEmbedded {command : Command} (h : command.StartsEmbedded) :
    ∃ term params, command.embedded? = some (term, params) ∧
      ∀ args, term ≠ .form commandNameHead args := by
  obtain ⟨term, rest, hitems, hterm⟩ := h
  refine ⟨term, rest.filterMap Item.word?, ?_, hterm⟩
  simp [embedded?, hitems, isCommand_iff.mpr hterm]

theorem embedded?_eq_none_of_not_startsEmbedded {command : Command}
    (h : ¬ command.StartsEmbedded) : command.embedded? = none := by
  unfold embedded?
  split
  · next term rest hitems =>
      rw [if_neg]
      exact fun hterm => h ⟨term, rest, hitems, isCommand_iff.mp hterm⟩
  · rfl

theorem not_startsEmbedded_of_namesBuiltin {command : Command} (h : command.NamesBuiltin) :
    ¬ command.StartsEmbedded := by
  intro hstarts
  obtain ⟨name, params, hwords, -⟩ := h
  obtain ⟨term, params', hembedded, -⟩ := embedded?_eq_some_of_startsEmbedded hstarts
  cases hwords.symm.trans (words_of_embedded? hembedded)

theorem isEmpty_items (command : Command) :
    command.items.isEmpty = (command.words.isEmpty && command.redirections.isEmpty) := by
  obtain ⟨_ | ⟨_ | _, items⟩⟩ := command <;>
    simp [words, redirections, Item.word?, Item.redirection?]

theorem items_isEmpty_of_embedded? {command : Command} {start : Term × List Token}
    (h : command.embedded? = some start) : command.items.isEmpty = false := by
  obtain ⟨_ | ⟨item, items⟩⟩ := command
  · cases h
  · rfl

/-- A command that begins with a term is lowered from its words alone. -/
theorem lower_of_embedded? {command : Command} {term : Term} {params : List Token}
    (h : command.embedded? = some (term, params)) (wiring : List (FdAction Term)) :
    command.lower wiring = embeddedCall term params := by
  have hitems := items_isEmpty_of_embedded? h
  obtain _ | ⟨param, params⟩ := params
  · rw [lower_eq, hitems, h]
    rfl
  · rw [lower_eq, hitems, h, embeddedCall]
    cases hargs : Token.arguments (param :: params) <;> simp [hargs, Except.map]

/-- So is a builtin. -/
theorem lower_of_namesBuiltin {command : Command} {name : String} {params : List Token}
    (hwords : command.words = .symbol name :: params) (hname : name ∈ builtinNames)
    (wiring : List (FdAction Term)) :
    command.lower wiring = (Token.arguments params).map (.builtin name) := by
  have hnone := embedded?_eq_none_of_not_startsEmbedded
    (not_startsEmbedded_of_namesBuiltin ⟨name, params, hwords, hname⟩)
  simp only [lower_eq, isEmpty_items, hwords, hnone, builtin?, hname]
  cases Token.arguments params <;> rfl

/-- In a command that does not begin with a term, only the order within the words and within the
redirections counts. -/
theorem lower_congr {first second : Command} (hwords : first.words = second.words)
    (hredirections : first.redirections = second.redirections)
    (hfirst : ¬ first.StartsEmbedded) (hsecond : ¬ second.StartsEmbedded)
    (wiring : List (FdAction Term)) : first.lower wiring = second.lower wiring := by
  rw [lower_eq, lower_eq, isEmpty_items, isEmpty_items,
    embedded?_eq_none_of_not_startsEmbedded hfirst, embedded?_eq_none_of_not_startsEmbedded hsecond]
  simp only [lowerExternal, hwords, hredirections]

theorem builtin?_eq_none_of_not_namesBuiltin {command : Command} {name : Token}
    {params : List Token} (hwords : command.words = name :: params)
    (h : ¬ command.NamesBuiltin) : builtin? name = none := by
  cases name with
  | symbol text => exact if_neg fun hbuiltin => h ⟨text, params, hwords, hbuiltin⟩
  | _ => rfl

/-- All other commands are external: the wiring and the redirections come into the term. -/
theorem lower_external {command : Command} {name : Token} {params : List Token}
    (hwords : command.words = name :: params) (hstart : ¬ command.StartsEmbedded)
    (hbuiltin : ¬ command.NamesBuiltin) (wiring : List (FdAction Term)) :
    command.lower wiring = Token.arguments params >>= command.lowerExternal wiring name := by
  have hnone := embedded?_eq_none_of_not_startsEmbedded hstart
  have hname := builtin?_eq_none_of_not_namesBuiltin hwords hbuiltin
  simp only [lower_eq, isEmpty_items, hwords, hnone, hname]
  rfl

/-- Words that begin with a term stand behind a redirection if the command does not begin with the
term. -/
theorem redirections_ne_nil {command : Command} {term : Term} {params : List Token}
    (hstart : ¬ command.StartsEmbedded) (hwords : command.words = .embedded term :: params)
    (hterm : ∀ args, term ≠ .form commandNameHead args) : command.redirections ≠ [] := by
  obtain ⟨_ | ⟨token | redirection, items⟩⟩ := command
  · cases hwords
  · have htoken : token = .embedded term := (List.cons.inj hwords).1
    exact (hstart ⟨term, items, by rw [htoken], hterm⟩).elim
  · exact List.cons_ne_nil redirection (items.filterMap Item.redirection?)

/-- Such a command is external, with the term for its name. -/
theorem lower_of_words_embedded {command : Command} {term : Term} {params : List Token}
    (hstart : ¬ command.StartsEmbedded) (hwords : command.words = .embedded term :: params)
    (hterm : ∀ args, term ≠ .form commandNameHead args) (wiring : List (FdAction Term)) :
    command.lower wiring = embeddedName term params command.redirections wiring := by
  have hbuiltin : ¬ command.NamesBuiltin := by
    rintro ⟨name, others, hname, -⟩
    cases hwords.symm.trans hname
  have hne := redirections_ne_nil hstart hwords hterm
  rw [lower_external hwords hstart hbuiltin, embeddedName]
  refine bind_congr fun args => ?_
  cases hactions : Redirection.lowerAll command.redirections with
  | error e => simp [lowerExternal, hactions]
  | ok actions =>
      have hactions' : actions ≠ [] := Redirection.lowerAll_ne_nil hne hactions
      simp [lowerExternal, Token.commandName, hactions, hactions']

/-- Commands with the same words, however their redirections stand among them. With the same
redirections they have the same result, unless just one of them begins with a term that stands for a
command: that one is the call of the term, and the other is external and has the term for its name,
if its operators are known and no word behind the term is overlong. An overlong word stops both. In
a command that begins with such a term, or whose first word names a builtin, neither redirections
nor wiring count. -/
theorem lower_interleaved {first second : Command} (hwords : first.words = second.words) :
    (first.redirections = second.redirections →
      (first.StartsEmbedded ↔ second.StartsEmbedded) →
        ∀ wiring : List (FdAction Term), first.lower wiring = second.lower wiring) ∧
    (first.StartsEmbedded → ¬ second.StartsEmbedded →
      ∃ term params, first.words = .embedded term :: params ∧
        ∀ wiring : List (FdAction Term),
          first.lower wiring = embeddedCall term params ∧
          second.lower wiring = embeddedName term params second.redirections wiring ∧
          ((∃ param ∈ params, param.isOverlong = true) →
            first.lower wiring = .error .tooManyDigits ∧
            second.lower wiring = .error .tooManyDigits) ∧
          ((∀ param ∈ params, param.isOverlong = false) → ∃ args,
            Token.arguments params = .ok args ∧
            first.lower wiring = .ok (if params = [] then term else .sequence (term :: args)) ∧
            ((∀ redirection ∈ second.redirections, redirection.IsKnown) → ∃ actions,
              Redirection.lowerAll second.redirections = .ok actions ∧
              second.lower wiring = .ok (.external term args (some (wiring ++ actions)))))) ∧
    (first.StartsEmbedded → second.StartsEmbedded →
      ∀ wiring wiring' : List (FdAction Term), first.lower wiring = second.lower wiring') ∧
    (first.NamesBuiltin →
      ∀ wiring wiring' : List (FdAction Term), first.lower wiring = second.lower wiring') := by
  have hembedded : first.StartsEmbedded → second.StartsEmbedded →
      ∀ wiring wiring' : List (FdAction Term), first.lower wiring = second.lower wiring' := by
    intro hfirst hsecond wiring wiring'
    obtain ⟨term, params, hterm, -⟩ := embedded?_eq_some_of_startsEmbedded hfirst
    obtain ⟨term', params', hterm', -⟩ := embedded?_eq_some_of_startsEmbedded hsecond
    have hsame : Token.embedded term :: params = .embedded term' :: params' := by
      rw [← words_of_embedded? hterm, ← words_of_embedded? hterm', hwords]
    injection hsame with htoken hparams
    injection htoken with htoken
    rw [lower_of_embedded? hterm, lower_of_embedded? hterm', htoken, hparams]
  refine ⟨?_, ?_, hembedded, ?_⟩
  · intro hredirections hstart wiring
    by_cases hfirst : first.StartsEmbedded
    · exact hembedded hfirst (hstart.mp hfirst) wiring wiring
    · exact lower_congr hwords hredirections hfirst (hfirst ∘ hstart.mpr) wiring
  · intro hfirst hsecond
    obtain ⟨term, params, hstart, hterm⟩ := embedded?_eq_some_of_startsEmbedded hfirst
    have hfirstWords := words_of_embedded? hstart
    refine ⟨term, params, hfirstWords, fun wiring => ?_⟩
    rw [lower_of_embedded? hstart wiring,
      lower_of_words_embedded hsecond (hwords ▸ hfirstWords) hterm wiring]
    refine ⟨rfl, rfl, ?_, ?_⟩
    · intro hover
      rw [embeddedCall, embeddedName, Token.arguments_of_isOverlong hover]
      exact ⟨rfl, rfl⟩
    · intro hshort
      obtain ⟨args, hargs⟩ := Token.exists_arguments hshort
      refine ⟨args, hargs, by rw [embeddedCall, hargs, Except.map], fun hknown => ?_⟩
      obtain ⟨actions, hactions⟩ := Redirection.exists_lowerAll hknown
      exact ⟨actions, hactions, by simp [embeddedName, hargs, hactions, pure_eq_ok]⟩
  · rintro ⟨name, params, hname, hbuiltin⟩ wiring wiring'
    rw [lower_of_namesBuiltin hname hbuiltin, lower_of_namesBuiltin (hwords ▸ hname) hbuiltin]

/-- `(f) x > g` calls `f`, and `> g (f) x` runs a command that is named by the call. The redirection
of `cd x > g` may be of an unknown kind and stand in front. -/
theorem lower_interleaved_redirection_in_front :
    let call : Token := .embedded (.form "f" [])
    let output : Redirection := ⟨some ">", .symbol "g", none⟩
    let clobber : Redirection := ⟨some ">|", .symbol "g", none⟩
    let calling : Command := ⟨[.word call, .word (.symbol "x"), .redirect output]⟩
    let named : Command := ⟨[.redirect output, .word call, .word (.symbol "x")]⟩
    let builtin : Command := ⟨[.word (.symbol "cd"), .word (.symbol "x"), .redirect output]⟩
    let clobbering : Command := ⟨[.redirect clobber, .word (.symbol "cd"), .word (.symbol "x")]⟩
    calling.words = named.words ∧ builtin.words = clobbering.words ∧
      ∀ wiring : List (FdAction Term),
        calling.lower wiring = .ok (.sequence [.form "f" [], .expansion .full "x"]) ∧
        named.lower wiring = .ok (.external (.form "f" []) [.expansion .full "x"]
          (some (wiring ++ [.of .output 1 (.expansion .redirectTarget "g")]))) ∧
        builtin.lower wiring = clobbering.lower [] := by
  intro call output clobber calling named builtin clobbering
  have hcalling : calling.StartsEmbedded := ⟨.form "f" [], _, rfl, by simp [commandNameHead]⟩
  have hnamed : ¬ named.StartsEmbedded := by
    rintro ⟨term, rest, hitems, -⟩
    cases hitems
  have hbuiltin : builtin.NamesBuiltin := ⟨"cd", _, rfl, by decide⟩
  have hcall : calling.words = named.words := rfl
  have hcd : builtin.words = clobbering.words := rfl
  obtain ⟨term, params, hwords, hlower⟩ := (lower_interleaved hcall).2.1 hcalling hnamed
  injection hwords with hterm hparams
  injection hterm with hterm
  subst hterm hparams
  refine ⟨hcall, hcd, fun wiring => ⟨(hlower wiring).1, (hlower wiring).2.1, ?_⟩⟩
  exact (lower_interleaved hcd).2.2.2 hbuiltin wiring []

/-- Neither order has a term if the integer behind the call is overlong. -/
theorem lower_interleaved_overlong_parameter :
    let call : Token := .embedded (.form "f" [])
    let overlong : Token := .number (.int (10 ^ digitLimit))
    let output : Redirection := ⟨some ">", .symbol "g", none⟩
    let calling : Command := ⟨[.word call, .word overlong, .redirect output]⟩
    let named : Command := ⟨[.redirect output, .word call, .word overlong]⟩
    calling.words = named.words ∧ calling.redirections = named.redirections ∧
      calling.StartsEmbedded ∧ ¬ named.StartsEmbedded ∧
      ∀ wiring : List (FdAction Term),
        calling.lower wiring = .error .tooManyDigits ∧
        named.lower wiring = .error .tooManyDigits := by
  intro call overlong output calling named
  have hover : ∃ param ∈ [overlong], param.isOverlong = true :=
    ⟨overlong, List.mem_singleton_self _, Token.isOverlong_pow_digitLimit⟩
  have hterm : ∀ args, Term.form "f" [] ≠ .form commandNameHead args := by
    simp [commandNameHead]
  have hcalling : calling.StartsEmbedded := ⟨.form "f" [], _, rfl, hterm⟩
  have hnamed : ¬ named.StartsEmbedded := by
    rintro ⟨term, rest, hitems, -⟩
    cases hitems
  have hstart : calling.embedded? = some (.form "f" [], [overlong]) := rfl
  have hargs := Token.arguments_of_isOverlong hover
  refine ⟨rfl, rfl, hcalling, hnamed, fun wiring => ⟨?_, ?_⟩⟩
  · rw [lower_of_embedded? hstart, embeddedCall, hargs]
    rfl
  · have hwords : named.words = .embedded (.form "f" []) :: [overlong] := rfl
    rw [lower_of_words_embedded hnamed hwords hterm, embeddedName, hargs]
    rfl

end Command
end ShellLowering
