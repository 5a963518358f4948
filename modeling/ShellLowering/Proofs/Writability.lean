import ShellLowering.Proofs.DataForm
import ShellLowering.Proofs.NamelessCommand
import ShellLowering.Proofs.PlainToken

namespace ShellLowering

open Line

namespace Item

theorem exists_tokenOutline?_of_isReadable {token : Token} (h : token.IsReadable) :
    ∃ text, tokenOutline? token = some text := by
  cases token with
  | number value =>
      obtain ⟨n, rfl, hlimit⟩ := h
      exact ⟨toString n, Number.integerText?_natCast hlimit⟩
  | embedded term =>
      obtain ⟨text, htext, -⟩ := Term.exists_display? h.1
      exact ⟨text, htext⟩
  | _ => exact ⟨_, rfl⟩

theorem exists_outline?_of_areReadable {item : Item} (h : Token.AreReadable item.tokens) :
    ∃ text, item.outline? = some text := by
  cases item with
  | word token => exact exists_tokenOutline?_of_isReadable (h token (List.mem_singleton_self token))
  | redirect redirection =>
      obtain ⟨op, target, fd⟩ := redirection
      obtain ⟨shown, hshown⟩ :=
        exists_tokenOutline?_of_isReadable (h target (target_mem_tokens _))
      have hnumber : ∃ number, fd.elim (some "") Number.integerText? = some number := by
        cases fd with
        | none => exact ⟨"", rfl⟩
        | some fd =>
            obtain ⟨n, hn, hlimit⟩ := h _ (fd_mem_tokens rfl)
            injection hn with hn
            exact ⟨toString n, hn ▸ Number.integerText?_natCast hlimit⟩
      obtain ⟨number, hnumber⟩ := hnumber
      exact ⟨_, outline?_redirect hnumber hshown op⟩

end Item

theorem Tree.exists_groupLines? {α : Type} {lines? : α → Option (List String)} {headline : String}
    {children : List (Option String × α)}
    (h : ∀ child ∈ children, ∃ lines, lines? child.2 = some lines) :
    ∃ lines, groupLines? lines? headline children = some lines := by
  have hparts : ∀ child ∈ children,
      ∃ part, (do return (child.1, ← lines? child.2)) = some part := by
    intro child hchild
    obtain ⟨lines, hlines⟩ := h child hchild
    exact ⟨(child.1, lines), by simp [hlines]⟩
  obtain ⟨shown, hshown⟩ := exists_mapM_eq_some_of_forall hparts
  exact ⟨groupLines headline shown, by rw [groupLines?, hshown]; rfl⟩

theorem Command.exists_lines?_of_areReadable {command : Command}
    (h : Token.AreReadable command.tokens) : ∃ lines, command.lines? = some lines := by
  have hitems : ∀ item ∈ command.items, ∃ text, item.outline? = some text := fun item hitem =>
    Item.exists_outline?_of_areReadable (h.of_subset (Item.tokens_subset hitem))
  obtain ⟨texts, htexts⟩ := exists_mapM_eq_some_of_forall hitems
  exact ⟨_, by rw [lines?, htexts]; rfl⟩

theorem Pipeline.exists_lines?_of_areReadable {pipeline : Pipeline}
    (h : Token.AreReadable pipeline.tokens) : ∃ lines, pipeline.lines? = some lines :=
  Tree.exists_groupLines? fun child hchild => child.2.exists_lines?_of_areReadable
    (h.of_subset (List.subset_append_of_subset_right _ (Tree.subset_joinTokens hchild)))

theorem Clause.exists_lines?_of_areReadable {clause : Clause}
    (h : Token.AreReadable clause.tokens) : ∃ lines, clause.lines? = some lines :=
  Tree.exists_groupLines? fun child hchild =>
    child.2.exists_lines?_of_areReadable (h.of_subset (Tree.subset_joinTokens hchild))

namespace CommandList

theorem exists_outline?_of_areReadable {list : CommandList}
    (h : Token.AreReadable list.tokens) : ∃ outline, list.outline? = some outline := by
  obtain ⟨lines, hlines⟩ : ∃ lines, list.lines? = some lines :=
    Tree.exists_groupLines? fun child hchild =>
      child.2.exists_lines?_of_areReadable (h.of_subset (Tree.subset_joinTokens hchild))
  exact ⟨_, by simp [outline?, Tree.outline?, Tree.lines?, hlines]; rfl⟩

theorem tokens_subset_of_mem_loweredCommands {list : CommandList} {command : Command}
    (h : command ∈ list.loweredCommands) : command.tokens ⊆ list.tokens := by
  obtain ⟨_ | ⟨⟨op, clause⟩, others⟩⟩ := list
  · cases h
  · obtain ⟨pipeline, hpipeline, h⟩ := List.mem_flatMap.mp h
    obtain ⟨child, hchild, rfl⟩ := List.mem_map.mp h
    have hcommand : child.2.tokens ⊆ pipeline.2.tokens :=
      List.subset_append_of_subset_right _ (Tree.subset_joinTokens hchild)
    have hmem : (op, clause) ∈ (op, clause) :: others := List.mem_cons_self
    have hclause : clause.tokens ⊆ CommandList.tokens ⟨(op, clause) :: others⟩ :=
      Tree.subset_joinTokens hmem
    exact List.Subset.trans hcommand
      (List.Subset.trans (Tree.subset_joinTokens hpipeline) hclause)

theorem not_hasOverlongWord {list : CommandList} (h : Token.AreReadable list.tokens) :
    ¬ list.HasOverlongWord := by
  rintro ⟨command, hcommand, word, hword, hover⟩
  have hmem : word ∈ list.tokens :=
    tokens_subset_of_mem_loweredCommands hcommand (command.words_subset_tokens hword)
  rw [Token.isOverlong_of_isReadable (h word hmem)] at hover
  cases hover

end CommandList

namespace Line

theorem tree_eq_ok {line : String} {list : CommandList} (h : tree line = .ok list) :
    list.IsCanonical ∧ Token.AreReadable list.tokens := by
  obtain ⟨tokens, htokens, h⟩ := bind_eq_ok.mp h
  obtain ⟨hcanonical, hlist⟩ := CommandList.isCanonical_of_parse (mapError_eq_ok h)
  have hreadable : Token.AreReadable tokens := isReadable_of_read (mapError_eq_ok htokens)
  exact ⟨hcanonical, hlist ▸ hreadable.normalized⟩

theorem tree_eq_error {line : String} {fault : Fault} (h : tree line = .error fault) :
    (∃ e, read line = .error e ∧ fault = .unread e) ∨ ∃ e, fault = .ungrammatical e := by
  rw [tree, tokens] at h
  cases hread : read line with
  | error e =>
      rw [hread] at h
      cases h
      exact .inl ⟨e, rfl, rfl⟩
  | ok found =>
      rw [hread] at h
      cases hparse : CommandList.parse found with
      | error e =>
          simp only [Except.mapError, ok_bind, treeOfTokens, hparse] at h
          cases h
          exact .inr ⟨e, rfl⟩
      | ok list =>
          simp only [Except.mapError, ok_bind, treeOfTokens, hparse] at h
          cases h

theorem lower_eq_bind_tree (mode : Mode) (line : String) :
    lower mode line = tree line >>= fun list => (list.lower mode).mapError .unlowered := by
  simp only [lower, tree, lowerTokens, bind_assoc]

/-- A line that is parsed has a term, unless a command in it lacks a name. -/
theorem lower_eq_error {mode : Mode} {line : String} {fault : Fault}
    (h : lower mode line = .error fault) :
    tree line = .error fault ∨ fault = .unlowered .namelessCommand := by
  rw [lower_eq_bind_tree] at h
  cases htree : tree line with
  | error cause =>
      rw [htree] at h
      injection h with h
      exact .inl (congrArg Except.error h)
  | ok list =>
      obtain ⟨hcanonical, hreadable⟩ := tree_eq_ok htree
      rw [htree, ok_bind] at h
      cases hlower : list.lower mode with
      | ok term =>
          rw [hlower] at h
          cases h
      | error e =>
          rw [hlower] at h
          injection h with h
          have hmem := List.mem_of_mem_head? ((list.reportsFirst_lower mode e).mp hlower)
          rcases (CommandList.mem_defects_iff hcanonical).mp hmem with ⟨rfl, -⟩ | ⟨-, hover⟩
          · exact .inr h.symm
          · exact absurd hover (CommandList.not_hasOverlongWord hreadable)

/-- A line that is read can be printed, so it fails at one of three stages: it is not read, it is
not parsed, or a command in it lacks a name. -/
theorem render_eq_error {mode : Mode} {parseOnly : Bool} {line : String} {fault : Fault}
    (h : render mode parseOnly line = .error fault) :
    (∃ e, read line = .error e ∧ fault = .unread e) ∨ (∃ e, fault = .ungrammatical e) ∨
      fault = .unlowered .namelessCommand := by
  cases parseOnly with
  | true =>
      rw [render_outline] at h
      cases htree : tree line with
      | error cause =>
          rw [htree] at h
          injection h with h
          exact (tree_eq_error (h ▸ htree)).imp_right .inl
      | ok list =>
          obtain ⟨outline, houtline⟩ :=
            CommandList.exists_outline?_of_areReadable (tree_eq_ok htree).2
          rw [htree, ok_bind, houtline] at h
          cases h
  | false =>
      rw [render_term] at h
      cases hlower : lower mode line with
      | error cause =>
          rw [hlower] at h
          injection h with h
          rcases lower_eq_error (h ▸ hlower) with htree | hnameless
          · exact (tree_eq_error htree).imp_right .inl
          · exact .inr (.inr hnameless)
      | ok term =>
          obtain ⟨text, htext⟩ := (isClause_lower hlower).isTagged_data.exists_json?
          rw [hlower, ok_bind, htext] at h
          cases h

end Line
end ShellLowering
