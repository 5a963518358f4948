import ShellLowering.Line.Lowering
import ShellLowering.Proofs.ParseYield
import ShellLowering.Proofs.PlainToken

namespace ShellLowering

namespace Line

/-- The part of a command line that a line of a printout shows: a command, an operator, or the
negation of a pipeline. -/
def piece? (line : List Char) : Option (List Char) :=
  match line.dropWhile (· = ' ') with
  | 'C' :: 'M' :: 'D' :: ' ' :: ' ' :: command => some command
  | 'O' :: 'P' :: ' ' :: ' ' :: ' ' :: op => some op
  | ['P', 'I', 'P', 'E', ' ', '!'] => some ['!']
  | _ => none

/-- The command line that a printout shows: its parts in order, set apart by blanks. -/
def commandLine (printout : String) : String :=
  String.ofList ([' '].intercalate ((printout.toList.splitOn '\n').filterMap piece?))

/-- Lines of a printout: none of them is broken, and what they show is read as the tokens. -/
structure Shows (lines : List String) (tokens : List Token) : Prop where
  unbroken : ∀ line ∈ lines, Text.IsUnbroken line.toList
  reads : ReadsAll (lines.filterMap fun line => piece? line.toList) tokens

namespace Shows

variable {lines following : List String} {tokens after : List Token}

theorem nil : Shows [] [] :=
  ⟨by simp, .nil⟩

theorem silent {line : String} (hline : Text.IsUnbroken line.toList)
    (h : piece? line.toList = none) : Shows [line] [] :=
  ⟨by simpa using hline, by simpa [h] using ReadsAll.nil⟩

theorem piece {line : String} {text : List Char} (hline : Text.IsUnbroken line.toList)
    (hpiece : piece? line.toList = some text) (h : Reads Text.isBlank text tokens) :
    Shows [line] tokens :=
  ⟨by simpa using hline, by simpa [hpiece] using ReadsAll.single h⟩

theorem append (h : Shows lines tokens) (hfollowing : Shows following after) :
    Shows (lines ++ following) (tokens ++ after) := by
  refine ⟨List.forall_mem_append.mpr ⟨h.unbroken, hfollowing.unbroken⟩, ?_⟩
  rw [List.filterMap_append]
  exact h.reads.append hfollowing.reads

/-- A line shows the same however deep it is indented. -/
theorem indent (h : Shows lines tokens) : Shows (lines.map ("  " ++ ·)) tokens := by
  have hpiece : ∀ line : String, piece? ("  " ++ line).toList = piece? line.toList := by
    intro line
    rw [String.toList_append]
    rfl
  refine ⟨?_, ?_⟩
  · rw [List.forall_mem_map]
    intro line hline
    rw [String.toList_append]
    exact Text.isUnbroken_append (by decide) (h.unbroken line hline)
  · simpa only [List.filterMap_map, Function.comp_def, hpiece] using h.reads

theorem operatorLine (op : Operator) : Shows ["  OP   " ++ op.text] [.operator op] := by
  refine piece ?_ ?_ (reads_operator op)
  · rw [String.toList_append]
    exact Text.isUnbroken_append (by decide) (isUnbroken_operator op)
  · rw [String.toList_append]
    rfl

theorem flatMap {α β : Type} {lines : β → List String} {tokens : α → List Token} {items : List α}
    {shown : List β}
    (h : List.Forall₂ (fun item part => Shows (lines part) (tokens item)) items shown) :
    Shows (shown.flatMap lines) (items.flatMap tokens) := by
  induction h with
  | nil => exact nil
  | cons hitem _ ih =>
      rw [List.flatMap_cons, List.flatMap_cons]
      exact hitem.append ih

/-- A child of a group shows its operator and then what it shows by itself. -/
theorem child {op : Option String} (hop : ∀ text ∈ op, ∃ op : Operator, text = op.text)
    (h : Shows lines tokens) :
    Shows ((op.elim [] fun op => ["  OP   " ++ op]) ++ lines.map ("  " ++ ·))
      (Token.ofOperator op ++ tokens) := by
  refine append ?_ h.indent
  cases op with
  | none => exact nil
  | some text =>
      obtain ⟨op, rfl⟩ := hop text rfl
      rw [Token.ofOperator_text]
      exact operatorLine op

/-- A group shows what its headline shows and then its children, each behind its operator. -/
theorem groupLines {α : Type} {headline : String} {lines? : α → Option (List String)}
    {tokens : α → List Token} {children : List (Option String × α)} {before : List Token}
    (hheadline : Shows [headline] before)
    (hchildren : ∀ child ∈ children, (∀ text ∈ child.1, ∃ op : Operator, text = op.text) ∧
      ∃ lines, lines? child.2 = some lines ∧ Shows lines (tokens child.2)) :
    ∃ lines, Tree.groupLines? lines? headline children = some lines ∧
      Shows lines (before ++ Tree.joinTokens tokens children) := by
  have hshows : ∀ child ∈ children, ∃ part,
      (do return (child.1, ← lines? child.2)) = some part ∧
      Shows ((part.1.elim [] fun op => ["  OP   " ++ op]) ++ part.2.map ("  " ++ ·))
        (Token.ofOperator child.1 ++ tokens child.2) := by
    intro child hchild
    obtain ⟨hop, lines, hlines, hown⟩ := hchildren child hchild
    exact ⟨(child.1, lines), by simp [hlines], Shows.child hop hown⟩
  obtain ⟨shown, hshown, hparts⟩ := exists_mapM_eq_some hshows
  refine ⟨Tree.groupLines headline shown, by rw [Tree.groupLines?, hshown]; rfl, ?_⟩
  rw [Tree.groupLines, Tree.joinTokens, ← List.singleton_append]
  exact hheadline.append (flatMap hparts)

end Shows

theorem splitOn_intercalate_newline {lines : List String} (hne : lines ≠ [])
    (h : ∀ line ∈ lines, Text.IsUnbroken line.toList) :
    ("\n".intercalate lines).toList.splitOn '\n' = lines.map String.toList := by
  rw [String.toList_intercalate]
  refine List.splitOn_intercalate '\n' ?_ (by simpa using hne)
  rw [List.forall_mem_map]
  exact fun line hline hmem => h line hline _ hmem rfl

theorem outline?_of_lines? {list : CommandList} {lines : List String}
    (h : list.lines? = some lines) (hne : lines ≠ []) :
    list.outline? = some ("\n".intercalate lines) := by
  have hlines : [Tree.list list].mapM Tree.lines? = some [lines] := by simp [Tree.lines?, h]
  simp [CommandList.outline?, Tree.outline?, hlines, hne]

theorem read_commandLine {lines : List String} {tokens : List Token} (hne : lines ≠ [])
    (h : Shows lines tokens) : read (commandLine ("\n".intercalate lines)) = .ok tokens := by
  rw [commandLine, splitOn_intercalate_newline hne h.unbroken, List.filterMap_map]
  exact read_of_reads h.reads.reads_intercalate

end Line

open Line

/-- The tokens among these that are arguments are plain. -/
def Token.ArePlain (tokens : List Token) : Prop :=
  ∀ token ∈ tokens, token.isArgument = true → token.IsPlain

namespace Token

theorem isPlain_negationWord : (symbol Stage.negationWord).IsPlain :=
  ⟨by decide, fun h => absurd h (by decide), by decide, Text.forall_mem_of_all (by decide)⟩

theorem ArePlain.of_subset {tokens others : List Token} (h : ArePlain tokens)
    (hsubset : others ⊆ tokens) : ArePlain others :=
  fun token htoken => h token (hsubset htoken)

theorem ArePlain.normalized {tokens : List Token} (h : ArePlain tokens) :
    ArePlain (tokens.map Token.normalized) :=
  forall_mem_normalized (fun _ _ => trivial) h

end Token

namespace Item

theorem exists_outline?_redirect (fd : Option Int) {target : Token} {number shown : String}
    (hnumber : fd.elim (some "") Number.integerText? = some number)
    (htarget : tokenOutline? target = some shown) (op : RedirectOp) :
    ∃ text, (redirect ⟨some op.text, target, fd⟩).outline? = some text ∧
      text.toList = number.toList ++ (op.text.toList ++ ' ' :: shown.toList) :=
  ⟨_, outline?_redirect hnumber htarget (some op.text), by simp⟩

/-- A file descriptor is a natural number, since its token is plain. -/
theorem exists_fd_eq {op : RedirectOp} {target : Token} {fd : Int}
    (h : Token.ArePlain (redirect ⟨some op.text, target, some fd⟩).tokens) :
    ∃ n : Nat, fd = n ∧ (toString n).length ≤ digitLimit := by
  obtain ⟨n, hn, hlength⟩ := h _ (fd_mem_tokens rfl) (Token.isArgument_number _)
  injection hn with hn
  exact ⟨n, hn, hlength⟩

theorem isPlain_target {op : RedirectOp} {target : Token} {fd : Option Int}
    (htarget : target.isArgument = true)
    (h : Token.ArePlain (redirect ⟨some op.text, target, fd⟩).tokens) : target.IsPlain :=
  h target (target_mem_tokens _) htarget

/-- An item with plain arguments has a text, which stands on one line and is read back. -/
theorem exists_outline? {item : Item} (hitem : item.IsCanonical)
    (h : Token.ArePlain item.tokens) :
    ∃ text, item.outline? = some text ∧ Reads Text.isBlank text.toList item.tokens ∧
      Text.IsUnbroken text.toList := by
  cases item with
  | word token => exact Token.exists_tokenOutline? (h token (List.mem_singleton_self token) hitem)
  | redirect redirection =>
      obtain ⟨_, target, fd⟩ := redirection
      obtain ⟨htarget, op, rfl⟩ := hitem
      obtain ⟨shown, hshown, hread, hline⟩ :=
        Token.exists_tokenOutline? (isPlain_target htarget h)
      have hunnumbered : Reads Text.isBlank (op.text.toList ++ ' ' :: shown.toList)
          [.operator (.redirect op), target] :=
        (reads_operator (.redirect op)).append (hread.blank_cons rfl) ⟨' ', rfl, rfl⟩
      have hunbroken : Text.IsUnbroken (op.text.toList ++ ' ' :: shown.toList) :=
        Text.isUnbroken_append (isUnbroken_operator (.redirect op))
          (List.forall_mem_cons.mpr ⟨by decide, hline⟩)
      cases fd with
      | none =>
          obtain ⟨text, htext, hchars⟩ := exists_outline?_redirect none rfl hshown op
          refine ⟨text, htext, ?_, ?_⟩ <;> rw [hchars]
          · simpa [tokens] using hunnumbered
          · exact hunbroken
      | some fd =>
          obtain ⟨n, rfl, hlength⟩ := exists_fd_eq h
          obtain ⟨text, htext, hchars⟩ := exists_outline?_redirect (some (n : Int))
            (Number.integerText?_natCast hlength) hshown op
          have hends : ∃ c ∈ (op.text.toList ++ ' ' :: shown.toList).head?, endsWord c = true := by
            obtain ⟨c, hhead, hends⟩ := exists_head?_text_endsWord (.redirect op)
            exact ⟨c, List.mem_head?_append_of_mem_head? hhead, hends⟩
          have hnumbered := (reads_number hlength).append hunnumbered hends
          refine ⟨text, htext, ?_, ?_⟩ <;> rw [hchars]
          · rwa [tokens, Token.ofOperator_redirect]
          · exact Text.isUnbroken_append (Text.isUnbroken_toString n) hunbroken

end Item

theorem Tree.ne_nil_of_groupLines? {α : Type} {lines? : α → Option (List String)}
    {headline : String} {children : List (Option String × α)} {lines : List String}
    (h : groupLines? lines? headline children = some lines) : lines ≠ [] := by
  obtain ⟨shown, -, h⟩ := Option.bind_eq_some_iff.mp h
  injection h with h
  rw [← h]
  exact List.cons_ne_nil _ _

theorem Command.exists_lines? {command : Command} (hcommand : command.IsCanonical)
    (h : Token.ArePlain command.tokens) :
    ∃ lines, command.lines? = some lines ∧ Shows lines command.tokens := by
  obtain ⟨texts, htexts, hshown⟩ := exists_mapM_eq_some fun item hitem =>
    Item.exists_outline? (hcommand.items item hitem) (h.of_subset (Item.tokens_subset hitem))
  have hread : ReadsAll (texts.map String.toList) command.tokens :=
    ReadsAll.of_forall₂ (hshown.imp fun _ _ h => h.1)
  have hline : ∀ text ∈ texts, Text.IsUnbroken text.toList := by
    intro text htext
    obtain ⟨item, -, -, hline⟩ := exists_mem_of_forall₂ hshown htext
    exact hline
  have hblank : Text.IsUnbroken " ".toList := by decide
  refine ⟨_, by rw [lines?, htexts]; rfl, Shows.piece ?_ ?_ hread.reads_intercalate⟩
  · rw [String.toList_append, String.toList_intercalate]
    refine Text.isUnbroken_append (by decide) (forall_mem_intercalate hblank ?_)
    rw [List.forall_mem_map]
    exact hline
  · rw [String.toList_append, String.toList_intercalate]
    rfl

theorem Pipeline.exists_lines? {pipeline : Pipeline} (hpipeline : pipeline.IsCanonical)
    (h : Token.ArePlain pipeline.tokens) :
    ∃ lines, pipeline.lines? = some lines ∧ Shows lines pipeline.tokens := by
  refine Shows.groupLines ?_ fun child hchild => ?_
  · cases pipeline.negated with
    | true =>
        have hreads := Token.reads_symbol_of_isPlain Token.isPlain_negationWord
        exact Shows.piece (by decide) rfl hreads
    | false => exact Shows.silent (by decide) rfl
  · obtain ⟨hop, hcommand⟩ := hpipeline.joined.forall_mem child hchild
    refine ⟨fun text htext => ?_, child.2.exists_lines? hcommand (h.of_subset ?_)⟩
    · obtain ⟨op, rfl⟩ := hop text htext
      exact ⟨.connect (.pipe op), rfl⟩
    · exact List.subset_append_of_subset_right _ (Tree.subset_joinTokens hchild)

theorem Clause.exists_lines? {clause : Clause} (hclause : clause.IsCanonical)
    (h : Token.ArePlain clause.tokens) :
    ∃ lines, clause.lines? = some lines ∧ Shows lines clause.tokens := by
  refine Shows.groupLines (Shows.silent (by decide) rfl) fun child hchild => ?_
  obtain ⟨hop, hpipeline⟩ := Tree.Joined.forall_mem hclause child hchild
  refine ⟨fun text htext => ?_,
    child.2.exists_lines? hpipeline (h.of_subset (Tree.subset_joinTokens hchild))⟩
  obtain ⟨op, rfl⟩ := hop text htext
  exact ⟨.connect (.clause op), rfl⟩

theorem CommandList.exists_lines? {list : CommandList} (hlist : list.IsCanonical)
    (h : Token.ArePlain list.tokens) :
    ∃ lines, list.lines? = some lines ∧ Shows lines list.tokens := by
  refine Shows.groupLines (Shows.silent (by decide) rfl) fun child hchild => ?_
  obtain ⟨hop, hclause⟩ := Tree.Joined.forall_mem hlist child hchild
  refine ⟨fun text htext => ?_,
    child.2.exists_lines? hclause (h.of_subset (Tree.subset_joinTokens hchild))⟩
  exact ⟨.connect .background, hop text htext⟩

namespace CommandList

theorem exists_outline? {tokens : List Token} {list : CommandList}
    (hparse : parse tokens = .ok list) (hplain : Token.ArePlain tokens) :
    ∃ outline, list.outline? = some outline ∧ tree (commandLine outline) = .ok list := by
  obtain ⟨hcanonical, htokens⟩ := isCanonical_of_parse hparse
  obtain ⟨lines, hlines, hshows⟩ := exists_lines? hcanonical (htokens ▸ hplain.normalized)
  have hne : lines ≠ [] := Tree.ne_nil_of_groupLines? hlines
  refine ⟨_, outline?_of_lines? hlines hne, ?_⟩
  rw [tree, Line.tokens, read_commandLine hne hshows]
  change (parse list.tokens).mapError _ = _
  rw [parse_tokens hcanonical]
  rfl

/-- A tree of plain tokens has a printout. The command line that it shows has the tree that was
printed, and so no other tree has the printout. -/
theorem tree_commandLine_outline {tokens : List Token} {list : CommandList}
    (hparse : parse tokens = .ok list) (hplain : Token.ArePlain tokens) :
    ∃ outline, list.outline? = some outline ∧ tree (commandLine outline) = .ok list ∧
      ∀ others other, parse others = .ok other → Token.ArePlain others →
        other.outline? = list.outline? → other = list := by
  obtain ⟨outline, houtline, hlist⟩ := exists_outline? hparse hplain
  refine ⟨outline, houtline, hlist, fun others other hother hothers hsame => ?_⟩
  obtain ⟨outline', houtline', hlist'⟩ := exists_outline? hother hothers
  rw [hsame, houtline] at houtline'
  injection houtline' with houtline'
  rw [← houtline'] at hlist'
  exact Except.ok.inj (hlist'.symm.trans hlist)

/-- A negation before a command and before its end, a number beside a file descriptor, a quote mark
in a string, and a string that is an operator. -/
theorem tree_commandLine_outline_negated :
    let words : List Token := [.symbol "!", .symbol "sort", .number (.int 3), .number (.int 2),
      .symbol ">", .string "it's", .string "|", .embedded (.form "f" [.text "a", .form "g" []]),
      .symbol "!"]
    let list : CommandList := ⟨[(none, ⟨[(none, ⟨[
      (none, ⟨[.word (.symbol "sort"), .word (.number (.int 3)),
        .redirect ⟨some ">", .string "it's", some 2⟩]⟩),
      (some "|", ⟨[.word (.embedded (.form "f" [.text "a", .form "g" []])),
        .word (.symbol "!")]⟩)], true⟩)]⟩)]⟩
    let other : CommandList :=
      ⟨[(none, ⟨[(none, ⟨[(none, ⟨[.word (.string "sort")]⟩)], false⟩)]⟩)]⟩
    parse words = .ok list ∧ Token.ArePlain words ∧
      list.outline?.map commandLine = some "! sort 3 2> \"it's\" | (f a (g)) !" ∧
      list.outline?.map (tree <| commandLine ·) = some (.ok list) ∧
      parse [.string "sort"] = .ok other ∧ other.outline? ≠ list.outline? := by
  intro words list other
  have hstring : (Token.string "sort").IsPlain :=
    ⟨.inl (by decide), Text.forall_mem_of_all (by decide)⟩
  have hplain : Token.ArePlain words := by
    have hsort : (Token.symbol "sort").IsPlain :=
      ⟨by decide, fun h => absurd h (by decide), by decide, Text.forall_mem_of_all (by decide)⟩
    have hquoted : (Token.string "it's").IsPlain :=
      ⟨.inl (by decide), Text.forall_mem_of_all (by decide)⟩
    have hcall : (Term.form "f" [.text "a", .form "g" []]).IsCall IsPlainText := by
      have hf : IsPlainText "f" := ⟨by decide, Text.forall_mem_of_all (by decide)⟩
      have ha : IsPlainText "a" := ⟨by decide, Text.forall_mem_of_all (by decide)⟩
      have hg : IsPlainText "g" := ⟨by decide, Text.forall_mem_of_all (by decide)⟩
      have hinner : (Term.form "g" []).InGroup IsPlainText :=
        .form hg (List.forall_mem_nil _)
      refine ⟨.form hf ?_, _, _, rfl⟩
      simpa using ⟨.text ha, hinner⟩
    simp only [Token.ArePlain, words, List.forall_mem_cons]
    exact ⟨fun _ => Token.isPlain_negationWord, fun _ => hsort, fun _ => ⟨3, rfl, by decide⟩,
      fun _ => ⟨2, rfl, by decide⟩, fun h => absurd h (by decide), fun _ => hquoted,
      fun h => absurd h (by decide), fun _ => hcall, fun _ => Token.isPlain_negationWord,
      List.forall_mem_nil _⟩
  have hlist : parse words = .ok list := rfl
  obtain ⟨outline, houtline, htree, hinjective⟩ := tree_commandLine_outline hlist hplain
  refine ⟨hlist, hplain, by decide, by rw [houtline, Option.map_some, htree], rfl, fun hsame => ?_⟩
  have hothers : Token.ArePlain [.string "sort"] := by
    simpa [Token.ArePlain] using fun _ => hstring
  have hsame := hinjective _ other rfl hothers hsame
  simp [other, list] at hsame

end CommandList
end ShellLowering
