import ShellLowering.Line.Lowering
import ShellLowering.Proofs.LoweringDefects
import ShellLowering.Proofs.ParseYield

namespace ShellLowering

def Clause.commands (clause : Clause) : List Command :=
  clause.pipelines.flatMap fun (_, pipeline) => pipeline.commands.map Prod.snd

/-- The commands that are lowered: only the first clause counts. -/
def CommandList.loweredCommands (list : CommandList) : List Command :=
  match list.clauses with
  | [] => []
  | (_, clause) :: _ => clause.commands

/-- A command made of redirections only. -/
def Command.IsNameless (command : Command) : Prop :=
  ∀ item ∈ command.items, ∃ redirection, item = .redirect redirection

def CommandList.HasNameless (list : CommandList) : Prop :=
  ∃ command ∈ list.loweredCommands, command.IsNameless

def CommandList.HasOverlongWord (list : CommandList) : Prop :=
  ∃ command ∈ list.loweredCommands, command.HasOverlongWord

theorem head?_eq_some_iff_of_mem_iff {α : Type} {items : List α} {cause : α} {condition : Prop}
    (h : ∀ a, a ∈ items ↔ a = cause ∧ condition) (a : α) :
    items.head? = some a ↔ a = cause ∧ condition := by
  cases items with
  | nil => simpa using h a
  | cons first items =>
      obtain ⟨rfl, hcondition⟩ := (h first).mp List.mem_cons_self
      simp [hcondition, eq_comm]

namespace Command

theorem words_eq_nil_iff {command : Command} : command.words = [] ↔ command.IsNameless := by
  simp only [words, List.filterMap_eq_nil_iff, IsNameless]
  refine forall₂_congr fun item _ => ?_
  cases item <;> simp [Item.word?]

theorem flatMap_defects_redirections {command : Command} (h : command.IsCanonical) :
    command.redirections.flatMap Redirection.defects = [] := by
  refine List.flatMap_eq_nil_iff.mpr fun redirection hredirection => ?_
  obtain ⟨-, hop⟩ := h.items _ (redirect_mem_items hredirection)
  exact (slotDefects_eq_nil_iff RedirectOp.ofText?_text RedirectOp.eq_text_of_ofText? _ _).mpr hop

/-- The operators of a canonical command are known, so it can only lack a name or hold a word that
cannot be written. -/
theorem mem_defects_iff {command : Command} (h : command.IsCanonical) {e : LoweringError} :
    e ∈ command.defects ↔
      e = .namelessCommand ∧ command.IsNameless ∨ e = .tooManyDigits ∧ command.HasOverlongWord := by
  rw [defects, if_neg h.nonempty, ← words_eq_nil_iff, HasOverlongWord]
  cases hstart : command.embedded? with
  | some start =>
      have hterm : (Token.embedded start.1).isOverlong = false := rfl
      simp only [words_of_embedded? hstart, Token.mem_flatMap_defects_iff]
      simp [hterm]
  | none =>
      cases hwords : command.words with
      | nil => simp
      | cons name params =>
          simp only [flatMap_defects_redirections h, List.nil_append, List.mem_append,
            Token.mem_flatMap_defects_iff]
          cases hbuiltin : builtin? name with
          | some builtin =>
              have hname : name.isOverlong = false := by
                cases name with
                | number value => cases hbuiltin
                | _ => rfl
              simp [hname]
          | none => simpa [Token.mem_defects_iff, and_or_left] using or_comm

end Command

namespace Pipeline

theorem mem_defects_iff {pipeline : Pipeline} (h : pipeline.IsCanonical) {e : LoweringError} :
    e ∈ pipeline.defects ↔ ∃ command ∈ pipeline.commands, e ∈ command.2.defects := by
  obtain ⟨_ | ⟨⟨op, first⟩, commands⟩, negated⟩ := pipeline
  · exact h.joined.elim
  · obtain ⟨-, -, hcommands⟩ := h.joined
    have hslot : ∀ command ∈ commands,
        slotDefects PipeOp.ofText? .unknownPipeOp command.1 = [] := by
      intro command hcommand
      obtain ⟨⟨text, htext, op, rfl⟩, -⟩ := hcommands command hcommand
      exact (slotDefects_eq_nil_iff PipeOp.ofText?_text PipeOp.eq_text_of_ofText? _ _).mpr
        ⟨op, htext⟩
    simp only [defects, List.mem_append, List.mem_flatMap, List.exists_mem_cons_iff]
    refine or_congr_right (exists_congr fun command => and_congr_right fun hcommand => ?_)
    simp [hslot command hcommand]

end Pipeline

namespace Clause

theorem mem_defects_iff {clause : Clause} (h : clause.IsCanonical) {e : LoweringError} :
    e ∈ clause.defects ↔ ∃ pipeline ∈ clause.pipelines, e ∈ pipeline.2.defects := by
  obtain ⟨_ | ⟨⟨op, first⟩, others⟩⟩ := clause
  · exact h.elim
  · replace h := h.2.2
    induction others generalizing op first with
    | nil => simp [defects]
    | cons other others ih =>
        obtain ⟨slot, next⟩ := other
        obtain ⟨⟨⟨text, rfl, op', rfl⟩, -⟩, hothers⟩ := Tree.follow_cons.mp h
        have hslot : slotDefects ClauseOp.ofText? .unknownClauseOp (some op'.text) = [] :=
          (slotDefects_eq_nil_iff ClauseOp.ofText?_text ClauseOp.eq_text_of_ofText? _ _).mpr
            ⟨op', rfl⟩
        have hrest : e ∈ defects ⟨(some op'.text, next) :: others⟩ ↔
            ∃ pipeline ∈ (some op'.text, next) :: others, e ∈ pipeline.2.defects :=
          ih _ next hothers
        rw [defects_cons, hslot, List.append_nil, List.mem_append, hrest]
        simp [or_comm]

theorem mem_defects_iff_of_commands {clause : Clause} (h : clause.IsCanonical)
    {e : LoweringError} :
    e ∈ clause.defects ↔ ∃ command ∈ clause.commands, e ∈ command.defects := by
  have hpipelines : ∀ pipeline ∈ clause.pipelines, pipeline.2.IsCanonical :=
    fun pipeline hpipeline => (Tree.Joined.forall_mem h pipeline hpipeline).2
  simp only [mem_defects_iff h, commands, List.mem_flatMap, List.mem_map]
  constructor
  · rintro ⟨pipeline, hpipeline, he⟩
    obtain ⟨command, hcommand, he⟩ :=
      (Pipeline.mem_defects_iff (hpipelines pipeline hpipeline)).mp he
    exact ⟨command.2, ⟨pipeline, hpipeline, command, hcommand, rfl⟩, he⟩
  · rintro ⟨_, ⟨pipeline, hpipeline, command, hcommand, rfl⟩, he⟩
    exact ⟨pipeline, hpipeline,
      (Pipeline.mem_defects_iff (hpipelines pipeline hpipeline)).mpr ⟨command, hcommand, he⟩⟩

theorem isCanonical_of_mem_commands {clause : Clause} (h : clause.IsCanonical) :
    ∀ command ∈ clause.commands, command.IsCanonical := by
  intro command hcommand
  obtain ⟨pipeline, hpipeline, hcommand⟩ := List.mem_flatMap.mp hcommand
  obtain ⟨child, hchild, rfl⟩ := List.mem_map.mp hcommand
  have hpipeline := (Tree.Joined.forall_mem h pipeline hpipeline).2
  exact (hpipeline.joined.forall_mem child hchild).2

end Clause

namespace CommandList

/-- The faults of a canonical list are those of the commands that are lowered. -/
theorem mem_defects_iff {list : CommandList} (h : list.IsCanonical) {e : LoweringError} :
    e ∈ list.defects ↔
      e = .namelessCommand ∧ list.HasNameless ∨ e = .tooManyDigits ∧ list.HasOverlongWord := by
  obtain ⟨_ | ⟨⟨op, clause⟩, others⟩⟩ := list
  · exact h.elim
  · have hclause : clause.IsCanonical := h.2.1
    have hcommand : ∀ command ∈ clause.commands, (e ∈ command.defects ↔
        e = .namelessCommand ∧ command.IsNameless ∨
          e = .tooManyDigits ∧ command.HasOverlongWord) := fun command hmem =>
      Command.mem_defects_iff (Clause.isCanonical_of_mem_commands hclause command hmem)
    have hdefects : e ∈ clause.defects ↔ ∃ command ∈ clause.commands,
        (e = .namelessCommand ∧ command.IsNameless ∨
          e = .tooManyDigits ∧ command.HasOverlongWord) := by
      rw [Clause.mem_defects_iff_of_commands hclause]
      exact exists_congr fun command => and_congr_right fun hmem => hcommand command hmem
    simp only [defects, hdefects, HasNameless, HasOverlongWord, loweredCommands, and_or_left,
      exists_or, and_left_comm, exists_and_left]

theorem traceNamed_of_ofName? {name : String} {mode : Mode} (h : Mode.ofName? name = some mode)
    (list : CommandList) : list.traceNamed (some name) = list.trace mode := by
  have hpipeline : Pipeline.traceNamed (some name) = Pipeline.trace mode := by
    funext pipeline
    simp [Pipeline.traceNamed, h]
  rw [traceNamed, trace, hpipeline]

end CommandList

namespace Line

theorem lowerTokensNamed_of_parse {tokens : List Token} {list : CommandList} {name : String}
    {mode : Mode} (hparse : CommandList.parse tokens = .ok list)
    (hmode : Mode.ofName? name = some mode) :
    lowerTokensNamed (some name) tokens = (list.lower mode).mapError .unlowered := by
  have hrequest : Mode.request (some name) = .ok mode := by simp [Mode.request, hmode]
  rw [lowerTokensNamed, hrequest, ok_bind, lowerTokens_of_parse hparse]

/-- In a valid mode, parsed tokens have no term if and only if some command of the first clause is
made of redirections alone, or some word of a command in it is overlong. No other check of the
lowering fails on them: if no word is overlong, a name is missing. -/
theorem lowerTokensNamed_eq_error_iff {tokens : List Token} {list : CommandList} {name : String}
    {mode : Mode} (hparse : CommandList.parse tokens = .ok list)
    (hmode : Mode.ofName? name = some mode) :
    (∀ fault, lowerTokensNamed (some name) tokens = .error fault ↔
      ∃ e, list.defects.head? = some e ∧ fault = .unlowered e) ∧
    (∀ e, (list.traceNamed (some name)).result = .error e ↔ list.defects.head? = some e) ∧
    (∀ e, e ∈ list.defects ↔
      e = .namelessCommand ∧ list.HasNameless ∨ e = .tooManyDigits ∧ list.HasOverlongWord) ∧
    (¬ list.HasOverlongWord →
      (∀ fault, lowerTokensNamed (some name) tokens = .error fault ↔
        fault = .unlowered .namelessCommand ∧ list.HasNameless) ∧
      ∀ e, (list.traceNamed (some name)).result = .error e ↔
        e = .namelessCommand ∧ list.HasNameless) ∧
    (Fault.unlowered .namelessCommand).message =
      "command has redirections but no command name" := by
  have hcanonical := (CommandList.isCanonical_of_parse hparse).1
  have hmem := fun e => CommandList.mem_defects_iff hcanonical (e := e)
  have hlower := list.reportsFirst_lower mode
  have htrace : ∀ e, (list.traceNamed (some name)).result = .error e ↔
      list.defects.head? = some e := by
    rw [CommandList.traceNamed_of_ofName? hmode]
    exact hlower
  have htokens : ∀ fault, lowerTokensNamed (some name) tokens = .error fault ↔
      ∃ e, list.defects.head? = some e ∧ fault = .unlowered e := by
    intro fault
    simp only [lowerTokensNamed_of_parse hparse hmode, ← hlower _]
    cases list.lower mode <;> simp [Except.mapError, eq_comm]
  refine ⟨htokens, htrace, hmem, fun hshort => ?_, rfl⟩
  have hhead : ∀ e, list.defects.head? = some e ↔ e = .namelessCommand ∧ list.HasNameless :=
    head?_eq_some_iff_of_mem_iff fun e => by simp [hmem, hshort]
  refine ⟨fun fault => ?_, fun e => by rw [htrace, hhead]⟩
  simp only [htokens, hhead]
  constructor
  · rintro ⟨e, ⟨rfl, hnameless⟩, rfl⟩
    exact ⟨rfl, hnameless⟩
  · rintro ⟨rfl, hnameless⟩
    exact ⟨_, ⟨rfl, hnameless⟩, rfl⟩

/-- `a | > f & < g`: the second command of the first clause has no name. -/
theorem lowerTokensNamed_eq_error_iff_second_command :
    let pipe : Operator := .connect (.pipe .pipe)
    let tokens : List Token := [.symbol "a", .operator pipe, .symbol ">", .symbol "f",
      .operator (.connect .background), .symbol "<", .symbol "g"]
    let nameless (op target : String) : Command := ⟨[.redirect ⟨some op, .symbol target, none⟩]⟩
    let list : CommandList := ⟨[
      (none, ⟨[(none, ⟨[(none, ⟨[.word (.symbol "a")]⟩), (some "|", nameless ">" "f")], false⟩)]⟩),
      (some "&", ⟨[(none, ⟨[(none, nameless "<" "g")], false⟩)]⟩)]⟩
    CommandList.parse tokens = .ok list ∧ list.HasNameless ∧ ¬ list.HasOverlongWord ∧
      lowerTokensNamed (some "batch") tokens = .error (.unlowered .namelessCommand) := by
  intro pipe tokens nameless list
  have hparse : CommandList.parse tokens = .ok list := rfl
  have hnameless : list.HasNameless := by
    refine ⟨nameless ">" "f", List.mem_cons_of_mem _ List.mem_cons_self, ?_⟩
    intro item hitem
    exact ⟨_, List.mem_singleton.mp hitem⟩
  have hshort : ¬ list.HasOverlongWord := by
    have hcommands : list.loweredCommands = [⟨[.word (.symbol "a")]⟩, nameless ">" "f"] := rfl
    simp [CommandList.HasOverlongWord, hcommands, Command.HasOverlongWord, Command.words,
      Item.word?, Token.isOverlong, nameless]
  have hvalid : Mode.ofName? "batch" = some .batch := rfl
  have hfails := (lowerTokensNamed_eq_error_iff hparse hvalid).2.2.2.1 hshort
  exact ⟨hparse, hnameless, hshort, (hfails.1 _).mpr ⟨rfl, hnameless⟩⟩

/-- `ls` with an overlong integer behind it: every command has a name, and there is no term. -/
theorem lowerTokensNamed_overlong_parameter :
    let overlong : Token := .number (.int (10 ^ digitLimit))
    let tokens : List Token := [.symbol "ls", overlong]
    let list : CommandList := ⟨[(none, ⟨[(none,
      ⟨[(none, ⟨[.word (.symbol "ls"), .word overlong]⟩)], false⟩)]⟩)]⟩
    CommandList.parse tokens = .ok list ∧ ¬ list.HasNameless ∧
      lowerTokensNamed (some "batch") tokens = .error (.unlowered .tooManyDigits) := by
  intro overlong tokens list
  have hparse : CommandList.parse tokens = .ok list := rfl
  have hnamed : ¬ list.HasNameless := by
    rintro ⟨command, hcommand, hnameless⟩
    obtain rfl := List.mem_singleton.mp hcommand
    obtain ⟨redirection, hword⟩ := hnameless _ List.mem_cons_self
    cases hword
  have hlower : list.lower .batch = .error .tooManyDigits := by
    rw [CommandList.lower_cons, Clause.lower_cons, Clause.lowerChain_nil, Pipeline.lower_cons,
      Command.lower_of_isOverlong "ls" Token.isOverlong_pow_digitLimit]
    rfl
  refine ⟨hparse, hnamed, ?_⟩
  rw [lowerTokensNamed_of_parse hparse rfl, hlower]
  rfl

end Line
end ShellLowering
