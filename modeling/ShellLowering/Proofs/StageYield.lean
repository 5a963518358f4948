import ShellLowering.Proofs.SegmentYield

namespace ShellLowering

@[simp] theorem Item.tokens_word (token : Token) : (Item.word token).tokens = [token] := rfl

theorem Item.tokens_ne_nil (item : Item) : item.tokens ≠ [] := by
  cases item <;> simp [tokens]

theorem Command.tokens_ne_nil {command : Command} (h : command.IsCanonical) :
    command.tokens ≠ [] := by
  obtain ⟨item, items, hitems⟩ := List.exists_cons_of_ne_nil h.nonempty
  simp [tokens, hitems, Item.tokens_ne_nil]

theorem Command.connector?_of_mem_tokens {command : Command} (h : command.IsCanonical)
    {token : Token} (htoken : token ∈ command.tokens) : token.connector? = none := by
  obtain ⟨item, hitem, htoken⟩ := List.mem_flatMap.mp htoken
  have hargument : ∀ argument : Token, argument.isArgument = true → argument.connector? = none := by
    intro argument hargument
    simp [Token.connector?, Token.isArgument_iff.mp hargument]
  have hcanonical := h.items item hitem
  cases item with
  | word word =>
      rw [List.mem_singleton.mp htoken]
      exact hargument word hcanonical
  | redirect redirection =>
      obtain ⟨op, target, fd⟩ := redirection
      obtain ⟨htarget, op, rfl⟩ := hcanonical
      simp only [Item.tokens, Token.ofOperator_redirect, List.mem_append, List.mem_map,
        List.mem_singleton] at htoken
      rcases htoken with (⟨fd, -, rfl⟩ | rfl) | rfl
      · rfl
      · rfl
      · exact hargument _ htarget

theorem Token.eq_symbol_of_normalized {token : Token} {name : String}
    (h : token.normalized = .symbol name) : token = .symbol name := by
  cases hop : token.operator? with
  | some op => simp [normalized, hop] at h
  | none => simpa [normalized, hop] using h

namespace Stage

def tokens (stage : Stage) : List Token :=
  negationTokens stage.negated ++ stage.command.tokens

/-- A stage that may stand behind the connector: only the first stage of a pipeline is negated, and
it is if it looks so. -/
structure IsCanonical (before : Option Connector) (stage : Stage) : Prop where
  command : stage.command.IsCanonical
  negated : stage.negated = true → startsPipeline before = true
  plain : startsPipeline before = true → stage.negated = false → ¬ stage.command.LooksNegated

theorem tokens_ne_nil {before : Option Connector} {stage : Stage} (h : stage.IsCanonical before) :
    stage.tokens ≠ [] := by
  simp [tokens, Command.tokens_ne_nil h.command]

theorem splitNegation_cases (before : Option Connector) (segment : List Token) :
    (∃ token rest, segment = .symbol negationWord :: token :: rest ∧
      startsPipeline before = true ∧ splitNegation before segment = (true, token :: rest)) ∨
    (splitNegation before segment = (false, segment) ∧ (startsPipeline before = true →
      ∀ token rest, segment ≠ .symbol negationWord :: token :: rest)) := by
  unfold splitNegation
  split
  · next name token rest =>
      split
      · next hnegated => exact .inl ⟨token, rest, by rw [hnegated.2], hnegated.1, rfl⟩
      · next hnegated =>
          refine .inr ⟨rfl, fun hstarts other tail heq => hnegated ⟨hstarts, ?_⟩⟩
          simp only [List.cons.injEq, Token.symbol.injEq] at heq
          exact heq.1
  · next hother => exact .inr ⟨rfl, fun _ token rest heq => hother _ _ _ heq⟩

theorem ofSegment_of_split {before : Option Connector} {segment words : List Token}
    {negated : Bool} (hne : segment ≠ [])
    (hsplit : splitNegation before segment = (negated, words)) (following : Found) (index : Nat) :
    ofSegment before following index segment =
      (Segment.items following (if negated then index + 1 else index) words >>= fun items =>
        .ok ⟨negated, ⟨Segment.attachFds items⟩⟩) := by
  unfold ofSegment
  rw [hsplit, if_neg (by simpa using hne)]
  rfl

theorem command_of_items {following : Found} {index : Nat} {words : List Token}
    {items : List Item} (hcut : ∀ token ∈ words, token.connector? = none) (hne : words ≠ [])
    (h : Segment.items following index words = .ok items) :
    (Command.mk (Segment.attachFds items)).IsCanonical ∧
      (Command.mk (Segment.attachFds items)).tokens = words.map Token.normalized := by
  obtain ⟨hplain, hyield⟩ := Segment.yield_of_items hcut h
  obtain ⟨hcanonical, hchain⟩ := Segment.isCanonical_attachFds hplain
  have htokens : (Segment.attachFds items).flatMap Item.tokens = words.map Token.normalized :=
    (Segment.tokens_attachFds hplain).trans hyield
  refine ⟨⟨?_, hcanonical, hchain⟩, htokens⟩
  intro hnil
  simp only at hnil
  rw [hnil] at htokens
  exact hne (List.map_eq_nil_iff.mp htokens.symm)

theorem exists_of_looksNegated {command : Command} {words : List Token}
    (hlooks : command.LooksNegated) (h : command.tokens = words.map Token.normalized) :
    ∃ token rest, words = .symbol negationWord :: token :: rest := by
  obtain ⟨item, items, hitems⟩ := hlooks
  obtain ⟨second, rest, hsecond⟩ := List.exists_cons_of_ne_nil item.tokens_ne_nil
  simp only [Command.tokens, hitems, List.flatMap_cons, hsecond, Item.tokens_word,
    List.cons_append, List.nil_append] at h
  obtain ⟨first, words, rfl, hfirst, hwords⟩ := List.map_eq_cons_iff.mp h.symm
  obtain ⟨token, tail, rfl, -, -⟩ := List.map_eq_cons_iff.mp hwords
  exact ⟨token, tail, by rw [Token.eq_symbol_of_normalized hfirst]⟩

theorem yield_of_ofSegment {before : Option Connector} {following : Found} {index : Nat}
    {segment : List Token} {stage : Stage}
    (hcut : ∀ token ∈ segment, token.connector? = none)
    (h : ofSegment before following index segment = .ok stage) :
    stage.IsCanonical before ∧ stage.tokens = segment.map Token.normalized := by
  have hne : segment ≠ [] := by
    rintro rfl
    cases h
  rcases splitNegation_cases before segment with
    ⟨token, rest, rfl, hstarts, hsplit⟩ | ⟨hsplit, hplain⟩
  · rw [ofSegment_of_split hne hsplit] at h
    obtain ⟨items, hitems, h⟩ := bind_eq_ok.mp h
    injection h with h
    subst h
    obtain ⟨hcommand, htokens⟩ :=
      command_of_items (List.forall_mem_cons.mp hcut).2 (List.cons_ne_nil _ _) hitems
    refine ⟨⟨hcommand, fun _ => hstarts, by simp⟩, ?_⟩
    simp [tokens, negationTokens, htokens,
      Token.normalized_of_isArgument Token.isArgument_negationWord]
  · rw [ofSegment_of_split hne hsplit] at h
    obtain ⟨items, hitems, h⟩ := bind_eq_ok.mp h
    injection h with h
    subst h
    obtain ⟨hcommand, htokens⟩ := command_of_items hcut hne hitems
    refine ⟨⟨hcommand, by simp, ?_⟩, by simpa [tokens, negationTokens] using htokens⟩
    intro hstarts _ hlooks
    obtain ⟨token, rest, heq⟩ := exists_of_looksNegated hlooks htokens
    exact hplain hstarts token rest heq

theorem looksNegated_of_tokens {command : Command} (h : command.IsCanonical) {token : Token}
    {rest : List Token} (htokens : command.tokens = .symbol negationWord :: token :: rest) :
    command.LooksNegated := by
  obtain ⟨items⟩ := command
  cases items with
  | nil => exact absurd rfl h.nonempty
  | cons first items =>
      rw [Command.tokens, List.flatMap_cons] at htokens
      cases first with
      | word word =>
          simp only [Item.tokens_word, List.singleton_append, List.cons.injEq] at htokens
          obtain ⟨rfl, hitems⟩ := htokens
          cases items with
          | nil => cases hitems
          | cons item items => exact ⟨item, items, rfl⟩
      | redirect redirection =>
          obtain ⟨op, target, fd⟩ := redirection
          obtain ⟨-, op, rfl⟩ := h.items _ List.mem_cons_self
          cases fd <;> simp [Item.tokens] at htokens

theorem splitNegation_tokens {before : Option Connector} {stage : Stage}
    (h : stage.IsCanonical before) :
    splitNegation before stage.tokens = (stage.negated, stage.command.tokens) := by
  obtain ⟨token, rest, htokens⟩ :=
    List.exists_cons_of_ne_nil (Command.tokens_ne_nil h.command)
  obtain ⟨negated, command⟩ := stage
  cases negated with
  | true =>
      have hstarts := h.negated rfl
      simp only at htokens
      simp [tokens, negationTokens, htokens, splitNegation, hstarts]
  | false =>
      rcases splitNegation_cases before command.tokens with
        ⟨token, rest, heq, hstarts, -⟩ | ⟨hsplit, -⟩
      · exact absurd (looksNegated_of_tokens h.command heq) (h.plain hstarts rfl)
      · simpa [tokens, negationTokens] using hsplit

theorem ofSegment_tokens {before : Option Connector} {stage : Stage}
    (h : stage.IsCanonical before) (following : Found) (index : Nat) :
    ofSegment before following index stage.tokens = .ok stage := by
  rw [ofSegment_of_split (tokens_ne_nil h) (splitNegation_tokens h), Command.tokens,
    Segment.items_tokens h.command.items, ok_bind, Segment.attachFds_detach h.command.separate]

end Stage
end ShellLowering
