import ShellLowering.Proofs.Adjacency
import ShellLowering.Proofs.DescentParse

namespace ShellLowering

namespace Need

/-- The verdict of a scan: it may fail at an index, or reach the end and ask for more there. -/
def verdict (stop : Option Nat) : Except Nat Need → Except (Option Nat) Unit
  | .error p => .error (some p)
  | .ok .nothing => .ok ()
  | .ok _ => .error stop

theorem verdict_eq_ok {stop : Option Nat} {result : Except Nat Need}
    (h : verdict stop result = .ok ()) : result = .ok .nothing := by
  rcases result with p | _ | _ | _
  · cases h
  · cases h
  · cases h
  · rfl

theorem verdict_eq_error {position : Option Nat} {result : Except Nat Need}
    (h : verdict none result = .error position) :
    (∃ p, position = some p ∧ result = .error p) ∨
      (position = none ∧ ∃ need, result = .ok need) := by
  rcases result with p | _ | _ | _
  · exact .inl ⟨p, (Except.error.inj h).symm, rfl⟩
  · exact .inr ⟨(Except.error.inj h).symm, _, rfl⟩
  · exact .inr ⟨(Except.error.inj h).symm, _, rfl⟩
  · cases h

end Need

namespace GrammarError

def verdict {α : Type} (result : Except GrammarError α) : Except (Option Nat) Unit :=
  (result.mapError position).map fun _ => ()

theorem verdict_bind_ok {α β : Type} (result : Except GrammarError α) (f : α → β) :
    verdict (result >>= fun a => .ok (f a)) = verdict result := by
  cases result <;> rfl

theorem verdict_eq_error {α : Type} {result : Except GrammarError α} {position : Option Nat}
    (h : verdict result = .error position) : ∃ e, result = .error e ∧ e.position = position := by
  cases result with
  | error e => exact ⟨e, rfl, Except.error.inj h⟩
  | ok a => cases h

theorem verdict_eq_ok {α : Type} {result : Except GrammarError α} (h : verdict result = .ok ()) :
    ∃ a, result = .ok a := by
  cases result with
  | error e => cases h
  | ok a => exact ⟨a, rfl⟩

theorem position_ofEmptySegment (before : Option Connector) (following : Found) :
    (ofEmptySegment before following).position = following.index? := by
  cases following with
  | operator op index => rfl
  | endOfInput => rcases before with _ | _ | _ | _ <;> rfl

end GrammarError

theorem Segment.verdict_items (following : Found) (index : Nat) (tokens : List Token)
    (hcut : ∀ token ∈ tokens, token.connector? = none) :
    (items following index tokens |> GrammarError.verdict) =
      Need.verdict following.index? (Need.scan .nothing index tokens) := by
  fun_induction items following index tokens with
  | case1 => rfl
  | case2 index token tokens hredirect ih =>
      obtain ⟨htoken, htokens⟩ := List.forall_mem_cons.mp hcut
      have hargument := isArgument_of_redirect? htoken hredirect
      rw [Need.scan_cons_argument hargument, ← ih htokens]
      exact GrammarError.verdict_bind_ok _ _
  | case3 index token op hredirect =>
      rw [Need.scan_cons_redirect (Token.redirect?_eq_some_iff.mp hredirect) (by decide)]
      rfl
  | case4 index token op hredirect target tokens found htarget =>
      rw [Need.scan_cons_redirect (Token.redirect?_eq_some_iff.mp hredirect) (by decide),
        Need.scan, Need.admits, Token.isArgument_eq_false htarget]
      rfl
  | case5 index token op hredirect target tokens htarget ih =>
      have htokens := (List.forall_mem_cons.mp (List.forall_mem_cons.mp hcut).2).2
      rw [Need.scan_cons_redirect (Token.redirect?_eq_some_iff.mp hredirect) (by decide),
        Need.scan_cons_argument (Token.isArgument_iff.mpr htarget), ← ih htokens]
      exact GrammarError.verdict_bind_ok _ _

namespace Stage

theorem verdict_ofSegment (before : Option Connector) (following : Found) (index : Nat)
    {segment : List Token} (hcut : ∀ token ∈ segment, token.connector? = none) :
    GrammarError.verdict (ofSegment before following index segment) =
      Need.verdict following.index? (Need.scan .command index segment) := by
  cases segment with
  | nil =>
      change Except.error (GrammarError.ofEmptySegment before following).position = _
      rw [GrammarError.position_ofEmptySegment]
      rfl
  | cons token rest =>
      have hne : token :: rest ≠ [] := List.cons_ne_nil token rest
      rw [Need.scan_command (hcut token List.mem_cons_self)]
      rcases splitNegation_cases before (token :: rest) with
        ⟨second, words, heq, -, hsplit⟩ | ⟨hsplit, -⟩
      · obtain ⟨rfl, rfl⟩ := List.cons.inj heq
        rw [ofSegment_of_split hne hsplit, GrammarError.verdict_bind_ok, if_pos rfl,
          Segment.verdict_items _ _ _ (List.forall_mem_cons.mp hcut).2,
          Need.scan_cons_argument Token.isArgument_negationWord]
      · rw [ofSegment_of_split hne hsplit, GrammarError.verdict_bind_ok,
          if_neg Bool.false_ne_true, Segment.verdict_items _ _ _ hcut]

theorem verdict_ofSegments (before : Option Connector) (index : Nat) {first : List Token}
    {others : List (Connector × List Token)} (hcut : Segments.IsCut ⟨first, others⟩) :
    GrammarError.verdict (ofSegments before index first others) =
      Need.verdict none (Need.scan .command index (Segments.tokens ⟨first, others⟩)) := by
  induction others generalizing before index first with
  | nil =>
      have htokens : Segments.tokens ⟨first, []⟩ = first := List.append_nil first
      rw [htokens]
      exact (GrammarError.verdict_bind_ok _ _).trans (verdict_ofSegment before _ index hcut.1)
  | cons other others ih =>
      obtain ⟨connector, second⟩ := other
      obtain ⟨hsecond, hothers⟩ := List.forall_mem_cons.mp hcut.2
      have htokens : Segments.tokens ⟨first, (connector, second) :: others⟩ =
          first ++ .operator (.connect connector) :: Segments.tokens ⟨second, others⟩ := rfl
      have hconnector : (Token.operator (.connect connector)).operator? =
          some (.connect connector) := rfl
      have hfirst := verdict_ofSegment before
        (.operator (.connect connector) (index + first.length)) index hcut.1
      have hrest := ih (some connector) (index + first.length + 1) ⟨hsecond, hothers⟩
      rw [htokens, Need.scan_append, ofSegments]
      -- The connector is misplaced unless the segment in front of it asks for nothing.
      rcases hscan : Need.scan .command index first with p | need
      · obtain ⟨e, he, hposition⟩ :=
          GrammarError.verdict_eq_error (hfirst.trans (by rw [hscan]; rfl))
        rw [he]
        exact congrArg _ hposition
      · cases need with
        | nothing =>
            obtain ⟨stage, hstage⟩ := GrammarError.verdict_eq_ok (hfirst.trans (by rw [hscan]; rfl))
            rw [hstage, ok_bind, ok_bind, Need.scan_cons_connector hconnector, ← hrest]
            exact GrammarError.verdict_bind_ok _ _
        | _ =>
            obtain ⟨e, he, hposition⟩ :=
              GrammarError.verdict_eq_error (hfirst.trans (by rw [hscan]; rfl))
            rw [he, ok_bind, Need.scan, Need.admits_of_connector hconnector]
            exact congrArg _ hposition

end Stage

namespace CommandList

theorem verdict_parse (tokens : List Token) :
    GrammarError.verdict (parse tokens) = Need.verdict none (Need.scan .command 0 tokens) := by
  have hyield := Segments.normalized_tokens_ofTokens tokens
  rw [← Need.scan_normalized, ← hyield, Need.scan_normalized, parse_eq,
    GrammarError.verdict_bind_ok]
  exact Stage.verdict_ofSegments none 0 (Segments.isCut_ofTokens tokens)

def IsAccepted (tokens : List Token) : Prop :=
  ∃ list, parse tokens = .ok list

theorem isAccepted_iff {tokens : List Token} :
    IsAccepted tokens ↔ Need.scan .command 0 tokens = .ok .nothing := by
  have hverdict := verdict_parse tokens
  constructor
  · rintro ⟨list, h⟩
    rw [h] at hverdict
    exact Need.verdict_eq_ok hverdict.symm
  · intro h
    rw [h] at hverdict
    exact GrammarError.verdict_eq_ok hverdict

theorem position_cases {tokens : List Token} {e : GrammarError} (h : parse tokens = .error e) :
    (∃ p, e.position = some p ∧ Need.scan .command 0 tokens = .error p) ∨
      (e.position = none ∧ ∃ need, Need.scan .command 0 tokens = .ok need) := by
  have hverdict := verdict_parse tokens
  rw [h] at hverdict
  exact Need.verdict_eq_error hverdict.symm

theorem position_eq_some_iff {tokens : List Token} {e : GrammarError}
    (h : parse tokens = .error e) {p : Nat} :
    e.position = some p ↔ Need.scan .command 0 tokens = .error p := by
  rcases position_cases h with ⟨q, hposition, hscan⟩ | ⟨hposition, need, hscan⟩
  · simp [hposition, hscan]
  · simp [hposition, hscan]

theorem position_eq_none_iff {tokens : List Token} {e : GrammarError}
    (h : parse tokens = .error e) :
    e.position = none ↔ ∃ need, Need.scan .command 0 tokens = .ok need := by
  rcases position_cases h with ⟨q, hposition, hscan⟩ | ⟨hposition, need, hscan⟩
  · simp [hposition, hscan]
  · simp [hposition, hscan]

theorem exists_isAccepted_iff {tokens : List Token} :
    (∃ longer, tokens <+: longer ∧ IsAccepted longer) ↔
      ∃ need, Need.scan .command 0 tokens = .ok need := by
  rw [← Need.exists_scan_append_iff]
  constructor
  · rintro ⟨_, ⟨more, rfl⟩, haccepted⟩
    exact ⟨more, isAccepted_iff.mp haccepted⟩
  · rintro ⟨more, hscan⟩
    exact ⟨tokens ++ more, List.prefix_append tokens more, isAccepted_iff.mpr hscan⟩

/-- The descent fails as parsing does, so never past the end nor with a token left over. -/
theorem parse_adjacency (tokens : List Token) :
    Descent.parse tokens = (parse tokens).mapError (fun e => .grammar e.cause e.position) ∧
    (IsAccepted tokens ↔
      tokens ≠ [] ∧ (∀ last ∈ tokens.getLast?, last.isArgument = true) ∧
        ∀ p, ¬ Misplaced tokens p) ∧
    ∀ e, parse tokens = .error e →
      (∀ p, e.position = some p ↔ IsLeast {q | Misplaced tokens q} p) ∧
      (∀ p, e.position = some p ↔
        IsLeast {q | ∀ longer, tokens.take (q + 1) <+: longer → ¬ IsAccepted longer} p) ∧
      (e.position = none ↔ ∀ p, ¬ Misplaced tokens p) ∧
      (e.position = none ↔ ∃ longer, tokens <+: longer ∧ longer ≠ tokens ∧ IsAccepted longer) := by
  refine ⟨Descent.parse_eq tokens, isAccepted_iff.trans Need.scan_eq_nothing_iff, ?_⟩
  intro e h
  refine ⟨?_, ?_, ?_, ?_⟩
  · intro p
    exact (position_eq_some_iff h).trans Need.scan_eq_error_iff
  · intro p
    have hset : ∀ q, (∀ longer, tokens.take (q + 1) <+: longer → ¬ IsAccepted longer) ↔
        ∀ more, Need.scan .command 0 (tokens.take (q + 1) ++ more) ≠ .ok .nothing := by
      intro q
      constructor
      · intro hdead more hscan
        exact hdead _ (List.prefix_append _ more) (isAccepted_iff.mpr hscan)
      · rintro hdead _ ⟨more, rfl⟩ haccepted
        exact hdead more (isAccepted_iff.mp haccepted)
    simp only [hset]
    rw [position_eq_some_iff h, Need.scan_eq_error_iff, Need.isLeast_take_iff]
  · exact (position_eq_none_iff h).trans Need.exists_scan_eq_ok_iff
  · rw [position_eq_none_iff h, ← exists_isAccepted_iff]
    constructor
    · rintro ⟨longer, hprefix, list, hlist⟩
      refine ⟨longer, hprefix, ?_, list, hlist⟩
      rintro rfl
      rw [h] at hlist
      cases hlist
    · rintro ⟨longer, hprefix, -, haccepted⟩
      exact ⟨longer, hprefix, haccepted⟩

/-- `a > | > && b`: the first redirection has no target, and all in front of it is a prefix. -/
theorem parse_adjacency_missing_target :
    let tokens : List Token := [.symbol "a", .symbol ">", .string "|", .symbol ">", .symbol "&&",
      .symbol "b"]
    parse tokens =
        .error (.missingTarget .output (.operator (.connect (.pipe .pipe)) 2)) ∧
      IsLeast {q | Misplaced tokens q} 2 ∧
      IsLeast {q | ∀ longer, tokens.take (q + 1) <+: longer → ¬ IsAccepted longer} 2 := by
  intro tokens
  have herror : parse tokens =
      .error (.missingTarget .output (.operator (.connect (.pipe .pipe)) 2)) := rfl
  obtain ⟨hleast, hdead, -⟩ := (parse_adjacency tokens).2.2 _ herror
  exact ⟨herror, (hleast 2).mp rfl, (hdead 2).mp rfl⟩

end CommandList
end ShellLowering
