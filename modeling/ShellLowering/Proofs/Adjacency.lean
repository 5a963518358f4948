import Mathlib.Data.List.TakeDrop
import Mathlib.Order.Bounds.Basic
import ShellLowering.Proofs.Outcome
import ShellLowering.Proofs.Yield

namespace ShellLowering

/-- A connector at the front, a connector behind a connector or a redirection, or a redirection
behind a redirection. -/
def Misplaced (tokens : List Token) : Nat → Prop
  | 0 => ∃ token ∈ tokens[0]?, token.connector?.isSome
  | p + 1 => ∃ before ∈ tokens[p]?, ∃ token ∈ tokens[p + 1]?,
      (token.connector?.isSome ∧ (before.connector?.isSome ∨ before.redirect?.isSome)) ∨
        (token.redirect?.isSome ∧ before.redirect?.isSome)

/-- What the tokens read so far ask for. -/
inductive Need where
  | command
  | target
  | nothing
  deriving DecidableEq

theorem Token.operator?_normalized (token : Token) :
    token.normalized.operator? = token.operator? := by
  cases h : token.operator? with
  | none => rw [normalized_of_isArgument (isArgument_iff.mpr h), h]
  | some op => rw [normalized_of_operator? h, operator?]

namespace Need

def after (token : Token) : Need :=
  match token.operator? with
  | none => .nothing
  | some (.redirect _) => .target
  | some (.connect _) => .command

def admits : Need → Token → Bool
  | .command, token => token.connector?.isNone
  | .target, token => token.isArgument
  | .nothing, _ => true

/-- Reads tokens from the left. The error is the index of the first token that is not admitted. -/
def scan (need : Need) (index : Nat) : List Token → Except Nat Need
  | [] => .ok need
  | token :: tokens =>
    if need.admits token then scan (after token) (index + 1) tokens else .error index

def Breaks (need : Need) : List Token → Nat → Prop
  | [], _ => False
  | token :: _, 0 => need.admits token = false
  | token :: tokens, p + 1 => Breaks (after token) tokens p

theorem after_of_isArgument {token : Token} (h : token.isArgument = true) :
    after token = .nothing := by
  simp [after, Token.isArgument_iff.mp h]

theorem after_of_redirect {token : Token} {op : RedirectOp}
    (h : token.operator? = some (.redirect op)) : after token = .target := by
  simp [after, h]

theorem after_of_connector {token : Token} {connector : Connector}
    (h : token.operator? = some (.connect connector)) : after token = .command := by
  simp [after, h]

theorem after_eq_nothing_iff {token : Token} :
    after token = .nothing ↔ token.isArgument = true := by
  rcases h : token.operator? with _ | _ | _ <;> simp [after, Token.isArgument_iff, h]

theorem admits_of_isArgument {token : Token} (h : token.isArgument = true) (need : Need) :
    need.admits token = true := by
  cases need <;> simp [admits, h, Token.connector?, Token.isArgument_iff.mp h]

theorem admits_of_redirect {token : Token} {op : RedirectOp}
    (h : token.operator? = some (.redirect op)) (need : Need) :
    need.admits token = decide (need ≠ .target) := by
  cases need <;> simp [admits, Token.connector?, Token.isArgument_eq_false h, h]

theorem admits_of_connector {token : Token} {connector : Connector}
    (h : token.operator? = some (.connect connector)) (need : Need) :
    need.admits token = decide (need = .nothing) := by
  cases need <;> simp [admits, Token.connector?, Token.isArgument_eq_false h, h]

theorem scan_append (need : Need) (index : Nat) (before tokens : List Token) :
    scan need index (before ++ tokens) =
      (scan need index before >>= fun reached => scan reached (index + before.length) tokens) := by
  induction before generalizing need index with
  | nil => rfl
  | cons token before ih =>
      rw [List.cons_append, scan, scan]
      cases need.admits token with
      | true =>
          simp only [if_true, ih, List.length_cons]
          rw [Nat.add_right_comm, Nat.add_assoc]
      | false => rfl

theorem scan_shift (need : Need) (offset index : Nat) (tokens : List Token) :
    scan need (offset + index) tokens = (scan need index tokens).mapError (offset + ·) := by
  induction tokens generalizing need index with
  | nil => rfl
  | cons token tokens ih =>
      rw [scan, scan]
      cases need.admits token with
      | true => exact ih (after token) (index + 1)
      | false => rfl

theorem scan_cons_argument {token : Token} (h : token.isArgument = true) (need : Need)
    (index : Nat) (tokens : List Token) :
    scan need index (token :: tokens) = scan .nothing (index + 1) tokens := by
  rw [scan, admits_of_isArgument h, if_pos rfl, after_of_isArgument h]

theorem scan_cons_redirect {token : Token} {op : RedirectOp}
    (h : token.operator? = some (.redirect op)) {need : Need} (hneed : need ≠ .target)
    (index : Nat) (tokens : List Token) :
    scan need index (token :: tokens) = scan .target (index + 1) tokens := by
  rw [scan, admits_of_redirect h, if_pos (decide_eq_true hneed), after_of_redirect h]

theorem scan_cons_connector {token : Token} {connector : Connector}
    (h : token.operator? = some (.connect connector)) (index : Nat) (tokens : List Token) :
    scan .nothing index (token :: tokens) = scan .command (index + 1) tokens := by
  rw [scan, after_of_connector h]
  rfl

theorem scan_command {token : Token} (h : token.connector? = none) (index : Nat)
    (tokens : List Token) :
    scan .command index (token :: tokens) = scan .nothing index (token :: tokens) := by
  simp [scan, admits, h]

theorem scan_normalized (need : Need) (index : Nat) (tokens : List Token) :
    scan need index (tokens.map Token.normalized) = scan need index tokens := by
  induction tokens generalizing need index with
  | nil => rfl
  | cons token tokens ih =>
      have hoperator : token.normalized.operator? = token.operator? := token.operator?_normalized
      have hargument : token.normalized.isArgument = token.isArgument := by
        rw [Bool.eq_iff_iff, Token.isArgument_iff, Token.isArgument_iff, hoperator]
      have hadmits : need.admits token.normalized = need.admits token := by
        cases need <;> simp [admits, Token.connector?, hargument, hoperator]
      have hafter : after token.normalized = after token := by simp [after, hoperator]
      rw [List.map_cons, scan, scan, hadmits, hafter, ih]

theorem breaks_succ_iff {need : Need} {tokens : List Token} {p : Nat} :
    Breaks need tokens (p + 1) ↔ ∃ before ∈ tokens[p]?, ∃ token ∈ tokens[p + 1]?,
      (after before).admits token = false := by
  induction p generalizing need tokens with
  | zero => rcases tokens with _ | ⟨before, _ | ⟨token, tokens⟩⟩ <;> simp [Breaks]
  | succ p ih =>
      cases tokens with
      | nil => simp [Breaks]
      | cons before tokens => simpa [Breaks] using ih

theorem admits_after_eq_false_iff {before token : Token} :
    (after before).admits token = false ↔
      (token.connector?.isSome ∧ (before.connector?.isSome ∨ before.redirect?.isSome)) ∨
        (token.redirect?.isSome ∧ before.redirect?.isSome) := by
  rcases htoken : token.operator? with _ | op | connector
  · rw [admits_of_isArgument (Token.isArgument_iff.mpr htoken)]
    simp [Token.connector?, Token.redirect?, htoken]
  · rw [admits_of_redirect htoken]
    rcases hbefore : before.operator? with _ | _ | _ <;>
      simp [after, Token.connector?, Token.redirect?, hbefore, htoken]
  · rw [admits_of_connector htoken]
    rcases hbefore : before.operator? with _ | _ | _ <;>
      simp [after, Token.connector?, Token.redirect?, hbefore, htoken]

theorem breaks_command_iff {tokens : List Token} {p : Nat} :
    Breaks .command tokens p ↔ Misplaced tokens p := by
  cases p with
  | zero =>
      cases tokens with
      | nil => simp [Breaks, Misplaced]
      | cons token tokens => simp [Breaks, Misplaced, admits, Option.isSome_iff_ne_none]
  | succ p => simp only [breaks_succ_iff, admits_after_eq_false_iff, Misplaced]

/-- The scan reaches the end if no rule is broken, and then asks for what the last token asks for;
otherwise it stops where the first rule is broken. -/
theorem scan_cases (need : Need) (index : Nat) (tokens : List Token) :
    (scan need index tokens = .ok (tokens.getLast?.elim need after) ∧
      ∀ p, ¬ Breaks need tokens p) ∨
    ∃ p, scan need index tokens = .error (index + p) ∧ IsLeast {q | Breaks need tokens q} p := by
  induction tokens generalizing need index with
  | nil => exact .inl ⟨rfl, fun p => id⟩
  | cons token tokens ih =>
      cases hadmits : need.admits token with
      | false => exact .inr ⟨0, by simp [scan, hadmits], hadmits, fun q _ => Nat.zero_le q⟩
      | true =>
          have hscan : scan need index (token :: tokens) =
              scan (after token) (index + 1) tokens := by simp [scan, hadmits]
          have hzero : ¬ Breaks need (token :: tokens) 0 := by simp [Breaks, hadmits]
          rw [hscan]
          rcases ih (after token) (index + 1) with ⟨hok, hnone⟩ | ⟨p, herror, hbreaks, hleast⟩
          · refine .inl ⟨?_, ?_⟩
            · rw [hok, List.getLast?_cons]
              cases tokens.getLast? <;> rfl
            · rintro (_ | p)
              · exact hzero
              · exact hnone p
          · refine .inr ⟨p + 1, ?_, hbreaks, ?_⟩
            · rw [herror, Nat.add_right_comm, Nat.add_assoc]
            · rintro (_ | q) hq
              · exact absurd hq hzero
              · exact Nat.succ_le_succ (hleast hq)

theorem scan_eq_error_iff {tokens : List Token} {p : Nat} :
    scan .command 0 tokens = .error p ↔ IsLeast {q | Misplaced tokens q} p := by
  simp only [← breaks_command_iff]
  rcases scan_cases .command 0 tokens with ⟨hok, hnone⟩ | ⟨q, herror, hleast⟩
  · rw [hok]
    exact ⟨fun h => (by cases h), fun h => absurd h.1 (hnone p)⟩
  · rw [herror, Nat.zero_add, Except.error.injEq]
    exact ⟨fun h => h ▸ hleast, fun h => hleast.unique h⟩

theorem exists_scan_eq_ok_iff {tokens : List Token} :
    (∃ need, scan .command 0 tokens = .ok need) ↔ ∀ p, ¬ Misplaced tokens p := by
  simp only [← breaks_command_iff]
  rcases scan_cases .command 0 tokens with ⟨hok, hnone⟩ | ⟨q, herror, hbreaks, -⟩
  · exact ⟨fun _ => hnone, fun _ => ⟨_, hok⟩⟩
  · rw [herror]
    exact ⟨fun ⟨_, h⟩ => (by cases h), fun h => absurd hbreaks (h q)⟩

theorem scan_eq_nothing_iff {tokens : List Token} :
    scan .command 0 tokens = .ok .nothing ↔
      tokens ≠ [] ∧ (∀ last ∈ tokens.getLast?, last.isArgument = true) ∧
        ∀ p, ¬ Misplaced tokens p := by
  simp only [← breaks_command_iff]
  rcases scan_cases .command 0 tokens with ⟨hok, hnone⟩ | ⟨q, herror, hbreaks, -⟩
  · rw [hok]
    rcases tokens.eq_nil_or_concat' with rfl | ⟨tokens, last, rfl⟩
    · simp
    · simp [hnone, after_eq_nothing_iff]
  · rw [herror]
    exact ⟨fun h => (by cases h), fun h => absurd hbreaks (h.2.2 q)⟩

theorem exists_scan_append_iff {tokens : List Token} :
    (∃ more, scan .command 0 (tokens ++ more) = .ok .nothing) ↔
      ∃ need, scan .command 0 tokens = .ok need := by
  simp only [scan_append]
  constructor
  · rintro ⟨more, h⟩
    obtain ⟨need, hneed, -⟩ := bind_eq_ok.mp h
    exact ⟨need, hneed⟩
  · rintro ⟨need, hneed⟩
    have hword : (Token.symbol "x").isArgument = true := rfl
    refine ⟨[.symbol "x"], ?_⟩
    rw [hneed, ok_bind, scan, admits_of_isArgument hword, if_pos rfl, scan,
      after_of_isArgument hword]

theorem misplaced_take_iff {tokens : List Token} {n p : Nat} :
    Misplaced (tokens.take n) p ↔ p < n ∧ Misplaced tokens p := by
  cases p with
  | zero => by_cases h : 0 < n <;> simp [Misplaced, h]
  | succ p =>
      by_cases h : p + 1 < n
      · have hbefore : p < n := by omega
        simp [Misplaced, h, hbefore]
      · simp [Misplaced, List.getElem?_take, h]

/-- The least index with no completion of the tokens up to it is the least one that breaks a rule.
-/
theorem isLeast_take_iff {tokens : List Token} {p : Nat} :
    IsLeast {q | ∀ more, scan .command 0 (tokens.take (q + 1) ++ more) ≠ .ok .nothing} p ↔
      IsLeast {q | Misplaced tokens q} p := by
  have hset : ∀ q, (∀ more, scan .command 0 (tokens.take (q + 1) ++ more) ≠ .ok .nothing) ↔
      ∃ r ≤ q, Misplaced tokens r := by
    intro q
    rw [← not_exists, exists_scan_append_iff, exists_scan_eq_ok_iff]
    simp only [misplaced_take_iff, Nat.lt_succ_iff, not_forall, not_not]
  simp only [hset]
  constructor
  · rintro ⟨⟨r, hr, hmisplaced⟩, hleast⟩
    have hp : p = r := le_antisymm (hleast ⟨r, le_refl r, hmisplaced⟩) hr
    exact ⟨hp ▸ hmisplaced, fun q hq => hleast ⟨q, le_refl q, hq⟩⟩
  · rintro ⟨hmisplaced, hleast⟩
    refine ⟨⟨p, le_refl p, hmisplaced⟩, ?_⟩
    rintro q ⟨r, hr, hq⟩
    exact (hleast hq).trans hr

end Need
end ShellLowering
