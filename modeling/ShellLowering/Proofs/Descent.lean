import ShellLowering.Grammar.Parser
import ShellLowering.Proofs.Outcome

/-!
Recursive descent: readers that hand a place in the tokens along and decide by the category of the
next token or two. A token is read without asking whether there is one, and a reader that runs past
the end or leaves a token over says so.
-/

namespace ShellLowering

/-- How a descent fails: with a cause and a position, with a token left over, past the end, or at a
token that cannot be written. -/
inductive Fault where
  | grammar (cause : String) (position : Option Nat)
  | leftover (found : String) (index : Nat)
  | outOfRange (index : Nat)
  | unwritable

/-- A place in the tokens: its index, and the tokens from there on. -/
structure Cursor where
  index : Nat
  rest : List Token

def Advances {α : Type} (reader : Cursor → Except Fault (α × Cursor)) : Prop :=
  ∀ cursor a next, reader cursor = .ok (a, next) → next.rest.length < cursor.rest.length

/-- The text of a token that is to be named. -/
def Token.named (token : Token) : Except Fault String :=
  match token.text? with
  | some text => .ok text
  | none => .error .unwritable

namespace Cursor

def token (cursor : Cursor) : Except Fault Token :=
  match cursor.rest with
  | [] => .error (.outOfRange cursor.index)
  | token :: _ => .ok token

def next (cursor : Cursor) : Cursor :=
  ⟨cursor.index + 1, cursor.rest.tail⟩

def category? (cursor : Cursor) : Option Token.Category :=
  cursor.rest.head?.map Token.category

def describe (cursor : Cursor) : Except Fault String :=
  match cursor.rest with
  | [] => .ok "end of input"
  | token :: _ => return Text.quoted (← token.named)

def position (cursor : Cursor) : Option Nat :=
  if cursor.rest.isEmpty then none else some cursor.index

theorem next_lt {cursor : Cursor} (h : cursor.rest.isEmpty = false) :
    cursor.next.rest.length < cursor.rest.length := by
  obtain ⟨index, _ | ⟨token, rest⟩⟩ := cursor
  · cases h
  · exact Nat.lt_succ_self rest.length

theorem next_le (cursor : Cursor) : cursor.next.rest.length ≤ cursor.rest.length := by
  simp [next]

theorem isEmpty_of_token {cursor : Cursor} {read : Token} (h : cursor.token = .ok read) :
    cursor.rest.isEmpty = false := by
  obtain ⟨index, _ | ⟨token, rest⟩⟩ := cursor
  · cases h
  · rfl

end Cursor

namespace Descent

def startsRedirection (cursor : Cursor) : Except Fault Bool :=
  if cursor.category? = some .redirect then .ok true
  else do
    let token ← cursor.token
    return token.fd?.isSome ∧ cursor.next.category? = some .redirect

def startsCommand (cursor : Cursor) : Except Fault Bool :=
  if cursor.rest.isEmpty then .ok false
  else if cursor.category? = some .argument then .ok true
  else startsRedirection cursor

def redirectionTo (op : String) (fd : Option Int) (cursor : Cursor) :
    Except Fault (Redirection × Cursor) :=
  if cursor.category? = some .argument then do
    let target ← cursor.token
    return (⟨some op, target, fd⟩, cursor.next)
  else do
    let found ← cursor.describe
    .error (.grammar (.join ["redirection ", Text.quoted op, " requires a target, found ", found])
      cursor.position)

def redirection (cursor : Cursor) : Except Fault (Redirection × Cursor) := do
  let token ← cursor.token
  let opening := if token.fd?.isSome then cursor.next else cursor
  let op ← opening.token
  redirectionTo (← op.named) token.fd? opening.next

theorem redirectionTo_le {op : String} {fd : Option Int} {cursor next : Cursor}
    {read : Redirection} (h : redirectionTo op fd cursor = .ok (read, next)) :
    next.rest.length ≤ cursor.rest.length := by
  unfold redirectionTo at h
  split at h
  · obtain ⟨target, -, h⟩ := bind_eq_ok.mp h
    cases h
    exact Cursor.next_le cursor
  · obtain ⟨found, -, h⟩ := bind_eq_ok.mp h
    cases h

theorem redirection_advances : Advances redirection := by
  intro cursor read next h
  obtain ⟨token, htoken, h⟩ := bind_eq_ok.mp h
  obtain ⟨op, -, h⟩ := bind_eq_ok.mp h
  obtain ⟨text, -, h⟩ := bind_eq_ok.mp h
  have hfirst := Cursor.next_lt (Cursor.isEmpty_of_token htoken)
  have hsecond := Cursor.next_le cursor.next
  have hlast := redirectionTo_le h
  split at hlast <;> omega

def items (cursor : Cursor) : Except Fault (List Item × Cursor) :=
  if _hempty : cursor.rest.isEmpty then .ok ([], cursor)
  else do
    if ← startsRedirection cursor then
      match _hread : redirection cursor with
      | .error fault => .error fault
      | .ok (read, next) =>
        let (others, last) ← items next
        return (.redirect read :: others, last)
    else if cursor.category? = some .argument then
      let token ← cursor.token
      let (others, last) ← items cursor.next
      return (.word token :: others, last)
    else
      return ([], cursor)
termination_by cursor.rest.length
decreasing_by
  · exact redirection_advances _ _ _ _hread
  · exact Cursor.next_lt (Bool.not_eq_true _ ▸ _hempty)

theorem items_eq {cursor : Cursor} (h : cursor.rest.isEmpty = false) :
    items cursor =
      (startsRedirection cursor >>= fun starts =>
        if starts then
          redirection cursor >>= fun (read, next) =>
            items next >>= fun (others, last) => .ok (.redirect read :: others, last)
        else if cursor.category? = some .argument then
          cursor.token >>= fun token =>
            items cursor.next >>= fun (others, last) => .ok (.word token :: others, last)
        else .ok ([], cursor)) := by
  rw [items, dif_neg (by simp [h])]
  refine bind_congr fun starts => ?_
  cases redirection cursor <;> rfl

theorem items_le (cursor : Cursor) {read : List Item} {next : Cursor}
    (h : items cursor = .ok (read, next)) :
    next.rest.length ≤ cursor.rest.length ∧
      (read ≠ [] → next.rest.length < cursor.rest.length) := by
  induction hlength : cursor.rest.length using Nat.strongRecOn
    generalizing cursor read next with
  | ind n ih =>
      subst hlength
      cases hempty : cursor.rest.isEmpty with
      | true =>
          rw [items, dif_pos hempty] at h
          injection h with h
          obtain ⟨rfl, rfl⟩ := Prod.mk.inj h
          exact ⟨Nat.le_refl _, fun hne => absurd rfl hne⟩
      | false =>
          rw [items_eq hempty] at h
          obtain ⟨starts, -, h⟩ := bind_eq_ok.mp h
          -- Both kinds of items are read first, and then the rest from a later place.
          have hlater : ∀ {item : Item} {place : Cursor},
              place.rest.length < cursor.rest.length →
              (items place >>= fun (others, last) => .ok (item :: others, last)) =
                .ok (read, next) →
              next.rest.length < cursor.rest.length := by
            intro item place hplace h
            obtain ⟨⟨others, last⟩, hothers, h⟩ := bind_eq_ok.mp h
            injection h with h
            obtain ⟨-, rfl⟩ := Prod.mk.inj h
            exact Nat.lt_of_le_of_lt (ih _ hplace place hothers rfl).1 hplace
          split at h
          · obtain ⟨⟨redirection, place⟩, hredirection, h⟩ := bind_eq_ok.mp h
            have hlt := hlater (redirection_advances _ _ _ hredirection) h
            exact ⟨Nat.le_of_lt hlt, fun _ => hlt⟩
          · split at h
            · obtain ⟨token, -, h⟩ := bind_eq_ok.mp h
              have hlt := hlater (Cursor.next_lt hempty) h
              exact ⟨Nat.le_of_lt hlt, fun _ => hlt⟩
            · injection h with h
              obtain ⟨rfl, rfl⟩ := Prod.mk.inj h
              exact ⟨Nat.le_refl _, fun hne => absurd rfl hne⟩

def command (cursor : Cursor) : Except Fault (Command × Cursor) := do
  let (read, next) ← items cursor
  if read.isEmpty then
    let found ← next.describe
    .error (.grammar (.join ["expected a command, found ", found]) next.position)
  else
    return (⟨read⟩, next)

theorem command_advances : Advances command := by
  intro cursor read next h
  obtain ⟨⟨items, place⟩, hitems, h⟩ := bind_eq_ok.mp h
  cases hempty : items.isEmpty with
  | true =>
      simp only [hempty, if_true] at h
      obtain ⟨found, -, h⟩ := bind_eq_ok.mp h
      cases h
  | false =>
      simp only [hempty, Bool.false_eq_true, if_false, pure_eq_ok, Except.ok.injEq,
        Prod.mk.injEq] at h
      obtain ⟨-, rfl⟩ := h
      exact (items_le cursor hitems).2 (by simpa using hempty)

/-- Refuses an operator behind which the tokens end. -/
def demand (missing : Option String) (op : String) (cursor : Cursor) : Except Fault Unit :=
  match missing with
  | none => .ok ()
  | some cause =>
    if cursor.rest.isEmpty then .error (.grammar (.join [cause, Text.quoted op]) none)
    else .ok ()

/-- The groups behind operators of a category, each with its operator. -/
def many {α : Type} (category : Token.Category) (missing : Option String)
    (group : Cursor → Except Fault (α × Cursor)) (hgroup : Advances group) (cursor : Cursor) :
    Except Fault (List (Option String × α) × Cursor) :=
  if cursor.category? = some category then do
    let token ← cursor.token
    let op ← token.named
    demand missing op cursor.next
    match _hread : group cursor.next with
    | .error fault => .error fault
    | .ok (first, next) =>
      let (others, last) ← many category missing group hgroup next
      return ((some op, first) :: others, last)
  else
    .ok ([], cursor)
termination_by cursor.rest.length
decreasing_by exact Nat.lt_of_lt_of_le (hgroup _ _ _ _hread) (Cursor.next_le cursor)

theorem many_of_category {α : Type} {category : Token.Category} {cursor : Cursor}
    (h : cursor.category? = some category) (missing : Option String)
    (group : Cursor → Except Fault (α × Cursor)) (hgroup : Advances group) :
    many category missing group hgroup cursor =
      (cursor.token >>= fun token =>
        token.named >>= fun op =>
        demand missing op cursor.next >>= fun _ =>
        group cursor.next >>= fun (first, next) =>
        many category missing group hgroup next >>= fun (others, last) =>
        .ok ((some op, first) :: others, last)) := by
  rw [many, if_pos h]
  refine bind_congr fun token => bind_congr fun op => bind_congr fun _ => ?_
  cases group cursor.next <;> rfl

theorem many_of_ne {α : Type} {category : Token.Category} {cursor : Cursor}
    (h : cursor.category? ≠ some category) (missing : Option String)
    (group : Cursor → Except Fault (α × Cursor)) (hgroup : Advances group) :
    many category missing group hgroup cursor = .ok ([], cursor) := by
  rw [many, if_neg h]

theorem many_le {α : Type} {category : Token.Category} {missing : Option String}
    {group : Cursor → Except Fault (α × Cursor)} {hgroup : Advances group} (cursor : Cursor)
    {children : List (Option String × α)} {next : Cursor}
    (h : many category missing group hgroup cursor = .ok (children, next)) :
    next.rest.length ≤ cursor.rest.length := by
  induction hlength : cursor.rest.length using Nat.strongRecOn
    generalizing cursor children next with
  | ind n ih =>
      subst hlength
      by_cases hcategory : cursor.category? = some category
      · rw [many_of_category hcategory] at h
        obtain ⟨token, -, h⟩ := bind_eq_ok.mp h
        obtain ⟨op, -, h⟩ := bind_eq_ok.mp h
        obtain ⟨_, -, h⟩ := bind_eq_ok.mp h
        obtain ⟨⟨first, place⟩, hfirst, h⟩ := bind_eq_ok.mp h
        obtain ⟨⟨others, last⟩, hothers, h⟩ := bind_eq_ok.mp h
        injection h with h
        obtain ⟨-, rfl⟩ := Prod.mk.inj h
        have hplace := Nat.lt_of_lt_of_le (hgroup _ _ _ hfirst) (Cursor.next_le cursor)
        exact Nat.le_of_lt (Nat.lt_of_le_of_lt (ih _ hplace place hothers rfl) hplace)
      · rw [many_of_ne hcategory] at h
        injection h with h
        obtain ⟨-, rfl⟩ := Prod.mk.inj h
        exact Nat.le_refl _

def isNegation : Token → Bool
  | .symbol name => name = Stage.negationWord
  | _ => false

def stage (cursor : Cursor) : Except Fault (Stage × Cursor) := do
  let token ← cursor.token
  let negated ← (if isNegation token then startsCommand cursor.next else .ok false)
  let (first, next) ← command (if negated then cursor.next else cursor)
  return (⟨negated, first⟩, next)

theorem stage_advances : Advances stage := by
  intro cursor read next h
  obtain ⟨token, -, h⟩ := bind_eq_ok.mp h
  obtain ⟨negated, -, h⟩ := bind_eq_ok.mp h
  obtain ⟨⟨first, place⟩, hfirst, h⟩ := bind_eq_ok.mp h
  injection h with h
  obtain ⟨-, rfl⟩ := Prod.mk.inj h
  have hlt := command_advances _ _ _ hfirst
  cases negated with
  | true => exact Nat.lt_of_lt_of_le hlt (Cursor.next_le cursor)
  | false => exact hlt

theorem advances_many {α β γ : Type} {first : Cursor → Except Fault (α × Cursor)}
    (hfirst : Advances first) {category : Token.Category} {missing : Option String}
    {group : Cursor → Except Fault (β × Cursor)} {hgroup : Advances group}
    (join : α → List (Option String × β) → γ) :
    Advances fun cursor => do
      let (read, next) ← first cursor
      let (others, last) ← many category missing group hgroup next
      return (join read others, last) := by
  intro cursor read next h
  obtain ⟨⟨head, place⟩, hhead, h⟩ := bind_eq_ok.mp h
  obtain ⟨⟨others, last⟩, hothers, h⟩ := bind_eq_ok.mp h
  injection h with h
  obtain ⟨-, rfl⟩ := Prod.mk.inj h
  exact Nat.lt_of_le_of_lt (many_le place hothers) (hfirst _ _ _ hhead)

def pipeline (cursor : Cursor) : Except Fault (Pipeline × Cursor) := do
  let (first, next) ← stage cursor
  let (others, last) ← many .pipe none command command_advances next
  return (⟨(none, first.command) :: others, first.negated⟩, last)

theorem pipeline_advances : Advances pipeline :=
  advances_many stage_advances fun first others =>
    Pipeline.mk ((none, first.command) :: others) first.negated

def clause (cursor : Cursor) : Except Fault (Clause × Cursor) := do
  let (first, next) ← pipeline cursor
  let (others, last) ←
    many .clause (some "missing pipeline after ") pipeline pipeline_advances next
  return (⟨(none, first) :: others⟩, last)

theorem clause_advances : Advances clause :=
  advances_many pipeline_advances fun first others => Clause.mk ((none, first) :: others)

def parse (tokens : List Token) : Except Fault CommandList :=
  if tokens.isEmpty then .error (.grammar "empty command line" none)
  else do
    let (first, next) ← clause ⟨0, tokens⟩
    let (others, last) ←
      many .background (some "missing command after ") clause clause_advances next
    if last.rest.isEmpty then
      return ⟨(none, first) :: others⟩
    else
      let found ← last.describe
      .error (.leftover found last.index)

end Descent
end ShellLowering
