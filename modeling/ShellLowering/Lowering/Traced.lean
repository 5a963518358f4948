import ShellLowering.Lowering.Basic
import ShellLowering.Operator
import ShellLowering.Term.Display

namespace ShellLowering

/-- A decision that is worth a line in the log. -/
inductive Note where
  | mode (mode : Mode)
  | parsed (clauses tokens : Nat)
  | ignored (clauses : Nat)
  | builtin (name : String) (args : Nat)
  | deferred (call : Term) (op : PipeOp)

namespace Note

def topic : Note → String
  | .mode _ => "cmdlower"
  | .parsed .. => "grammar"
  | .ignored _ => "ops"
  | .builtin .. => "command"
  | .deferred .. => "ops"

/-- The message of a note. There is none if its call holds an integer of too many digits. -/
def message? : Note → Option String
  | .mode m => some (.join ["mode: ", m.name])
  | .parsed clauses tokens =>
    some (.join ["parsed ", toString clauses, " clause(s) from ", toString tokens, " token(s)"])
  | .ignored clauses => some (.join ["ignoring ", toString clauses, " clause(s) after '&'"])
  | .builtin name args => some (.join ["builtin ", name, " with ", toString args, " arg(s)"])
  | .deferred call op => do
    let detail ← call.detail?
    return .join ["partially applying ", detail, " after ", Text.quoted op.text]

def line? (note : Note) : Option String := do
  let message ← note.message?
  return .join [note.topic, ": DEBUG: ", message]

end Note

/-- The outcome of lowering with the notes made on the way. -/
structure Traced (α : Type) where
  notes : List Note
  result : Except LoweringError α

namespace Traced

variable {α β : Type}

protected def pure (a : α) : Traced α :=
  ⟨[], .ok a⟩

protected def bind (x : Traced α) (f : α → Traced β) : Traced β :=
  match x.result with
  | .error e => ⟨x.notes, .error e⟩
  | .ok a => ⟨x.notes ++ (f a).notes, (f a).result⟩

instance : Monad Traced where
  pure := Traced.pure
  bind := Traced.bind

instance : LawfulMonad Traced := LawfulMonad.mk' Traced
  (by rintro α ⟨notes, _ | _⟩ <;> simp [Functor.map, Traced.bind, Traced.pure])
  (by intro α β a f; simp [Bind.bind, Pure.pure, Traced.bind, Traced.pure])
  (by
    rintro α β γ ⟨notes, _ | a⟩ f g
    · rfl
    · cases h : (f a).result <;> simp [Bind.bind, Traced.bind, h])

def fail (e : LoweringError) : Traced α :=
  ⟨[], .error e⟩

def note (note : Note) : Traced Unit :=
  ⟨[note], .ok ()⟩

def ofExcept (result : Except LoweringError α) : Traced α :=
  ⟨[], result⟩

@[simp] theorem result_pure (a : α) : (pure a : Traced α).result = .ok a := rfl

@[simp] theorem result_bind (x : Traced α) (f : α → Traced β) :
    (x >>= f).result = x.result >>= fun a => (f a).result := by
  change (Traced.bind x f).result = _
  rcases x with ⟨notes, _ | _⟩ <;> rfl

@[simp] theorem result_fail (e : LoweringError) : (fail e : Traced α).result = .error e := rfl

@[simp] theorem result_note (n : Note) : (note n).result = .ok () := rfl

@[simp] theorem result_ofExcept (r : Except LoweringError α) : (ofExcept r).result = r := rfl

end Traced
end ShellLowering
