import ShellLowering.Proofs.Interleaving

namespace ShellLowering

inductive OpenMode where
  | output
  | input
  | append
  | readWrite
  deriving DecidableEq, Repr

/-- What a descriptor is connected to: something that was there before, a target that was opened, or
an endpoint. A target that is opened twice makes two destinations, which their serial numbers tell
apart. -/
inductive Destination (α : Type) where
  | inherited (source : α)
  | opened (serial : Nat) (mode : OpenMode) (target : Term)
  | endpoint (target : Term)

/-- The descriptors that are in use, and how many times a target was opened so far. No destination
has a serial number that is still to come. -/
@[ext] structure FdTable (α : Type) where
  entry : Int → Option (Destination α)
  opens : Nat
  serial_lt_opens : ∀ fd serial mode target,
    entry fd = some (.opened serial mode target) → serial < opens

variable {α : Type}

/-- The descriptor that a target names. -/
def Term.descriptor? : Term → Option Int
  | .number value => value.fd?
  | _ => none

namespace FdTable

/-- What a target leads to: the destination of the descriptor that it names at this moment, or the
target itself. -/
def resolve (table : FdTable α) (target : Term) : Option (Destination α) :=
  match target.descriptor? with
  | some fd => table.entry fd
  | none => some (.endpoint target)

/-- Opens a target once and connects descriptors to it. -/
def openOn (table : FdTable α) (fds : List Int) (mode : OpenMode) (target : Term) : FdTable α where
  entry fd := if fd ∈ fds then some (.opened table.opens mode target) else table.entry fd
  opens := table.opens + 1
  serial_lt_opens := by
    intro fd serial mode' target' h
    split at h
    · injection h with h
      injection h with h
      exact h ▸ Nat.lt_succ_self _
    · exact Nat.lt_succ_of_lt (table.serial_lt_opens fd serial mode' target' h)

/-- Connects a descriptor to what a target leads to. -/
def point (table : FdTable α) (fd : Int) (target : Term) : FdTable α where
  entry other := if other = fd then table.resolve target else table.entry other
  opens := table.opens
  serial_lt_opens := by
    intro other serial mode target' h
    split at h
    · unfold resolve at h
      split at h
      · exact table.serial_lt_opens _ serial mode target' h
      · cases h
    · exact table.serial_lt_opens other serial mode target' h

end FdTable

/-- An action without a kind or a descriptor does nothing. -/
def FdAction.execute (action : FdAction Term) (table : FdTable α) : FdTable α :=
  match action.kind, action.fd with
  | .output, some fd => table.openOn [fd] .output action.target
  | .input, some fd => table.openOn [fd] .input action.target
  | .append, some fd => table.openOn [fd] .append action.target
  | .readWrite, some fd => table.openOn [fd] .readWrite action.target
  | .set, some fd => table.point fd action.target
  | _, _ => table

/-- What a redirection with this operator means. The operators for both outputs open their target
once and pay no attention to a number in front. -/
def RedirectOp.perform (op : RedirectOp) (fd : Option Int) (target : Term) (table : FdTable α) :
    FdTable α :=
  match op with
  | .output => table.openOn [fd.getD 1] .output target
  | .input => table.openOn [fd.getD 0] .input target
  | .append => table.openOn [fd.getD 1] .append target
  | .readWrite => table.openOn [fd.getD 0] .readWrite target
  | .duplicate => table.point (fd.getD 1) target
  | .outputBoth => table.openOn [1, 2] .output target
  | .appendBoth => table.openOn [1, 2] .append target

/-- The descriptors that a redirection with this operator connects. -/
def RedirectOp.descriptors (op : RedirectOp) (fd : Option Int) : List Int :=
  match op with
  | .output | .append | .duplicate => [fd.getD 1]
  | .input | .readWrite => [fd.getD 0]
  | .outputBoth | .appendBoth => [1, 2]

/-- What it connects them to. -/
def RedirectOp.destination (op : RedirectOp) (target : Term) (table : FdTable α) :
    Option (Destination α) :=
  match op with
  | .output | .outputBoth => some (.opened table.opens .output target)
  | .append | .appendBoth => some (.opened table.opens .append target)
  | .input => some (.opened table.opens .input target)
  | .readWrite => some (.opened table.opens .readWrite target)
  | .duplicate => table.resolve target

namespace Redirection

def perform (redirection : Redirection) (table : FdTable α) : FdTable α :=
  match redirection.op.bind RedirectOp.ofText? with
  | some op => op.perform redirection.fd redirection.target.redirectTarget table
  | none => table

def descriptors (redirection : Redirection) : List Int :=
  match redirection.op.bind RedirectOp.ofText? with
  | some op => op.descriptors redirection.fd
  | none => []

end Redirection

namespace FdTable

/-- Executes actions from left to right. -/
def executeAll (table : FdTable α) (actions : List (FdAction Term)) : FdTable α :=
  actions.foldl (fun table action => action.execute table) table

def performAll (table : FdTable α) (redirections : List Redirection) : FdTable α :=
  redirections.foldl (fun table redirection => redirection.perform table) table

@[simp] theorem executeAll_append (table : FdTable α) (first second : List (FdAction Term)) :
    table.executeAll (first ++ second) = (table.executeAll first).executeAll second :=
  List.foldl_append

@[simp] theorem performAll_append (table : FdTable α) (first second : List Redirection) :
    table.performAll (first ++ second) = (table.performAll first).performAll second :=
  List.foldl_append

@[simp] theorem performAll_cons (table : FdTable α) (redirection : Redirection)
    (redirections : List Redirection) :
    table.performAll (redirection :: redirections) =
      (redirection.perform table).performAll redirections := rfl

/-- Opening on one descriptor and pointing another one at it is opening on both. -/
theorem point_openOn (table : FdTable α) (fd other : Int) (mode : OpenMode) (target : Term) :
    (table.openOn [fd] mode target).point other (.number (.int fd)) =
      table.openOn [fd, other] mode target := by
  refine FdTable.ext ?_ rfl
  funext n
  by_cases hother : n = other
  · simp [point, openOn, resolve, Term.descriptor?, Number.fd?, hother]
  · simp [point, openOn, hother]

end FdTable

namespace RedirectOp

/-- One step: the actions of an operator do what it means. -/
theorem executeAll_actions (op : RedirectOp) (fd : Option Int) (target : Term) (table : FdTable α) :
    table.executeAll (op.actions fd target) = op.perform fd target table := by
  cases op with
  | outputBoth => exact table.point_openOn 1 2 .output target
  | appendBoth => exact table.point_openOn 1 2 .append target
  | _ => rfl

theorem entry_perform (op : RedirectOp) (fd : Option Int) (target : Term) (table : FdTable α)
    (n : Int) : (op.perform fd target table).entry n =
      if n ∈ op.descriptors fd then op.destination target table else table.entry n := by
  cases op <;> simp [perform, descriptors, destination, FdTable.openOn, FdTable.point]

end RedirectOp

namespace Redirection

variable {redirection : Redirection} {op : RedirectOp}

theorem perform_of_op (h : redirection.op = some op.text) (table : FdTable α) :
    redirection.perform table =
      op.perform redirection.fd redirection.target.redirectTarget table := by
  simp [perform, h, RedirectOp.ofText?_text]

/-- A whole run: redirections that are lowered do what they mean, one after another. -/
theorem executeAll_of_lowerAll {redirections : List Redirection} {actions : List (FdAction Term)}
    (h : lowerAll redirections = .ok actions) (table : FdTable α) :
    table.executeAll actions = table.performAll redirections := by
  induction redirections generalizing actions table with
  | nil =>
      injection h with h
      subst h
      rfl
  | cons redirection redirections ih =>
      obtain ⟨op, rest, hop, hrest, rfl⟩ := lowerAll_cons_eq_ok h
      rw [FdTable.executeAll_append, RedirectOp.executeAll_actions, ih hrest,
        FdTable.performAll_cons, perform_of_op hop]

theorem entry_perform_of_notMem {table : FdTable α} {fd : Int} (h : fd ∉ redirection.descriptors) :
    (redirection.perform table).entry fd = table.entry fd := by
  unfold descriptors at h
  unfold perform
  split
  · next op hop =>
      rw [hop] at h
      rw [RedirectOp.entry_perform, if_neg h]
  · rfl

end Redirection

theorem FdAction.entry_execute_of_ne {action : FdAction Term} {table : FdTable α} {fd : Int}
    (h : action.fd ≠ some fd) : (action.execute table).entry fd = table.entry fd := by
  obtain ⟨kind, _ | other, target⟩ := action
  · cases kind <;> rfl
  · have hne : fd ≠ other := by
      rintro rfl
      exact h rfl
    cases kind <;> simp [execute, FdTable.openOn, FdTable.point, hne]

namespace FdTable

theorem entry_executeAll {actions : List (FdAction Term)} {fd : Int}
    (h : ∀ action ∈ actions, action.fd ≠ some fd) (table : FdTable α) :
    (table.executeAll actions).entry fd = table.entry fd := by
  induction actions generalizing table with
  | nil => rfl
  | cons action actions ih =>
      obtain ⟨hfirst, hrest⟩ := List.forall_mem_cons.mp h
      calc ((action.execute table).executeAll actions).entry fd
          = (action.execute table).entry fd := ih hrest _
        _ = table.entry fd := FdAction.entry_execute_of_ne hfirst

theorem entry_performAll {redirections : List Redirection} {fd : Int}
    (h : ∀ redirection ∈ redirections, fd ∉ redirection.descriptors) (table : FdTable α) :
    (table.performAll redirections).entry fd = table.entry fd := by
  induction redirections generalizing table with
  | nil => rfl
  | cons redirection redirections ih =>
      obtain ⟨hfirst, hrest⟩ := List.forall_mem_cons.mp h
      rw [performAll_cons, ih hrest, Redirection.entry_perform_of_notMem hfirst]

/-- The last redirection that names a descriptor decides about it. -/
theorem entry_performAll_of_last {redirection : Redirection} {op : RedirectOp} {fd : Int}
    {later : List Redirection} (hop : redirection.op = some op.text)
    (hfd : fd ∈ op.descriptors redirection.fd)
    (hlater : ∀ other ∈ later, fd ∉ other.descriptors) (before : List Redirection)
    (table : FdTable α) :
    (table.performAll (before ++ redirection :: later)).entry fd =
      op.destination redirection.target.redirectTarget (table.performAll before) := by
  rw [performAll_append, performAll_cons, entry_performAll hlater,
    Redirection.perform_of_op hop, RedirectOp.entry_perform, if_pos hfd]

/-- What is opened next is connected to no descriptor yet. -/
theorem entry_ne_opened (table : FdTable α) (fd : Int) (mode : OpenMode) (target : Term) :
    table.entry fd ≠ some (.opened table.opens mode target) :=
  fun h => Nat.lt_irrefl _ (table.serial_lt_opens fd table.opens mode target h)

end FdTable

namespace Redirection

/-- Errors go where the output goes at this moment: `2>&1`. -/
def errorToOutput : Redirection :=
  ⟨some RedirectOp.duplicate.text, .number (.int 1), some 2⟩

def outputTo (target : Token) : Redirection :=
  ⟨some RedirectOp.output.text, target, none⟩

end Redirection

namespace FdTable

open Redirection

/-- `2>&1 > f` leaves the errors where the output went before. -/
theorem performAll_errorToOutput_outputTo (table : FdTable α) (target : Token) :
    let after := table.performAll [errorToOutput, outputTo target]
    after.entry 1 = some (.opened table.opens .output target.redirectTarget) ∧
      after.entry 2 = table.entry 1 ∧ after.entry 2 ≠ after.entry 1 := by
  intro after
  have hafter : after = (table.point 2 (.number (.int 1))).openOn [1] .output
      target.redirectTarget := rfl
  have houtput : after.entry 1 = some (.opened table.opens .output target.redirectTarget) := by
    simp [hafter, openOn, point]
  have herrors : after.entry 2 = table.entry 1 := by
    simp [hafter, openOn, point, resolve, Term.descriptor?, Number.fd?]
  refine ⟨houtput, herrors, ?_⟩
  rw [houtput, herrors]
  exact table.entry_ne_opened 1 .output target.redirectTarget

/-- `> f 2>&1` takes both to the same place. -/
theorem performAll_outputTo_errorToOutput (table : FdTable α) (target : Token) :
    let after := table.performAll [outputTo target, errorToOutput]
    after.entry 1 = some (.opened table.opens .output target.redirectTarget) ∧
      after.entry 2 = after.entry 1 := by
  intro after
  have hafter : after = table.openOn [1, 2] .output target.redirectTarget :=
    table.point_openOn 1 2 .output target.redirectTarget
  simp [hafter, openOn]

end FdTable

namespace Command

open Redirection

/-- A command that is neither a builtin nor begins with a term, and whose operators are known, is
lowered to an external command, unless a word of it is overlong. Its actions leave the table that
the wiring leaves, changed by the redirections in the order of the line. An explicit descriptor
counts, be it 0 or any other, the order of `2>&1` and `> f` counts, and a descriptor that nothing
names stays as it was. -/
theorem executeAll_redirects {command : Command} {name : Token} {params : List Token}
    (hwords : command.words = name :: params) (hstart : ¬ command.StartsEmbedded)
    (hbuiltin : ¬ command.NamesBuiltin)
    (hknown : ∀ redirection ∈ command.redirections, redirection.IsKnown)
    (wiring : List (FdAction Term)) :
    ∃ redirects,
      (command.lower wiring = do
        let args ← Token.arguments params
        return .external (← name.commandName) args redirects) ∧
      ((∀ word ∈ command.words, word.isOverlong = false) →
        ∃ called args, command.lower wiring = .ok (.external called args redirects)) ∧
      ∀ table : FdTable α,
        let wired := table.executeAll wiring
        let final := table.executeAll (redirects.getD [])
        final = wired.performAll command.redirections ∧
        (∀ (before later : List Redirection) (op : RedirectOp) (target : Token) (fd : Int),
          command.redirections = before ++ ⟨some op.text, target, some fd⟩ :: later →
          op ≠ .outputBoth → op ≠ .appendBoth → (∀ other ∈ later, fd ∉ other.descriptors) →
            final.entry fd = op.destination target.redirectTarget (wired.performAll before)) ∧
        (∀ target, command.redirections = [errorToOutput, outputTo target] →
          final.entry 1 = some (.opened wired.opens .output target.redirectTarget) ∧
            final.entry 2 = wired.entry 1 ∧ final.entry 2 ≠ final.entry 1) ∧
        (∀ target, command.redirections = [outputTo target, errorToOutput] →
          final.entry 1 = some (.opened wired.opens .output target.redirectTarget) ∧
            final.entry 2 = final.entry 1) ∧
        ∀ fd, (∀ action ∈ wiring, action.fd ≠ some fd) →
          (∀ redirection ∈ command.redirections, fd ∉ redirection.descriptors) →
            final.entry fd = table.entry fd := by
  obtain ⟨actions, hactions⟩ := exists_lowerAll hknown
  have hlower : command.lower wiring = do
      let args ← Token.arguments params
      return .external (← name.commandName) args
        (if (wiring ++ actions).isEmpty then none else some (wiring ++ actions)) := by
    rw [lower_external hwords hstart hbuiltin]
    exact bind_congr fun args => by simp [lowerExternal, hactions]
  refine ⟨_, hlower, fun hshort => ?_, ?_⟩
  · rw [hwords] at hshort
    obtain ⟨hname, hparams⟩ := List.forall_mem_cons.mp hshort
    obtain ⟨args, hargs⟩ := Token.exists_arguments hparams
    obtain ⟨called, hcalled⟩ := Token.exists_commandName hname
    exact ⟨called, args, by rw [hlower, hargs, hcalled]; rfl⟩
  intro table wired final
  have hfinal : final = wired.performAll command.redirections := by
    have hredirects : (if (wiring ++ actions).isEmpty then none
        else some (wiring ++ actions)).getD [] = wiring ++ actions := by
      cases wiring ++ actions <;> rfl
    calc final
        = table.executeAll (wiring ++ actions) := congrArg table.executeAll hredirects
      _ = wired.executeAll actions := table.executeAll_append wiring actions
      _ = wired.performAll command.redirections := executeAll_of_lowerAll hactions wired
  refine ⟨hfinal, ?_, ?_, ?_, ?_⟩
  · intro before later op target fd hsplit houtput happend hlater
    have hfd : fd ∈ op.descriptors (some fd) := by
      cases op <;> simp [RedirectOp.descriptors] at houtput happend ⊢
    rw [hfinal, hsplit]
    exact FdTable.entry_performAll_of_last rfl hfd hlater before wired
  · intro target horder
    rw [hfinal, horder]
    exact wired.performAll_errorToOutput_outputTo target
  · intro target horder
    rw [hfinal, horder]
    exact wired.performAll_outputTo_errorToOutput target
  · intro fd hwiring hredirections
    rw [hfinal, FdTable.entry_performAll hredirections, FdTable.entry_executeAll hwiring]

/-- `a 2>&1 > f` with its output wired leaves the errors on the wired output, and `a 0> g` opens its
target on 0 and nowhere else. -/
theorem executeAll_redirects_errors_before_output :
    let errorsFirst : Command := ⟨[.word (.symbol "a"), .redirect errorToOutput,
      .redirect (outputTo (.symbol "f"))]⟩
    let onZero : Command := ⟨[.word (.symbol "a"), .redirect ⟨some ">", .symbol "g", some 0⟩]⟩
    (∃ redirects, errorsFirst.lower [.of .set 1 (.endpoint .stdout)] =
        .ok (.external (.text "a") [] redirects) ∧
      ∀ table : FdTable Unit,
        let final := table.executeAll (redirects.getD [])
        final.entry 2 = some (.endpoint (.endpoint .stdout)) ∧ final.entry 2 ≠ final.entry 1 ∧
          final.entry 0 = table.entry 0) ∧
    ∃ redirects, onZero.lower [] = .ok (.external (.text "a") [] redirects) ∧
      ∀ table : FdTable Unit,
        let final := table.executeAll (redirects.getD [])
        final.entry 0 = some (.opened table.opens .output (.expansion .redirectTarget "g")) ∧
          final.entry 1 = table.entry 1 := by
  intro errorsFirst onZero
  have hstart : ¬ errorsFirst.StartsEmbedded ∧ ¬ onZero.StartsEmbedded := by
    constructor <;> rintro ⟨term, rest, hitems, -⟩ <;> cases hitems
  have hname : "a" ∉ builtinNames := by decide
  have hbuiltin : ¬ errorsFirst.NamesBuiltin ∧ ¬ onZero.NamesBuiltin := by
    constructor <;> rintro ⟨name, params, hwords, hmem⟩ <;> cases hwords <;> exact hname hmem
  have hknown : ∀ redirection ∈ errorsFirst.redirections, redirection.IsKnown :=
    List.forall_mem_cons.mpr ⟨⟨.duplicate, rfl⟩, List.forall_mem_singleton.mpr ⟨.output, rfl⟩⟩
  have hknownZero : ∀ redirection ∈ onZero.redirections, redirection.IsKnown :=
    List.forall_mem_singleton.mpr ⟨.output, rfl⟩
  constructor
  · obtain ⟨redirects, hlower, -, htable⟩ := executeAll_redirects (rfl : errorsFirst.words = _)
      hstart.1 hbuiltin.1 hknown [.of .set 1 (.endpoint .stdout)]
    refine ⟨redirects, hlower, fun table => ?_⟩
    obtain ⟨-, -, horder, -, hframe⟩ := htable table
    obtain ⟨-, herrors, hdiffer⟩ := horder (.symbol "f") rfl
    refine ⟨herrors, hdiffer, hframe 0 ?_ ?_⟩
    · exact List.forall_mem_singleton.mpr (by decide)
    · exact List.forall_mem_cons.mpr ⟨by decide, List.forall_mem_singleton.mpr (by decide)⟩
  · obtain ⟨redirects, hlower, -, htable⟩ := executeAll_redirects (rfl : onZero.words = _)
      hstart.2 hbuiltin.2 hknownZero []
    refine ⟨redirects, hlower, fun table => ?_⟩
    obtain ⟨-, hexplicit, -, -, hframe⟩ := htable table
    refine ⟨hexplicit [] [] .output (.symbol "g") 0 rfl ?_ ?_ ?_, hframe 1 ?_ ?_⟩
    · decide
    · decide
    · exact List.forall_mem_nil _
    · exact List.forall_mem_nil _
    · exact List.forall_mem_singleton.mpr (by decide)

end Command
end ShellLowering
