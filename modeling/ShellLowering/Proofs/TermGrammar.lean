import Mathlib.Data.List.Nodup
import ShellLowering.Lowering.Clause
import ShellLowering.Proofs.GroupContent
import ShellLowering.Proofs.NumeralText
import ShellLowering.Proofs.TermParts

namespace ShellLowering

theorem forall_mem_pair {α : Type} {p : α → Prop} {a b : α} :
    (∀ x ∈ [a, b], p x) ↔ p a ∧ p b := by
  rw [List.forall_mem_cons, List.forall_mem_singleton]

theorem resultName_injective : Function.Injective resultName := by
  intro index other h
  rw [← String.toList_inj, resultName, resultName, String.toList_join, String.toList_join] at h
  simp only [List.flatMap_cons, List.flatMap_nil, List.append_nil] at h
  have htext := congrArg Text.asciiDigitsValue (String.toList_inj.mp (List.append_cancel_left h))
  rwa [Text.asciiDigitsValue_toString, Text.asciiDigitsValue_toString] at htext

namespace Term

/-- What a word is lowered to: a request to expand it, or the call that it is. -/
inductive IsArgument : Term → Prop
  | full (value : String) : IsArgument (.expansion .full value)
  | interpolation (value : String) : IsArgument (.expansion .interpolation value)
  | call {term : Term} (hcall : term.IsCall Line.IsQuotable) : IsArgument term

/-- A number that may name a file descriptor on a line. -/
def IsDescriptor (fd : Int) : Prop :=
  ∃ n : Nat, fd = n ∧ (toString n).length ≤ digitLimit

theorem isDescriptor_of_lt (n : Nat) (h : n < 10) : IsDescriptor n :=
  ⟨n, rfl, (Text.length_toString_le_iff (by decide)).mpr
    (h.trans_le (Nat.le_self_pow (by decide) 10))⟩

theorem IsDescriptor.exists_integerText? {fd : Int} (h : IsDescriptor fd) :
    ∃ text, Number.integerText? fd = some text := by
  obtain ⟨n, rfl, hlimit⟩ := h
  exact ⟨toString n, Number.integerText?_natCast hlimit⟩

/-- What the target of a redirection is lowered to. -/
inductive IsRedirectTarget : Term → Prop
  | expansion (value : String) : IsRedirectTarget (.expansion .redirectTarget value)
  | number {fd : Int} (hfd : IsDescriptor fd) : IsRedirectTarget (.number (.int fd))
  | call {term : Term} (hcall : term.IsCall Line.IsQuotable) : IsRedirectTarget term

/-- A step in the wiring of a command. Only interactive terms point descriptors at endpoints. -/
inductive IsAction (mode : Mode) : FdAction Term → Prop
  | redirect {kind : FdAction.Kind} {fd : Int} {target : Term} (hkind : kind ≠ .plain)
      (hfd : IsDescriptor fd) (htarget : target.IsRedirectTarget) :
      IsAction mode (.of kind fd target)
  | wire {fd : Int} (hmode : mode = .interactive) (hfd : IsDescriptor fd) (endpoint : Endpoint) :
      IsAction mode (.of .set fd (.endpoint endpoint))

/-- A command of a pipeline: an external command, a builtin, or a call that does not compute a name,
alone or in front of arguments. -/
inductive IsStage (mode : Mode) : Term → Prop
  | external {name : Term} {args : List Term} {redirects : Option (List (FdAction Term))}
      (hname : (∃ text, name = .text text) ∨ name.IsCall Line.IsQuotable)
      (hargs : ∀ arg ∈ args, arg.IsArgument)
      (hredirects : ∀ actions ∈ redirects,
        actions ≠ [] ∧ ∀ action ∈ actions, IsAction mode action) :
      IsStage mode (.external name args redirects)
  | builtin {name : String} {args : List Term} (hname : name ∈ builtinNames)
      (hargs : ∀ arg ∈ args, arg.IsArgument) : IsStage mode (.builtin name args)
  | form {head : String} {args : List Term} (hhead : head ≠ commandNameHead)
      (hcall : (form head args).IsCall Line.IsQuotable) : IsStage mode (.form head args)
  | sequence {head : String} {args steps : List Term} (hhead : head ≠ commandNameHead)
      (hcall : (form head args).IsCall Line.IsQuotable) (hne : steps ≠ [])
      (hsteps : ∀ step ∈ steps, step.IsArgument) :
      IsStage mode (.sequence (.form head args :: steps))

/-- Whether a call leaves its last argument open for a piped value: builtins do, and all forms but
the special ones. -/
def LeavesOpen : Term → Prop
  | .builtin _ _ => True
  | .form head _ => head ∉ specialHeads
  | _ => False

/-- The combinators that hand the piped value on as the last argument. -/
def openingCombinators : List String := ["pipe", "pipe-multi"]

def bareCombinators : List String := ["pipe-filter", "pipe-reduce"]

/-- Stages piped one into the next from the left. Under the opening combinators an open call is
deferred, and no other target ever is. -/
inductive IsPipeline (mode : Mode) : Term → Prop
  | stage {term : Term} (hstage : IsStage mode term) : IsPipeline mode term
  | deferred {combinator : String} {source target : Term}
      (hcombinator : combinator ∈ openingCombinators) (hsource : IsPipeline mode source)
      (htarget : IsStage mode target) (hopen : target.LeavesOpen) :
      IsPipeline mode (.pipeCall combinator source (.deferred target))
  | closed {combinator : String} {source target : Term}
      (hcombinator : combinator ∈ openingCombinators) (hsource : IsPipeline mode source)
      (htarget : IsStage mode target) (hopen : ¬ target.LeavesOpen) :
      IsPipeline mode (.pipeCall combinator source target)
  | bare {combinator : String} {source target : Term}
      (hcombinator : combinator ∈ bareCombinators) (hsource : IsPipeline mode source)
      (htarget : IsStage mode target) : IsPipeline mode (.pipeCall combinator source target)

/-- A chain of pipelines, whose first one has the index. All but the last are waited for and bound
to the name of their result, which is also what the chain gives if it does not go on. -/
inductive IsClause (mode : Mode) : Nat → Term → Prop
  | pipeline {index : Nat} {term : Term} (hterm : IsPipeline mode term) : IsClause mode index term
  | binding {index : Nat} {value test rest : Term} (hvalue : IsPipeline mode value)
      (htest : test = .condition (.ref (resultName index)) ∨
        test = .negation (.condition (.ref (resultName index))))
      (hrest : IsClause mode (index + 1) rest) :
      IsClause mode index (.binding (resultName index) (.wait value)
        (.conditional test rest (.ref (resultName index))))

def IsDeferred (term : Term) : Prop :=
  ∃ call, term = .deferred call

/-- A part of a term in which endpoints belong to interactive terms, and a deferred call is the
target of an opening combinator and open. -/
structure IsSettled (mode : Mode) (part : Term) : Prop where
  endpoint : ∀ endpoint, part = .endpoint endpoint → mode = .interactive
  deferred : ∀ child ∈ part.children, ∀ call, child.2 = .deferred call →
    call.LeavesOpen ∧ ∃ combinator ∈ openingCombinators, ∃ source, ¬ source.IsDeferred ∧
      part = .pipeCall combinator source (.deferred call)

/-- A settled part that neither binds a name nor refers to one. -/
structure IsNameFree (mode : Mode) (part : Term) : Prop where
  settled : part.IsSettled mode
  bound : part.boundName? = none
  ref : ∀ name, part ≠ .ref name

/-- A term that is not deferred and whose parts are all free of names. -/
structure IsSelfContained (mode : Mode) (term : Term) : Prop where
  notDeferred : ¬ term.IsDeferred
  nameFree : ∀ scope, ∀ part ∈ term.parts scope, part.2.IsNameFree mode

/-- The terms that have places of their own: endpoints, deferred calls and references. -/
def isPlaced : Term → Bool
  | .endpoint _ => true
  | .deferred _ => true
  | .ref _ => true
  | _ => false

theorem not_isDeferred_of_isPlaced {term : Term} (h : term.isPlaced = false) :
    ¬ term.IsDeferred := by
  rintro ⟨call, rfl⟩
  cases h

theorem ne_ref_of_isPlaced {term : Term} (h : term.isPlaced = false) (name : String) :
    term ≠ .ref name := by
  rintro rfl
  cases h

theorem IsSettled.of_children {mode : Mode} {term : Term} (hterm : term.isPlaced = false)
    (h : ∀ child ∈ term.children, ¬ child.2.IsDeferred) : term.IsSettled mode := by
  constructor
  · rintro endpoint rfl
    cases hterm
  · intro child hchild call hcall
    exact absurd ⟨call, hcall⟩ (h child hchild)

namespace IsSelfContained

variable {mode : Mode}

/-- A term over self-contained ones is self-contained, if it has no place of its own and binds no
name. -/
theorem of_children {term : Term} (hterm : term.isPlaced = false) (hbound : term.boundName? = none)
    (h : ∀ child ∈ term.children, IsSelfContained mode child.2) : IsSelfContained mode term := by
  have hsettled : term.IsSettled mode :=
    .of_children hterm fun child hchild => (h child hchild).notDeferred
  refine ⟨not_isDeferred_of_isPlaced hterm, fun scope => forall_mem_parts.mpr ⟨?_, ?_⟩⟩
  · exact ⟨hsettled, hbound, ne_ref_of_isPlaced hterm⟩
  · exact fun child hchild => (h child hchild).nameFree _

theorem of_leaf {term : Term} (hterm : term.isPlaced = false) (hbound : term.boundName? = none)
    (hchildren : term.children = []) : IsSelfContained mode term := by
  refine of_children hterm hbound ?_
  rw [hchildren]
  exact List.forall_mem_nil _

theorem of_inGroup {isText : String → Prop} {term : Term} (h : term.InGroup isText) :
    IsSelfContained mode term := by
  induction h with
  | text hvalue => exact of_leaf rfl rfl rfl
  | form hhead hargs ih =>
      refine of_children rfl rfl ?_
      rw [children, List.forall_mem_map]
      exact ih

theorem of_isArgument {term : Term} (h : term.IsArgument) : IsSelfContained mode term := by
  cases h with
  | full value => exact of_leaf rfl rfl rfl
  | interpolation value => exact of_leaf rfl rfl rfl
  | call hcall => exact of_inGroup hcall.1

theorem of_isRedirectTarget {term : Term} (h : term.IsRedirectTarget) :
    IsSelfContained mode term := by
  cases h with
  | expansion value => exact of_leaf rfl rfl rfl
  | number hfd => exact of_leaf rfl rfl rfl
  | call hcall => exact of_inGroup hcall.1

theorem of_endpoint (hmode : mode = .interactive) (endpoint : Endpoint) :
    IsSelfContained mode (.endpoint endpoint) := by
  have hsettled : (Term.endpoint endpoint).IsSettled mode :=
    ⟨fun _ _ => hmode, List.forall_mem_nil _⟩
  have hnot : ¬ (Term.endpoint endpoint).IsDeferred := by
    rintro ⟨call, hcall⟩
    cases hcall
  refine ⟨hnot, fun scope => forall_mem_parts.mpr ⟨⟨hsettled, rfl, ?_⟩, List.forall_mem_nil _⟩⟩
  intro name hname
  cases hname

theorem of_isAction {action : FdAction Term} (h : IsAction mode action) :
    IsSelfContained mode action.target := by
  cases h with
  | redirect _ _ htarget => exact of_isRedirectTarget htarget
  | wire hmode _ endpoint => exact of_endpoint hmode endpoint

theorem of_isStage {term : Term} (h : IsStage mode term) : IsSelfContained mode term := by
  cases h with
  | @external name args redirects hname hargs hredirects =>
      have hcommand : IsSelfContained mode name := by
        rcases hname with ⟨text, rfl⟩ | hcall
        · exact of_leaf rfl rfl rfl
        · exact of_inGroup hcall.1
      have hactions : ∀ action ∈ redirects.getD [], IsSelfContained mode action.target := by
        cases redirects with
        | none => exact List.forall_mem_nil _
        | some actions =>
            obtain ⟨_, hactions⟩ := hredirects actions rfl
            exact fun action haction => of_isAction (hactions action haction)
      refine of_children rfl rfl ?_
      simp only [children, List.forall_mem_map, List.forall_mem_append, List.forall_mem_cons]
      exact ⟨⟨hcommand, fun arg harg => of_isArgument (hargs arg harg)⟩, hactions⟩
  | builtin hname hargs =>
      refine of_children rfl rfl ?_
      rw [children, List.forall_mem_map]
      exact fun arg harg => of_isArgument (hargs arg harg)
  | form hhead hcall => exact of_inGroup hcall.1
  | sequence hhead hcall hne hsteps =>
      refine of_children rfl rfl ?_
      rw [children, List.forall_mem_map, List.forall_mem_cons]
      exact ⟨of_inGroup hcall.1, fun step hstep => of_isArgument (hsteps step hstep)⟩

theorem pipeCall {combinator : String} {source target : Term}
    (hsource : IsSelfContained mode source) (htarget : IsSelfContained mode target) :
    IsSelfContained mode (.pipeCall combinator source target) := by
  refine of_children rfl rfl ?_
  simp only [children, forall_mem_pair]
  exact ⟨hsource, htarget⟩

/-- The one place of a deferred call. -/
theorem pipeCall_deferred {combinator : String} {source target : Term}
    (hcombinator : combinator ∈ openingCombinators) (hopen : target.LeavesOpen)
    (hsource : IsSelfContained mode source) (htarget : IsSelfContained mode target) :
    IsSelfContained mode (.pipeCall combinator source (.deferred target)) := by
  have hcall : (Term.pipeCall combinator source (.deferred target)).IsNameFree mode := by
    refine ⟨⟨?_, ?_⟩, rfl, ne_ref_of_isPlaced rfl⟩
    · intro endpoint hendpoint
      cases hendpoint
    · simp only [children, forall_mem_pair]
      refine ⟨fun call hcall => absurd ⟨call, hcall⟩ hsource.notDeferred, fun call hcall => ?_⟩
      injection hcall with hcall
      exact hcall ▸ ⟨hopen, combinator, hcombinator, source, hsource.notDeferred, rfl⟩
  have hdeferred : ∀ scope, ∀ part ∈ (deferred target).parts scope, part.2.IsNameFree mode := by
    intro scope
    refine forall_mem_parts.mpr ⟨⟨⟨?_, ?_⟩, rfl, ?_⟩, ?_⟩
    · intro endpoint hendpoint
      cases hendpoint
    · rw [children, List.forall_mem_singleton]
      exact fun call hcall => absurd ⟨call, hcall⟩ htarget.notDeferred
    · intro name hname
      cases hname
    · rw [children, List.forall_mem_singleton]
      exact htarget.nameFree _
  refine ⟨not_isDeferred_of_isPlaced rfl, fun scope => forall_mem_parts.mpr ⟨hcall, ?_⟩⟩
  simp only [children, forall_mem_pair]
  exact ⟨hsource.nameFree _, hdeferred _⟩

theorem of_isPipeline {term : Term} (h : IsPipeline mode term) : IsSelfContained mode term := by
  induction h with
  | stage hstage => exact of_isStage hstage
  | deferred hcombinator _ htarget hopen ih =>
      exact pipeCall_deferred hcombinator hopen ih (of_isStage htarget)
  | closed _ _ htarget _ ih => exact pipeCall ih (of_isStage htarget)
  | bare _ _ htarget ih => exact pipeCall ih (of_isStage htarget)

theorem boundNames_eq_nil {term : Term} (h : IsSelfContained mode term) (scope : List String) :
    term.boundNames scope = [] := by
  rw [boundNames, List.filterMap_eq_nil_iff]
  exact fun part hpart => (h.nameFree scope part hpart).bound

end IsSelfContained

/-- A settled part, in which every name is bound around it. -/
structure IsResolved (mode : Mode) (part : List String × Term) : Prop where
  ref : ∀ name, part.2 = .ref name → name ∈ part.1
  settled : part.2.IsSettled mode

/-- Whatever is in the scope, all parts of the term are resolved, and it is not deferred itself. -/
structure ResolvesIn (mode : Mode) (scope : List String) (term : Term) : Prop where
  notDeferred : ¬ term.IsDeferred
  resolved : ∀ part ∈ term.parts scope, IsResolved mode part

namespace ResolvesIn

variable {mode : Mode} {scope : List String}

theorem of_isSelfContained {term : Term} (h : IsSelfContained mode term) :
    ResolvesIn mode scope term := by
  refine ⟨h.notDeferred, fun part hpart => ?_⟩
  have hpart := h.nameFree scope part hpart
  exact ⟨fun name hname => absurd hname (hpart.ref name), hpart.settled⟩

theorem of_children {term : Term} (hterm : term.isPlaced = false)
    (h : ∀ child ∈ term.children, ResolvesIn mode (child.1.toList ++ scope) child.2) :
    ResolvesIn mode scope term := by
  have hsettled : term.IsSettled mode :=
    .of_children hterm fun child hchild => (h child hchild).notDeferred
  refine ⟨not_isDeferred_of_isPlaced hterm, forall_mem_parts.mpr ⟨⟨?_, hsettled⟩, ?_⟩⟩
  · exact fun name hname => absurd hname (ne_ref_of_isPlaced hterm name)
  · exact fun child hchild => (h child hchild).resolved

/-- A name refers to what is bound around it. -/
theorem ref {name : String} (h : name ∈ scope) : ResolvesIn mode scope (.ref name) := by
  have hsettled : (Term.ref name).IsSettled mode := by
    refine ⟨fun endpoint hendpoint => ?_, List.forall_mem_nil _⟩
    cases hendpoint
  refine ⟨?_, forall_mem_parts.mpr ⟨⟨fun other hother => ?_, hsettled⟩, List.forall_mem_nil _⟩⟩
  · rintro ⟨call, hcall⟩
    cases hcall
  · injection hother with hother
    exact hother ▸ h

theorem test {test : Term} {name : String} (hname : name ∈ scope)
    (htest : test = .condition (.ref name) ∨ test = .negation (.condition (.ref name))) :
    ResolvesIn mode scope test := by
  have hcondition : ResolvesIn mode scope (.condition (.ref name)) := by
    refine of_children rfl ?_
    rw [children, List.forall_mem_singleton]
    exact ref hname
  rcases htest with rfl | rfl
  · exact hcondition
  · refine of_children rfl ?_
    rw [children, List.forall_mem_singleton]
    exact hcondition

/-- The induction is on the chain: what follows a binding stands in the scope of its name. -/
theorem of_isClause {index : Nat} {term : Term} (h : IsClause mode index term) :
    ResolvesIn mode scope term := by
  induction h generalizing scope with
  | pipeline hterm => exact of_isSelfContained (.of_isPipeline hterm)
  | @binding index value test rest hvalue htest hrest ih =>
      have hinside : resultName index ∈ resultName index :: scope := List.mem_cons_self
      refine of_children rfl ?_
      simp only [children, forall_mem_pair]
      refine ⟨of_children rfl ?_, of_children rfl ?_⟩
      · rw [children, List.forall_mem_singleton]
        exact of_isSelfContained (.of_isPipeline hvalue)
      · simp only [children, List.forall_mem_cons]
        exact ⟨.test hinside htest, ih, ref hinside, List.forall_mem_nil _⟩

end ResolvesIn

namespace IsClause

variable {mode : Mode} {index : Nat} {term : Term}

theorem boundNames_ref (name : String) (scope : List String) : (ref name).boundNames scope = [] :=
  boundNames_eq_nil rfl (List.forall_mem_nil _) scope

theorem boundNames_test {test : Term} {name : String}
    (htest : test = .condition (.ref name) ∨ test = .negation (.condition (.ref name)))
    (scope : List String) : test.boundNames scope = [] := by
  have hcondition : ∀ scope, (condition (.ref name)).boundNames scope = [] :=
    boundNames_eq_nil rfl (by simpa [children] using boundNames_ref name)
  rcases htest with rfl | rfl
  · exact hcondition scope
  · exact boundNames_eq_nil rfl (by simpa [children] using hcondition) scope

/-- The names that are bound are those of the results from the index on. -/
theorem exists_boundNames_eq (h : IsClause mode index term) :
    ∃ count, ∀ scope, term.boundNames scope = (List.range' index count).map resultName := by
  induction h with
  | pipeline hterm => exact ⟨0, (IsSelfContained.of_isPipeline hterm).boundNames_eq_nil⟩
  | @binding index value test rest hvalue htest hrest ih =>
      obtain ⟨count, hcount⟩ := ih
      refine ⟨count + 1, fun scope => ?_⟩
      have hvalue := (IsSelfContained.of_isPipeline hvalue).boundNames_eq_nil
      have hwait : (wait value).boundNames scope = [] :=
        boundNames_eq_nil rfl (by simpa [children] using hvalue) scope
      have hbody : (conditional test rest (.ref (resultName index))).boundNames
          (resultName index :: scope) = rest.boundNames (resultName index :: scope) := by
        rw [boundNames_eq]
        simp [children, boundName?, boundNames_ref, boundNames_test htest]
      rw [List.range'_succ, List.map_cons, ← hcount (resultName index :: scope), ← hbody,
        boundNames_eq]
      simp [children, boundName?, hwait]

theorem nodup_boundNames (h : IsClause mode index term) (scope : List String) :
    (term.boundNames scope).Nodup := by
  obtain ⟨count, hcount⟩ := h.exists_boundNames_eq
  rw [hcount]
  exact (List.nodup_range' 1).map resultName_injective

end IsClause
end Term
end ShellLowering
