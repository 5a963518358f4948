import ShellLowering.Term.Basic

namespace ShellLowering.Term

/-- The terms right inside a term, each with the name that is bound for it, if there is one. -/
def children : Term → List (Option String × Term)
  | .absent => []
  | .number _ => []
  | .text _ => []
  | .endpoint _ => []
  | .tuple items => items.map (none, ·)
  | .fdAction action => [(none, action.target)]
  | .expansion _ _ => []
  | .builtin _ args => args.map (none, ·)
  | .external name args redirects =>
    (name :: args ++ (redirects.getD []).map FdAction.target).map (none, ·)
  | .form _ args => args.map (none, ·)
  | .sequence steps => steps.map (none, ·)
  | .deferred term => [(none, term)]
  | .pipeCall _ source target => [(none, source), (none, target)]
  | .wait term => [(none, term)]
  | .condition term => [(none, term)]
  | .negation term => [(none, term)]
  | .ref _ => []
  | .binding name value body => [(none, value), (some name, body)]
  | .conditional test onTrue onFalse => [(none, test), (none, onTrue), (none, onFalse)]

theorem sizeOf_target_lt (action : FdAction Term) : sizeOf action.target < sizeOf action := by
  obtain ⟨kind, fd, target⟩ := action
  change sizeOf target < _
  rw [FdAction.mk.sizeOf_spec]
  omega

theorem sizeOf_target_lt_of_mem {action : FdAction Term}
    {redirects : Option (List (FdAction Term))} (h : action ∈ redirects.getD []) :
    sizeOf action.target < sizeOf redirects := by
  cases redirects with
  | none => cases h
  | some actions =>
      have hmem : sizeOf action < sizeOf actions := List.sizeOf_lt_of_mem h
      have htarget := sizeOf_target_lt action
      rw [Option.some.sizeOf_spec]
      omega

theorem sizeOf_lt_of_mem_map {items : List Term} {child : Option String × Term}
    (h : child ∈ items.map (none, ·)) : sizeOf child.2 < sizeOf items := by
  obtain ⟨item, hitem, rfl⟩ := List.mem_map.mp h
  exact List.sizeOf_lt_of_mem hitem

theorem sizeOf_lt_of_mem_children {term : Term} {child : Option String × Term}
    (h : child ∈ term.children) : sizeOf child.2 < sizeOf term := by
  cases term with
  | absent | number | text | endpoint | expansion | ref => cases h
  | tuple | sequence | builtin | form =>
      have hmem := sizeOf_lt_of_mem_map h
      simp only [tuple.sizeOf_spec, sequence.sizeOf_spec, builtin.sizeOf_spec, form.sizeOf_spec]
      omega
  | external name args redirects =>
      simp only [children, List.mem_map, List.mem_append, List.mem_cons] at h
      obtain ⟨part, hpart, rfl⟩ := h
      simp only [external.sizeOf_spec]
      rcases hpart with (rfl | hpart) | ⟨action, haction, rfl⟩
      · omega
      · have hmem := List.sizeOf_lt_of_mem hpart
        omega
      · have hmem := sizeOf_target_lt_of_mem haction
        omega
  | fdAction action =>
      have htarget := sizeOf_target_lt action
      rw [List.mem_singleton.mp h, fdAction.sizeOf_spec]
      exact Nat.lt_add_left 1 htarget
  | deferred | wait | condition | negation =>
      rw [List.mem_singleton.mp h]
      simp only [deferred.sizeOf_spec, wait.sizeOf_spec, condition.sizeOf_spec,
        negation.sizeOf_spec]
      omega
  | pipeCall | binding | conditional =>
      simp only [children, List.mem_cons, List.not_mem_nil, or_false] at h
      simp only [pipeCall.sizeOf_spec, binding.sizeOf_spec, conditional.sizeOf_spec]
      rcases h with rfl | rfl | rfl <;> simp only <;> omega

/-- The parts of a term, the term itself first, each with the names that are bound around it. -/
def parts (scope : List String) (term : Term) : List (List String × Term) :=
  (scope, term) ::
    term.children.attach.flatMap fun child => parts (child.1.1.toList ++ scope) child.1.2
termination_by sizeOf term
decreasing_by exact sizeOf_lt_of_mem_children child.2

theorem parts_eq (scope : List String) (term : Term) :
    term.parts scope = (scope, term) ::
      term.children.flatMap fun child => child.2.parts (child.1.toList ++ scope) := by
  have hattach : ∀ f : Option String × Term → List (List String × Term),
      (term.children.attach.flatMap fun child => f child.1) = term.children.flatMap f := by
    intro f
    rw [← List.flatMap_map, List.attach_map_subtype_val]
  rw [parts]
  exact congrArg _ (hattach fun child => child.2.parts (child.1.toList ++ scope))

theorem forall_mem_parts {p : List String × Term → Prop} {scope : List String} {term : Term} :
    (∀ part ∈ term.parts scope, p part) ↔ p (scope, term) ∧
      ∀ child ∈ term.children, ∀ part ∈ child.2.parts (child.1.toList ++ scope), p part := by
  rw [parts_eq]
  simp only [List.forall_mem_cons, List.forall_mem_flatMap]

/-- The name that a term binds. -/
def boundName? : Term → Option String
  | .binding name _ _ => some name
  | _ => none

/-- The names that are bound in a term, as often as they are. -/
def boundNames (term : Term) (scope : List String) : List String :=
  (term.parts scope).filterMap fun part => part.2.boundName?

theorem boundNames_eq (scope : List String) (term : Term) :
    term.boundNames scope = term.boundName?.toList ++
      term.children.flatMap fun child => child.2.boundNames (child.1.toList ++ scope) := by
  unfold boundNames
  rw [parts_eq, List.filterMap_cons, List.filterMap_flatMap]
  cases term.boundName? <;> rfl

theorem boundNames_eq_nil {term : Term} (hbound : term.boundName? = none)
    (h : ∀ child ∈ term.children, ∀ scope, child.2.boundNames scope = [])
    (scope : List String) : term.boundNames scope = [] := by
  rw [boundNames_eq, hbound, Option.toList_none, List.nil_append, List.flatMap_eq_nil_iff]
  exact fun child hchild => h child hchild _

end ShellLowering.Term
