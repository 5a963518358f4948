import ShellLowering.Proofs.LoweredGrammar
import ShellLowering.Proofs.TaggedData
import ShellLowering.Term.Data

/-!
That no two lowered terms have the same data holds by the places of the grammar only: at large, an
endpoint has the data of the text that is its name.
-/

namespace ShellLowering

open Data

namespace Record

theorem dataFields_cons {value : Record} (h : value ≠ .absent) (name : String)
    (fields : List (String × Record)) :
    dataFields ((name, value) :: fields) = (name, value.data) :: dataFields fields := by
  cases value with
  | absent => exact absurd rfl h
  | _ => rfl

theorem dataFields_eq_map {fields : List (String × Record)}
    (h : ∀ field ∈ fields, field.2 ≠ .absent) :
    dataFields fields = fields.map fun field => (field.1, field.2.data) := by
  induction fields with
  | nil => rfl
  | cons field fields ih =>
      obtain ⟨hfield, hfields⟩ := List.forall_mem_cons.mp h
      rw [dataFields_cons hfield, ih hfields, List.map_cons]

end Record

theorem FdAction.Kind.tag_injective : Function.Injective FdAction.Kind.tag := by
  intro kind other
  cases kind <;> cases other <;> decide

theorem Expansion.tag_injective : Function.Injective Expansion.tag := by
  intro kind other
  cases kind <;> cases other <;> decide

theorem Expansion.tag_ne_form (kind : Expansion) : kind.tag ≠ "form" := by
  cases kind <;> decide

theorem Endpoint.name_injective : Function.Injective Endpoint.name := by
  intro endpoint other
  cases endpoint <;> cases other <;> decide

def FdAction.data (action : FdAction Term) : Data :=
  (Term.actionRecord action).data

namespace Term

theorem record_ne_absent {term : Term} (h : term.data.IsTagged) : term.record ≠ .absent := by
  intro habsent
  rw [data, habsent] at h
  cases h

theorem data_of_record {term : Term} {tag name : String} {fields : List (String × Record)}
    (hrecord : term.record = .node tag name fields)
    (hfields : ∀ field ∈ fields, field.2 ≠ .absent) :
    term.data =
      .object (("type", .text tag) :: fields.map fun field => (field.1, field.2.data)) := by
  rw [data, hrecord, Record.data, Record.dataFields_eq_map hfields]

section Equations

/-! The members of an object in order. A term whose data are tagged is not absent, so it is a member
of the object. -/

theorem data_expansion (kind : Expansion) (value : String) :
    (expansion kind value).data = .object [("type", .text kind.tag), ("value", .text value)] := rfl

theorem data_ref (name : String) :
    (ref name).data = .object [("type", .text "ref"), ("name", .text name)] := rfl

theorem data_form (head : String) (args : List Term) :
    (form head args).data = .object
      [("type", .text "form"), ("head", .text head), ("args", .array (args.map data))] := by
  simp [data, record, Record.data, Record.dataFields, Function.comp_def]

theorem data_builtin (name : String) (args : List Term) :
    (builtin name args).data = .object
      [("type", .text "builtin"), ("name", .text name), ("args", .array (args.map data))] := by
  simp [data, record, Record.data, Record.dataFields, Function.comp_def]

theorem data_sequence (steps : List Term) :
    (sequence steps).data = .object [("type", .text "do"), ("steps", .array (steps.map data))] := by
  simp [data, record, Record.data, Record.dataFields, Function.comp_def]

theorem data_action {kind : FdAction.Kind} {fd : Int} {target : Term} (h : target.data.IsTagged) :
    (FdAction.of kind fd target).data = .object
      [("type", .text kind.tag), ("fd", .int fd), ("target", target.data)] := by
  simp [FdAction.data, actionRecord, Record.ofFd, Record.data, Record.dataFields, Number.data,
    Record.dataFields_cons (record_ne_absent h), data]

/-- The member for the redirections of an external command, which is there only if there are any. -/
def redirectMembers (redirects : Option (List (FdAction Term))) : List (String × Data) :=
  redirects.elim [] fun actions => [("redirects", .array (actions.map FdAction.data))]

theorem data_external {name : Term} (h : name.data.IsTagged) (args : List Term)
    (redirects : Option (List (FdAction Term))) :
    (external name args redirects).data = .object
      (("type", .text "external") :: ("name", name.data) :: ("args", .array (args.map data)) ::
        redirectMembers redirects) := by
  cases redirects <;>
    simp [data, record, redirectsRecord, redirectMembers, Record.data, Record.dataFields,
      Record.dataFields_cons (record_ne_absent h), FdAction.data, Function.comp_def]

theorem data_deferred {term : Term} (h : term.data.IsTagged) :
    (deferred term).data = .object [("type", .text "partial"), ("term", term.data)] := by
  refine (data_of_record rfl ?_).trans rfl
  exact List.forall_mem_singleton.mpr (record_ne_absent h)

theorem data_wait {term : Term} (h : term.data.IsTagged) :
    (wait term).data = .object [("type", .text "wait-pipeline"), ("term", term.data)] := by
  refine (data_of_record rfl ?_).trans rfl
  exact List.forall_mem_singleton.mpr (record_ne_absent h)

theorem data_condition {term : Term} (h : term.data.IsTagged) :
    (condition term).data = .object
      [("type", .text "pipeline-condition"), ("term", term.data)] := by
  refine (data_of_record rfl ?_).trans rfl
  exact List.forall_mem_singleton.mpr (record_ne_absent h)

theorem data_negation {term : Term} (h : term.data.IsTagged) :
    (negation term).data = .object [("type", .text "not"), ("term", term.data)] := by
  refine (data_of_record rfl ?_).trans rfl
  exact List.forall_mem_singleton.mpr (record_ne_absent h)

theorem data_pipeCall {source target : Term} (hsource : source.data.IsTagged)
    (htarget : target.data.IsTagged) (combinator : String) :
    (pipeCall combinator source target).data = .object
      [("type", .text "pipe-call"), ("combinator", .text combinator), ("source", source.data),
        ("target", target.data)] := by
  refine (data_of_record rfl ?_).trans rfl
  simp [record_ne_absent hsource, record_ne_absent htarget]

theorem data_binding {value body : Term} (hvalue : value.data.IsTagged)
    (hbody : body.data.IsTagged) (name : String) :
    (binding name value body).data = .object
      [("type", .text "let"), ("name", .text name), ("value", value.data),
        ("body", body.data)] := by
  refine (data_of_record rfl ?_).trans rfl
  simp [record_ne_absent hvalue, record_ne_absent hbody]

theorem data_conditional {test onTrue onFalse : Term} (htest : test.data.IsTagged)
    (htrue : onTrue.data.IsTagged) (hfalse : onFalse.data.IsTagged) :
    (conditional test onTrue onFalse).data = .object
      [("type", .text "if"), ("test", test.data), ("then", onTrue.data),
        ("orelse", onFalse.data)] := by
  refine (data_of_record rfl ?_).trans rfl
  simp [record_ne_absent htest, record_ne_absent htrue, record_ne_absent hfalse]

end Equations

/-- The tag of a term that is laid open as a record. -/
def tag? : Term → Option String
  | .absent => none
  | .number _ => none
  | .text _ => none
  | .endpoint _ => none
  | .tuple _ => none
  | .fdAction action => some action.kind.tag
  | .expansion kind _ => some kind.tag
  | .builtin _ _ => some "builtin"
  | .external _ _ _ => some "external"
  | .form _ _ => some "form"
  | .sequence _ => some "do"
  | .deferred _ => some "partial"
  | .pipeCall _ _ _ => some "pipe-call"
  | .wait _ => some "wait-pipeline"
  | .condition _ => some "pipeline-condition"
  | .negation _ => some "not"
  | .ref _ => some "ref"
  | .binding _ _ _ => some "let"
  | .conditional _ _ _ => some "if"

theorem member?_type (term : Term) :
    term.data.member? "type" = term.tag?.map Data.text := by
  cases term with
  | number value => cases value <;> rfl
  | fdAction action =>
      obtain ⟨kind, fd, target⟩ := action
      rfl
  | _ => rfl

theorem tag?_eq_of_alike {term other : Term} (h : Alike term.data other.data) :
    term.tag? = other.tag? := by
  have htype := h.member "type"
  rw [member?_type, member?_type] at htype
  generalize term.tag? = tag at htype ⊢
  generalize other.tag? = otherTag at htype ⊢
  cases tag with
  | none =>
      cases otherTag with
      | none => rfl
      | some otherTag => cases htype
  | some tag =>
      cases otherTag with
      | none => cases htype
      | some otherTag => rw [(Option.rel_some_some.mp htype).text_inj]

theorem isTagged_array {terms : List Term} (h : ∀ term ∈ terms, term.data.IsTagged) :
    (Data.array (terms.map data)).IsTagged :=
  .array (List.forall_mem_map.mpr h)

namespace InGroup

variable {isText isText' : String → Prop} {term other : Term}

theorem isTagged_data (h : term.InGroup isText) : term.data.IsTagged := by
  induction h with
  | text hvalue => exact .text _
  | form hhead hargs ih =>
      rw [data_form]
      exact .object (by simp) (forall_mem_pair.mpr ⟨.text _, isTagged_array ih⟩)

theorem eq_of_alike (h : term.InGroup isText) (hother : other.InGroup isText')
    (halike : Alike term.data other.data) : term = other := by
  have htag := tag?_eq_of_alike halike
  induction h generalizing other with
  | text hvalue =>
      cases hother with
      | text hvalue' => rw [halike.text_inj]
      | form => cases htag
  | @form head args hhead hargs ih =>
      cases hother with
      | text => cases htag
      | @form head' args' hhead' hargs' =>
          rw [data_form, data_form] at halike
          have hheads : head = head' := (halike.of_member "head" rfl rfl).text_inj
          have hall : args = args' := by
            refine (halike.of_member "args" rfl rfl).eq_of_array ?_
            exact fun arg harg arg' harg' halike =>
              ih arg harg (hargs' arg' harg') halike (tag?_eq_of_alike halike)
          rw [hheads, hall]

end InGroup

/-- What words are lowered to where a value is asked for: a request to expand them, a number, or the
call that they are. -/
inductive IsValue : Term → Prop
  | expansion (kind : Expansion) (value : String) : IsValue (.expansion kind value)
  | number {value : Int} (hvalue : IsDescriptor value) : IsValue (.number (.int value))
  | call {term : Term} (hcall : term.IsCall Line.IsQuotable) : IsValue term

theorem IsArgument.isValue {term : Term} (h : term.IsArgument) : term.IsValue := by
  cases h with
  | full value => exact .expansion _ value
  | interpolation value => exact .expansion _ value
  | call hcall => exact .call hcall

theorem IsRedirectTarget.isValue {term : Term} (h : term.IsRedirectTarget) : term.IsValue := by
  cases h with
  | expansion value => exact .expansion _ value
  | number hfd => exact .number hfd
  | call hcall => exact .call hcall

namespace IsValue

variable {term other : Term}

theorem isTagged_data (h : term.IsValue) : term.data.IsTagged := by
  cases h with
  | expansion kind value =>
      rw [data_expansion]
      exact .object (by simp) (List.forall_mem_singleton.mpr (.text value))
  | number hvalue =>
      obtain ⟨text, htext⟩ := hvalue.exists_integerText?
      exact .int htext
  | call hcall => exact hcall.1.isTagged_data

theorem eq_of_alike (h : term.IsValue) (hother : other.IsValue)
    (halike : Alike term.data other.data) : term = other := by
  have htag := tag?_eq_of_alike halike
  cases h with
  | expansion kind value =>
      cases hother with
      | expansion kind' value' =>
          have hkinds : kind = kind' := Expansion.tag_injective (Option.some.inj htag)
          have hvalues : value = value' := (halike.of_member "value" rfl rfl).text_inj
          rw [hkinds, hvalues]
      | number => cases htag
      | call hcall =>
          obtain ⟨_, head, args, rfl⟩ := hcall
          exact absurd (Option.some.inj htag) kind.tag_ne_form
  | number =>
      cases hother with
      | expansion => cases htag
      | number => rw [halike.int_inj]
      | call hcall =>
          obtain ⟨_, head, args, rfl⟩ := hcall
          cases htag
  | call hcall =>
      cases hother with
      | call hcall' => exact hcall.1.eq_of_alike hcall'.1 halike
      | expansion kind =>
          obtain ⟨_, head, args, rfl⟩ := hcall
          exact absurd (Option.some.inj htag).symm kind.tag_ne_form
      | number =>
          obtain ⟨_, head, args, rfl⟩ := hcall
          cases htag

/-- A value is no plain text, and that is what sets it apart from an endpoint. -/
theorem text?_data (h : term.IsValue) : term.data.text? = none := by
  cases h with
  | expansion => rfl
  | number => rfl
  | call hcall =>
      obtain ⟨_, head, args, rfl⟩ := hcall
      rfl

end IsValue

theorem args_eq_of_alike {args others : List Term} (hargs : ∀ arg ∈ args, arg.IsArgument)
    (hothers : ∀ other ∈ others, other.IsArgument)
    (h : Alike (.array (args.map data)) (.array (others.map data))) : args = others :=
  h.eq_of_array fun arg harg other hother =>
    (hargs arg harg).isValue.eq_of_alike (hothers other hother).isValue

theorem isTagged_args {args : List Term} (h : ∀ arg ∈ args, arg.IsArgument) :
    (Data.array (args.map data)).IsTagged :=
  isTagged_array fun arg harg => (h arg harg).isValue.isTagged_data

/-- Where a step in the wiring of a command points a file descriptor. -/
def IsTarget (term : Term) : Prop :=
  term.IsValue ∨ ∃ endpoint, term = .endpoint endpoint

namespace IsTarget

variable {term other : Term}

theorem isTagged_data (h : term.IsTarget) : term.data.IsTagged := by
  rcases h with hvalue | ⟨endpoint, rfl⟩
  · exact hvalue.isTagged_data
  · exact .text _

theorem eq_of_alike (h : term.IsTarget) (hother : other.IsTarget)
    (halike : Alike term.data other.data) : term = other := by
  have htext := halike.text?_eq
  rcases h with hvalue | ⟨endpoint, rfl⟩
  · rcases hother with hvalue' | ⟨endpoint, rfl⟩
    · exact hvalue.eq_of_alike hvalue' halike
    · rw [hvalue.text?_data] at htext
      cases htext
  · rcases hother with hvalue | ⟨endpoint', rfl⟩
    · rw [hvalue.text?_data] at htext
      cases htext
    · rw [Endpoint.name_injective halike.text_inj]

end IsTarget

namespace IsAction

variable {mode mode' : Mode} {action other : FdAction Term}

theorem exists_eq_of (h : IsAction mode action) :
    ∃ kind fd target, action = .of kind fd target ∧ IsDescriptor fd ∧ target.IsTarget := by
  cases h with
  | @redirect kind fd target _ hfd htarget =>
      exact ⟨kind, fd, target, rfl, hfd, .inl htarget.isValue⟩
  | @wire fd _ hfd endpoint => exact ⟨.set, fd, .endpoint endpoint, rfl, hfd, .inr ⟨endpoint, rfl⟩⟩

theorem isTagged_data (h : IsAction mode action) : action.data.IsTagged := by
  obtain ⟨kind, fd, target, rfl, hfd, htarget⟩ := h.exists_eq_of
  obtain ⟨text, htext⟩ := hfd.exists_integerText?
  rw [data_action htarget.isTagged_data]
  exact .object (by simp) (forall_mem_pair.mpr ⟨.int htext, htarget.isTagged_data⟩)

theorem eq_of_alike (h : IsAction mode action) (hother : IsAction mode' other)
    (halike : Alike action.data other.data) : action = other := by
  obtain ⟨kind, fd, target, rfl, -, htarget⟩ := h.exists_eq_of
  obtain ⟨kind', fd', target', rfl, -, htarget'⟩ := hother.exists_eq_of
  rw [data_action htarget.isTagged_data, data_action htarget'.isTagged_data] at halike
  have hkinds : kind = kind' :=
    FdAction.Kind.tag_injective (halike.of_member "type" rfl rfl).text_inj
  have hfds : fd = fd' := (halike.of_member "fd" rfl rfl).int_inj
  have htargets : target = target' :=
    htarget.eq_of_alike htarget' (halike.of_member "target" rfl rfl)
  rw [hkinds, hfds, htargets]

end IsAction

namespace IsStage

variable {mode mode' : Mode} {term other : Term}

theorem isTagged_name {name : Term}
    (h : (∃ text, name = .text text) ∨ name.IsCall Line.IsQuotable) : name.data.IsTagged := by
  rcases h with ⟨text, rfl⟩ | hcall
  · exact .text text
  · exact hcall.1.isTagged_data

theorem name_eq_of_alike {name other : Term}
    (h : (∃ text, name = .text text) ∨ name.IsCall Line.IsQuotable)
    (hother : (∃ text, other = .text text) ∨ other.IsCall Line.IsQuotable)
    (halike : Alike name.data other.data) : name = other := by
  have htag := tag?_eq_of_alike halike
  rcases h with ⟨text, rfl⟩ | ⟨hgroup, head, args, rfl⟩
  · rcases hother with ⟨text', rfl⟩ | ⟨_, head, args, rfl⟩
    · rw [halike.text_inj]
    · cases htag
  · rcases hother with ⟨text, rfl⟩ | ⟨hgroup', _⟩
    · cases htag
    · exact hgroup.eq_of_alike hgroup' halike

theorem isTagged_redirectMembers {redirects : Option (List (FdAction Term))}
    (h : ∀ actions ∈ redirects, actions ≠ [] ∧ ∀ action ∈ actions, IsAction mode action) :
    ∀ member ∈ redirectMembers redirects, member.2.IsTagged := by
  cases redirects with
  | none => exact List.forall_mem_nil _
  | some actions =>
      refine List.forall_mem_singleton.mpr (.array (List.forall_mem_map.mpr ?_))
      exact fun action haction => ((h actions rfl).2 action haction).isTagged_data

/-- Redirections are compared by a member that is missing if there are none. -/
theorem redirects_eq_of_alike {redirects others : Option (List (FdAction Term))}
    (h : ∀ actions ∈ redirects, actions ≠ [] ∧ ∀ action ∈ actions, IsAction mode action)
    (hothers : ∀ actions ∈ others, actions ≠ [] ∧ ∀ action ∈ actions, IsAction mode' action)
    (halike : Option.Rel Alike ((redirectMembers redirects).lookup "redirects")
      ((redirectMembers others).lookup "redirects")) : redirects = others := by
  cases redirects with
  | none =>
      cases others with
      | none => rfl
      | some => cases halike
  | some actions =>
      cases others with
      | none => cases halike
      | some actions' =>
          have hall : actions = actions' := by
            obtain ⟨-, hactions⟩ := h actions rfl
            obtain ⟨-, hactions'⟩ := hothers actions' rfl
            have harrays := Option.rel_some_some.mp halike
            refine harrays.eq_of_array fun action haction other hother => ?_
            exact (hactions action haction).eq_of_alike (hactions' other hother)
          rw [hall]

theorem isValue_steps {call : Term} {steps : List Term} (hcall : call.IsCall Line.IsQuotable)
    (hsteps : ∀ step ∈ steps, step.IsArgument) : ∀ step ∈ call :: steps, step.IsValue :=
  List.forall_mem_cons.mpr ⟨.call hcall, fun step hstep => (hsteps step hstep).isValue⟩

theorem tag?_ne {tag : String} (h : IsStage mode term)
    (htag : tag ∉ ["external", "builtin", "form", "do"]) : term.tag? ≠ some tag := by
  intro hterm
  cases h <;> simp_all [tag?]

theorem isTagged_data (h : IsStage mode term) : term.data.IsTagged := by
  cases h with
  | @external name args redirects hname hargs hredirects =>
      rw [data_external (isTagged_name hname)]
      refine .object ?_ ?_
      · cases redirects <;> simp [redirectMembers]
      · refine List.forall_mem_cons.mpr ⟨isTagged_name hname, List.forall_mem_cons.mpr ⟨?_, ?_⟩⟩
        · exact isTagged_args hargs
        · exact isTagged_redirectMembers hredirects
  | @builtin name args hname hargs =>
      rw [data_builtin]
      exact .object (by simp) (forall_mem_pair.mpr ⟨.text name, isTagged_args hargs⟩)
  | form hhead hcall => exact hcall.1.isTagged_data
  | @sequence head args steps hhead hcall hne hsteps =>
      have hvalues := isValue_steps hcall hsteps
      rw [data_sequence]
      refine .object (by simp) (List.forall_mem_singleton.mpr (isTagged_array ?_))
      exact fun step hstep => (hvalues step hstep).isTagged_data

theorem eq_of_alike (h : IsStage mode term) (hother : IsStage mode' other)
    (halike : Alike term.data other.data) : term = other := by
  have htag := tag?_eq_of_alike halike
  cases h with
  | @external name args redirects hname hargs hredirects =>
      cases hother with
      | @external name' args' redirects' hname' hargs' hredirects' =>
          rw [data_external (isTagged_name hname), data_external (isTagged_name hname')] at halike
          have hnames : name = name' :=
            name_eq_of_alike hname hname' (halike.of_member "name" rfl rfl)
          have hall : args = args' :=
            args_eq_of_alike hargs hargs' (halike.of_member "args" rfl rfl)
          have hactions : redirects = redirects' :=
            redirects_eq_of_alike hredirects hredirects' (halike.member "redirects")
          rw [hnames, hall, hactions]
      | builtin | form | sequence => simp [tag?] at htag
  | @builtin name args hname hargs =>
      cases hother with
      | @builtin name' args' hname' hargs' =>
          rw [data_builtin, data_builtin] at halike
          have hnames : name = name' := (halike.of_member "name" rfl rfl).text_inj
          have hall : args = args' :=
            args_eq_of_alike hargs hargs' (halike.of_member "args" rfl rfl)
          rw [hnames, hall]
      | external | form | sequence => simp [tag?] at htag
  | form hhead hcall =>
      cases hother with
      | form hhead' hcall' => exact hcall.1.eq_of_alike hcall'.1 halike
      | external | builtin | sequence => simp [tag?] at htag
  | @sequence head args steps hhead hcall hne hsteps =>
      cases hother with
      | @sequence head' args' steps' hhead' hcall' hne' hsteps' =>
          have hvalues := isValue_steps hcall hsteps
          have hvalues' := isValue_steps hcall' hsteps'
          rw [data_sequence, data_sequence] at halike
          have hall : Term.form head args :: steps = Term.form head' args' :: steps' :=
            (halike.of_member "steps" rfl rfl).eq_of_array fun step hstep step' hstep' =>
              (hvalues step hstep).eq_of_alike (hvalues' step' hstep')
          rw [hall]
      | external | builtin | form => simp [tag?] at htag

end IsStage

/-- A stage that something is piped into, deferred or as it is. -/
def IsPipeTarget (mode : Mode) (term : Term) : Prop :=
  IsStage mode term ∨ ∃ stage, IsStage mode stage ∧ term = .deferred stage

namespace IsPipeTarget

variable {mode mode' : Mode} {term other : Term}

theorem isTagged_data (h : IsPipeTarget mode term) : term.data.IsTagged := by
  rcases h with hstage | ⟨stage, hstage, rfl⟩
  · exact hstage.isTagged_data
  · rw [data_deferred hstage.isTagged_data]
    exact .object (by simp) (List.forall_mem_singleton.mpr hstage.isTagged_data)

theorem eq_of_alike (h : IsPipeTarget mode term) (hother : IsPipeTarget mode' other)
    (halike : Alike term.data other.data) : term = other := by
  have htag := tag?_eq_of_alike halike
  rcases h with hstage | ⟨stage, hstage, rfl⟩
  · rcases hother with hstage' | ⟨stage', _, rfl⟩
    · exact hstage.eq_of_alike hstage' halike
    · exact absurd htag (hstage.tag?_ne (by decide))
  · rcases hother with hstage' | ⟨stage', hstage', rfl⟩
    · exact absurd htag.symm (hstage'.tag?_ne (by decide))
    · rw [data_deferred hstage.isTagged_data, data_deferred hstage'.isTagged_data] at halike
      rw [hstage.eq_of_alike hstage' (halike.of_member "term" rfl rfl)]

end IsPipeTarget

/-- Stages piped one into the next. Which targets are deferred shows in the data and is left open
here. -/
inductive IsPiped (mode : Mode) : Term → Prop
  | stage {term : Term} (hstage : IsStage mode term) : IsPiped mode term
  | call {combinator : String} {source target : Term} (hsource : IsPiped mode source)
      (htarget : IsPipeTarget mode target) : IsPiped mode (.pipeCall combinator source target)

theorem IsPipeline.isPiped {mode : Mode} {term : Term} (h : IsPipeline mode term) :
    IsPiped mode term := by
  induction h with
  | stage hstage => exact .stage hstage
  | deferred _ _ htarget _ ih => exact .call ih (.inr ⟨_, htarget, rfl⟩)
  | closed _ _ htarget _ ih => exact .call ih (.inl htarget)
  | bare _ _ htarget ih => exact .call ih (.inl htarget)

namespace IsPiped

variable {mode mode' : Mode} {term other : Term}

theorem isTagged_data (h : IsPiped mode term) : term.data.IsTagged := by
  induction h with
  | stage hstage => exact hstage.isTagged_data
  | @call combinator source target hsource htarget ih =>
      have htarget := htarget.isTagged_data
      rw [data_pipeCall ih htarget]
      exact .object (by simp)
        (List.forall_mem_cons.mpr ⟨.text _, forall_mem_pair.mpr ⟨ih, htarget⟩⟩)

theorem tag?_ne_let (h : IsPiped mode term) : term.tag? ≠ some "let" := by
  cases h with
  | stage hstage => exact hstage.tag?_ne (by decide)
  | call => simp [tag?]

theorem eq_of_alike (h : IsPiped mode term) (hother : IsPiped mode' other)
    (halike : Alike term.data other.data) : term = other := by
  have htag := tag?_eq_of_alike halike
  induction h generalizing other with
  | stage hstage =>
      cases hother with
      | stage hstage' => exact hstage.eq_of_alike hstage' halike
      | call => exact absurd htag (hstage.tag?_ne (by decide))
  | @call combinator source target hsource htarget ih =>
      cases hother with
      | stage hstage => exact absurd htag.symm (hstage.tag?_ne (by decide))
      | @call combinator' source' target' hsource' htarget' =>
          rw [data_pipeCall hsource.isTagged_data htarget.isTagged_data,
            data_pipeCall hsource'.isTagged_data htarget'.isTagged_data] at halike
          have hcombinators : combinator = combinator' :=
            (halike.of_member "combinator" rfl rfl).text_inj
          have hsources := halike.of_member "source" rfl rfl
          have htargets : target = target' :=
            htarget.eq_of_alike htarget' (halike.of_member "target" rfl rfl)
          rw [hcombinators, htargets, ih hsource' hsources (tag?_eq_of_alike hsources)]

end IsPiped

namespace IsClause

variable {mode mode' : Mode} {index index' : Nat} {term other test : Term} {name : String}

theorem isTagged_ref (name : String) : (ref name).data.IsTagged := by
  rw [data_ref]
  exact .object (by simp) (List.forall_mem_singleton.mpr (.text name))

theorem isTagged_condition (name : String) : (condition (.ref name)).data.IsTagged := by
  rw [data_condition (isTagged_ref name)]
  exact .object (by simp) (List.forall_mem_singleton.mpr (isTagged_ref name))

theorem isTagged_test (h : test = .condition (.ref name) ∨
    test = .negation (.condition (.ref name))) : test.data.IsTagged := by
  rcases h with rfl | rfl
  · exact isTagged_condition name
  · rw [data_negation (isTagged_condition name)]
    exact .object (by simp) (List.forall_mem_singleton.mpr (isTagged_condition name))

theorem test_eq_of_alike {other : Term}
    (h : test = .condition (.ref name) ∨ test = .negation (.condition (.ref name)))
    (hother : other = .condition (.ref name) ∨ other = .negation (.condition (.ref name)))
    (halike : Alike test.data other.data) : test = other := by
  have htag := tag?_eq_of_alike halike
  rcases h with rfl | rfl <;> rcases hother with rfl | rfl
  · rfl
  · simp [tag?] at htag
  · simp [tag?] at htag
  · rfl

theorem isTagged_wait {value : Term} (h : value.data.IsTagged) : (wait value).data.IsTagged := by
  rw [data_wait h]
  exact .object (by simp) (List.forall_mem_singleton.mpr h)

theorem isTagged_conditional {rest : Term} (htest : test.data.IsTagged) (hrest : rest.data.IsTagged)
    (name : String) : (conditional test rest (.ref name)).data.IsTagged := by
  have hname := isTagged_ref name
  rw [data_conditional htest hrest hname]
  exact .object (by simp) (List.forall_mem_cons.mpr ⟨htest, forall_mem_pair.mpr ⟨hrest, hname⟩⟩)

theorem isTagged_data (h : IsClause mode index term) : term.data.IsTagged := by
  induction h with
  | pipeline hterm => exact hterm.isPiped.isTagged_data
  | @binding index value test rest hvalue htest hrest ih =>
      have hwait := isTagged_wait hvalue.isPiped.isTagged_data
      have hbody := isTagged_conditional (isTagged_test htest) ih (resultName index)
      rw [data_binding hwait hbody]
      exact .object (by simp)
        (List.forall_mem_cons.mpr ⟨.text _, forall_mem_pair.mpr ⟨hwait, hbody⟩⟩)

/-- The data of a binding hold those of its name, of the pipeline that is waited for, of the test
and of the rest. -/
theorem alike_of_binding {value value' test test' rest rest' : Term}
    (hvalue : value.data.IsTagged) (hvalue' : value'.data.IsTagged)
    (htest : test.data.IsTagged) (htest' : test'.data.IsTagged)
    (hrest : rest.data.IsTagged) (hrest' : rest'.data.IsTagged) {name name' : String}
    (halike : Alike (Term.binding name (.wait value) (.conditional test rest (.ref name))).data
      (Term.binding name' (.wait value') (.conditional test' rest' (.ref name'))).data) :
    name = name' ∧ Alike value.data value'.data ∧ Alike test.data test'.data ∧
      Alike rest.data rest'.data := by
  rw [data_binding (isTagged_wait hvalue) (isTagged_conditional htest hrest name),
    data_binding (isTagged_wait hvalue') (isTagged_conditional htest' hrest' name')] at halike
  have hwaits := halike.of_member "value" rfl rfl
  have hbodies := halike.of_member "body" rfl rfl
  rw [data_wait hvalue, data_wait hvalue'] at hwaits
  rw [data_conditional htest hrest (isTagged_ref name),
    data_conditional htest' hrest' (isTagged_ref name')] at hbodies
  exact ⟨(halike.of_member "name" rfl rfl).text_inj, hwaits.of_member "term" rfl rfl,
    hbodies.of_member "test" rfl rfl, hbodies.of_member "then" rfl rfl⟩

theorem eq_of_alike (h : IsClause mode index term) (hother : IsClause mode' index' other)
    (halike : Alike term.data other.data) : term = other := by
  have htag := tag?_eq_of_alike halike
  induction h generalizing other index' with
  | pipeline hterm =>
      cases hother with
      | pipeline hterm' => exact hterm.isPiped.eq_of_alike hterm'.isPiped halike
      | binding => exact absurd htag hterm.isPiped.tag?_ne_let
  | @binding index value test rest hvalue htest hrest ih =>
      cases hother with
      | pipeline hterm => exact absurd htag.symm hterm.isPiped.tag?_ne_let
      | @binding _ value' test' rest' hvalue' htest' hrest' =>
          obtain ⟨hnames, hvalues, htests, hrests⟩ := alike_of_binding
            hvalue.isPiped.isTagged_data hvalue'.isPiped.isTagged_data (isTagged_test htest)
            (isTagged_test htest') hrest.isTagged_data hrest'.isTagged_data halike
          rw [← hnames] at htest'
          have hvalues : value = value' := hvalue.isPiped.eq_of_alike hvalue'.isPiped hvalues
          have htests : test = test' := test_eq_of_alike htest htest' htests
          rw [hnames, hvalues, htests, ih hrest' hrests (tag?_eq_of_alike hrests)]

end IsClause

end Term

/-- The data of a lowered line are tagged objects, arrays, texts and integers, nowhere null. They
are those of no other term that a line is lowered to in any mode, whatever the order of their
members. -/
theorem Line.data_alike_iff_of_lower {line other : String} {mode mode' : Mode} {term term' : Term}
    (h : lower mode line = .ok term) (h' : lower mode' other = .ok term') :
    (Alike term.data term'.data ↔ term = term') ∧ term.data.IsTagged := by
  have hclause := isClause_lower h
  have hclause' := isClause_lower h'
  refine ⟨⟨hclause.eq_of_alike hclause', ?_⟩, hclause.isTagged_data⟩
  rintro rfl
  exact Alike.refl term.data

/-- The default wiring of a command shows in its data. -/
theorem Line.data_alike_iff_of_lower_wired :
    let line := "ls 'a b' >&2"
    let own : FdAction Term := .of .set 1 (.number (.int 2))
    let wired : List (FdAction Term) := [.of .set 0 (.endpoint .stdin),
      .of .set 1 (.endpoint .stdout), .of .set 2 (.endpoint .stderr), own]
    let term : Term := .external (.text "ls") [.expansion .interpolation "a b"] (some [own])
    let term' : Term := .external (.text "ls") [.expansion .interpolation "a b"] (some wired)
    lower .batch line = .ok term ∧ lower .interactive line = .ok term' ∧
      ¬ Alike term.data term'.data ∧ term.data.IsTagged := by
  have hdata : ∀ {line : String} {term term' : Term}, lower .batch line = .ok term →
      lower .interactive line = .ok term' → term ≠ term' →
      lower .batch line = .ok term ∧ lower .interactive line = .ok term' ∧
        ¬ Alike term.data term'.data ∧ term.data.IsTagged := by
    intro line term term' h h' hne
    obtain ⟨hiff, htagged⟩ := data_alike_iff_of_lower h h'
    exact ⟨h, h', fun halike => hne (hiff.mp halike), htagged⟩
  refine hdata (by rfl) (by rfl) ?_
  intro heq
  injection heq with _ _ hredirects
  cases hredirects

/-- Out of their places an endpoint and a text have the same data. -/
example : (Term.endpoint .stdin).data = (Term.text "stdin").data := rfl

end ShellLowering
