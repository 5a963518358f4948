import ShellLowering.Line.Group
import ShellLowering.Proofs.Outcome

namespace ShellLowering

namespace Term

/-- What may stand in a group of certain texts: such a text, or a call with such a name and with
arguments that may stand there. -/
inductive InGroup (isText : String → Prop) : Term → Prop
  | text {value : String} (hvalue : isText value) : InGroup isText (.text value)
  | form {head : String} {args : List Term} (hhead : isText head)
      (hargs : ∀ arg ∈ args, InGroup isText arg) : InGroup isText (.form head args)

def IsCall (isText : String → Prop) (term : Term) : Prop :=
  InGroup isText term ∧ ∃ head args, term = .form head args

end Term

namespace Line

/-- A text that can be written between quotes of one kind. -/
def IsQuotable (s : String) : Prop :=
  '"' ∉ s.toList ∨ '\'' ∉ s.toList

theorem OpenGroup.form_eq_ok {group : OpenGroup} {form : Term} (h : group.form = .ok form) :
    ∃ head args, group.items.reverse = .text head :: args ∧ form = .form head args := by
  unfold OpenGroup.form at h
  split at h
  · cases h
  · next head args hitems =>
      injection h with h
      exact ⟨head, args, hitems, h.symm⟩
  · cases h

theorem OpenGroup.isCall_of_form {isText : String → Prop} {group : OpenGroup} {form : Term}
    (hitems : ∀ item ∈ group.items, item.InGroup isText) (h : group.form = .ok form) :
    form.IsCall isText := by
  obtain ⟨head, args, hreverse, rfl⟩ := form_eq_ok h
  have hmem : ∀ item ∈ Term.text head :: args, item.InGroup isText := by
    intro item hitem
    rw [← hreverse, List.mem_reverse] at hitem
    exact hitems item hitem
  obtain ⟨hhead, hargs⟩ := List.forall_mem_cons.mp hmem
  cases hhead with
  | text hhead => exact ⟨.form hhead hargs, head, args, rfl⟩

/-- A quoted text holds no mark of its kind, and a bare one no mark at all. -/
def GroupPart.IsSound : GroupPart → Prop
  | .gap => True
  | .bare text => '"' ∉ text.toList ∧ '\'' ∉ text.toList
  | .quoted mark text => (mark = '"' ∨ mark = '\'') ∧ mark ∉ text.toList

namespace GroupReader

structure IsSound (reader : GroupReader) : Prop where
  part : reader.part.IsSound
  innermost : ∀ item ∈ reader.innermost.items, item.InGroup IsQuotable
  around : ∀ group ∈ reader.around, ∀ item ∈ group.items, item.InGroup IsQuotable

def Progress.IsSound : Progress → Prop
  | .reading reader => reader.IsSound
  | .closed form => form.IsCall IsQuotable

theorem isSound_start (column : Nat) : (start column).IsSound :=
  ⟨trivial, by simp [start], by simp [start]⟩

theorem isSound_push {reader : GroupReader} (h : reader.IsSound) {item : Term}
    (hitem : item.InGroup IsQuotable) : (reader.push item).IsSound :=
  ⟨trivial, List.forall_mem_cons.mpr ⟨hitem, h.innermost⟩, h.around⟩

theorem isSound_withPart {reader : GroupReader} (h : reader.IsSound) {part : GroupPart}
    (hpart : part.IsSound) : IsSound { reader with part := part } :=
  ⟨hpart, h.innermost, h.around⟩

theorem isSound_delimit {reader : GroupReader} (h : reader.IsSound) {column : Nat} {c : Char}
    {progress : Progress} (hdelimit : reader.delimit column c = .ok progress) :
    progress.IsSound := by
  unfold delimit at hdelimit
  split at hdelimit
  · injection hdelimit with hdelimit
    subst hdelimit
    exact ⟨trivial, by simp, List.forall_mem_cons.mpr ⟨h.innermost, h.around⟩⟩
  · split at hdelimit
    · cases hform : reader.innermost.form with
      | error e =>
          rw [hform] at hdelimit
          cases hdelimit
      | ok form =>
          have hcall := OpenGroup.isCall_of_form h.innermost hform
          cases haround : reader.around with
          | nil =>
              simp only [hform, haround, ok_bind, pure_eq_ok, Except.ok.injEq] at hdelimit
              subst hdelimit
              exact hcall
          | cons outer around =>
              simp only [hform, haround, ok_bind, pure_eq_ok, Except.ok.injEq] at hdelimit
              subst hdelimit
              obtain ⟨houter, htail⟩ := List.forall_mem_cons.mp (haround ▸ h.around)
              have hsound : IsSound ⟨.gap, outer, around⟩ := ⟨trivial, houter, htail⟩
              exact isSound_push hsound hcall.1
    · split at hdelimit
      · next hmark =>
          injection hdelimit with hdelimit
          subst hdelimit
          exact isSound_withPart h ⟨hmark, by simp⟩
      · injection hdelimit with hdelimit
        subst hdelimit
        exact isSound_withPart h trivial

theorem ne_mark_of_not_isDelimiter {c : Char} (h : ¬ isDelimiter c = true) :
    '"' ≠ c ∧ '\'' ≠ c := by
  constructor <;> (rintro rfl; exact h rfl)

/-- One character keeps what is held sound. -/
theorem isSound_step {reader : GroupReader} (h : reader.IsSound) {column : Nat} {c : Char}
    {progress : Progress} (hstep : reader.step column c = .ok progress) : progress.IsSound := by
  unfold step at hstep
  have hpart := h.part
  split at hstep
  · next mark text hquoted =>
      rw [hquoted] at hpart
      obtain ⟨hmark, hmem⟩ := hpart
      split at hstep
      · injection hstep with hstep
        subst hstep
        refine isSound_push h (.text ?_)
        rcases hmark with rfl | rfl
        · exact .inl hmem
        · exact .inr hmem
      · next hne =>
          injection hstep with hstep
          subst hstep
          refine isSound_withPart h ⟨hmark, ?_⟩
          simpa [String.toList_push, hmem] using Ne.symm hne
  · next text hbare =>
      rw [hbare] at hpart
      split at hstep
      · exact isSound_delimit (isSound_push h (.text (.inl hpart.1))) hstep
      · next hdelimiter =>
          obtain ⟨hdouble, hsingle⟩ := ne_mark_of_not_isDelimiter hdelimiter
          injection hstep with hstep
          subst hstep
          refine isSound_withPart h ⟨?_, ?_⟩
          · simpa [String.toList_push, hpart.1] using hdouble
          · simpa [String.toList_push, hpart.2] using hsingle
  · split at hstep
    · exact isSound_delimit h hstep
    · next hdelimiter =>
        obtain ⟨hdouble, hsingle⟩ := ne_mark_of_not_isDelimiter hdelimiter
        injection hstep with hstep
        subst hstep
        exact isSound_withPart h ⟨by simpa using hdouble, by simpa using hsingle⟩

end GroupReader
end Line
end ShellLowering
