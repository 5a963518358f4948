import ShellLowering.Proofs.GroupContent
import ShellLowering.Proofs.PieceReading

namespace ShellLowering

namespace Term

mutual

/-- A call between parentheses, with its texts written in the given way. -/
def groupText (write : String → List Char) : Term → List Char
  | .text value => write value
  | .form head args => '(' :: [' '].intercalate (write head :: groupTexts write args) ++ [')']
  | _ => []

def groupTexts (write : String → List Char) : List Term → List (List Char)
  | [] => []
  | term :: terms => term.groupText write :: groupTexts write terms

end

@[simp] theorem groupTexts_eq_map (write : String → List Char) (terms : List Term) :
    groupTexts write terms = terms.map (groupText write) := by
  induction terms with
  | nil => rfl
  | cons term terms ih => simp [groupTexts, ih]

/-- The head of a call is written as a text in front of the arguments. -/
theorem groupText_form (write : String → List Char) (head : String) (args : List Term) :
    (form head args).groupText write =
      '(' :: [' '].intercalate ((text head :: args).map (groupText write)) ++ [')'] := by
  simp [groupText]

end Term

namespace Line

open Text

namespace GroupReader

def endsItem (c : Char) : Bool :=
  isBlank c || c = ')'

/-- The text is read as the item between two items, where a blank or a parenthesis follows. -/
def ReadsItem (text : List Char) (item : Term) : Prop :=
  ∀ (innermost : OpenGroup) (around : List OpenGroup) (column : Nat) (c : Char) (rest : List Char),
    endsItem c = true →
      run ⟨.gap, innermost, around⟩ column (text ++ c :: rest) =
        (push ⟨.gap, innermost, around⟩ item).run (column + text.length) (c :: rest)

theorem run_step {reader next : GroupReader} {column : Nat} {c : Char}
    (h : reader.step column c = .ok (.reading next)) (rest : List Char) :
    reader.run column (c :: rest) = next.run (column + 1) rest := by
  rw [run, h, ok_bind]

theorem isDelimiter_of_endsItem {c : Char} (h : endsItem c = true) : isDelimiter c = true := by
  simp only [endsItem, Bool.or_eq_true, decide_eq_true_eq] at h
  rcases h with h | rfl
  · simp [isDelimiter, h]
  · rfl

theorem run_blank {c : Char} (h : isBlank c = true) (innermost : OpenGroup)
    (around : List OpenGroup) (column : Nat) (rest : List Char) :
    run ⟨.gap, innermost, around⟩ column (c :: rest) =
      run ⟨.gap, innermost, around⟩ (column + 1) rest := by
  have hne : c ≠ '(' ∧ c ≠ ')' ∧ c ≠ '"' ∧ c ≠ '\'' := by
    refine ⟨?_, ?_, ?_, ?_⟩ <;> (rintro rfl; revert h; decide)
  obtain ⟨hopen, hclose, hdouble, hsingle⟩ := hne
  refine run_step ?_ rest
  simp [step, isDelimiter, h, delimit, hopen, hclose, hdouble, hsingle]

/-- The group in which items, the first of them first, have been read. -/
def OpenGroup.pushAll (group : OpenGroup) (items : List Term) : OpenGroup :=
  { group with items := items.reverse ++ group.items }

theorem run_items {write : String → List Char} {items : List Term}
    (h : ∀ item ∈ items, ReadsItem (item.groupText write) item) (hne : items ≠ [])
    (innermost : OpenGroup) (around : List OpenGroup) (column : Nat) (rest : List Char) :
    run ⟨.gap, innermost, around⟩ column
        ([' '].intercalate (items.map (Term.groupText write)) ++ ')' :: rest) =
      run ⟨.gap, OpenGroup.pushAll innermost items, around⟩
        (column + ([' '].intercalate (items.map (Term.groupText write))).length)
        (')' :: rest) := by
  induction items generalizing innermost column with
  | nil => exact absurd rfl hne
  | cons item items ih =>
      obtain ⟨hitem, hitems⟩ := List.forall_mem_cons.mp h
      cases items with
      | nil =>
          rw [List.map_singleton, List.intercalate_singleton]
          exact hitem innermost around column ')' rest rfl
      | cons next items =>
          have hrest := ih hitems (by simp) ⟨innermost.column, item :: innermost.items⟩
            (column + (item.groupText write).length + 1)
          rw [List.map_cons, List.map_cons, List.intercalate_cons_cons, ← List.map_cons,
            List.append_assoc, List.append_assoc, List.singleton_append,
            hitem innermost around column ' ' _ rfl, push, run_blank rfl, hrest]
          have hgroup : OpenGroup.pushAll ⟨innermost.column, item :: innermost.items⟩
              (next :: items) = OpenGroup.pushAll innermost (item :: next :: items) := by
            simp [OpenGroup.pushAll]
          rw [hgroup, List.length_append, List.length_append, List.length_singleton,
            ← Nat.add_assoc, ← Nat.add_assoc]

theorem form_pushAll (column : Nat) (head : String) (args : List Term) :
    (OpenGroup.pushAll ⟨column, []⟩ (.text head :: args)).form = .ok (.form head args) := by
  simp [OpenGroup.form, OpenGroup.pushAll]

theorem length_groupText_form (write : String → List Char) (head : String) (args : List Term) :
    ((Term.form head args).groupText write).length =
      ([' '].intercalate ((Term.text head :: args).map (Term.groupText write))).length + 2 := by
  rw [Term.groupText_form, List.cons_append, List.length_cons, List.length_append,
    List.length_singleton]

/-- A call is read back if its texts are. The induction is on the nesting of the call. -/
theorem readsItem_groupText {isText : String → Prop} {write : String → List Char}
    (hwrite : ∀ text, isText text → ReadsItem (write text) (.text text)) {item : Term}
    (h : item.InGroup isText) : ReadsItem (item.groupText write) item := by
  induction h with
  | text hvalue => exact hwrite _ hvalue
  | @form head args hhead hargs ih =>
      intro innermost around column c rest hends
      have hitems : ∀ item ∈ Term.text head :: args, ReadsItem (item.groupText write) item :=
        List.forall_mem_cons.mpr ⟨hwrite head hhead, ih⟩
      have hopen : step ⟨.gap, innermost, around⟩ column '(' =
          .ok (.reading ⟨.gap, ⟨column, []⟩, innermost :: around⟩) := rfl
      have hclose : ∀ column', step ⟨.gap, OpenGroup.pushAll ⟨column, []⟩ (.text head :: args),
          innermost :: around⟩ column' ')' =
            .ok (.reading (push ⟨.gap, innermost, around⟩ (.form head args))) := by
        intro column'
        change (OpenGroup.pushAll ⟨column, []⟩ (.text head :: args)).form >>= _ = _
        rw [form_pushAll]
        rfl
      rw [length_groupText_form, Term.groupText_form, List.cons_append, List.cons_append,
        List.append_assoc, List.singleton_append, run_step hopen,
        run_items hitems (List.cons_ne_nil _ _), run_step (hclose _)]
      have hcolumn : ∀ length, column + 1 + length + 1 = column + (length + 2) := by omega
      rw [hcolumn]

theorem run_start {isText : String → Prop} {write : String → List Char}
    (hwrite : ∀ text, isText text → ReadsItem (write text) (.text text)) {head : String}
    {args : List Term} (h : (Term.form head args).InGroup isText) (column : Nat)
    (rest : List Char) :
    (start column).run (column + 1)
        ([' '].intercalate ((Term.text head :: args).map (Term.groupText write)) ++ ')' :: rest) =
      .ok (.form head args, rest) := by
  cases h with
  | form hhead hargs =>
      have hitems : ∀ item ∈ Term.text head :: args, ReadsItem (item.groupText write) item :=
        List.forall_mem_cons.mpr ⟨hwrite head hhead,
          fun arg harg => readsItem_groupText hwrite (hargs arg harg)⟩
      rw [start, run_items hitems (List.cons_ne_nil _ _), run]
      change ((OpenGroup.pushAll ⟨column, []⟩ (.text head :: args)).form >>= _) >>= _ = _
      rw [form_pushAll]
      rfl

/-- Characters that are taken up one by one are taken up together. -/
theorem run_chars {part : List Char → GroupPart} {innermost : OpenGroup} {around : List OpenGroup}
    {chars : List Char}
    (h : ∀ c ∈ chars, ∀ done column, step ⟨part done, innermost, around⟩ column c =
      .ok (.reading ⟨part (done ++ [c]), innermost, around⟩))
    (done : List Char) (column : Nat) (rest : List Char) :
    run ⟨part done, innermost, around⟩ column (chars ++ rest) =
      run ⟨part (done ++ chars), innermost, around⟩ (column + chars.length) rest := by
  induction chars generalizing done column with
  | nil => simp
  | cons c chars ih =>
      obtain ⟨hc, hchars⟩ := List.forall_mem_cons.mp h
      rw [List.cons_append, run_step (hc done column), ih hchars, List.append_assoc,
        List.length_cons, Nat.add_assoc, Nat.add_comm 1]
      rfl

/-- A bare text is read up to the delimiter after it or to the end. -/
theorem run_bare {text rest : List Char} (hne : text ≠ [])
    (hchars : ∀ c ∈ text, isDelimiter c = false) (hrest : ∀ c ∈ rest.head?, isDelimiter c = true)
    (innermost : OpenGroup) (around : List OpenGroup) (column : Nat) :
    run ⟨.gap, innermost, around⟩ column (text ++ rest) =
      (push ⟨.gap, innermost, around⟩ (.text (String.ofList text))).run
        (column + text.length) rest := by
  let part : List Char → GroupPart := fun chars => .bare (String.ofList chars)
  have hstep : ∀ d ∈ text, ∀ done column, step ⟨part done, innermost, around⟩ column d =
      .ok (.reading ⟨part (done ++ [d]), innermost, around⟩) := by
    intro d hd done column
    simp [step, part, hchars d hd]
  have hlast : ∀ column, run ⟨part text, innermost, around⟩ column rest =
      (push ⟨.gap, innermost, around⟩ (.text (String.ofList text))).run column rest := by
    intro column
    cases rest with
    | nil => rfl
    | cons c rest =>
        have hdelimiter := hrest c rfl
        simp [run, step, part, push, hdelimiter]
  cases text with
  | nil => exact absurd rfl hne
  | cons d chars =>
      have hfirst : step ⟨.gap, innermost, around⟩ column d =
          .ok (.reading ⟨part [d], innermost, around⟩) := by
        simp [step, part, hchars d List.mem_cons_self]
      rw [List.cons_append, run_step hfirst,
        run_chars (fun d' hd' => hstep d' (List.mem_cons_of_mem d hd')), List.singleton_append,
        hlast, List.length_cons, Nat.add_assoc, Nat.add_comm 1]

/-- What stands behind a quote mark is taken up as long as the mark does not come again. -/
theorem run_mark {mark : Char} (hmark : mark = '"' ∨ mark = '\'') {text : List Char}
    (h : mark ∉ text) (innermost : OpenGroup) (around : List OpenGroup) (column : Nat)
    (rest : List Char) :
    run ⟨.gap, innermost, around⟩ column (mark :: (text ++ rest)) =
      run ⟨.quoted mark (String.ofList text), innermost, around⟩ (column + 1 + text.length)
        rest := by
  let part : List Char → GroupPart := fun chars => .quoted mark (String.ofList chars)
  have hopen : step ⟨.gap, innermost, around⟩ column mark =
      .ok (.reading ⟨part [], innermost, around⟩) := by
    rcases hmark with rfl | rfl <;> rfl
  have hstep : ∀ d ∈ text, ∀ done column, step ⟨part done, innermost, around⟩ column d =
      .ok (.reading ⟨part (done ++ [d]), innermost, around⟩) := by
    intro d hd done column
    have hne : d ≠ mark := fun heq => h (heq ▸ hd)
    simp [step, part, hne]
  rw [run_step hopen, run_chars hstep, List.nil_append]

/-- A quoted text is read up to the next mark of its kind. -/
theorem run_quoted {mark : Char} (hmark : mark = '"' ∨ mark = '\'') {text : List Char}
    (h : mark ∉ text) (innermost : OpenGroup) (around : List OpenGroup) (column : Nat)
    (rest : List Char) :
    run ⟨.gap, innermost, around⟩ column (mark :: (text ++ mark :: rest)) =
      (push ⟨.gap, innermost, around⟩ (.text (String.ofList text))).run
        (column + (text.length + 2)) rest := by
  have hclose : ∀ column, step ⟨.quoted mark (String.ofList text), innermost, around⟩ column mark =
      .ok (.reading (push ⟨.gap, innermost, around⟩ (.text (String.ofList text)))) := by
    intro column
    simp [step, push]
  have hcolumn : column + 1 + text.length + 1 = column + (text.length + 2) := by omega
  rw [run_mark hmark h, run_step (hclose _), hcolumn]

theorem readsItem_bare {text : String} (hne : text ≠ "")
    (hchars : ∀ c ∈ text.toList, isDelimiter c = false) :
    ReadsItem text.toList (.text text) := by
  intro innermost around column c rest hends
  have hrest : ∀ d ∈ (c :: rest).head?, isDelimiter d = true := by
    rintro d ⟨⟩
    exact isDelimiter_of_endsItem hends
  have hbare := run_bare (mt String.toList_eq_nil_iff.mp hne) hchars hrest innermost around column
  rwa [String.ofList_toList] at hbare

theorem readsItem_quoted {mark : Char} (hmark : mark = '"' ∨ mark = '\'') {text : String}
    (h : mark ∉ text.toList) : ReadsItem (mark :: text.toList ++ [mark]) (.text text) := by
  intro innermost around column c rest _
  have hquoted := run_quoted hmark h innermost around column (c :: rest)
  rw [String.ofList_toList] at hquoted
  simpa using hquoted

end GroupReader

/-- A call is read as one token, whatever follows it. -/
theorem reads_groupText {isText : String → Prop} {write : String → List Char}
    (hwrite : ∀ text, isText text → GroupReader.ReadsItem (write text) (.text text)) {term : Term}
    (h : term.IsCall isText) : Reads (fun _ => true) (term.groupText write) [.embedded term] := by
  obtain ⟨hgroup, head, args, rfl⟩ := h
  intro column rest _
  let items := [' '].intercalate ((Term.text head :: args).map (Term.groupText write))
  have hopen : Reader.between.run column ('(' :: (items ++ ')' :: rest)) =
      (Reader.group (.start column)).run (column + 1) (items ++ ')' :: rest) :=
    Reader.run_step rfl _
  have hcolumn : column + 1 + ((items ++ ')' :: rest).length - rest.length) =
      column + (items.length + 2) := by
    simp only [List.length_append, List.length_cons]
    omega
  rw [GroupReader.length_groupText_form, Term.groupText_form, List.cons_append, List.cons_append,
    List.append_assoc, List.singleton_append, hopen, Reader.run_group,
    GroupReader.run_start hwrite hgroup, ok_bind]
  simp only [hcolumn, items]
  cases Reader.between.run (column + (items.length + 2)) rest <;> rfl

end Line
end ShellLowering
