import ShellLowering.Proofs.GroupReading

namespace ShellLowering.Line

open Text GroupReader

/-- What may stand between the parentheses of a group, with the items that it holds: blanks, bare
texts that go on as long as possible, quoted texts, and groups whose first item is a text. -/
inductive IsContent : List Char → List Term → Prop
  | nil : IsContent [] []
  | blank {c : Char} {content : List Char} {items : List Term} (hc : isBlank c = true)
      (hcontent : IsContent content items) : IsContent (c :: content) items
  | bare {text content : List Char} {items : List Term} (hne : text ≠ [])
      (hchars : ∀ c ∈ text, isDelimiter c = false)
      (hmaximal : ∀ c ∈ content.head?, isDelimiter c = true)
      (hcontent : IsContent content items) :
      IsContent (text ++ content) (.text (String.ofList text) :: items)
  | quoted {mark : Char} {text content : List Char} {items : List Term}
      (hmark : mark = '"' ∨ mark = '\'') (htext : mark ∉ text)
      (hcontent : IsContent content items) :
      IsContent (mark :: (text ++ mark :: content)) (.text (String.ofList text) :: items)
  | group {inner content : List Char} {head : String} {args items : List Term}
      (hinner : IsContent inner (.text head :: args)) (hcontent : IsContent content items) :
      IsContent ('(' :: (inner ++ ')' :: content)) (.form head args :: items)

/-- The characters are a group, from its opening parenthesis to the one that closes it. -/
def IsGroup (chars : List Char) (form : Term) : Prop :=
  ∃ content head args, IsContent content (.text head :: args) ∧
    chars = '(' :: (content ++ [')']) ∧ form = .form head args

/-- What is first wrong behind the parenthesis, at the given column, that opens a group. In front
of the defect all is content, so every group that begins there is closed again. -/
inductive FirstDefect : Nat → List Char → ReadError → Prop
  | endOfLine {column : Nat} {content : List Char} {items : List Term}
      (hcontent : IsContent content items) :
      FirstDefect column content (.unterminatedGroup column)
  | openQuote {column : Nat} {content text : List Char} {items : List Term} {mark : Char}
      (hcontent : IsContent content items) (hmark : mark = '"' ∨ mark = '\'')
      (htext : mark ∉ text) :
      FirstDefect column (content ++ mark :: text) .unterminatedQuote
  | closedEmpty {column : Nat} {content rest : List Char} (hcontent : IsContent content []) :
      FirstDefect column (content ++ ')' :: rest) (.emptyGroup column)
  | closedUnnamed {column : Nat} {content rest : List Char} {head : String}
      {args items : List Term} (hcontent : IsContent content (.form head args :: items)) :
      FirstDefect column (content ++ ')' :: rest) (.unnamedGroup column)
  | inGroup {column : Nat} {content inner : List Char} {items : List Term} {e : ReadError}
      (hcontent : IsContent content items)
      (hinner : FirstDefect (column + 1 + content.length) inner e) :
      FirstDefect column (content ++ '(' :: inner) e

/-- The call of the group that starts at an index of the line, and the index behind the group. -/
def readGroup (line : String) (start : Nat) : Except ReadError (Term × Nat) := do
  let (form, rest) ← (GroupReader.start start).run (start + 1) (line.toList.drop (start + 1))
  return (form, line.length - rest.length)

section Spec

/-!
Each text behind an opening parenthesis either goes on to the parenthesis that closes the group, or
has a first defect. This is a fact of the grammar alone; the reader is not looked at.
-/

/-- Where content cannot go on: at the end of the line, at a parenthesis that closes the group
around it, at a quote that is never closed, or at a defective group. -/
inductive StopsAt (column : Nat) : List Char → Prop
  | endOfLine : StopsAt column []
  | closing (rest : List Char) : StopsAt column (')' :: rest)
  | openQuote {mark : Char} {text : List Char} (hmark : mark = '"' ∨ mark = '\'')
      (htext : mark ∉ text) : StopsAt column (mark :: text)
  | inGroup {inner : List Char} {e : ReadError} (hinner : FirstDefect column inner e) :
      StopsAt column ('(' :: inner)

/-- The characters behind a parenthesis contain the one that closes the group, and the group has a
name. -/
def IsClosed (chars : List Char) : Prop :=
  ∃ content head args rest, IsContent content (.text head :: args) ∧
    chars = content ++ ')' :: rest

theorem IsContent.item_cases {content : List Char} {items : List Term}
    (h : IsContent content items) :
    ∀ item ∈ items, (∃ text, item = .text text) ∨ ∃ head args, item = .form head args := by
  induction h with
  | nil => simp
  | blank _ _ ih => exact ih
  | bare _ _ _ _ ih => exact List.forall_mem_cons.mpr ⟨.inl ⟨_, rfl⟩, ih⟩
  | quoted _ _ _ ih => exact List.forall_mem_cons.mpr ⟨.inl ⟨_, rfl⟩, ih⟩
  | group _ _ _ ih => exact List.forall_mem_cons.mpr ⟨.inr ⟨_, _, rfl⟩, ih⟩

theorem isClosed_or_firstDefect_of_content {column : Nat} {content rest : List Char}
    {items : List Term} (hcontent : IsContent content items)
    (hrest : StopsAt (column + 1 + content.length) rest) :
    IsClosed (content ++ rest) ∨ ∃ e, FirstDefect column (content ++ rest) e := by
  cases hrest with
  | endOfLine =>
      rw [List.append_nil]
      exact .inr ⟨_, .endOfLine hcontent⟩
  | openQuote hmark htext => exact .inr ⟨_, .openQuote hcontent hmark htext⟩
  | inGroup hinner => exact .inr ⟨_, .inGroup hcontent hinner⟩
  | closing rest =>
      cases items with
      | nil => exact .inr ⟨_, .closedEmpty hcontent⟩
      | cons item items =>
          rcases hcontent.item_cases item List.mem_cons_self with ⟨head, rfl⟩ | ⟨head, args, rfl⟩
          · exact .inl ⟨content, head, items, rest, hcontent, rfl⟩
          · exact .inr ⟨_, .closedUnnamed hcontent⟩

/-- Characters of which so many are content, up to where it cannot go on. -/
def HasContent (column : Nat) (chars : List Char) : Prop :=
  ∃ content items rest, IsContent content items ∧ StopsAt (column + content.length) rest ∧
    chars = content ++ rest

theorem HasContent.of_stopsAt {column : Nat} {chars : List Char} (h : StopsAt column chars) :
    HasContent column chars :=
  ⟨[], [], chars, .nil, h, rfl⟩

/-- One more item or blank in front of content. -/
theorem HasContent.extend {column : Nat} (piece : List Char) {chars : List Char}
    (h : HasContent (column + piece.length) chars)
    (hpiece : ∀ content items, content <+: chars → IsContent content items →
      ∃ items', IsContent (piece ++ content) items') :
    HasContent column (piece ++ chars) := by
  obtain ⟨content, items, rest, hcontent, hrest, rfl⟩ := h
  obtain ⟨items', hcontent'⟩ := hpiece content items (List.prefix_append content rest) hcontent
  refine ⟨piece ++ content, items', rest, hcontent', ?_, (List.append_assoc ..).symm⟩
  rwa [List.length_append, ← Nat.add_assoc]

theorem HasContent.blank {column : Nat} {c : Char} {chars : List Char} (hc : isBlank c = true)
    (hrest : ∀ column rest, rest.length ≤ chars.length → HasContent column rest) :
    HasContent column (c :: chars) := by
  refine .extend [c] (hrest _ chars (Nat.le_refl _)) fun content items _ hcontent => ?_
  exact ⟨items, .blank hc hcontent⟩

/-- A quote that is closed is an item, and one that is not stops the content. -/
theorem HasContent.mark {column : Nat} {mark : Char} {chars : List Char}
    (hmark : mark = '"' ∨ mark = '\'')
    (hrest : ∀ column rest, rest.length ≤ chars.length → HasContent column rest) :
    HasContent column (mark :: chars) := by
  by_cases hmem : mark ∈ chars
  · obtain ⟨text, rest, rfl, htext⟩ := List.eq_append_cons_of_mem hmem
    have hextend : HasContent column ((mark :: (text ++ [mark])) ++ rest) := by
      refine .extend _ (hrest _ rest (by simp; omega)) fun content items _ hcontent => ?_
      exact ⟨_, by simpa using IsContent.quoted hmark htext hcontent⟩
    simpa using hextend
  · exact .of_stopsAt (.openQuote hmark hmem)

/-- A group that is closed is an item, and a defective one stops the content. -/
theorem HasContent.group {column : Nat} {chars : List Char}
    (hinner : IsClosed chars ∨ ∃ e, FirstDefect column chars e)
    (hrest : ∀ column rest, rest.length ≤ chars.length → HasContent column rest) :
    HasContent column ('(' :: chars) := by
  rcases hinner with ⟨inner, head, args, rest, hinner, rfl⟩ | ⟨e, hinner⟩
  · have hextend : HasContent column (('(' :: (inner ++ [')'])) ++ rest) := by
      refine .extend _ (hrest _ rest (by simp; omega)) fun content items _ hcontent => ?_
      exact ⟨_, by simpa using IsContent.group hinner hcontent⟩
    simpa using hextend
  · exact .of_stopsAt (.inGroup hinner)

/-- A bare text is an item that reaches to the next delimiter. -/
theorem HasContent.bare {column : Nat} {c : Char} {chars : List Char}
    (hc : isDelimiter c = false)
    (hrest : ∀ column rest, rest.length ≤ chars.length → HasContent column rest) :
    HasContent column (c :: chars) := by
  obtain ⟨text, rest, rfl, htext, hdelimiter⟩ := exists_run_until isDelimiter chars
  refine .extend (c :: text) (hrest _ rest (by simp)) fun content items hprefix h => ?_
  refine ⟨_, .bare (List.cons_ne_nil c text) (List.forall_mem_cons.mpr ⟨hc, htext⟩) ?_ h⟩
  intro d hd
  obtain ⟨after, rfl⟩ := hprefix
  exact hdelimiter d (List.mem_head?_append_of_mem_head? hd)

/-- Content goes on until something stops it. The induction is on the length of the text. -/
theorem hasContent (column : Nat) (chars : List Char) : HasContent column chars := by
  induction hlength : chars.length using Nat.strongRecOn generalizing column chars with
  | ind length ih =>
      subst hlength
      cases chars with
      | nil => exact .of_stopsAt .endOfLine
      | cons c chars =>
          have hrest : ∀ column rest, rest.length ≤ chars.length → HasContent column rest :=
            fun column rest hle => ih rest.length (Nat.lt_succ_of_le hle) column rest rfl
          cases hdelimiter : isDelimiter c with
          | false => exact .bare hdelimiter hrest
          | true =>
              simp only [isDelimiter, Bool.or_eq_true, decide_eq_true_eq] at hdelimiter
              rcases hdelimiter with (((hblank | rfl) | rfl) | hmark) | hmark
              · exact .blank hblank hrest
              · obtain ⟨content, items, rest, hcontent, hstop, rfl⟩ :=
                  hrest (column + 1) chars (Nat.le_refl _)
                exact .group (isClosed_or_firstDefect_of_content hcontent hstop) hrest
              · exact .of_stopsAt (.closing chars)
              · exact .mark (.inl hmark) hrest
              · exact .mark (.inr hmark) hrest

theorem isClosed_or_firstDefect (column : Nat) (chars : List Char) :
    IsClosed chars ∨ ∃ e, FirstDefect column chars e := by
  obtain ⟨content, items, rest, hcontent, hrest, rfl⟩ := hasContent (column + 1) chars
  exact isClosed_or_firstDefect_of_content hcontent hrest

end Spec

namespace GroupReader

theorem OpenGroup.pushAll_cons (group : OpenGroup) (item : Term) (items : List Term) :
    OpenGroup.pushAll { group with items := item :: group.items } items =
      OpenGroup.pushAll group (item :: items) := by
  simp [OpenGroup.pushAll]

theorem isDelimiter_head?_cons {c : Char} (h : isDelimiter c = true) (rest : List Char) :
    ∀ d ∈ (c :: rest).head?, isDelimiter d = true := by
  rintro d ⟨⟩
  exact h

theorem isDelimiter_head?_append {content rest : List Char}
    (hcontent : ∀ c ∈ content.head?, isDelimiter c = true)
    (hrest : ∀ c ∈ rest.head?, isDelimiter c = true) :
    ∀ c ∈ (content ++ rest).head?, isDelimiter c = true := by
  cases content with
  | nil => exact hrest
  | cons d content => exact hcontent

theorem run_open (innermost : OpenGroup) (around : List OpenGroup) (column : Nat)
    (rest : List Char) :
    run ⟨.gap, innermost, around⟩ column ('(' :: rest) =
      run ⟨.gap, ⟨column, []⟩, innermost :: around⟩ (column + 1) rest :=
  run_step rfl rest

theorem run_close_inner {group : OpenGroup} {form : Term} (h : group.form = .ok form)
    (outer : OpenGroup) (around : List OpenGroup) (column : Nat) (rest : List Char) :
    run ⟨.gap, group, outer :: around⟩ column (')' :: rest) =
      (push ⟨.gap, outer, around⟩ form).run (column + 1) rest := by
  refine run_step ?_ rest
  change group.form >>= _ = _
  rw [h]
  rfl

theorem run_close_outer {group : OpenGroup} {form : Term} (h : group.form = .ok form)
    (column : Nat) (rest : List Char) :
    run ⟨.gap, group, []⟩ column (')' :: rest) = .ok (form, rest) := by
  change (group.form >>= _) >>= _ = _
  rw [h]
  rfl

theorem run_close_error {group : OpenGroup} {e : ReadError} (h : group.form = .error e)
    (around : List OpenGroup) (column : Nat) (rest : List Char) :
    run ⟨.gap, group, around⟩ column (')' :: rest) = .error e := by
  change (group.form >>= _) >>= _ = _
  rw [h]
  rfl

/-- Content is read as its items. The induction is on the content, so that a group in it is read
with the groups around it on the stack. -/
theorem run_content {content : List Char} {items : List Term} (h : IsContent content items)
    (innermost : OpenGroup) (around : List OpenGroup) (column : Nat) (rest : List Char)
    (hrest : ∀ c ∈ rest.head?, isDelimiter c = true) :
    run ⟨.gap, innermost, around⟩ column (content ++ rest) =
      run ⟨.gap, OpenGroup.pushAll innermost items, around⟩ (column + content.length) rest := by
  induction h generalizing innermost around column rest with
  | nil => rfl
  | blank hc hcontent ih =>
      rw [List.cons_append, run_blank hc, ih _ _ _ _ hrest, List.length_cons, Nat.add_assoc,
        Nat.add_comm 1]
  | bare hne hchars hmaximal hcontent ih =>
      rw [List.append_assoc, run_bare hne hchars (isDelimiter_head?_append hmaximal hrest), push,
        ih _ _ _ _ hrest, OpenGroup.pushAll_cons, List.length_append, Nat.add_assoc]
  | @quoted mark text content items hmark htext hcontent ih =>
      have hlength : (mark :: (text ++ mark :: content)).length =
          text.length + 2 + content.length := by
        simp only [List.length_cons, List.length_append]
        omega
      rw [List.cons_append, List.append_assoc, List.cons_append, run_quoted hmark htext, push,
        ih _ _ _ _ hrest, OpenGroup.pushAll_cons, hlength, Nat.add_assoc]
  | @group inner content head args items hinner hcontent ihinner ih =>
      have hlength : column + 1 + inner.length + 1 + content.length =
          column + ('(' :: (inner ++ ')' :: content)).length := by
        simp only [List.length_cons, List.length_append]
        omega
      rw [List.cons_append, List.append_assoc, List.cons_append, run_open,
        ihinner _ _ _ _ (isDelimiter_head?_cons rfl _),
        run_close_inner (form_pushAll column head args), push, ih _ _ _ _ hrest,
        OpenGroup.pushAll_cons, hlength]

theorem run_of_isContent {content : List Char} {head : String} {args : List Term}
    (h : IsContent content (.text head :: args)) (column : Nat) (rest : List Char) :
    (start column).run (column + 1) (content ++ ')' :: rest) = .ok (.form head args, rest) := by
  rw [start, run_content h _ _ _ _ (isDelimiter_head?_cons rfl rest),
    run_close_outer (form_pushAll column head args)]

/-- Reading stops at the first defect. The induction is on the depth of the defect. -/
theorem run_of_firstDefect {column : Nat} {chars : List Char} {e : ReadError}
    (h : FirstDefect column chars e) (around : List OpenGroup) :
    run ⟨.gap, ⟨column, []⟩, around⟩ (column + 1) chars = .error e := by
  induction h generalizing around with
  | @endOfLine column content items hcontent =>
      have hrun := run_content hcontent ⟨column, []⟩ around (column + 1) [] (by simp)
      rw [List.append_nil] at hrun
      rw [hrun]
      rfl
  | @openQuote column content text items mark hcontent hmark htext =>
      have hdelimiter : isDelimiter mark = true := by rcases hmark with rfl | rfl <;> rfl
      have hquote := run_mark hmark htext (OpenGroup.pushAll ⟨column, []⟩ items) around
        (column + 1 + content.length) []
      rw [List.append_nil] at hquote
      rw [run_content hcontent _ _ _ _ (isDelimiter_head?_cons hdelimiter text), hquote]
      rfl
  | @closedEmpty column content rest hcontent =>
      have hform : (OpenGroup.pushAll ⟨column, []⟩ []).form = .error (.emptyGroup column) := rfl
      rw [run_content hcontent _ _ _ _ (isDelimiter_head?_cons rfl rest), run_close_error hform]
  | @closedUnnamed column content rest head args items hcontent =>
      have hform : (OpenGroup.pushAll ⟨column, []⟩ (.form head args :: items)).form =
          .error (.unnamedGroup column) := by
        simp [OpenGroup.pushAll, OpenGroup.form]
      rw [run_content hcontent _ _ _ _ (isDelimiter_head?_cons rfl rest), run_close_error hform]
  | @inGroup column content inner items e hcontent hinner ih =>
      rw [run_content hcontent _ _ _ _ (isDelimiter_head?_cons rfl inner), run_open, ih]

theorem run_start_cases (column : Nat) (chars : List Char) :
    (∃ content head args rest, IsContent content (.text head :: args) ∧
      chars = content ++ ')' :: rest ∧
      (start column).run (column + 1) chars = .ok (.form head args, rest)) ∨
    ∃ e, FirstDefect column chars e ∧ (start column).run (column + 1) chars = .error e := by
  rcases isClosed_or_firstDefect column chars with ⟨content, head, args, rest, h, rfl⟩ | ⟨e, h⟩
  · exact .inl ⟨content, head, args, rest, h, rfl, run_of_isContent h column rest⟩
  · exact .inr ⟨e, h, run_of_firstDefect h []⟩

theorem run_start_eq_ok_iff {column : Nat} {chars rest : List Char} {form : Term} :
    (start column).run (column + 1) chars = .ok (form, rest) ↔
      ∃ group, IsGroup group form ∧ '(' :: chars = group ++ rest := by
  constructor
  · intro hrun
    rcases run_start_cases column chars with
      ⟨content, head, args, after, h, rfl, hok⟩ | ⟨e, -, herror⟩
    · cases hrun.symm.trans hok
      exact ⟨_, ⟨content, head, args, h, rfl, rfl⟩, by simp⟩
    · cases hrun.symm.trans herror
  · rintro ⟨group, ⟨content, head, args, h, rfl, rfl⟩, hchars⟩
    obtain rfl : chars = content ++ ')' :: rest := by simpa using hchars
    exact run_of_isContent h column rest

theorem run_start_eq_error_iff {column : Nat} {chars : List Char} {e : ReadError} :
    (start column).run (column + 1) chars = .error e ↔ FirstDefect column chars e := by
  constructor
  · intro hrun
    rcases run_start_cases column chars with
      ⟨content, head, args, after, -, -, hok⟩ | ⟨e', h, herror⟩
    · cases hrun.symm.trans hok
    · cases hrun.symm.trans herror
      exact h
  · intro h
    exact run_of_firstDefect h []

end GroupReader

section ReadGroup

variable {line : String} {start : Nat}

theorem drop_eq_of_open (hopen : line.toList[start]? = some '(') :
    line.toList.drop start = '(' :: line.toList.drop (start + 1) := by
  obtain ⟨hlt, hchar⟩ := List.getElem?_eq_some_iff.mp hopen
  rw [List.drop_eq_getElem_cons hlt, hchar]

theorem length_drop_of_open (hopen : line.toList[start]? = some '(') :
    line.length = start + (line.toList.drop start).length := by
  obtain ⟨hlt, -⟩ := List.getElem?_eq_some_iff.mp hopen
  rw [List.length_drop, ← String.length_toList]
  omega

theorem readGroup_eq_ok_iff (hopen : line.toList[start]? = some '(') {form : Term} {stop : Nat} :
    readGroup line start = .ok (form, stop) ↔
      ∃ group rest, IsGroup group form ∧ line.toList.drop start = group ++ rest ∧
        stop = start + group.length := by
  have hlength := length_drop_of_open hopen
  have hdrop := drop_eq_of_open hopen
  constructor
  · intro hread
    obtain ⟨⟨form', rest⟩, hrun, hread⟩ := bind_eq_ok.mp hread
    cases hread
    obtain ⟨group, hgroup, hchars⟩ := run_start_eq_ok_iff.mp hrun
    rw [hdrop, hchars, List.length_append] at hlength
    refine ⟨group, rest, hgroup, hdrop.trans hchars, ?_⟩
    omega
  · rintro ⟨group, rest, hgroup, hchars, rfl⟩
    have hrun : (GroupReader.start start).run (start + 1) (line.toList.drop (start + 1)) =
        .ok (form, rest) := run_start_eq_ok_iff.mpr ⟨group, hgroup, hdrop.symm.trans hchars⟩
    rw [hchars, List.length_append] at hlength
    rw [readGroup, hrun, ok_bind]
    change Except.ok (form, line.length - rest.length) = _
    congr 2
    omega

theorem readGroup_eq_error_iff {e : ReadError} :
    readGroup line start = .error e ↔ FirstDefect start (line.toList.drop (start + 1)) e := by
  rw [← run_start_eq_error_iff, readGroup]
  cases (GroupReader.start start).run (start + 1) (line.toList.drop (start + 1)) with
  | error e' => simp
  | ok result => simp [pure_eq_ok]

theorem IsGroup.length_pos {group : List Char} {form : Term} (h : IsGroup group form) :
    0 < group.length := by
  obtain ⟨content, head, args, -, rfl, -⟩ := h
  simp

/-- A group of the line, given by the index behind it. -/
theorem readGroup_eq_ok_iff_extract (hopen : line.toList[start]? = some '(') {form : Term}
    {stop : Nat} :
    readGroup line start = .ok (form, stop) ↔
      stop ≤ line.length ∧ IsGroup (line.toList.extract start stop) form := by
  have hlength := length_drop_of_open hopen
  rw [readGroup_eq_ok_iff hopen, List.extract_eq_take_drop]
  constructor
  · rintro ⟨group, rest, hgroup, hchars, rfl⟩
    rw [hchars, List.length_append] at hlength
    rw [hchars, Nat.add_sub_cancel_left, List.take_left]
    exact ⟨by omega, hgroup⟩
  · rintro ⟨hstop, hgroup⟩
    have hpos := hgroup.length_pos
    rw [List.length_take] at hpos
    refine ⟨_, _, hgroup, (List.take_append_drop (stop - start) _).symm, ?_⟩
    rw [List.length_take]
    omega

/-- A line is read on behind a group. -/
theorem run_between_open (hopen : line.toList[start]? = some '(') :
    Reader.between.run start (line.toList.drop start) = (do
      let (form, stop) ← readGroup line start
      let following ← Reader.between.run stop (line.toList.drop stop)
      return .embedded form :: following) := by
  have hlength := length_drop_of_open hopen
  have hdrop := drop_eq_of_open hopen
  have hfirst : Reader.between.run start ('(' :: line.toList.drop (start + 1)) =
      (Reader.group (.start start)).run (start + 1) (line.toList.drop (start + 1)) :=
    Reader.run_step rfl _
  rw [hdrop, hfirst, Reader.run_group, readGroup]
  cases hrun : (GroupReader.start start).run (start + 1) (line.toList.drop (start + 1)) with
  | error e => rfl
  | ok result =>
      obtain ⟨form, rest⟩ := result
      obtain ⟨group, hgroup, hchars⟩ := run_start_eq_ok_iff.mp hrun
      have hgroupChars : line.toList.drop start = group ++ rest := hdrop.trans hchars
      have hstop : line.length - rest.length = start + group.length := by
        rw [hgroupChars, List.length_append] at hlength
        omega
      have hcolumn : start + 1 + ((line.toList.drop (start + 1)).length - rest.length) =
          start + group.length := by
        have hpos := hgroup.length_pos
        have hcount := congrArg List.length hchars
        rw [List.length_cons, List.length_append] at hcount
        omega
      have hrest : line.toList.drop (start + group.length) = rest := by
        rw [← List.drop_drop, hgroupChars, List.drop_left]
      simp only [ok_bind, pure_eq_ok, hstop, hcolumn, hrest]

/-- What stands behind a group does not matter for it. -/
theorem readGroup_congr (hopen : line.toList[start]? = some '(') {other : String} {form : Term}
    {stop : Nat} (hread : readGroup line start = .ok (form, stop))
    (htake : other.toList.take stop = line.toList.take stop) :
    readGroup other start = .ok (form, stop) := by
  obtain ⟨hstop, hgroup⟩ := (readGroup_eq_ok_iff_extract hopen).mp hread
  have hpos := hgroup.length_pos
  rw [List.extract_eq_take_drop, List.length_take] at hpos
  have hlt : start < stop := by omega
  have hopen' : other.toList[start]? = some '(' := by
    rw [← List.getElem?_take_of_lt hlt, htake, List.getElem?_take_of_lt hlt, hopen]
  have hstop' : stop ≤ other.length := by
    have hlengths := congrArg List.length htake
    rw [List.length_take, List.length_take, String.length_toList, String.length_toList] at hlengths
    omega
  refine (readGroup_eq_ok_iff_extract hopen').mpr ⟨hstop', ?_⟩
  rwa [List.extract_eq_take_drop, ← List.drop_take, htake, List.drop_take,
    ← List.extract_eq_take_drop]

/-- There is a defect if and only if there is no group. -/
theorem exists_firstDefect_iff (hopen : line.toList[start]? = some '(') :
    (∃ e, FirstDefect start (line.toList.drop (start + 1)) e) ↔
      ¬ ∃ stop ≤ line.length, ∃ form, IsGroup (line.toList.extract start stop) form := by
  constructor
  · rintro ⟨e, hdefect⟩ ⟨stop, hstop, form, hgroup⟩
    have herror := readGroup_eq_error_iff.mpr hdefect
    have hok := (readGroup_eq_ok_iff_extract hopen).mpr ⟨hstop, hgroup⟩
    cases herror.symm.trans hok
  · intro hnone
    cases hread : readGroup line start with
    | error e => exact ⟨e, readGroup_eq_error_iff.mp hread⟩
    | ok result =>
        obtain ⟨hstop, hgroup⟩ := (readGroup_eq_ok_iff_extract hopen).mp hread
        exact absurd ⟨result.2, hstop, result.1, hgroup⟩ hnone

/-- Only quotes, parentheses and the end of the line count for a group, not its digits. -/
theorem FirstDefect.ne_tooManyDigits {column : Nat} {chars : List Char} {e : ReadError}
    (h : FirstDefect column chars e) (count : Nat) : e ≠ .tooManyDigits count := by
  induction h with
  | inGroup _ _ ih => exact ih
  | _ => nofun

/-- Reading at an opening parenthesis recognises exactly the groups: the call and the index behind
the group are those for which the characters in between are a group, there is at most one such
index, and what stands behind it does not matter. If there is none, the error is the first defect,
and it is about quotes or parentheses. The line is read on behind the group. -/
theorem readGroup_eq_iff (hopen : line.toList[start]? = some '(') :
    (∀ form stop, readGroup line start = .ok (form, stop) ↔
      stop ≤ line.length ∧ IsGroup (line.toList.extract start stop) form) ∧
    (∀ form form' stop stop', stop ≤ line.length → stop' ≤ line.length →
      IsGroup (line.toList.extract start stop) form →
      IsGroup (line.toList.extract start stop') form' → form = form' ∧ stop = stop') ∧
    (∀ form stop (other : String), readGroup line start = .ok (form, stop) →
      other.toList.take stop = line.toList.take stop →
      readGroup other start = .ok (form, stop)) ∧
    (∀ e, readGroup line start = .error e ↔
      FirstDefect start (line.toList.drop (start + 1)) e) ∧
    ((∃ e, FirstDefect start (line.toList.drop (start + 1)) e) ↔
      ¬ ∃ stop ≤ line.length, ∃ form, IsGroup (line.toList.extract start stop) form) ∧
    (∀ count, readGroup line start ≠ .error (.tooManyDigits count)) ∧
    Reader.between.run start (line.toList.drop start) = (do
      let (form, stop) ← readGroup line start
      let following ← Reader.between.run stop (line.toList.drop stop)
      return .embedded form :: following) := by
  refine ⟨fun form stop => readGroup_eq_ok_iff_extract hopen, ?_,
    fun form stop other hread htake => readGroup_congr hopen hread htake,
    fun e => readGroup_eq_error_iff, exists_firstDefect_iff hopen, ?_, run_between_open hopen⟩
  · intro form form' stop stop' hstop hstop' hgroup hgroup'
    have hread := (readGroup_eq_ok_iff_extract hopen).mpr ⟨hstop, hgroup⟩
    have hread' := (readGroup_eq_ok_iff_extract hopen).mpr ⟨hstop', hgroup'⟩
    cases hread.symm.trans hread'
    exact ⟨rfl, rfl⟩
  · intro count hread
    exact (readGroup_eq_error_iff.mp hread).ne_tooManyDigits count rfl

/-- Parentheses between quotes belong to no group, and digits are a text. In the second line an
empty group is closed in front of two groups that stay open. -/
theorem readGroup_eq_iff_quoted_parentheses :
    let line := "a (f'(' (g \"h)\"0) )x\" ("
    let form : Term := .form "f" [.text "(", .form "g" [.text "h)", .text "0"]]
    line.toList[2]? = some '(' ∧ readGroup line 2 = .ok (form, 19) ∧
      IsGroup (line.toList.extract 2 19) form ∧
      "(f ()((".toList[0]? = some '(' ∧ readGroup "(f ()((" 0 = .error (.emptyGroup 3) ∧
      FirstDefect 0 ("(f ()((".toList.drop 1) (.emptyGroup 3) := by
  intro line form
  have hopen : "a (f'(' (g \"h)\"0) )x\" (".toList[2]? = some '(' := by rfl
  have hread : readGroup "a (f'(' (g \"h)\"0) )x\" (" 2 = .ok (form, 19) := by rfl
  have hopen' : "(f ()((".toList[0]? = some '(' := by rfl
  have hread' : readGroup "(f ()((" 0 = .error (.emptyGroup 3) := by rfl
  exact ⟨hopen, hread, (((readGroup_eq_iff hopen).1 form 19).mp hread).2, hopen', hread',
    ((readGroup_eq_iff hopen').2.2.2.1 (.emptyGroup 3)).mp hread'⟩

end ReadGroup

end ShellLowering.Line
