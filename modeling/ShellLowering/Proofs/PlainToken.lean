import ShellLowering.Proofs.GroupReading
import ShellLowering.Tree.Outline

namespace ShellLowering

namespace Line

/-- A text that can stand in a group without quotes. -/
def IsPlainText (s : String) : Prop :=
  s ≠ "" ∧ ∀ c ∈ s.toList, Text.isBlank c = false ∧ c ∉ ['(', ')', '"', '\'']

end Line

/-- A token that can be shown without an escape: a symbol made of characters that need no quotes, a
string of printable characters with one kind of quote mark at most, a natural number, or a call of
texts that need no quotes. -/
def Token.IsPlain : Token → Prop
  | .operator _ => True
  | .symbol name => name ≠ "" ∧ Line.Word.IsSymbolText name ∧ name.toList.head? ≠ some '(' ∧
    ∀ c ∈ name.toList, Text.isBlank c = false ∧ c ∉ ['\'', '"', '\\', '|', '&', '<', '>']
  | .string value => Line.IsQuotable value ∧
    ∀ c ∈ value.toList, Text.isPrintable c = true ∧ c ≠ '\\'
  | .number value => ∃ n : Nat, value = .int n ∧ (toString n).length ≤ digitLimit
  | .embedded term => term.IsCall Line.IsPlainText

namespace Text

theorem quoteMark_cases (s : List Char) : quoteMark s = '"' ∨ quoteMark s = '\'' := by
  unfold quoteMark
  split
  · exact .inl rfl
  · exact .inr rfl

theorem quoteMark_not_mem {s : String} (h : Line.IsQuotable s) : quoteMark s.toList ∉ s.toList := by
  unfold quoteMark
  split
  · next hmarks => exact hmarks.2
  · next hmarks =>
      intro hsingle
      rcases h with h | h
      · exact hmarks ⟨hsingle, h⟩
      · exact h hsingle

theorem quotedChar_eq_singleton {mark c : Char} (hmark : c ≠ mark) (hescape : c ≠ '\\')
    (hprint : isPrintable c = true) : quotedChar mark c = [c] := by
  have hcontrol : c ≠ '\n' ∧ c ≠ '\r' ∧ c ≠ '\t' := by
    refine ⟨?_, ?_, ?_⟩ <;> (rintro rfl; revert hprint; decide)
  obtain ⟨hline, hreturn, htab⟩ := hcontrol
  simp [quotedChar, hmark, hescape, hline, hreturn, htab, hprint]

theorem toList_quoted_of_isPrintable {s : String} (hmark : quoteMark s.toList ∉ s.toList)
    (hchars : ∀ c ∈ s.toList, isPrintable c = true ∧ c ≠ '\\') :
    (quoted s).toList = quoteMark s.toList :: s.toList ++ [quoteMark s.toList] := by
  rw [quoted, String.toList_ofList]
  refine quotedList_of_plain fun c hc => ?_
  obtain ⟨hprint, hescape⟩ := hchars c hc
  exact quotedChar_eq_singleton (fun heq => hmark (heq ▸ hc)) hescape hprint

end Text

namespace Text

/-- The text stands on one line. -/
def IsUnbroken (chars : List Char) : Prop :=
  ∀ c ∈ chars, c ≠ '\n'

instance (chars : List Char) : Decidable (IsUnbroken chars) :=
  List.decidableBAll (· ≠ '\n') chars

theorem ne_newline_of_isBlank {c : Char} (h : isBlank c = false) : c ≠ '\n' := by
  rintro rfl
  revert h
  decide

theorem isUnbroken_append {before after : List Char} (hbefore : IsUnbroken before)
    (hafter : IsUnbroken after) : IsUnbroken (before ++ after) :=
  List.forall_mem_append.mpr ⟨hbefore, hafter⟩

theorem isUnbroken_toString (n : Nat) : IsUnbroken (toString n).toList := by
  obtain ⟨_, hdigits⟩ := isDigitText_iff.mp (isDigitText_toString n)
  rintro c hc rfl
  have hdigit := hdigits _ hc
  revert hdigit
  decide

end Text

theorem forall_mem_intercalate {p : Char → Prop} {separator : List Char} {pieces : List (List Char)}
    (hseparator : ∀ c ∈ separator, p c) (hpieces : ∀ piece ∈ pieces, ∀ c ∈ piece, p c) :
    ∀ c ∈ separator.intercalate pieces, p c := by
  induction pieces with
  | nil => simp
  | cons piece pieces ih =>
      obtain ⟨hpiece, hrest⟩ := List.forall_mem_cons.mp hpieces
      cases pieces with
      | nil => simpa using hpiece
      | cons next pieces =>
          rw [List.intercalate_cons_cons]
          exact List.forall_mem_append.mpr
            ⟨List.forall_mem_append.mpr ⟨hpiece, hseparator⟩, ih hrest⟩

namespace Term

/-- A call is displayed with its texts as they are. -/
theorem exists_display? {isText : String → Prop} {term : Term} (h : term.InGroup isText) :
    ∃ text, term.display? = some text ∧ text.toList = term.groupText String.toList := by
  induction h with
  | @text value hvalue => exact ⟨value, rfl, rfl⟩
  | @form head args hhead hargs ih =>
      obtain ⟨texts, htexts, hshown⟩ := exists_mapM_eq_some ih
      have hmap : texts.map String.toList = args.map (groupText String.toList) := by
        clear htexts hargs ih
        induction hshown with
        | nil => rfl
        | cons htext _ ih => rw [List.map_cons, List.map_cons, htext, ih]
      refine ⟨_, by rw [display?, displays?_eq_mapM, htexts, Option.map_some], ?_⟩
      rw [groupText_form]
      simp [String.toList_intercalate, hmap, groupText]

theorem forall_mem_groupText {isText : String → Prop} {write : String → List Char} {p : Char → Prop}
    (hopen : p '(') (hclose : p ')') (hblank : p ' ')
    (hwrite : ∀ text, isText text → ∀ c ∈ write text, p c) {term : Term}
    (h : term.InGroup isText) : ∀ c ∈ term.groupText write, p c := by
  induction h with
  | text hvalue => exact hwrite _ hvalue
  | @form head args hhead hargs ih =>
      have hitems : ∀ item ∈ (Term.text head :: args).map (groupText write), ∀ c ∈ item, p c := by
        rw [List.forall_mem_map]
        exact List.forall_mem_cons.mpr ⟨hwrite head hhead, ih⟩
      rw [groupText_form]
      simp only [List.cons_append, List.forall_mem_cons, List.forall_mem_append]
      exact ⟨hopen, forall_mem_intercalate (by simpa using hblank) hitems, hclose, by simp⟩

end Term

namespace Line

theorem exists_head?_text (op : Operator) :
    ∃ c ∈ ['|', '&', '<', '>'], op.text.toList.head? = some c := by
  rcases op with op | ⟨op | op | _⟩ <;> try cases op
  all_goals exact ⟨_, by decide, rfl⟩

theorem exists_head?_text_endsWord (op : Operator) :
    ∃ c ∈ op.text.toList.head?, endsWord c = true := by
  have hends : ∀ c ∈ ['|', '&', '<', '>'], endsWord c = true :=
    Text.forall_mem_of_all (by decide)
  obtain ⟨c, hc, hhead⟩ := exists_head?_text op
  exact ⟨c, hhead, hends c hc⟩

theorem isUnbroken_operator (op : Operator) : Text.IsUnbroken op.text.toList :=
  fun c hc => Text.ne_newline_of_isBlank (Reader.isBlank_of_mem_text op c hc)

theorem Reader.mem_of_operatorChar? {c : Char} {op : Operator} (h : operatorChar? c = some op) :
    c ∈ ['|', '&', '<', '>'] := by
  have htext := Operator.ofText?_eq_some_iff.mp h
  obtain ⟨d, hd, hhead⟩ := exists_head?_text op
  rw [← htext, String.toList_singleton, List.head?_cons, Option.some.injEq] at hhead
  rwa [hhead]

theorem isBareChar_of_isPlain {c : Char} (hblank : Text.isBlank c = false)
    (hmem : c ∉ ['\'', '"', '\\', '|', '&', '<', '>']) : isBareChar c = true := by
  have hoperator : Reader.operatorChar? c = none := by
    rw [Option.eq_none_iff_forall_ne_some]
    intro op hop
    have hlist := Reader.mem_of_operatorChar? hop
    simp_all
  simp_all [isBareChar, endsWord]

theorem doubleQuotedChar_of_ne {c : Char} (hmark : c ≠ '"') (hescape : c ≠ '\\') :
    doubleQuotedChar c = [c] := by
  simp [doubleQuotedChar, hmark, hescape]

/-- A string between marks that it does not hold is read back. -/
theorem reads_marked {mark : Char} (hcases : mark = '"' ∨ mark = '\'') {value : String}
    (hmark : mark ∉ value.toList) (hescape : ∀ c ∈ value.toList, c ≠ '\\') :
    Reads endsWord (mark :: value.toList ++ [mark]) [.string value] := by
  rcases hcases with rfl | rfl
  · have hplain : value.toList.flatMap doubleQuotedChar = value.toList.flatMap fun c => [c] := by
      refine List.flatMap_congr fun c hc => ?_
      exact doubleQuotedChar_of_ne (fun heq => hmark (heq ▸ hc)) (hescape c hc)
    rw [List.flatMap_singleton'] at hplain
    rw [← hplain]
    exact reads_doubleQuoted value
  · exact reads_singleQuoted hmark

end Line

namespace Token

open Line

theorem reads_symbol_of_isPlain {name : String} (h : (symbol name).IsPlain) :
    Reads Text.isBlank name.toList [.symbol name] := by
  obtain ⟨hne, hsymbol, hhead, hchars⟩ := h
  have hbare : ∀ c ∈ name.toList, isBareChar c = true := fun c hc =>
    isBareChar_of_isPlain (hchars c hc).1 (hchars c hc).2
  exact (reads_bare hne hbare hhead (Word.unquotedToken_of_isSymbolText hsymbol)).mono
    endsWord_of_isBlank

theorem reads_quoted_of_isPlain {value : String} (h : (string value).IsPlain) :
    Reads Text.isBlank (Text.quoted value).toList [.string value] ∧
      Text.IsUnbroken (Text.quoted value).toList := by
  obtain ⟨hquotable, hchars⟩ := h
  have hmark := Text.quoteMark_not_mem hquotable
  have hcases := Text.quoteMark_cases value.toList
  have hline : Text.quoteMark value.toList ≠ '\n' := by
    rcases hcases with hcase | hcase <;> rw [hcase] <;> decide
  have hvalue : Text.IsUnbroken value.toList := by
    rintro c hc rfl
    have hprint := (hchars _ hc).1
    revert hprint
    decide
  rw [Text.toList_quoted_of_isPrintable hmark hchars]
  refine ⟨(reads_marked hcases hmark fun c hc => (hchars c hc).2).mono endsWord_of_isBlank, ?_⟩
  simp only [Text.IsUnbroken, List.cons_append, List.forall_mem_cons, List.forall_mem_append]
  exact ⟨hline, hvalue, hline, by simp⟩

theorem reads_groupText_of_isPlain {term : Term} (h : (embedded term).IsPlain) :
    Reads Text.isBlank (term.groupText String.toList) [.embedded term] ∧
      Text.IsUnbroken (term.groupText String.toList) := by
  have hread : ∀ text, IsPlainText text → GroupReader.ReadsItem text.toList (.text text) := by
    rintro text ⟨hne, hchars⟩
    refine GroupReader.readsItem_bare hne fun c hc => ?_
    have hplain := hchars c hc
    simp_all [GroupReader.isDelimiter]
  refine ⟨(reads_groupText hread h).mono fun _ _ => rfl, ?_⟩
  refine Term.forall_mem_groupText (by decide) (by decide) (by decide) ?_ h.1
  exact fun text htext c hc => Text.ne_newline_of_isBlank (htext.2 c hc).1

/-- A plain token has a text in a printout, which stands on one line and is read back. -/
theorem exists_tokenOutline? {token : Token} (h : token.IsPlain) :
    ∃ text, Item.tokenOutline? token = some text ∧ Reads Text.isBlank text.toList [token] ∧
      Text.IsUnbroken text.toList := by
  cases token with
  | operator op => exact ⟨op.text, rfl, reads_operator op, isUnbroken_operator op⟩
  | symbol name =>
      exact ⟨name, rfl, reads_symbol_of_isPlain h,
        fun c hc => Text.ne_newline_of_isBlank (h.2.2.2 c hc).1⟩
  | string value => exact ⟨Text.quoted value, rfl, reads_quoted_of_isPlain h⟩
  | number value =>
      obtain ⟨n, rfl, hlength⟩ := h
      exact ⟨toString n, Number.integerText?_natCast hlength,
        (reads_number hlength).mono endsWord_of_isBlank, Text.isUnbroken_toString n⟩
  | embedded term =>
      obtain ⟨text, htext, hgroup⟩ := Term.exists_display? h.1
      exact ⟨text, htext, hgroup ▸ reads_groupText_of_isPlain h⟩

end Token

theorem Item.outline?_redirect {target : Token} {fd : Option Int} {number shown : String}
    (hnumber : fd.elim (some "") Number.integerText? = some number)
    (htarget : tokenOutline? target = some shown) (op : Option String) :
    (redirect ⟨op, target, fd⟩).outline? =
      some (number ++ op.getD Text.absentWord ++ " " ++ shown) := by
  simp [outline?, hnumber, htarget]

end ShellLowering
