import ShellLowering.Line.Reader
import ShellLowering.Proofs.NumeralText
import ShellLowering.Proofs.Outcome

namespace ShellLowering

/-- A property of the characters of a text, checked one by one. -/
theorem Text.forall_mem_of_all {chars : List Char} {p : Char → Prop} [DecidablePred p]
    (h : (chars.all fun c => decide (p c)) = true) : ∀ c ∈ chars, p c := by
  simpa using h

/-- Every text begins with a longest run of characters that do not end it. -/
theorem Text.exists_run_until (ends : Char → Bool) (chars : List Char) :
    ∃ run rest, chars = run ++ rest ∧ (∀ c ∈ run, ends c = false) ∧
      ∀ c ∈ rest.head?, ends c = true := by
  induction chars with
  | nil => exact ⟨[], [], rfl, by simp, by simp⟩
  | cons c chars ih =>
      cases hc : ends c with
      | true => exact ⟨[], c :: chars, rfl, by simp, by simpa using hc⟩
      | false =>
          obtain ⟨run, rest, rfl, hrun, hrest⟩ := ih
          exact ⟨c :: run, rest, rfl, List.forall_mem_cons.mpr ⟨hc, hrun⟩, hrest⟩

namespace Line

open Text

/-- The text is read as the tokens if the line ends there or goes on with a stopping character. -/
def Reads (stops : Char → Bool) (text : List Char) (tokens : List Token) : Prop :=
  ∀ column rest, (∀ c ∈ rest.head?, stops c = true) →
    Reader.between.run column (text ++ rest) =
      (Reader.between.run (column + text.length) rest).map (tokens ++ ·)

/-- Whether a bare word does not go on with the character. -/
def endsWord (c : Char) : Bool :=
  isBlank c || (Reader.operatorChar? c).isSome

theorem endsWord_of_isBlank (c : Char) (h : isBlank c = true) : endsWord c = true := by
  simp [endsWord, h]

namespace Reader

theorem run_nil (reader : Reader) (column : Nat) : reader.run column [] = reader.finish := by
  simp [run, feed]

theorem run_step {reader next : Reader} {column : Nat} {c : Char}
    (h : reader.step column c = .ok ([], next)) (rest : List Char) :
    reader.run column (c :: rest) = next.run (column + 1) rest := by
  rw [run_cons, h, ok_bind]
  simp

theorem run_emit {reader next : Reader} {column : Nat} {c : Char} {token : Token}
    (h : reader.step column c = .ok ([token], next)) (rest : List Char) :
    reader.run column (c :: rest) = (next.run (column + 1) rest).map (token :: ·) := by
  rw [run_cons, h, ok_bind]
  change (next.run (column + 1) rest >>= fun following => .ok (token :: following)) = _
  cases next.run (column + 1) rest <;> rfl

theorem run_between (column : Nat) (c : Char) (rest : List Char) :
    between.run column (c :: rest) = (start column c).run (column + 1) rest :=
  run_step rfl rest

theorem run_between_blank {c : Char} (h : isBlank c = true) (column : Nat) (rest : List Char) :
    between.run column (c :: rest) = between.run (column + 1) rest := by
  rw [run_between, start, if_pos h]

theorem ne_of_endsWord {c : Char} (h : endsWord c = true) : c ≠ '\'' ∧ c ≠ '"' ∧ c ≠ '\\' := by
  refine ⟨?_, ?_, ?_⟩ <;> (rintro rfl; revert h; decide)

/-- A word ends where a blank or an operator follows, and there its token is complete. -/
theorem run_word {w : Word} {token : Token} (htoken : w.token = .ok token) (column : Nat)
    {rest : List Char} (hrest : ∀ c ∈ rest.head?, endsWord c = true) :
    (word w .bare).run column rest = (between.run column rest).map (token :: ·) := by
  cases rest with
  | nil => simp [run_nil, finish, htoken, pure_eq_ok, Except.map]
  | cons c rest =>
      have hends := hrest c rfl
      obtain ⟨hsingle, hdouble, hescape⟩ := ne_of_endsWord hends
      have hstep : (word w .bare).step column c = .ok ([token], start column c) := by
        unfold endsWord at hends
        simp [step, stepWord, hsingle, hdouble, hescape, hends, htoken, pure_eq_ok]
      rw [run_emit hstep, run_between]

theorem isBlank_of_mem_text (op : Operator) : ∀ c ∈ op.text.toList, isBlank c = false := by
  refine forall_mem_of_all ?_
  rcases op with op | ⟨op | op | _⟩ <;> first | (cases op <;> decide) | decide

theorem ofText?_push_blank (op : Operator) {c : Char} (h : isBlank c = true) :
    Operator.ofText? (op.text.push c) = none := by
  rw [Option.eq_none_iff_forall_ne_some]
  intro longer hlonger
  have htext := Operator.ofText?_eq_some_iff.mp hlonger
  have hmem : c ∈ longer.text.toList := by simp [← htext, String.toList_push]
  simp [isBlank_of_mem_text longer c hmem] at h

/-- An operator ends where no character makes a longer one of it. -/
theorem run_operator_of_ends (op : Operator) (column : Nat) {rest : List Char}
    (hrest : ∀ c ∈ rest.head?, Operator.ofText? (op.text.push c) = none) :
    (operator op).run column rest = (between.run column rest).map (.operator op :: ·) := by
  cases rest with
  | nil => rfl
  | cons c rest =>
      have hends := hrest c rfl
      have hstep : (operator op).step column c = .ok ([.operator op], start column c) := by
        simp [step, hends]
      rw [run_emit hstep, run_between]

theorem run_operator (op : Operator) (column : Nat) {rest : List Char}
    (hrest : ∀ c ∈ rest.head?, isBlank c = true) :
    (operator op).run column rest = (between.run column rest).map (.operator op :: ·) :=
  run_operator_of_ends op column fun c hc => ofText?_push_blank op (hrest c hc)

/-- Every operator is reached through its parts from the start on. -/
theorem run_operatorText (op : Operator) (column : Nat) (rest : List Char) :
    between.run column (op.text.toList ++ rest) =
      (operator op).run (column + op.text.toList.length) rest := by
  match op with
  | .redirect .output => exact run_step rfl _
  | .redirect .input => exact run_step rfl _
  | .redirect .append => exact (run_step rfl _).trans (run_step rfl _)
  | .redirect .outputBoth => exact (run_step rfl _).trans (run_step rfl _)
  | .redirect .appendBoth =>
      exact ((run_step rfl _).trans (run_step rfl _)).trans (run_step rfl _)
  | .redirect .readWrite => exact (run_step rfl _).trans (run_step rfl _)
  | .redirect .duplicate => exact (run_step rfl _).trans (run_step rfl _)
  | .connect (.pipe .pipe) => exact run_step rfl _
  | .connect (.pipe .multi) => exact (run_step rfl _).trans (run_step rfl _)
  | .connect (.pipe .filter) => exact (run_step rfl _).trans (run_step rfl _)
  | .connect (.pipe .reduce) => exact (run_step rfl _).trans (run_step rfl _)
  | .connect (.clause .and) => exact (run_step rfl _).trans (run_step rfl _)
  | .connect (.clause .or) => exact (run_step rfl _).trans (run_step rfl _)
  | .connect .background => exact run_step rfl _

/-- Characters that are each written in some way and taken up one by one are taken up together. -/
theorem run_flatMap {state : List Char → Reader} {write : Char → List Char} (chars : List Char)
    (h : ∀ c ∈ chars, ∀ done column rest, (state done).run column (write c ++ rest) =
      (state (done ++ [c])).run (column + (write c).length) rest)
    (done : List Char) (column : Nat) (rest : List Char) :
    (state done).run column (chars.flatMap write ++ rest) =
      (state (done ++ chars)).run (column + (chars.flatMap write).length) rest := by
  induction chars generalizing done column with
  | nil => simp
  | cons c chars ih =>
      obtain ⟨hc, hchars⟩ := List.forall_mem_cons.mp h
      rw [List.flatMap_cons, List.append_assoc, hc, ih hchars, List.append_assoc,
        List.length_append, Nat.add_assoc]
      rfl

end Reader

namespace Word

def ofChars (chars : List Char) (quoted bare : Bool) : Word :=
  ⟨String.ofList chars, quoted, bare⟩

theorem pushBare_ofChars (chars : List Char) (quoted bare : Bool) (c : Char) :
    (ofChars chars quoted bare).pushBare c = ofChars (chars ++ [c]) quoted true := by
  simp [ofChars, pushBare]

theorem pushQuoted_ofChars (chars : List Char) (quoted bare : Bool) (c : Char) :
    (ofChars chars quoted bare).pushQuoted c = ofChars (chars ++ [c]) true bare := by
  simp [ofChars, pushQuoted]

theorem pushBare_empty (c : Char) : empty.pushBare c = ofChars [c] false true :=
  pushBare_ofChars [] false false c

theorem token_bare (text : String) :
    (ofChars text.toList false true).token = unquotedToken text := by
  simp [ofChars, Word.token]

theorem token_quoted (text : String) :
    (ofChars text.toList true false).token = .ok (.string text) := by
  simp [ofChars, Word.token]

end Word

/-- A character that stands for itself in a word without quotes. -/
def isBareChar (c : Char) : Bool :=
  !endsWord c && c != '\'' && c != '"' && c != '\\'

theorem isBareChar_of_isDigit {c : Char} (h : c.isDigit = true) : isBareChar c = true := by
  obtain ⟨d, hd, rfl⟩ := exists_digitChar h
  revert d
  decide

def escaped (c : Char) : List Char :=
  ['\\', c]

/-- Between double quotes only the mark itself and a backslash need an escape. -/
def doubleQuotedChar (c : Char) : List Char :=
  if c = '"' ∨ c = '\\' then escaped c else [c]

namespace Reader

open Word

theorem run_bareChar {c : Char} (h : isBareChar c = true) (done : List Char) (column : Nat)
    (rest : List Char) :
    (word (ofChars done false true) .bare).run column ([c] ++ rest) =
      (word (ofChars (done ++ [c]) false true) .bare).run (column + 1) rest := by
  refine run_step ?_ rest
  simp only [isBareChar, endsWord, Bool.and_eq_true, Bool.not_eq_true', bne_iff_ne, ne_eq] at h
  obtain ⟨⟨⟨hends, hsingle⟩, hdouble⟩, hescape⟩ := h
  simp [step, stepWord, hsingle, hdouble, hescape, hends, pushBare_ofChars]

theorem run_escaped (c : Char) (done : List Char) (column : Nat) (rest : List Char) :
    (word (ofChars done false true) .bare).run column (escaped c ++ rest) =
      (word (ofChars (done ++ [c]) false true) .bare).run (column + 2) rest := by
  refine (run_step rfl (c :: rest)).trans (run_step ?_ rest)
  simp [step, stepWord, pushBare_ofChars]

theorem run_doubleQuotedChar (c : Char) (done : List Char) (column : Nat) (rest : List Char) :
    (word (ofChars done true false) .double).run column (doubleQuotedChar c ++ rest) =
      (word (ofChars (done ++ [c]) true false) .double).run
        (column + (doubleQuotedChar c).length) rest := by
  unfold doubleQuotedChar
  split
  · refine (run_step rfl (c :: rest)).trans (run_step ?_ rest)
    simp [step, stepWord, pushQuoted_ofChars]
  · next hplain =>
      obtain ⟨hdouble, hescape⟩ := not_or.mp hplain
      refine run_step ?_ rest
      simp [step, stepWord, hdouble, hescape, pushQuoted_ofChars]

theorem run_singleQuotedChar {c : Char} (h : c ≠ '\'') (done : List Char) (column : Nat)
    (rest : List Char) :
    (word (ofChars done true false) .single).run column ([c] ++ rest) =
      (word (ofChars (done ++ [c]) true false) .single).run (column + 1) rest := by
  refine run_step ?_ rest
  simp [step, stepWord, h, pushQuoted_ofChars]

end Reader

theorem reads_operator (op : Operator) : Reads isBlank op.text.toList [.operator op] := by
  intro column rest hrest
  rw [Reader.run_operatorText, Reader.run_operator op _ hrest]
  rfl

theorem reads_bare {text : String} {token : Token} (hne : text ≠ "")
    (hchars : ∀ c ∈ text.toList, isBareChar c = true) (hhead : text.toList.head? ≠ some '(')
    (htoken : Word.unquotedToken text = .ok token) : Reads endsWord text.toList [token] := by
  intro column rest hrest
  rw [← Word.token_bare] at htoken
  cases htext : text.toList with
  | nil => exact absurd (String.toList_eq_nil_iff.mp htext) hne
  | cons c chars =>
      rw [htext] at hchars hhead htoken
      obtain ⟨hc, hchars⟩ := List.forall_mem_cons.mp hchars
      have hstart : Reader.start column c = .word (.ofChars [c] false true) .bare := by
        simp only [isBareChar, endsWord, Bool.and_eq_true, Bool.not_eq_true', Bool.or_eq_false_iff,
          bne_iff_ne, ne_eq, Option.isSome_eq_false_iff, Option.isNone_iff_eq_none] at hc
        obtain ⟨⟨⟨⟨hblank, hoperator⟩, hsingle⟩, hdouble⟩, hescape⟩ := hc
        have hparen : c ≠ '(' := by simpa using hhead
        simp [Reader.start, hblank, hoperator, hsingle, hdouble, hescape, hparen,
          Word.pushBare_empty]
      have hwhole := Reader.run_flatMap chars (fun c hc => Reader.run_bareChar (hchars c hc))
        [c] (column + 1) rest
      rw [List.flatMap_singleton'] at hwhole
      rw [List.cons_append, Reader.run_between, hstart, hwhole]
      rw [List.singleton_append, Reader.run_word htoken _ hrest, List.length_cons,
        Nat.add_right_comm, Nat.add_assoc]
      rfl

theorem reads_number {n : Nat} (h : (toString n).length ≤ digitLimit) :
    Reads endsWord (toString n).toList [.number (.int n)] := by
  obtain ⟨hne, hdigits⟩ := isDigitText_iff.mp (isDigitText_toString n)
  refine reads_bare ?_ (fun c hc => isBareChar_of_isDigit (hdigits c hc)) ?_
    (Word.unquotedToken_toString h)
  · intro hempty
    exact hne (String.toList_eq_nil_iff.mpr hempty)
  · intro hhead
    have hdigit := hdigits '(' (List.mem_of_mem_head? hhead)
    revert hdigit
    decide

theorem reads_escaped {text : String} {token : Token} (hne : text ≠ "")
    (htoken : Word.unquotedToken text = .ok token) :
    Reads endsWord (text.toList.flatMap escaped) [token] := by
  intro column rest hrest
  rw [← Word.token_bare] at htoken
  cases htext : text.toList with
  | nil => exact absurd (String.toList_eq_nil_iff.mp htext) hne
  | cons c chars =>
      rw [htext] at htoken
      have hstart : Reader.between.run column (escaped c ++ (chars.flatMap escaped ++ rest)) =
          (Reader.word (.ofChars [c] false true) .bare).run (column + 2)
            (chars.flatMap escaped ++ rest) :=
        (Reader.run_step rfl _).trans (Reader.run_step rfl _)
      have hwhole := Reader.run_flatMap chars (fun c _ => Reader.run_escaped c) [c]
        (column + 2) rest
      rw [List.flatMap_cons, List.append_assoc, hstart, hwhole, List.singleton_append,
        Reader.run_word htoken _ hrest, List.length_append, Nat.add_assoc]
      rfl

/-- A mark that closes a quoted text completes the string, if nothing else belongs to the word. -/
theorem run_closingMark {quoting : Quoting} {mark : Char} {text : String}
    (hclose : ∀ column, (Reader.word (.ofChars text.toList true false) quoting).step column mark =
      .ok ([], .word (.ofChars text.toList true false) .bare))
    (column : Nat) {rest : List Char} (hrest : ∀ c ∈ rest.head?, endsWord c = true) :
    (Reader.word (.ofChars text.toList true false) quoting).run column (mark :: rest) =
      (Reader.between.run (column + 1) rest).map (.string text :: ·) := by
  rw [Reader.run_step (hclose column), Reader.run_word (Word.token_quoted text) _ hrest]

theorem reads_doubleQuoted (text : String) :
    Reads endsWord ('"' :: text.toList.flatMap doubleQuotedChar ++ ['"']) [.string text] := by
  intro column rest hrest
  have hopen : ∀ chars, Reader.between.run column ('"' :: chars) =
      (Reader.word (.ofChars [] true false) .double).run (column + 1) chars :=
    Reader.run_step rfl
  have hwhole := Reader.run_flatMap text.toList (fun c _ => Reader.run_doubleQuotedChar c) []
    (column + 1) ('"' :: rest)
  have hcolumn : column + 1 + (text.toList.flatMap doubleQuotedChar).length + 1 =
      column + ('"' :: text.toList.flatMap doubleQuotedChar ++ ['"']).length := by
    simp only [List.cons_append, List.length_cons, List.length_append, List.length_nil]
    omega
  rw [List.cons_append, List.cons_append, List.append_assoc, hopen, List.singleton_append, hwhole,
    List.nil_append, run_closingMark (fun _ => rfl) _ hrest, hcolumn]
  rfl

theorem reads_singleQuoted {text : String} (h : '\'' ∉ text.toList) :
    Reads endsWord ('\'' :: text.toList ++ ['\'']) [.string text] := by
  intro column rest hrest
  have hopen : ∀ chars, Reader.between.run column ('\'' :: chars) =
      (Reader.word (.ofChars [] true false) .single).run (column + 1) chars :=
    Reader.run_step rfl
  have hchars : ∀ c ∈ text.toList, c ≠ '\'' := fun c hc heq => h (heq ▸ hc)
  have hwhole := Reader.run_flatMap text.toList
    (fun c hc => Reader.run_singleQuotedChar (hchars c hc)) [] (column + 1) ('\'' :: rest)
  have hcolumn : column + 1 + text.toList.length + 1 =
      column + ('\'' :: text.toList ++ ['\'']).length := by
    simp only [List.cons_append, List.length_cons, List.length_append, List.length_nil]
    omega
  rw [List.flatMap_singleton'] at hwhole
  rw [List.cons_append, List.cons_append, List.append_assoc, hopen, List.singleton_append, hwhole,
    List.nil_append, run_closingMark (fun _ => rfl) _ hrest, hcolumn]
  rfl

namespace Reads

variable {stops weaker : Char → Bool} {text before : List Char} {tokens following : List Token}

theorem mono (h : Reads stops text tokens) (hstops : ∀ c, weaker c = true → stops c = true) :
    Reads weaker text tokens :=
  fun column rest hrest => h column rest fun c hc => hstops c (hrest c hc)

theorem nil : Reads stops [] [] := by
  intro column rest _
  change Reader.between.run column rest = (Reader.between.run column rest).map id
  cases Reader.between.run column rest <;> rfl

theorem eq_nil (h : Reads stops [] tokens) : tokens = [] := by
  have hempty := h 0 [] (by simp)
  change Except.ok [] = Except.ok (tokens ++ []) at hempty
  simpa using hempty

theorem append (hbefore : Reads stops before tokens) (htext : Reads weaker text following)
    (hhead : ∃ c ∈ text.head?, stops c = true) :
    Reads weaker (before ++ text) (tokens ++ following) := by
  intro column rest hrest
  obtain ⟨c, hc, hstops⟩ := hhead
  have hafter : ∀ d ∈ (text ++ rest).head?, stops d = true := by
    intro d hd
    rw [List.head?_append, hc] at hd
    cases hd
    exact hstops
  rw [List.append_assoc, hbefore column _ hafter, htext _ rest hrest, List.length_append,
    Nat.add_assoc]
  cases Reader.between.run (column + (before.length + text.length)) rest with
  | error e => rfl
  | ok last => simp [Except.map]

theorem blank_cons {c : Char} (hc : isBlank c = true) (h : Reads stops text tokens) :
    Reads stops (c :: text) tokens := by
  intro column rest hrest
  rw [List.cons_append, Reader.run_between_blank hc, h _ rest hrest, List.length_cons,
    Nat.add_assoc, Nat.add_comm 1]

theorem run (h : Reads stops text tokens) (column : Nat) :
    Reader.between.run column text = .ok tokens := by
  have hend := h column [] (by simp)
  rw [List.append_nil] at hend
  simpa [Reader.run_nil, Reader.finish, Except.map] using hend

end Reads

theorem read_of_reads {stops : Char → Bool} {text : List Char} {tokens : List Token}
    (h : Reads stops text tokens) : read (String.ofList text) = .ok tokens := by
  rw [read, String.toList_ofList]
  exact h.run 0

/-- Pieces of a line, of which each is read as its tokens up to the next blank. -/
inductive ReadsAll : List (List Char) → List Token → Prop
  | nil : ReadsAll [] []
  | cons {piece : List Char} {pieces : List (List Char)} {tokens following : List Token}
      (hpiece : Reads isBlank piece tokens) (hpieces : ReadsAll pieces following) :
      ReadsAll (piece :: pieces) (tokens ++ following)

namespace ReadsAll

theorem single {piece : List Char} {tokens : List Token} (h : Reads isBlank piece tokens) :
    ReadsAll [piece] tokens := by
  simpa using cons h nil

theorem append {before pieces : List (List Char)} {tokens following : List Token}
    (hbefore : ReadsAll before tokens) (hpieces : ReadsAll pieces following) :
    ReadsAll (before ++ pieces) (tokens ++ following) := by
  induction hbefore with
  | nil => exact hpieces
  | cons hpiece _ ih =>
      rw [List.append_assoc]
      exact cons hpiece ih

theorem flatMap {α : Type} {pieces : α → List (List Char)} {tokens : α → List Token}
    {items : List α} (h : ∀ item ∈ items, ReadsAll (pieces item) (tokens item)) :
    ReadsAll (items.flatMap pieces) (items.flatMap tokens) := by
  induction items with
  | nil => exact nil
  | cons item items ih =>
      obtain ⟨hitem, hitems⟩ := List.forall_mem_cons.mp h
      rw [List.flatMap_cons, List.flatMap_cons]
      exact hitem.append (ih hitems)

theorem map {α : Type} {piece : α → List Char} {tokens : α → List Token} {items : List α}
    (h : ∀ item ∈ items, Reads isBlank (piece item) (tokens item)) :
    ReadsAll (items.map piece) (items.flatMap tokens) := by
  rw [List.map_eq_flatMap]
  exact flatMap fun item hitem => single (h item hitem)

theorem of_forall₂ {α : Type} {tokens : α → List Token} {items : List α} {texts : List String}
    (h : List.Forall₂ (fun item text => Reads isBlank text.toList (tokens item)) items texts) :
    ReadsAll (texts.map String.toList) (items.flatMap tokens) := by
  induction h with
  | nil => exact nil
  | cons hitem _ ih => exact cons hitem ih

/-- Pieces that are set apart by blanks are read one after another. -/
theorem reads_intercalate {pieces : List (List Char)} {tokens : List Token}
    (h : ReadsAll pieces tokens) : Reads isBlank ([' '].intercalate pieces) tokens := by
  have hblank : isBlank ' ' = true := by decide
  induction h with
  | nil => exact Reads.nil
  | @cons piece pieces tokens following hpiece hpieces ih =>
      cases pieces with
      | nil =>
          have hnone : following = [] := ih.eq_nil
          rw [List.intercalate_singleton, hnone, List.append_nil]
          exact hpiece
      | cons next pieces =>
          rw [List.intercalate_cons_cons, List.append_assoc]
          exact hpiece.append (ih.blank_cons hblank) ⟨' ', rfl, hblank⟩

end ReadsAll
end Line
end ShellLowering
