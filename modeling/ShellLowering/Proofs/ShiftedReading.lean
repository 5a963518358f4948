import ShellLowering.Proofs.PieceReading

namespace ShellLowering.Line

section Shift

variable {α β γ δ : Type} (offset : Nat)

/-- A result with its errors so many columns on, and its value changed along. -/
def shiftResult (f : α → β) (result : Except ReadError α) : Except ReadError β :=
  (result.map f).mapError (ReadError.shift offset)

theorem shiftResult_bind {f : α → β} {g : γ → δ} (result : Except ReadError α)
    {next : α → Except ReadError γ} {next' : β → Except ReadError δ}
    (h : ∀ a, next' (f a) = shiftResult offset g (next a)) :
    shiftResult offset f result >>= next' = shiftResult offset g (result >>= next) := by
  cases result with
  | error e => rfl
  | ok a => exact h a

theorem ReadError.shift_shift (first second : Nat) (e : ReadError) :
    (e.shift second).shift first = e.shift (first + second) := by
  cases e <;> simp [shift, Nat.add_assoc]

theorem shiftResult_shiftResult (first second : Nat) (f : β → γ) (g : α → β)
    (result : Except ReadError α) :
    shiftResult first f (shiftResult second g result) =
      shiftResult (first + second) (f ∘ g) result := by
  cases result with
  | error e => exact congrArg Except.error (e.shift_shift first second)
  | ok a => rfl

def OpenGroup.shift (group : OpenGroup) : OpenGroup :=
  { group with column := offset + group.column }

def GroupReader.shift (reader : GroupReader) : GroupReader :=
  ⟨reader.part, reader.innermost.shift offset, reader.around.map (OpenGroup.shift offset)⟩

def GroupReader.Progress.shift : GroupReader.Progress → GroupReader.Progress
  | .reading reader => .reading (reader.shift offset)
  | .closed form => .closed form

/-- Only open groups know the column where they begin. -/
def Reader.shift : Reader → Reader
  | .group g => .group (g.shift offset)
  | reader => reader

theorem OpenGroup.form_shift (group : OpenGroup) :
    (group.shift offset).form = shiftResult offset id group.form := by
  unfold form shift
  split <;> simp_all [shiftResult, Except.map, Except.mapError, ReadError.shift]

namespace GroupReader

theorem delimit_shift (reader : GroupReader) (column : Nat) (c : Char) :
    (reader.shift offset).delimit (offset + column) c =
      shiftResult offset (Progress.shift offset) (reader.delimit column c) := by
  obtain ⟨part, innermost, around⟩ := reader
  unfold delimit
  split
  · rfl
  · split
    · change (innermost.shift offset).form >>= _ = _
      rw [OpenGroup.form_shift]
      refine shiftResult_bind offset _ fun form => ?_
      cases around <;> rfl
    · split <;> rfl

theorem step_shift (reader : GroupReader) (column : Nat) (c : Char) :
    (reader.shift offset).step (offset + column) c =
      shiftResult offset (Progress.shift offset) (reader.step column c) := by
  obtain ⟨part, innermost, around⟩ := reader
  cases part with
  | gap =>
      change (if isDelimiter c then _ else _) = shiftResult _ _ (if isDelimiter c then _ else _)
      split
      · exact delimit_shift offset ⟨.gap, innermost, around⟩ column c
      · rfl
  | bare text =>
      change (if isDelimiter c then _ else _) = shiftResult _ _ (if isDelimiter c then _ else _)
      split
      · exact delimit_shift offset (push ⟨.bare text, innermost, around⟩ (.text text)) column c
      · rfl
  | quoted mark text =>
      change (if c = mark then _ else _) = shiftResult _ _ (if c = mark then _ else _)
      split <;> rfl

theorem unfinished_shift (reader : GroupReader) :
    (reader.shift offset).unfinished = reader.unfinished.shift offset := by
  obtain ⟨part, innermost, around⟩ := reader
  cases part <;> rfl

end GroupReader

/-- The errors of a word have no column. -/
theorem Word.token_shift (word : Word) : word.token = shiftResult offset id word.token := by
  have hunquoted : ∀ text, unquotedToken text = shiftResult offset id (unquotedToken text) := by
    intro text
    unfold unquotedToken
    split
    · split
      · rfl
      · split <;> rfl
    · rfl
  unfold token
  split
  · rfl
  · exact hunquoted word.text

theorem Word.token_bind_shift (word : Word) {f : α → β} {next : Token → Except ReadError α}
    {next' : Token → Except ReadError β}
    (h : ∀ token, next' token = shiftResult offset f (next token)) :
    word.token >>= next' = shiftResult offset f (word.token >>= next) :=
  (congrArg (· >>= next') (word.token_shift offset)).trans (shiftResult_bind offset word.token h)

namespace Reader

theorem start_shift (column : Nat) (c : Char) :
    start (offset + column) c = (start column c).shift offset := by
  unfold start
  repeat' split
  all_goals rfl

/-- The tokens of a step stay as they are. -/
def shiftStep (step : List Token × Reader) : List Token × Reader :=
  (step.1, step.2.shift offset)

theorem stepWord_shift (column : Nat) (word : Word) (quoting : Quoting) (c : Char) :
    stepWord (offset + column) word quoting c =
      shiftResult offset (shiftStep offset) (stepWord column word quoting c) := by
  cases quoting with
  | single =>
      rw [stepWord, stepWord]
      split <;> rfl
  | double =>
      rw [stepWord, stepWord]
      split
      · rfl
      · split <;> rfl
  | bareEscape => rfl
  | doubleEscape => rfl
  | bare =>
      rw [stepWord, stepWord, start_shift]
      split
      · rfl
      · split
        · rfl
        · split
          · rfl
          · split
            · exact word.token_bind_shift offset fun token => rfl
            · rfl

theorem step_shift (reader : Reader) (column : Nat) (c : Char) :
    (reader.shift offset).step (offset + column) c =
      shiftResult offset (shiftStep offset) (reader.step column c) := by
  cases reader with
  | between => exact congrArg (fun next => Except.ok ([], next)) (start_shift offset column c)
  | word w quoting => exact stepWord_shift offset column w quoting c
  | operator op =>
      change (operator op).step (offset + column) c = _
      rw [step, step, start_shift]
      split <;> rfl
  | group g =>
      change (g.shift offset).step (offset + column) c >>= _ = _
      rw [GroupReader.step_shift]
      refine shiftResult_bind offset _ fun progress => ?_
      cases progress <;> rfl

theorem finish_shift (reader : Reader) :
    (reader.shift offset).finish = shiftResult offset id reader.finish := by
  have hword : ∀ word : Word, (do return [← word.token]) =
      shiftResult offset id (do return [← word.token] : Except ReadError (List Token)) :=
    fun word => word.token_bind_shift offset fun token => rfl
  cases reader with
  | between => rfl
  | word w quoting =>
      cases quoting with
      | bare => exact hword w
      | bareEscape => exact hword (w.pushBare '\\')
      | _ => rfl
  | operator op => rfl
  | group g => exact congrArg Except.error (g.unfinished_shift offset)

theorem feed_shift (reader : Reader) (column : Nat) (chars : List Char) :
    (reader.shift offset).feed (offset + column) chars =
      shiftResult offset (shiftStep offset) (reader.feed column chars) := by
  induction chars generalizing reader column with
  | nil => rfl
  | cons c chars ih =>
      rw [feed, feed, step_shift]
      refine shiftResult_bind offset _ fun step => ?_
      change (step.2.shift offset).feed (offset + column + 1) chars >>= _ = _
      rw [Nat.add_assoc, ih]
      exact shiftResult_bind offset _ fun _ => rfl

theorem run_shift (reader : Reader) (column : Nat) (chars : List Char) :
    (reader.shift offset).run (offset + column) chars =
      shiftResult offset id (reader.run column chars) := by
  rw [run, run, feed_shift]
  refine shiftResult_bind offset _ fun step => ?_
  change (step.2.shift offset).finish >>= _ = _
  rw [finish_shift]
  exact shiftResult_bind offset _ fun _ => rfl

end Reader

end Shift

namespace Reader

/-- The next character belongs to a bare word, whatever it is. -/
def IsEscaping : Reader → Prop
  | .word _ .bareEscape => True
  | _ => False

theorem not_isEscaping_start {column : Nat} {c : Char} (hc : c ≠ '\\') :
    ¬ (start column c).IsEscaping := by
  unfold start
  repeat' split
  all_goals exact id

theorem not_isEscaping_of_stepWord {word : Word} {quoting : Quoting} {next : Reader} {column : Nat}
    {c : Char} {tokens : List Token} (hc : c ≠ '\\')
    (h : stepWord column word quoting c = .ok (tokens, next)) : ¬ next.IsEscaping := by
  cases quoting with
  | bare =>
      rw [stepWord, if_neg hc] at h
      split at h
      · cases h
        exact id
      · split at h
        · cases h
          exact id
        · split at h
          · obtain ⟨token, -, h⟩ := bind_eq_ok.mp h
            cases h
            exact not_isEscaping_start hc
          · cases h
            exact id
  | bareEscape =>
      cases h
      exact id
  | doubleEscape =>
      cases h
      exact id
  | _ =>
      rw [stepWord] at h
      repeat' split at h
      all_goals
        cases h
        exact id

theorem not_isEscaping_of_step {reader next : Reader} {column : Nat} {c : Char}
    {tokens : List Token} (hc : c ≠ '\\') (h : reader.step column c = .ok (tokens, next)) :
    ¬ next.IsEscaping := by
  cases reader with
  | between =>
      cases h
      exact not_isEscaping_start hc
  | word w quoting => exact not_isEscaping_of_stepWord hc h
  | operator op =>
      rw [step] at h
      split at h
      · cases h
        exact id
      · cases h
        exact not_isEscaping_start hc
  | group g =>
      obtain ⟨progress, -, h⟩ := bind_eq_ok.mp h
      cases progress <;>
        · cases h
          exact id

/-- Only a backslash makes the reader wait for the character behind it. -/
theorem not_isEscaping_of_feed {reader last : Reader} {column : Nat} {chars : List Char}
    {tokens : List Token} (hreader : ¬ reader.IsEscaping) (hchars : chars.getLast? ≠ some '\\')
    (h : reader.feed column chars = .ok (tokens, last)) : ¬ last.IsEscaping := by
  obtain rfl | ⟨chars, c, rfl⟩ := chars.eq_nil_or_concat'
  · cases h
    exact hreader
  · have hc : c ≠ '\\' := by simpa using hchars
    rw [feed_append] at h
    obtain ⟨⟨before, next⟩, -, h⟩ := bind_eq_ok.mp h
    obtain ⟨⟨following, final⟩, hlast, h⟩ := bind_eq_ok.mp h
    obtain ⟨⟨completed, next'⟩, hstep, hlast⟩ := bind_eq_ok.mp hlast
    cases hlast
    cases h
    exact not_isEscaping_of_step hc hstep

/-- Where a line can end and nothing is escaped, a blank ends what is being read. -/
theorem run_blank_of_finish {reader : Reader} {tokens : List Token} {c : Char}
    (hfinish : reader.finish = .ok tokens) (hreader : ¬ reader.IsEscaping)
    (hc : Text.isBlank c = true) (column : Nat) (rest : List Char) :
    reader.run column (c :: rest) = (between.run (column + 1) rest).map (tokens ++ ·) := by
  cases reader with
  | between =>
      cases hfinish
      rw [run_between_blank hc]
      cases between.run (column + 1) rest <;> rfl
  | word w quoting =>
      cases quoting with
      | bare =>
          obtain ⟨token, htoken, htokens⟩ := bind_eq_ok.mp hfinish
          cases htokens
          have hends : ∀ d ∈ (c :: rest).head?, endsWord d = true := by
            rintro d ⟨⟩
            exact endsWord_of_isBlank c hc
          rw [run_word htoken column hends, run_between_blank hc]
          rfl
      | bareEscape => exact absurd trivial hreader
      | _ => cases hfinish
  | operator op =>
      cases hfinish
      have hblank : ∀ d ∈ (c :: rest).head?, Text.isBlank d = true := by
        rintro d ⟨⟩
        exact hc
      rw [run_operator op column hblank, run_between_blank hc]
      rfl
  | group g => cases hfinish

/-- Behind a blank a line is read as it is read alone, with the columns that it has there. -/
theorem run_append_blank {first : List Char} {tokens : List Token} {c : Char} {column : Nat}
    (hfirst : between.run column first = .ok tokens) (hlast : first.getLast? ≠ some '\\')
    (hc : Text.isBlank c = true) (rest : List Char) :
    between.run column (first ++ c :: rest) =
      shiftResult (first.length + 1) (tokens ++ ·) (between.run column rest) := by
  obtain ⟨⟨completed, reader⟩, hfeed, hfirst⟩ := bind_eq_ok.mp hfirst
  obtain ⟨finished, hfinish, htokens⟩ := bind_eq_ok.mp hfirst
  cases htokens
  have hreader : ¬ reader.IsEscaping := not_isEscaping_of_feed id hlast hfeed
  have hrest : between.run (column + first.length + 1) rest =
      shiftResult (first.length + 1) id (between.run column rest) := by
    rw [Nat.add_assoc, Nat.add_comm column]
    exact run_shift (first.length + 1) between column rest
  rw [run_append, hfeed, ok_bind]
  change (reader.run (column + first.length) (c :: rest) >>=
    fun following => .ok (completed ++ following)) = _
  rw [run_blank_of_finish hfinish hreader hc, hrest]
  cases between.run column rest with
  | error e => rfl
  | ok following => exact congrArg Except.ok (List.append_assoc ..).symm

end Reader

/-- Reading is homomorphic over blanks. If a line can be read and does not end in a backslash, the
tokens of another line behind a blank follow its own, and the errors of the other line stay what
they are, so many columns on. -/
theorem read_append_blank {line : String} {tokens : List Token} {c : Char}
    (hread : read line = .ok tokens) (hescape : line.toList.getLast? ≠ some '\\')
    (hblank : Text.isBlank c = true) (other : String) :
    read (line.push c ++ other) =
      match read other with
      | .ok found => .ok (tokens ++ found)
      | .error e => .error (e.shift (line.length + 1)) := by
  have hchars : (line.push c ++ other).toList = line.toList ++ c :: other.toList := by
    simp [String.toList_push]
  rw [read, hchars, Reader.run_append_blank hread hescape hblank, String.length_toList]
  change shiftResult (line.length + 1) (tokens ++ ·) (read other) = _
  cases read other <;> rfl

/-- A quoted word in front of an operator, and a wide space: the operator behind it stays on its
own, and so does the digit word, while an open group is found nine columns on. -/
theorem read_append_blank_wide :
    let line := "x'y z'|>"
    read line = .ok [.symbol "xy z", .operator (.connect (.pipe .multi))] ∧
    read (line.push '\u2003' ++ "> 007") = .ok [.symbol "xy z", .operator (.connect (.pipe .multi)),
      .operator (.redirect .output), .symbol "007"] ∧
    read (line.push '\u2003' ++ "> (f") = .error (.unterminatedGroup 11) := by
  have hread : read "x'y z'|>" = .ok [.symbol "xy z", .operator (.connect (.pipe .multi))] := by
    rfl
  have hescape : "x'y z'|>".toList.getLast? ≠ some '\\' := by decide
  have hblank : Text.isBlank '\u2003' = true := by decide
  exact ⟨hread, (read_append_blank hread hescape hblank "> 007").trans rfl,
    (read_append_blank hread hescape hblank "> (f").trans rfl⟩

end ShellLowering.Line
