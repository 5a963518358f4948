import ShellLowering.Proofs.GroupGrammar
import ShellLowering.Proofs.UnquotedText

/-!
How a line is written: as blanks, operators, groups, and words made of bare, escaped and quoted
parts.
-/

namespace ShellLowering.Line

open Text

/-- A character between double quotes. -/
inductive QuotedChar where
  | plain (c : Char)
  | escaped (c : Char)
  deriving DecidableEq, Repr

namespace QuotedChar

def char : QuotedChar → Char
  | .plain c => c
  | .escaped c => c

def chars : QuotedChar → List Char
  | .plain c => [c]
  | .escaped c => ['\\', c]

def IsWritten : QuotedChar → Prop
  | .plain c => c ≠ '"' ∧ c ≠ '\\'
  | .escaped _ => True

instance : DecidablePred IsWritten
  | .plain _ => inferInstanceAs (Decidable (_ ∧ _))
  | .escaped _ => .isTrue trivial

end QuotedChar

/-- A part of a word: a character that stands for itself or behind a backslash, or what stands
between two quotes. -/
inductive WordPart where
  | bare (c : Char)
  | escaped (c : Char)
  | single (text : List Char)
  | double (text : List QuotedChar)
  deriving DecidableEq, Repr

namespace WordPart

def chars : WordPart → List Char
  | .bare c => [c]
  | .escaped c => ['\\', c]
  | .single text => '\'' :: (text ++ ['\''])
  | .double text => '"' :: (text.flatMap QuotedChar.chars ++ ['"'])

/-- The part without its quotes and escapes. -/
def text : WordPart → List Char
  | .bare c => [c]
  | .escaped c => [c]
  | .single text => text
  | .double text => text.map QuotedChar.char

def isQuoted : WordPart → Bool
  | .bare _ => false
  | .escaped _ => false
  | .single _ => true
  | .double _ => true

def IsWritten : WordPart → Prop
  | .bare c => isBareChar c = true
  | .escaped _ => True
  | .single text => '\'' ∉ text
  | .double text => ∀ c ∈ text, c.IsWritten

instance : DecidablePred IsWritten
  | .bare c => inferInstanceAs (Decidable (isBareChar c = true))
  | .escaped _ => .isTrue trivial
  | .single text => inferInstanceAs (Decidable ('\'' ∉ text))
  | .double text => inferInstanceAs (Decidable (∀ c ∈ text, c.IsWritten))

end WordPart

/-- What a word comes to: its text, and whether a part of it is quoted and a part is not. -/
def Word.ofParts (parts : List WordPart) : Word :=
  ofChars (parts.flatMap WordPart.text) (parts.any WordPart.isQuoted)
    (parts.any fun part => !part.isQuoted)

/-- The parts of a word that goes on as far as possible in front of the given characters. Only at
the end of a line does a backslash stand for itself. -/
inductive IsWordBefore (rest : List Char) : List WordPart → Prop
  | ends {parts : List WordPart} (hparts : ∀ part ∈ parts, part.IsWritten)
      (hends : ∀ c ∈ rest.head?, endsWord c = true) : IsWordBefore rest parts
  | backslash {parts : List WordPart} (hparts : ∀ part ∈ parts, part.IsWritten)
      (hrest : rest = []) : IsWordBefore rest (parts ++ [.bare '\\'])

/-- A stretch of a line: a blank, or what is written for one token. -/
inductive Lexeme where
  | blank (c : Char)
  | operator (op : Operator)
  | group (written : List Char) (form : Term)
  | word (parts : List WordPart)

namespace Lexeme

def chars : Lexeme → List Char
  | .blank c => [c]
  | .operator op => op.text.toList
  | .group written _ => written
  | .word parts => parts.flatMap WordPart.chars

/-- The tokens of a lexeme: one, or none if it is a blank. Only a word can have too many digits. -/
def tokens : Lexeme → Except ReadError (List Token)
  | .blank _ => .ok []
  | .operator op => .ok [.operator op]
  | .group _ form => .ok [.embedded form]
  | .word parts => (Word.ofParts parts).token.map ([·])

def allTokens : List Lexeme → Except ReadError (List Token)
  | [] => .ok []
  | lexeme :: lexemes => do
    let tokens ← lexeme.tokens
    return tokens ++ (← allTokens lexemes)

end Lexeme

/-- A lexeme that is as long as possible in front of the given characters. A word does not begin
with an opening parenthesis, since a group begins there. -/
inductive Lexeme.StandsBefore (rest : List Char) : Lexeme → Prop
  | blank {c : Char} (hc : isBlank c = true) : StandsBefore rest (.blank c)
  | operator {op : Operator} (hlongest : op.IsLongest (op.text.toList ++ rest)) :
      StandsBefore rest (.operator op)
  | group {written : List Char} {form : Term} (hgroup : IsGroup written form) :
      StandsBefore rest (.group written form)
  | word {parts : List WordPart} (hne : parts ≠ []) (hhead : parts.head? ≠ some (.bare '('))
      (hparts : IsWordBefore rest parts) : StandsBefore rest (.word parts)

/-- Lexemes in a row in front of the given characters. -/
inductive AreLexemes (rest : List Char) : List Lexeme → Prop
  | nil : AreLexemes rest []
  | cons {lexeme : Lexeme} {lexemes : List Lexeme}
      (hlexeme : lexeme.StandsBefore (lexemes.flatMap Lexeme.chars ++ rest))
      (hlexemes : AreLexemes rest lexemes) : AreLexemes rest (lexeme :: lexemes)

/-- A quote that is never closed. A backslash at the end of the line escapes nothing. -/
inductive IsOpenQuote : List Char → Prop
  | single {text : List Char} (htext : '\'' ∉ text) : IsOpenQuote ('\'' :: text)
  | double {text : List QuotedChar} (htext : ∀ c ∈ text, c.IsWritten) :
      IsOpenQuote ('"' :: text.flatMap QuotedChar.chars)
  | backslash {text : List QuotedChar} (htext : ∀ c ∈ text, c.IsWritten) :
      IsOpenQuote ('"' :: (text.flatMap QuotedChar.chars ++ ['\\']))

/-- Where the lexemes of a line come to an end: at the end of the line, at a word with a quote that
is never closed, or at a defective group. -/
inductive EndsLexemes (column : Nat) : List Char → Except ReadError Unit → Prop
  | endOfLine : EndsLexemes column [] (.ok ())
  | quote {parts : List WordPart} {text : List Char} (hparts : ∀ part ∈ parts, part.IsWritten)
      (hhead : parts.head? ≠ some (.bare '(')) (htext : IsOpenQuote text) :
      EndsLexemes column (parts.flatMap WordPart.chars ++ text) (.error .unterminatedQuote)
  | group {inner : List Char} {e : ReadError} (hinner : FirstDefect column inner e) :
      EndsLexemes column ('(' :: inner) (.error e)

namespace Reader

open Word

theorem run_single {text : List Char} (h : '\'' ∉ text) (done : List Char) (bare : Bool)
    (column : Nat) (rest : List Char) :
    (word (ofChars done true bare) .single).run column (text ++ rest) =
      (word (ofChars (done ++ text) true bare) .single).run (column + text.length) rest := by
  induction text generalizing done column with
  | nil => rw [List.append_nil]; rfl
  | cons c text ih =>
      obtain ⟨hc, htext⟩ := not_or.mp (mt List.mem_cons.mpr h)
      have hstep : (word (ofChars done true bare) .single).step column c =
          .ok ([], word (ofChars (done ++ [c]) true bare) .single) := by
        simp [step, stepWord, Ne.symm hc, pushQuoted_ofChars]
      rw [List.cons_append, run_step hstep, ih htext, List.append_assoc, List.length_cons,
        Nat.add_assoc, Nat.add_comm 1]
      rfl

theorem run_quotedChar {c : QuotedChar} (h : c.IsWritten) (done : List Char) (bare : Bool)
    (column : Nat) (rest : List Char) :
    (word (ofChars done true bare) .double).run column (c.chars ++ rest) =
      (word (ofChars (done ++ [c.char]) true bare) .double).run (column + c.chars.length) rest := by
  cases c with
  | plain c =>
      refine run_step ?_ rest
      simp [step, stepWord, h.1, h.2, pushQuoted_ofChars, QuotedChar.char]
  | escaped c =>
      refine (run_step rfl (c :: rest)).trans (run_step ?_ rest)
      simp [step, stepWord, pushQuoted_ofChars, QuotedChar.char]

theorem run_double {text : List QuotedChar} (h : ∀ c ∈ text, c.IsWritten) (done : List Char)
    (bare : Bool) (column : Nat) (rest : List Char) :
    (word (ofChars done true bare) .double).run column (text.flatMap QuotedChar.chars ++ rest) =
      (word (ofChars (done ++ text.map QuotedChar.char) true bare) .double).run
        (column + (text.flatMap QuotedChar.chars).length) rest := by
  induction text generalizing done column with
  | nil => rw [List.map_nil, List.append_nil]; rfl
  | cons c text ih =>
      obtain ⟨hc, htext⟩ := List.forall_mem_cons.mp h
      rw [List.flatMap_cons, List.append_assoc, run_quotedChar hc, ih htext, List.append_assoc,
        List.length_append, Nat.add_assoc]
      rfl

theorem step_bare_of_isBareChar {c : Char} (h : isBareChar c = true) (w : Word) (column : Nat) :
    (word w .bare).step column c = .ok ([], word (w.pushBare c) .bare) := by
  simp only [isBareChar, endsWord, Bool.and_eq_true, Bool.not_eq_true', bne_iff_ne, ne_eq] at h
  obtain ⟨⟨⟨hends, hsingle⟩, hdouble⟩, hescape⟩ := h
  simp [step, stepWord, hsingle, hdouble, hescape, hends]

/-- A quoted text is taken up with its quotes. -/
theorem run_quoted {quoting : Quoting} {mark : Char} {written text : List Char}
    (hopen : ∀ (w : Word) column, (word w .bare).step column mark =
      .ok ([], word w.passQuote quoting))
    (hclose : ∀ (w : Word) column, (word w quoting).step column mark =
      .ok ([], word w.passQuote .bare))
    (htext : ∀ done bare column rest, (word (ofChars done true bare) quoting).run column
        (written ++ rest) =
      (word (ofChars (done ++ text) true bare) quoting).run (column + written.length) rest)
    (done : List Char) (quoted bare : Bool) (column : Nat) (rest : List Char) :
    (word (ofChars done quoted bare) .bare).run column (mark :: (written ++ [mark]) ++ rest) =
      (word (ofChars (done ++ text) true bare) .bare).run
        (column + (mark :: (written ++ [mark])).length) rest := by
  have hcolumn : column + 1 + written.length + 1 =
      column + (mark :: (written ++ [mark])).length := by
    simp only [List.length_cons, List.length_append, List.length_nil]
    omega
  rw [List.cons_append, List.append_assoc, run_step (hopen _ _), ← hcolumn]
  exact (htext done bare _ _).trans (run_step (hclose _ _) rest)

/-- A part of a word is taken up with what it is quoted for. -/
theorem run_part {part : WordPart} (h : part.IsWritten) (done : List Char) (quoted bare : Bool)
    (column : Nat) (rest : List Char) :
    (word (ofChars done quoted bare) .bare).run column (part.chars ++ rest) =
      (word (ofChars (done ++ part.text) (quoted || part.isQuoted) (bare || !part.isQuoted))
        .bare).run (column + part.chars.length) rest := by
  cases part with
  | bare c =>
      have hstep := step_bare_of_isBareChar h (ofChars done quoted bare) column
      rw [pushBare_ofChars] at hstep
      rw [WordPart.isQuoted, Bool.or_false, Bool.not_false, Bool.or_true]
      exact run_step hstep rest
  | escaped c =>
      have hstep : (word (ofChars done quoted bare) .bareEscape).step (column + 1) c =
          .ok ([], word ((ofChars done quoted bare).pushBare c) .bare) := rfl
      rw [pushBare_ofChars] at hstep
      rw [WordPart.isQuoted, Bool.or_false, Bool.not_false, Bool.or_true]
      exact (run_step rfl (c :: rest)).trans (run_step hstep rest)
  | single text =>
      rw [WordPart.isQuoted, Bool.or_true, Bool.not_true, Bool.or_false]
      exact run_quoted (fun _ _ => rfl) (fun _ _ => rfl) (run_single h) done quoted bare column rest
  | double text =>
      rw [WordPart.isQuoted, Bool.or_true, Bool.not_true, Bool.or_false]
      exact run_quoted (fun _ _ => rfl) (fun _ _ => rfl) (run_double h) done quoted bare column rest

theorem run_parts {parts : List WordPart} (h : ∀ part ∈ parts, part.IsWritten) (done : List Char)
    (quoted bare : Bool) (column : Nat) (rest : List Char) :
    (word (ofChars done quoted bare) .bare).run column (parts.flatMap WordPart.chars ++ rest) =
      (word (ofChars (done ++ parts.flatMap WordPart.text)
        (quoted || parts.any WordPart.isQuoted) (bare || parts.any fun part => !part.isQuoted))
        .bare).run (column + (parts.flatMap WordPart.chars).length) rest := by
  induction parts generalizing done quoted bare column with
  | nil => simp
  | cons part parts ih =>
      obtain ⟨hpart, hparts⟩ := List.forall_mem_cons.mp h
      rw [List.flatMap_cons, List.append_assoc, run_part hpart, ih hparts, List.flatMap_cons,
        List.append_assoc, List.any_cons, List.any_cons, Bool.or_assoc, Bool.or_assoc,
        List.length_append, Nat.add_assoc]

/-- A word ends where a blank or an operator follows, and there its token is complete or refused. -/
theorem run_word_of_ends (w : Word) (column : Nat) {rest : List Char}
    (hrest : ∀ c ∈ rest.head?, endsWord c = true) :
    (word w .bare).run column rest = (do
      let token ← w.token
      return token :: (← between.run column rest)) := by
  cases htoken : w.token with
  | ok token =>
      rw [run_word htoken column hrest, ok_bind]
      cases between.run column rest <;> rfl
  | error e =>
      cases rest with
      | nil => simp [run_nil, finish, htoken]
      | cons c rest =>
          have hends := hrest c rfl
          obtain ⟨hsingle, hdouble, hescape⟩ := ne_of_endsWord hends
          unfold endsWord at hends
          simp [run_cons, step, stepWord, hsingle, hdouble, hescape, hends, htoken]

end Reader

/-- Where neither a blank nor an operator nor a group begins. -/
def StartsWord (chars : List Char) : Prop :=
  ∃ c rest, chars = c :: rest ∧ endsWord c = false ∧ c ≠ '('

theorem Reader.run_between_eq_word {chars : List Char} (h : StartsWord chars) (column : Nat) :
    between.run column chars = (word .empty .bare).run column chars := by
  obtain ⟨c, rest, rfl, hends, hopen⟩ := h
  obtain ⟨hblank, hoperator⟩ := Bool.or_eq_false_iff.mp hends
  have hstep : (word .empty .bare).step column c = .ok ([], start column c) := by
    simp only [Option.isSome_eq_false_iff, Option.isNone_iff_eq_none] at hoperator
    simp only [step, stepWord, start, hblank, hoperator, hopen]
    split_ifs <;> simp_all
  rw [run_between, run_step hstep]

theorem IsOpenQuote.startsWord {text : List Char} (h : IsOpenQuote text) : StartsWord text := by
  cases h with
  | single => exact ⟨_, _, rfl, rfl, by decide⟩
  | double => exact ⟨_, _, rfl, rfl, by decide⟩
  | backslash => exact ⟨_, _, rfl, rfl, by decide⟩

/-- A part of a word is the beginning of one, unless it is a bare opening parenthesis. -/
theorem startsWord_append {part : WordPart} {parts : List WordPart}
    (h : part.IsWritten ∨ part = .bare '\\') (hhead : (part :: parts).head? ≠ some (.bare '('))
    (rest : List Char) : StartsWord ((part :: parts).flatMap WordPart.chars ++ rest) := by
  cases part with
  | bare c =>
      refine ⟨c, _, rfl, ?_, fun heq => hhead (heq ▸ rfl)⟩
      rcases h with h | h
      · simp only [WordPart.IsWritten, isBareChar, Bool.and_eq_true, Bool.not_eq_true'] at h
        exact h.1.1.1
      · cases h
        rfl
  | escaped c => exact ⟨'\\', _, rfl, rfl, by decide⟩
  | single text => exact ⟨'\'', _, rfl, rfl, by decide⟩
  | double text => exact ⟨'"', _, rfl, rfl, by decide⟩

theorem IsWordBefore.startsWord {rest : List Char} {parts : List WordPart}
    (h : IsWordBefore rest parts) (hne : parts ≠ []) (hhead : parts.head? ≠ some (.bare '(')) :
    StartsWord (parts.flatMap WordPart.chars ++ rest) := by
  have hwritten : ∀ part ∈ parts, part.IsWritten ∨ part = .bare '\\' := by
    cases h with
    | ends hparts _ => exact fun part hpart => .inl (hparts part hpart)
    | backslash hparts _ =>
        intro part hpart
        rcases List.mem_append.mp hpart with hpart | hpart
        · exact .inl (hparts part hpart)
        · exact .inr (List.mem_singleton.mp hpart)
  cases parts with
  | nil => exact absurd rfl hne
  | cons part parts => exact startsWord_append (hwritten part List.mem_cons_self) hhead rest

namespace Reader

open Word

/-- A word is read as its token. -/
theorem run_wordBefore {parts : List WordPart} {rest : List Char} (h : IsWordBefore rest parts)
    (column : Nat) :
    (word .empty .bare).run column (parts.flatMap WordPart.chars ++ rest) = (do
      let token ← (ofParts parts).token
      return token :: (← between.run (column + (parts.flatMap WordPart.chars).length) rest)) := by
  cases h with
  | ends hparts hends =>
      have hrun := run_parts hparts [] false false column rest
      rw [List.nil_append, Bool.false_or, Bool.false_or] at hrun
      exact hrun.trans (run_word_of_ends _ _ hends)
  | @backslash parts hparts hrest =>
      subst hrest
      have hrun := run_parts hparts [] false false column ['\\']
      rw [List.nil_append, Bool.false_or, Bool.false_or, run_step rfl [], run_nil] at hrun
      have hword : ofParts (parts ++ [.bare '\\']) = (ofParts parts).pushBare '\\' := by
        simp [ofParts, pushBare_ofChars, WordPart.text, WordPart.isQuoted]
      have hchars : (parts ++ [WordPart.bare '\\']).flatMap WordPart.chars ++ [] =
          parts.flatMap WordPart.chars ++ ['\\'] := by simp [WordPart.chars]
      rw [hchars, hword, run_nil]
      exact hrun

/-- So is a word in a line, where it does not begin as a group does. -/
theorem run_between_word {parts : List WordPart} {rest : List Char} (hne : parts ≠ [])
    (hhead : parts.head? ≠ some (.bare '(')) (h : IsWordBefore rest parts) (column : Nat) :
    between.run column (parts.flatMap WordPart.chars ++ rest) = (do
      let token ← (ofParts parts).token
      return token :: (← between.run (column + (parts.flatMap WordPart.chars).length) rest)) := by
  rw [run_between_eq_word (h.startsWord hne hhead), run_wordBefore h]

/-- So is a group. -/
theorem run_between_group {written : List Char} {form : Term} (h : IsGroup written form)
    (column : Nat) (rest : List Char) :
    between.run column (written ++ rest) = (do
      return .embedded form :: (← between.run (column + written.length) rest)) := by
  obtain ⟨content, head, args, hcontent, rfl, rfl⟩ := h
  have hgroup : IsGroup ('(' :: (content ++ [')'])) (.form head args) :=
    ⟨content, head, args, hcontent, rfl, rfl⟩
  have hrun : (GroupReader.start column).run (column + 1) (content ++ [')'] ++ rest) =
      .ok (.form head args, rest) :=
    GroupReader.run_start_eq_ok_iff.mpr ⟨_, hgroup, rfl⟩
  have hcolumn : column + 1 + ((content ++ [')'] ++ rest).length - rest.length) =
      column + ('(' :: (content ++ [')'])).length := by
    simp only [List.length_append, List.length_cons, List.length_nil]
    omega
  have hstart : start column '(' = .group (.start column) := rfl
  rw [List.cons_append, run_between, hstart, run_group, hrun, ok_bind]
  dsimp only
  rw [hcolumn]

/-- A quote that is never closed is reported at the end of the line. -/
theorem run_openQuote {text : List Char} (h : IsOpenQuote text) (done : List Char)
    (quoted bare : Bool) (column : Nat) :
    (word (ofChars done quoted bare) .bare).run column text = .error .unterminatedQuote := by
  cases h with
  | @single text htext =>
      have hrun := run_single htext done bare (column + 1) []
      rw [List.append_nil, run_nil] at hrun
      exact (run_step rfl text).trans hrun
  | @double text htext =>
      have hrun := run_double htext done bare (column + 1) []
      rw [List.append_nil, run_nil] at hrun
      exact (run_step rfl _).trans hrun
  | @backslash text htext =>
      have hrun := run_double htext done bare (column + 1) ['\\']
      rw [run_step rfl [], run_nil] at hrun
      exact (run_step rfl _).trans hrun

end Reader

/-- Every lexeme is read as its tokens. -/
theorem Lexeme.run_of_standsBefore {lexeme : Lexeme} {rest : List Char}
    (h : lexeme.StandsBefore rest) (column : Nat) :
    Reader.between.run column (lexeme.chars ++ rest) = (do
      let tokens ← lexeme.tokens
      return tokens ++ (← Reader.between.run (column + lexeme.chars.length) rest)) := by
  cases h with
  | @blank c hc =>
      have hrun := Reader.run_between_blank hc column rest
      simpa [chars, tokens] using hrun
  | @operator op hlongest =>
      rw [chars, tokens, Reader.run_operatorText,
        Reader.run_operator_of_ends op _ hlongest.ofText?_push, ok_bind]
      cases Reader.between.run (column + op.text.toList.length) rest <;> rfl
  | group hgroup => exact Reader.run_between_group hgroup column rest
  | @word parts hne hhead hparts =>
      rw [chars, tokens, Reader.run_between_word hne hhead hparts]
      cases (Word.ofParts parts).token <;> rfl

/-- Lexemes in a row are read as their tokens. -/
theorem AreLexemes.run {lexemes : List Lexeme} {rest : List Char} (h : AreLexemes rest lexemes)
    (column : Nat) :
    Reader.between.run column (lexemes.flatMap Lexeme.chars ++ rest) = (do
      let tokens ← Lexeme.allTokens lexemes
      return tokens ++
        (← Reader.between.run (column + (lexemes.flatMap Lexeme.chars).length) rest)) := by
  induction h generalizing column with
  | nil => simp [Lexeme.allTokens]
  | @cons lexeme lexemes hlexeme _ ih =>
      rw [List.flatMap_cons, List.append_assoc, Lexeme.run_of_standsBefore hlexeme, ih,
        List.length_append, ← Nat.add_assoc, Lexeme.allTokens]
      simp only [bind_assoc, pure_bind, List.append_assoc]

/-- What stands behind the last lexeme is not read as anything. -/
theorem EndsLexemes.run {column : Nat} {rest : List Char} {outcome : Except ReadError Unit}
    (h : EndsLexemes column rest outcome) :
    Reader.between.run column rest = outcome.map fun _ => [] := by
  cases h with
  | endOfLine => rfl
  | @quote parts text hparts hhead htext =>
      have hstarts : StartsWord (parts.flatMap WordPart.chars ++ text) := by
        cases parts with
        | nil => exact htext.startsWord
        | cons part parts =>
            exact startsWord_append (.inl (hparts part List.mem_cons_self)) hhead text
      have hrun := Reader.run_parts hparts [] false false column text
      rw [Reader.run_openQuote htext] at hrun
      exact (Reader.run_between_eq_word hstarts column).trans hrun
  | group hinner =>
      have hstart : Reader.start column '(' = .group (.start column) := rfl
      rw [Reader.run_between, hstart, Reader.run_group,
        GroupReader.run_start_eq_error_iff.mpr hinner]
      rfl

section Written

/-!
Each line is written in lexemes, as far as it can be read. This is a fact of how lines are written
alone; the reader is not looked at.
-/

theorem IsOpenQuote.extend {c : QuotedChar} (hc : c.IsWritten) {chars : List Char}
    (h : IsOpenQuote ('"' :: chars)) : IsOpenQuote ('"' :: (c.chars ++ chars)) := by
  cases h with
  | double htext => exact .double (List.forall_mem_cons.mpr ⟨hc, htext⟩)
  | backslash htext =>
      have hextended := IsOpenQuote.backslash (List.forall_mem_cons.mpr ⟨hc, htext⟩)
      rwa [List.flatMap_cons, List.append_assoc] at hextended

/-- The characters behind a double quote contain the one that closes it. -/
def IsClosedQuote (chars : List Char) : Prop :=
  ∃ (text : List QuotedChar) (rest : List Char), (∀ c ∈ text, c.IsWritten) ∧
    chars = text.flatMap QuotedChar.chars ++ '"' :: rest

theorem IsClosedQuote.extend {c : QuotedChar} (hc : c.IsWritten) {chars : List Char}
    (h : IsClosedQuote chars) : IsClosedQuote (c.chars ++ chars) := by
  obtain ⟨text, rest, htext, rfl⟩ := h
  exact ⟨c :: text, rest, List.forall_mem_cons.mpr ⟨hc, htext⟩, by simp⟩

/-- The induction takes the two characters of an escape at a time. -/
theorem isClosedQuote_or_isOpenQuote (chars : List Char) :
    IsClosedQuote chars ∨ IsOpenQuote ('"' :: chars) := by
  induction hlength : chars.length using Nat.strongRecOn generalizing chars with
  | ind length ih =>
      subst hlength
      cases chars with
      | nil => exact .inr (.double (List.forall_mem_nil _))
      | cons c chars =>
          by_cases hquote : c = '"'
          · subst hquote
            exact .inl ⟨[], chars, List.forall_mem_nil _, rfl⟩
          · by_cases hescape : c = '\\'
            · subst hescape
              cases chars with
              | nil => exact .inr (.backslash (List.forall_mem_nil _))
              | cons d chars =>
                  have hd : (QuotedChar.escaped d).IsWritten := trivial
                  have hlt : chars.length < ('\\' :: d :: chars).length := by
                    simp only [List.length_cons]
                    omega
                  exact (ih chars.length hlt chars rfl).imp (.extend hd) (.extend hd)
            · have hc : (QuotedChar.plain c).IsWritten := ⟨hquote, hescape⟩
              exact (ih chars.length (by simp) chars rfl).imp (.extend hc) (.extend hc)

theorem isBareChar_cases (c : Char) :
    isBareChar c = true ∨ endsWord c = true ∨ c = '\'' ∨ c = '"' ∨ c = '\\' := by
  simp only [isBareChar, Bool.and_eq_true, Bool.not_eq_true', bne_iff_ne, ne_eq]
  cases endsWord c <;> tauto

/-- Characters of which so many are parts of a word, up to where it ends or cannot go on. -/
def HasParts (chars : List Char) : Prop :=
  ∃ (parts : List WordPart) (rest : List Char), (∀ part ∈ parts, part.IsWritten) ∧
    ((∀ c ∈ rest.head?, endsWord c = true) ∨ rest = ['\\'] ∨ IsOpenQuote rest) ∧
    chars = parts.flatMap WordPart.chars ++ rest

theorem HasParts.of_stops {chars : List Char}
    (h : (∀ c ∈ chars.head?, endsWord c = true) ∨ chars = ['\\'] ∨ IsOpenQuote chars) :
    HasParts chars :=
  ⟨[], chars, List.forall_mem_nil _, h, rfl⟩

theorem HasParts.extend {part : WordPart} (hpart : part.IsWritten) {chars : List Char}
    (h : HasParts chars) : HasParts (part.chars ++ chars) := by
  obtain ⟨parts, rest, hparts, hrest, rfl⟩ := h
  exact ⟨part :: parts, rest, List.forall_mem_cons.mpr ⟨hpart, hparts⟩, hrest, by simp⟩

section Cases

variable {chars : List Char} (hrest : ∀ rest, rest.length ≤ chars.length → HasParts rest)
include hrest

theorem HasParts.single : HasParts ('\'' :: chars) := by
  by_cases hmem : '\'' ∈ chars
  · obtain ⟨text, rest, rfl, htext⟩ := List.eq_append_cons_of_mem hmem
    have hpart : (WordPart.single text).IsWritten := htext
    have hextend := HasParts.extend hpart (hrest rest (by simp; omega))
    simpa [WordPart.chars] using hextend
  · exact .of_stops (.inr (.inr (.single hmem)))

theorem HasParts.double : HasParts ('"' :: chars) := by
  rcases isClosedQuote_or_isOpenQuote chars with ⟨text, rest, htext, rfl⟩ | hopen
  · have hpart : (WordPart.double text).IsWritten := htext
    have hlength : rest.length ≤ (text.flatMap QuotedChar.chars ++ '"' :: rest).length := by
      rw [List.length_append, List.length_cons]
      omega
    have hextend := HasParts.extend hpart (hrest rest hlength)
    simpa [WordPart.chars] using hextend
  · exact .of_stops (.inr (.inr hopen))

/-- At the end of the line there is nothing to escape. -/
theorem HasParts.backslash : HasParts ('\\' :: chars) := by
  cases chars with
  | nil => exact .of_stops (.inr (.inl rfl))
  | cons c chars =>
      have hpart : (WordPart.escaped c).IsWritten := trivial
      exact .extend hpart (hrest chars (Nat.le_succ _))

end Cases

theorem hasParts (chars : List Char) : HasParts chars := by
  induction hlength : chars.length using Nat.strongRecOn generalizing chars with
  | ind length ih =>
      subst hlength
      cases chars with
      | nil => exact .of_stops (.inl (by simp))
      | cons c chars =>
          have hrest : ∀ rest, rest.length ≤ chars.length → HasParts rest :=
            fun rest hle => ih rest.length (Nat.lt_succ_of_le hle) rest rfl
          rcases isBareChar_cases c with hbare | hends | rfl | rfl | rfl
          · have hpart : (WordPart.bare c).IsWritten := hbare
            exact .extend hpart (hrest chars (Nat.le_refl _))
          · exact .of_stops (.inl (by simpa using hends))
          · exact .single hrest
          · exact .double hrest
          · exact .backslash hrest

/-- Where a word begins there is a word, or a quote that is never closed. -/
theorem exists_parts_of_startsWord {chars : List Char} (h : StartsWord chars) :
    ∃ (parts : List WordPart) (rest : List Char), parts.head? ≠ some (.bare '(') ∧
      chars = parts.flatMap WordPart.chars ++ rest ∧
      (parts ≠ [] ∧ IsWordBefore rest parts ∨
        (∀ part ∈ parts, part.IsWritten) ∧ IsOpenQuote rest) := by
  obtain ⟨c, chars, rfl, hends, hopen⟩ := h
  obtain ⟨parts, rest, hparts, hrest, hchars⟩ := hasParts (c :: chars)
  have hhead : parts.head? ≠ some (.bare '(') := by
    intro hhead
    obtain ⟨others, rfl⟩ := List.head?_eq_some_iff.mp hhead
    exact hopen (List.cons.inj hchars).1
  rcases hrest with hrest | rfl | hrest
  · refine ⟨parts, rest, hhead, hchars, .inl ⟨?_, .ends hparts hrest⟩⟩
    rintro rfl
    have hends' : endsWord c = true := hrest c (by simp [← show c :: chars = rest from hchars])
    exact absurd (hends.symm.trans hends') (by decide)
  · refine ⟨parts ++ [.bare '\\'], [], ?_, by simp [hchars, WordPart.chars],
      .inl ⟨by simp, .backslash hparts rfl⟩⟩
    cases parts with
    | nil => simp
    | cons part parts => exact hhead
  · exact ⟨parts, rest, hhead, hchars, .inr ⟨hparts, hrest⟩⟩

/-- Characters of which so many are lexemes, up to where these come to an end. -/
def HasLexemes (column : Nat) (chars : List Char) : Prop :=
  ∃ lexemes rest outcome, AreLexemes rest lexemes ∧
    EndsLexemes (column + (lexemes.flatMap Lexeme.chars).length) rest outcome ∧
    chars = lexemes.flatMap Lexeme.chars ++ rest

theorem HasLexemes.of_ends {column : Nat} {chars : List Char} {outcome : Except ReadError Unit}
    (h : EndsLexemes column chars outcome) : HasLexemes column chars :=
  ⟨[], chars, outcome, .nil, h, rfl⟩

theorem HasLexemes.extend {column : Nat} {lexeme : Lexeme} {chars : List Char}
    (hlexeme : lexeme.StandsBefore chars)
    (h : HasLexemes (column + lexeme.chars.length) chars) :
    HasLexemes column (lexeme.chars ++ chars) := by
  obtain ⟨lexemes, rest, outcome, hlexemes, hends, rfl⟩ := h
  refine ⟨lexeme :: lexemes, rest, outcome, .cons hlexeme hlexemes, ?_, by simp⟩
  rwa [List.flatMap_cons, List.length_append, ← Nat.add_assoc]

/-- A lexeme takes up at least one character. -/
theorem Lexeme.StandsBefore.chars_ne_nil {lexeme : Lexeme} {rest : List Char}
    (h : lexeme.StandsBefore rest) : lexeme.chars ≠ [] := by
  cases h with
  | blank => exact List.cons_ne_nil _ _
  | operator => exact toList_text_ne_nil _
  | group hgroup => exact List.ne_nil_of_length_pos hgroup.length_pos
  | word hne _ _ =>
      obtain ⟨part, parts, rfl⟩ := List.exists_cons_of_ne_nil hne
      cases part <;> simp [Lexeme.chars, WordPart.chars]

/-- The induction is on the length of the line: what stands at its beginning is a blank, an
operator, a group or a word, or there the lexemes come to an end. -/
theorem hasLexemes (column : Nat) (chars : List Char) : HasLexemes column chars := by
  induction hlength : chars.length using Nat.strongRecOn generalizing column chars with
  | ind length ih =>
      subst hlength
      have hlexeme : ∀ (lexeme : Lexeme) rest, chars = lexeme.chars ++ rest →
          lexeme.StandsBefore rest → HasLexemes column chars := by
        rintro lexeme rest rfl hstands
        have hpos := List.length_pos_of_ne_nil hstands.chars_ne_nil
        refine .extend hstands (ih rest.length ?_ _ rest rfl)
        rw [List.length_append]
        omega
      cases chars with
      | nil => exact .of_ends .endOfLine
      | cons c chars =>
          by_cases hblank : isBlank c = true
          · exact hlexeme (.blank c) chars rfl (.blank hblank)
          · by_cases hoperator : (Reader.operatorChar? c).isSome = true
            · obtain ⟨op, hop⟩ := Operator.exists_isLongest hoperator chars
              obtain ⟨rest, hchars⟩ := hop.matchesAt
              exact hlexeme (.operator op) rest hchars.symm (.operator (hchars ▸ hop))
            · by_cases hopen : c = '('
              · subst hopen
                rcases isClosed_or_firstDefect column chars with
                  ⟨content, head, args, rest, hcontent, rfl⟩ | ⟨e, hdefect⟩
                · exact hlexeme (.group ('(' :: (content ++ [')'])) (.form head args)) rest
                    (by simp [Lexeme.chars]) (.group ⟨content, head, args, hcontent, rfl, rfl⟩)
                · exact .of_ends (.group hdefect)
              · have hends : endsWord c = false := by simpa [endsWord, hoperator] using hblank
                obtain ⟨parts, rest, hhead, hchars, ⟨hne, hparts⟩ | ⟨hparts, hquote⟩⟩ :=
                  exists_parts_of_startsWord ⟨c, chars, rfl, hends, hopen⟩
                · exact hlexeme (.word parts) rest hchars (.word hne hhead hparts)
                · rw [hchars]
                  exact .of_ends (.quote hparts hhead hquote)

end Written

section Read

variable {line : String} {lexemes : List Lexeme} {rest : List Char}

theorem read_of_areLexemes {outcome : Except ReadError Unit} (hlexemes : AreLexemes rest lexemes)
    (hends : EndsLexemes (lexemes.flatMap Lexeme.chars).length rest outcome)
    (hline : line.toList = lexemes.flatMap Lexeme.chars ++ rest) :
    read line = (do
      let tokens ← Lexeme.allTokens lexemes
      outcome
      return tokens) := by
  rw [← Nat.zero_add (List.length _)] at hends
  rw [read, hline, hlexemes.run, hends.run]
  refine bind_congr fun tokens => ?_
  cases outcome with
  | error e => rfl
  | ok => exact congrArg Except.ok (List.append_nil tokens)

/-- A line that is made of lexemes throughout is read as their tokens. -/
theorem read_eq_allTokens (hlexemes : AreLexemes [] lexemes)
    (hline : line.toList = lexemes.flatMap Lexeme.chars) :
    read line = Lexeme.allTokens lexemes := by
  rw [read_of_areLexemes hlexemes .endOfLine (by rw [hline, List.append_nil])]
  cases Lexeme.allTokens lexemes <;> rfl

/-- Every line is read as the lexemes that it is made of and what is at their end say. -/
theorem exists_read_eq (line : String) :
    ∃ lexemes rest outcome, AreLexemes rest lexemes ∧
      EndsLexemes (lexemes.flatMap Lexeme.chars).length rest outcome ∧
      line.toList = lexemes.flatMap Lexeme.chars ++ rest ∧
      read line = (do
        let tokens ← Lexeme.allTokens lexemes
        outcome
        return tokens) := by
  obtain ⟨lexemes, rest, outcome, hlexemes, hends, hline⟩ := hasLexemes 0 line.toList
  rw [Nat.zero_add] at hends
  exact ⟨lexemes, rest, outcome, hlexemes, hends, hline, read_of_areLexemes hlexemes hends hline⟩

/-- A line that is read is made of lexemes throughout. -/
theorem exists_areLexemes_of_read {tokens : List Token} (h : read line = .ok tokens) :
    ∃ lexemes, AreLexemes [] lexemes ∧ line.toList = lexemes.flatMap Lexeme.chars := by
  obtain ⟨lexemes, rest, outcome, hlexemes, hends, hline, hread⟩ := exists_read_eq line
  rw [h] at hread
  obtain ⟨found, -, hread⟩ := bind_eq_ok.mp hread.symm
  obtain ⟨⟨⟩, houtcome, -⟩ := bind_eq_ok.mp hread
  cases hends with
  | endOfLine => exact ⟨lexemes, hlexemes, by rw [hline, List.append_nil]⟩
  | quote => cases houtcome
  | group => cases houtcome

end Read

end ShellLowering.Line
