import ShellLowering.Line.Lowering
import ShellLowering.Proofs.Lexemes

namespace ShellLowering.Line

open Text

instance (s : String) : Decidable (IsNumeral s) :=
  inferInstanceAs (Decidable (_ ∧ _))

namespace Word

/-- The token of a word by the rule that a quote anywhere in it keeps it from being a number. -/
def strictToken (word : Word) : Token :=
  match word.quoted, word.bare with
  | true, false => .string word.text
  | true, true => .symbol word.text
  | false, _ =>
    if IsNumeral word.text then .number (.int (asciiDigitsValue word.text)) else .symbol word.text

/-- The token of a word by the rule that only quotes throughout keep it from being a number. -/
def laxToken (word : Word) : Token :=
  if word.quoted && !word.bare then .string word.text
  else if IsNumeral word.text then .number (.int (asciiDigitsValue word.text))
  else .symbol word.text

/-- A word with the text of a numeral, of which one part is quoted and another is not. -/
def IsQuotedNumeral (word : Word) : Prop :=
  word.quoted = true ∧ word.bare = true ∧ IsNumeral word.text

instance (word : Word) : Decidable word.IsQuotedNumeral :=
  inferInstanceAs (Decidable (_ ∧ _ ∧ _))

theorem laxToken_eq_strictToken_iff {word : Word} :
    word.laxToken = word.strictToken ↔ ¬ word.IsQuotedNumeral := by
  obtain ⟨text, quoted, bare⟩ := word
  by_cases hnumeral : IsNumeral text <;> cases quoted <;> cases bare <;>
    simp [laxToken, strictToken, IsQuotedNumeral, hnumeral]

/-- A word that is not quoted throughout, of more digits than can be read. -/
def IsOverlong (word : Word) : Prop :=
  (word.quoted && !word.bare) = false ∧ isDigitText word.text = true ∧
    digitLimit < word.text.length

instance (word : Word) : Decidable word.IsOverlong :=
  inferInstanceAs (Decidable (_ ∧ _ ∧ _))

theorem token_eq (word : Word) :
    word.token =
      if word.IsOverlong then .error (.tooManyDigits word.text.length) else .ok word.laxToken := by
  unfold token laxToken unquotedToken IsOverlong IsNumeral
  by_cases hquoted : (word.quoted && !word.bare) = true
  · simp [hquoted]
  · by_cases hdigits : isDigitText word.text = true
    · by_cases hlimit : digitLimit < word.text.length
      · simp [hquoted, hdigits, hlimit]
      · by_cases hzero : word.text = "0" ∨ word.text.toList.head? ≠ some '0' <;>
          simp [hquoted, hdigits, hlimit, hzero]
    · simp [hquoted, hdigits]

end Word

namespace Lexeme

/-- The token of a lexeme, where words have theirs by the given rule. -/
def token? (rule : Word → Token) : Lexeme → Option Token
  | .blank _ => none
  | .operator op => some (.operator op)
  | .group _ form => some (.embedded form)
  | .word parts => some (rule (.ofParts parts))

/-- The number of digits of a word that has too many. -/
def overlong? : Lexeme → Option Nat
  | .word parts =>
    if (Word.ofParts parts).IsOverlong then some (Word.ofParts parts).text.length else none
  | _ => none

theorem tokens_eq (lexeme : Lexeme) :
    lexeme.tokens =
      match lexeme.overlong? with
      | some count => .error (.tooManyDigits count)
      | none => .ok (lexeme.token? Word.laxToken).toList := by
  cases lexeme with
  | word parts =>
      rw [tokens, Word.token_eq, overlong?]
      split <;> rfl
  | _ => rfl

/-- Lexemes have their tokens by the lax rule, unless a word among them is overlong; the first that
is decides on the error. -/
theorem allTokens_eq (lexemes : List Lexeme) :
    allTokens lexemes =
      match lexemes.findSome? overlong? with
      | some count => .error (.tooManyDigits count)
      | none => .ok (lexemes.filterMap (token? Word.laxToken)) := by
  induction lexemes with
  | nil => rfl
  | cons lexeme lexemes ih =>
      rw [allTokens, tokens_eq, ih, List.findSome?_cons, List.filterMap_eq_flatMap_toList,
        List.filterMap_eq_flatMap_toList, List.flatMap_cons]
      cases lexeme.overlong? with
      | some count => rfl
      | none => cases lexemes.findSome? overlong? <;> rfl

theorem eq_filterMap_of_allTokens {lexemes : List Lexeme} {tokens : List Token}
    (h : allTokens lexemes = .ok tokens) : tokens = lexemes.filterMap (token? Word.laxToken) := by
  rw [allTokens_eq] at h
  split at h
  · cases h
  · injection h with h
    exact h.symm

/-- Two rules give a line the same tokens if and only if they agree on its words. -/
theorem filterMap_token?_eq_iff {rule other : Word → Token} {lexemes : List Lexeme} :
    lexemes.filterMap (token? rule) = lexemes.filterMap (token? other) ↔
      ∀ parts, .word parts ∈ lexemes → rule (.ofParts parts) = other (.ofParts parts) := by
  induction lexemes with
  | nil => simp
  | cons lexeme lexemes ih => cases lexeme <;> simp [List.filterMap_cons, token?, ih]

end Lexeme

/-- A line that is read is made of lexemes, and however it is, its tokens are theirs: words that are
quoted throughout are strings, and of all other words those are numbers that have the text of a
numeral. So a quote in a word keeps it from being a number if and only if no word that is quoted in
part has the text of a numeral. -/
theorem read_eq_strictTokens_iff {line : String} {tokens : List Token}
    (h : read line = .ok tokens) :
    (∃ lexemes, AreLexemes [] lexemes ∧ line.toList = lexemes.flatMap Lexeme.chars) ∧
    ∀ lexemes, AreLexemes [] lexemes → line.toList = lexemes.flatMap Lexeme.chars →
      tokens = lexemes.filterMap (Lexeme.token? Word.laxToken) ∧
      (tokens = lexemes.filterMap (Lexeme.token? Word.strictToken) ↔
        ∀ parts, .word parts ∈ lexemes → ¬ (Word.ofParts parts).IsQuotedNumeral) := by
  refine ⟨exists_areLexemes_of_read h, fun lexemes hlexemes hline => ?_⟩
  rw [read_eq_allTokens hlexemes hline] at h
  obtain rfl := Lexeme.eq_filterMap_of_allTokens h
  simp only [Lexeme.filterMap_token?_eq_iff, Word.laxToken_eq_strictToken_iff, true_and]

/-- An escaped digit is not quoted, and a text with a leading zero is no numeral. -/
theorem read_eq_strictTokens_iff_escaped_digit :
    let tokens : List Token := [.number (.int 10), .string "2", .symbol "03"]
    let lexemes : List Lexeme := [.word [.escaped '1', .bare '0'], .blank ' ',
      .word [.single ['2']], .blank ' ', .word [.bare '0', .double [.escaped '3']]]
    read "\\10 '2' 0\"\\3\"" = .ok tokens ∧ AreLexemes [] lexemes ∧
      "\\10 '2' 0\"\\3\"".toList = lexemes.flatMap Lexeme.chars ∧
      tokens = lexemes.filterMap (Lexeme.token? Word.strictToken) := by
  intro tokens lexemes
  have hread : read "\\10 '2' 0\"\\3\"" = .ok tokens := by rfl
  have hblank : ∀ {rest : List Char}, ∀ c ∈ (' ' :: rest).head?, endsWord c = true := by
    rintro rest c ⟨⟩
    rfl
  have hlexemes : AreLexemes [] lexemes :=
    .cons (.word (by decide) (by decide) (.ends (by decide) hblank)) <|
    .cons (.blank (by decide)) <|
    .cons (.word (by decide) (by decide) (.ends (by decide) hblank)) <|
    .cons (.blank (by decide)) <|
    .cons (.word (by decide) (by decide) (.ends (by decide) nofun)) .nil
  have hline : "\\10 '2' 0\"\\3\"".toList = lexemes.flatMap Lexeme.chars := by rfl
  refine ⟨hread, hlexemes, hline,
    (((read_eq_strictTokens_iff hread).2 lexemes hlexemes hline).2).mpr fun parts hparts => ?_⟩
  simp only [lexemes, List.mem_cons, List.not_mem_nil, Lexeme.word.injEq, reduceCtorEq, or_false,
    false_or] at hparts
  rcases hparts with rfl | rfl | rfl <;> decide

/-- `1"0"` is a number, although a part of it is quoted, and it names the descriptor of a
redirection behind it. -/
theorem read_quotedNumeral :
    let lexemes : List Lexeme := [.word [.bare '1', .double [.plain '0']]]
    AreLexemes [] lexemes ∧ "1\"0\"".toList = lexemes.flatMap Lexeme.chars ∧
      read "1\"0\"" = .ok [.number (.int 10)] ∧
      [Token.number (.int 10)] ≠ lexemes.filterMap (Lexeme.token? Word.strictToken) ∧
      lexemes.filterMap (Lexeme.token? Word.strictToken) = [.symbol "10"] ∧
      lower .batch "ls 1\"0\">f" = .ok (.external (.text "ls") []
        (some [.of .output 10 (.expansion .redirectTarget "f")])) := by
  refine ⟨.cons (.word (by decide) (by decide) (.ends (by decide) nofun)) .nil, rfl, rfl, ?_, rfl,
    rfl⟩
  intro h
  cases h

end ShellLowering.Line
