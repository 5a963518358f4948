import ShellLowering.Proofs.GroupReading
import ShellLowering.Proofs.ReadableTokens

namespace ShellLowering

namespace Line

/-- A text of a group between quotes of a kind that it does not hold. -/
def quotedGroupText (text : String) : List Char :=
  let mark := if '"' ∈ text.toList then '\'' else '"'
  mark :: text.toList ++ [mark]

/-- How a token is written: a symbol with every character escaped, a string between double quotes,
a call in parentheses, and operators and numbers by their texts. -/
def encodedToken : Token → List Char
  | .operator op => op.text.toList
  | .symbol name => name.toList.flatMap escaped
  | .string value => '"' :: value.toList.flatMap doubleQuotedChar ++ ['"']
  | .number value => (value.text?.getD "").toList
  | .embedded term => term.groupText quotedGroupText

/-- The encodings of the tokens, set apart by blanks. -/
def encodedLine (tokens : List Token) : String :=
  String.ofList ([' '].intercalate (tokens.map encodedToken))

theorem readsItem_quotedGroupText {text : String} (h : IsQuotable text) :
    GroupReader.ReadsItem (quotedGroupText text) (.text text) := by
  unfold quotedGroupText
  split
  · next hmem =>
      exact GroupReader.readsItem_quoted (.inr rfl) (h.resolve_left (not_not.mpr hmem))
  · next hmem => exact GroupReader.readsItem_quoted (.inl rfl) hmem

theorem reads_encodedToken {token : Token} (h : token.IsReadable) :
    Reads Text.isBlank (encodedToken token) [token] := by
  cases token with
  | operator op => exact reads_operator op
  | symbol name =>
      exact (reads_escaped h.1 (Word.unquotedToken_of_isSymbolText h.2)).mono endsWord_of_isBlank
  | string value => exact (reads_doubleQuoted value).mono endsWord_of_isBlank
  | number value =>
      obtain ⟨n, rfl, hlength⟩ := h
      rw [encodedToken, Number.text?, Number.integerText?_natCast hlength]
      exact (reads_number hlength).mono endsWord_of_isBlank
  | embedded term =>
      exact (reads_groupText (fun _ => readsItem_quotedGroupText) h).mono fun _ _ => rfl

theorem read_encodedLine {tokens : List Token} (h : ∀ token ∈ tokens, token.IsReadable) :
    read (encodedLine tokens) = .ok tokens := by
  have hall := ReadsAll.map fun token htoken => reads_encodedToken (h token htoken)
  rw [List.flatMap_singleton'] at hall
  exact read_of_reads hall.reads_intercalate

/-- The readable tokens, in any order and number, are what lines are read into; the encoded line is
one that is read into them. -/
theorem exists_read_iff_isReadable :
    (∀ tokens, (∃ line, read line = .ok tokens) ↔ ∀ token ∈ tokens, token.IsReadable) ∧
      ∀ tokens, (∀ token ∈ tokens, token.IsReadable) → read (encodedLine tokens) = .ok tokens := by
  refine ⟨fun tokens => ⟨?_, ?_⟩, fun tokens h => read_encodedLine h⟩
  · rintro ⟨line, hline⟩
    exact isReadable_of_read hline
  · intro h
    exact ⟨encodedLine tokens, read_encodedLine h⟩

/-- Digits behind a zero, quote marks, empty texts and a nested call are all read back; a symbol
without a text is never read. -/
theorem exists_read_iff_isReadable_quotes :
    let tokens : List Token := [.operator (.redirect .appendBoth), .symbol "007", .symbol "(a b",
      .string "say \"\\\"", .string "", .number (.int 0),
      .embedded (.form "f" [.text "", .form "g" [.text "a\"b"]])]
    (∀ token ∈ tokens, token.IsReadable) ∧
      encodedLine tokens = "&>> \\0\\0\\7 \\(\\a\\ \\b \"say \\\"\\\\\\\"\" \"\" 0 " ++
        "(\"f\" \"\" (\"g\" 'a\"b'))" ∧
      read (encodedLine tokens) = .ok tokens ∧
      ¬ ∃ line, read line = .ok [.symbol "", .string ""] := by
  intro tokens
  have hempty : IsQuotable "" := .inl (by decide)
  have hinner : (Term.form "g" [.text "a\"b"]).InGroup IsQuotable :=
    .form (.inl (by decide)) (by simpa using .text (.inr (by decide)))
  have hcall : (Term.form "f" [.text "", .form "g" [.text "a\"b"]]).IsCall IsQuotable := by
    refine ⟨.form (.inl (by decide)) ?_, _, _, rfl⟩
    simpa using ⟨.text hempty, hinner⟩
  have hreadable : ∀ token ∈ tokens, token.IsReadable := by
    simp only [tokens, List.forall_mem_cons]
    refine ⟨trivial, ⟨by decide, fun _ => by decide⟩, ⟨by decide, fun h => ?_⟩, trivial, trivial,
      ⟨0, rfl, by decide⟩, hcall, by simp⟩
    exact absurd h (by decide)
  refine ⟨hreadable, by decide, exists_read_iff_isReadable.2 tokens hreadable, fun hread => ?_⟩
  have hsymbol := (exists_read_iff_isReadable.1 _).mp hread _ List.mem_cons_self
  exact hsymbol.1 rfl

end Line
end ShellLowering
