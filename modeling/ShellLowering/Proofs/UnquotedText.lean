import Mathlib.Data.List.Chain
import Mathlib.Data.List.Infix
import Mathlib.Order.WellFounded
import ShellLowering.Proofs.PlainToken

namespace ShellLowering

open Text

/-- Of the operators that the characters begin with, the operator is the longest. -/
structure Operator.IsLongest (op : Operator) (chars : List Char) : Prop where
  matchesAt : op.text.toList <+: chars
  length_le : ∀ other : Operator, other.text.toList <+: chars →
    other.text.length ≤ op.text.length

namespace Operator

theorem length_text_le (op : Operator) : op.text.length ≤ 3 := by
  rcases op with op | ⟨op | op | _⟩ <;> first | (cases op <;> decide) | decide

/-- Some operator matches where an operator character stands, so one of them is the longest. -/
theorem exists_isLongest {c : Char} (hc : (Line.Reader.operatorChar? c).isSome = true)
    (chars : List Char) : ∃ op : Operator, op.IsLongest (c :: chars) := by
  obtain ⟨single, hsingle⟩ := Option.isSome_iff_exists.mp hc
  have htext : single.text.toList = [c] := by
    rw [← ofText?_eq_some_iff.mp hsingle, String.toList_singleton]
  have hmatch : single.text.toList <+: c :: chars := by
    rw [htext]
    exact List.prefix_append [c] chars
  obtain ⟨op, hop, hlongest⟩ := (measure fun op : Operator => 3 - op.text.length).wf.has_min
    {op | op.text.toList <+: c :: chars} ⟨single, hmatch⟩
  refine ⟨op, hop, fun other hother => ?_⟩
  have hle := hlongest other hother
  change ¬ 3 - other.text.length < 3 - op.text.length at hle
  have hlength := length_text_le other
  omega

theorem IsLongest.ofText?_push {op : Operator} {rest : List Char}
    (h : op.IsLongest (op.text.toList ++ rest)) :
    ∀ c ∈ rest.head?, ofText? (op.text.push c) = none := by
  intro c hc
  obtain ⟨rest, rfl⟩ := List.head?_eq_some_iff.mp hc
  rw [Option.eq_none_iff_forall_ne_some]
  intro longer hlonger
  have htext := ofText?_eq_some_iff.mp hlonger
  have hmatch : longer.text.toList <+: op.text.toList ++ c :: rest := by
    rw [← htext, String.toList_push]
    exact ⟨rest, by simp⟩
  have hle := h.length_le longer hmatch
  rw [← htext, String.length_push] at hle
  omega

end Operator

namespace Line

/-- A piece of a line: a blank, or a text and the token that it is read as. -/
inductive Piece where
  | blank (c : Char)
  | token (text : String) (token : Token)

namespace Piece

def chars : Piece → List Char
  | .blank c => [c]
  | .token text _ => text.toList

def token? : Piece → Option Token
  | .blank _ => none
  | .token _ t => some t

def text? : Piece → Option String
  | .blank _ => none
  | .token text _ => some text

/-- Whether the piece is a token other than an operator. -/
def IsWord : Piece → Prop
  | .blank _ => False
  | .token _ (.operator _) => False
  | .token _ _ => True

end Piece

/-- Pieces that are as long as possible: an operator is the longest one that matches where it
stands, and a word ends only in front of a blank or an operator. -/
inductive IsCut : List Piece → Prop
  | nil : IsCut []
  | blank {c : Char} {pieces : List Piece} (hc : isBlank c = true) (hpieces : IsCut pieces) :
      IsCut (.blank c :: pieces)
  | operator {op : Operator} {pieces : List Piece}
      (hlongest : op.IsLongest (op.text.toList ++ pieces.flatMap Piece.chars))
      (hpieces : IsCut pieces) : IsCut (.token op.text (.operator op) :: pieces)
  | word {text : String} {token : Token} {pieces : List Piece} (hne : text ≠ "")
      (hchars : ∀ c ∈ text.toList, endsWord c = false)
      (hends : ∀ c ∈ (pieces.flatMap Piece.chars).head?, endsWord c = true)
      (htoken : Word.unquotedToken text = .ok token) (hpieces : IsCut pieces) :
      IsCut (.token text token :: pieces)

/-- Characters without quotes, escapes and opening parentheses, and without digits in a row that
are too many for a number. -/
structure IsUnquoted (chars : List Char) : Prop where
  plain : ∀ c ∈ chars, c ≠ '\'' ∧ c ≠ '"' ∧ c ≠ '\\' ∧ c ≠ '('
  digits : ∀ run, run <:+: chars → (∀ c ∈ run, c.isDigit = true) → run.length ≤ digitLimit

theorem IsUnquoted.of_infix {part chars : List Char} (h : IsUnquoted chars)
    (hpart : part <:+: chars) : IsUnquoted part :=
  ⟨fun c hc => h.plain c (hpart.subset hc), fun run hrun => h.digits run (hrun.trans hpart)⟩

theorem toList_text_ne_nil (op : Operator) : op.text.toList ≠ [] := by
  obtain ⟨c, -, hc⟩ := exists_head?_text op
  intro hnil
  simp [hnil] at hc

/-- The token of an unquoted word is written as the word. -/
theorem text?_of_unquotedToken {text : String} {token : Token}
    (h : Word.unquotedToken text = .ok token) : token.text? = some text := by
  rcases Word.unquotedToken_cases h with ⟨n, rfl, hlimit, rfl⟩ | ⟨-, rfl⟩
  · exact Number.integerText?_natCast hlimit
  · rfl

theorem isWord_of_unquotedToken {text : String} {token : Token}
    (h : Word.unquotedToken text = .ok token) : (Piece.token text token).IsWord := by
  rcases Word.unquotedToken_cases h with ⟨n, -, -, rfl⟩ | ⟨-, rfl⟩
  · trivial
  · trivial

theorem IsUnquoted.exists_unquotedToken {text : List Char} (h : IsUnquoted text) :
    ∃ token, Word.unquotedToken (String.ofList text) = .ok token := by
  unfold Word.unquotedToken
  split
  · next hdigits =>
      have hlength := h.digits text List.infix_rfl (by simpa using (isDigitText_iff.mp hdigits).2)
      rw [if_neg (by simpa using hlength)]
      split <;> exact ⟨_, rfl⟩
  · exact ⟨_, rfl⟩

/-- Every unquoted text can be cut into pieces. The induction is on its length: what stands at the
beginning is a blank, an operator or a word, and decides how far the first piece reaches. -/
theorem IsUnquoted.exists_isCut {chars : List Char} (h : IsUnquoted chars) :
    ∃ pieces, IsCut pieces ∧ chars = pieces.flatMap Piece.chars := by
  induction hlength : chars.length using Nat.strongRecOn generalizing chars with
  | ind length ih =>
      subst hlength
      have hrest : ∀ first rest, chars = first ++ rest → first ≠ [] →
          ∃ pieces, IsCut pieces ∧ rest = pieces.flatMap Piece.chars := by
        rintro first rest rfl hne
        have hpos := List.length_pos_iff.mpr hne
        refine ih rest.length ?_ (h.of_infix (List.suffix_append first rest).isInfix) rfl
        rw [List.length_append]
        omega
      cases chars with
      | nil => exact ⟨[], .nil, rfl⟩
      | cons c chars =>
          by_cases hblank : isBlank c = true
          · obtain ⟨pieces, hpieces, rfl⟩ := hrest [c] chars rfl (by simp)
            exact ⟨.blank c :: pieces, .blank hblank hpieces, rfl⟩
          · by_cases hoperator : (Reader.operatorChar? c).isSome = true
            · obtain ⟨op, hop⟩ := Operator.exists_isLongest hoperator chars
              obtain ⟨rest, hchars⟩ := hop.matchesAt
              obtain ⟨pieces, hpieces, rfl⟩ := hrest _ rest hchars.symm (toList_text_ne_nil op)
              rw [← hchars] at hop ⊢
              exact ⟨.token op.text (.operator op) :: pieces, .operator hop hpieces, rfl⟩
            · have hc : endsWord c = false := by simpa [endsWord, hoperator] using hblank
              obtain ⟨run, rest, rfl, hrun, hends⟩ := exists_run_until endsWord chars
              have hword : IsUnquoted (c :: run) := h.of_infix ⟨[], rest, rfl⟩
              obtain ⟨token, htoken⟩ := hword.exists_unquotedToken
              obtain ⟨pieces, hpieces, rfl⟩ := hrest (c :: run) rest rfl (by simp)
              have hne : String.ofList (c :: run) ≠ "" := by simp
              have hchars : ∀ d ∈ (String.ofList (c :: run)).toList, endsWord d = false := by
                simpa using ⟨hc, hrun⟩
              refine ⟨.token _ token :: pieces, .word hne hchars hends htoken hpieces, ?_⟩
              simp [Piece.chars]

/-- Cut pieces are read as their tokens. -/
theorem IsCut.run {pieces : List Piece} (h : IsCut pieces)
    (hplain : ∀ c ∈ pieces.flatMap Piece.chars, c ≠ '\'' ∧ c ≠ '"' ∧ c ≠ '\\' ∧ c ≠ '(')
    (column : Nat) :
    Reader.between.run column (pieces.flatMap Piece.chars) =
      .ok (pieces.filterMap Piece.token?) := by
  induction h generalizing column with
  | nil => rfl
  | @blank c pieces hc hpieces ih =>
      rw [List.flatMap_cons, List.forall_mem_append] at hplain
      rw [List.flatMap_cons, Piece.chars, List.singleton_append, Reader.run_between_blank hc,
        ih hplain.2]
      rfl
  | @operator op pieces hlongest hpieces ih =>
      rw [List.flatMap_cons, List.forall_mem_append] at hplain
      rw [List.flatMap_cons, Piece.chars, Reader.run_operatorText,
        Reader.run_operator_of_ends op _ hlongest.ofText?_push, ih hplain.2]
      rfl
  | @word text token pieces hne hchars hends htoken hpieces ih =>
      rw [List.flatMap_cons, List.forall_mem_append] at hplain
      rw [List.flatMap_cons, Piece.chars]
      have hbare : ∀ c ∈ text.toList, isBareChar c = true := by
        intro c hc
        obtain ⟨hsingle, hdouble, hescape, -⟩ := hplain.1 c hc
        simp [isBareChar, hchars c hc, hsingle, hdouble, hescape]
      have hhead : text.toList.head? ≠ some '(' :=
        fun hhead => (hplain.1 '(' (List.mem_of_mem_head? hhead)).2.2.2 rfl
      rw [reads_bare hne hbare hhead htoken column _ hends, ih hplain.2]
      rfl

namespace IsCut

variable {pieces : List Piece}

theorem isBlank_of_mem (h : IsCut pieces) {c : Char} (hmem : Piece.blank c ∈ pieces) :
    isBlank c = true := by
  induction h with
  | nil => cases hmem
  | blank hc hpieces ih =>
      rcases List.mem_cons.mp hmem with heq | hmem
      · cases heq
        exact hc
      · exact ih hmem
  | operator hlongest hpieces ih => exact ih (by simpa using hmem)
  | word hne hchars hends htoken hpieces ih => exact ih (by simpa using hmem)

/-- What a text and its token are: those of an operator, or those of a word. -/
theorem cases_of_mem (h : IsCut pieces) {text : String} {token : Token}
    (hmem : Piece.token text token ∈ pieces) :
    (∃ op, text = op.text ∧ token = .operator op) ∨ (text ≠ "" ∧
      (∀ c ∈ text.toList, endsWord c = false) ∧ Word.unquotedToken text = .ok token) := by
  induction h with
  | nil => cases hmem
  | blank hc hpieces ih => exact ih (by simpa using hmem)
  | operator hlongest hpieces ih =>
      rcases List.mem_cons.mp hmem with heq | hmem
      · cases heq
        exact .inl ⟨_, rfl, rfl⟩
      · exact ih hmem
  | word hne hchars hends htoken hpieces ih =>
      rcases List.mem_cons.mp hmem with heq | hmem
      · cases heq
        exact .inr ⟨hne, hchars, htoken⟩
      · exact ih hmem

/-- No token is without a text, and no text holds a blank. -/
theorem text_of_mem (h : IsCut pieces) {text : String} {token : Token}
    (hmem : Piece.token text token ∈ pieces) :
    token.text? = some text ∧ text ≠ "" ∧ ∀ c ∈ text.toList, isBlank c = false := by
  rcases h.cases_of_mem hmem with ⟨op, rfl, rfl⟩ | ⟨hne, hchars, htoken⟩
  · exact ⟨rfl, mt String.toList_eq_nil_iff.mpr (toList_text_ne_nil op),
      Reader.isBlank_of_mem_text op⟩
  · refine ⟨text?_of_unquotedToken htoken, hne, fun c hc => ?_⟩
    have hends := hchars c hc
    rw [endsWord, Bool.or_eq_false_iff] at hends
    exact hends.1

theorem isLongest_of_append {before after : List Piece} {op : Operator}
    {text : String} (h : IsCut (before ++ .token text (.operator op) :: after)) :
    op.IsLongest (op.text.toList ++ after.flatMap Piece.chars) := by
  induction before with
  | nil =>
      cases h with
      | operator hlongest _ => exact hlongest
      | word _ _ _ htoken _ => exact (isWord_of_unquotedToken htoken).elim
  | cons piece before ih =>
      cases h with
      | blank _ hpieces => exact ih hpieces
      | operator _ hpieces => exact ih hpieces
      | word _ _ _ _ hpieces => exact ih hpieces

/-- What ends a word is not the beginning of a word. -/
theorem not_isWord_head {next : Piece} (h : IsCut (next :: pieces))
    (hends : ∀ c ∈ ((next :: pieces).flatMap Piece.chars).head?, endsWord c = true) :
    ¬ next.IsWord := by
  cases next with
  | blank c => exact id
  | token text next =>
      rcases h.cases_of_mem List.mem_cons_self with ⟨op, rfl, rfl⟩ | ⟨hne, hchars, -⟩
      · exact id
      · cases htext : text.toList with
        | nil => exact absurd (String.toList_eq_nil_iff.mp htext) hne
        | cons c chars =>
            have hword : endsWord c = false := hchars c (htext ▸ List.mem_cons_self)
            have hend : endsWord c = true := hends c (by simp [Piece.chars, htext])
            rw [hword] at hend
            cases hend

/-- Between two words there is a blank or an operator. -/
theorem isChain (h : IsCut pieces) :
    pieces.IsChain fun first second => ¬ (first.IsWord ∧ second.IsWord) := by
  induction h with
  | nil => exact .nil
  | blank hc hpieces ih => exact List.isChain_cons.mpr ⟨fun _ _ h => h.1, ih⟩
  | operator hlongest hpieces ih => exact List.isChain_cons.mpr ⟨fun _ _ h => h.1, ih⟩
  | word hne hchars hends htoken hpieces ih =>
      refine List.isChain_cons.mpr ⟨fun next hnext hwords => ?_, ih⟩
      obtain ⟨rest, rfl⟩ := List.head?_eq_some_iff.mp hnext
      exact hpieces.not_isWord_head hends hwords.2

/-- Without its blanks the line is the texts of its tokens. -/
theorem filter_chars (h : IsCut pieces) :
    (pieces.flatMap Piece.chars).filter (fun c => !isBlank c) =
      (pieces.filterMap Piece.text?).flatMap String.toList := by
  have hkept : ∀ piece ∈ pieces, piece.chars.filter (fun c => !isBlank c) =
      piece.text?.toList.flatMap String.toList := by
    intro piece hmem
    cases piece with
    | blank c => simp [Piece.chars, Piece.text?, h.isBlank_of_mem hmem]
    | token text t =>
        have hchars := (h.text_of_mem hmem).2.2
        simpa [Piece.chars, Piece.text?] using hchars
  rw [List.filter_flatMap, List.flatMap_congr hkept, List.filterMap_eq_flatMap_toList,
    List.flatMap_assoc]

theorem mapM_text? (h : IsCut pieces) :
    (pieces.filterMap Piece.token?).mapM Token.text? = some (pieces.filterMap Piece.text?) := by
  induction h with
  | nil => rfl
  | blank _ _ ih => exact ih
  | operator _ _ ih => simp [Piece.token?, Piece.text?, Token.text?, Token.word?, ih]
  | word _ _ _ htoken _ ih =>
      simp [Piece.token?, Piece.text?, text?_of_unquotedToken htoken, ih]

end IsCut

theorem not_mem_of_endsWord {c : Char} (h : endsWord c = false) : c ∉ ['|', '&', '<', '>'] := by
  have hends : ∀ d ∈ ['|', '&', '<', '>'], endsWord d = true := forall_mem_of_all (by decide)
  intro hmem
  rw [hends c hmem] at h
  cases h

/-- A word is a number if it is a numeral, and stays a symbol otherwise. -/
theorem numeral_or_symbol_of_unquotedToken {text : String} {token : Token}
    (h : Word.unquotedToken text = .ok token) :
    (IsNumeral text ∧ ∃ n : Nat, token = .number (.int n)) ∨
      (¬ IsNumeral text ∧ token = .symbol text) := by
  rcases Word.unquotedToken_cases h with ⟨n, htext, -, htoken⟩ | ⟨hsymbol, htoken⟩
  · exact .inl ⟨htext ▸ isNumeral_toString n, n, htoken⟩
  · refine .inr ⟨?_, htoken⟩
    rintro ⟨hdigits, hzero⟩
    obtain ⟨htwo, -, hhead⟩ := hsymbol hdigits
    rcases hzero with hzero | hzero
    · rw [hzero] at htwo
      exact absurd htwo (by decide)
    · exact hzero hhead

/-- Unquoted text is split without loss. The line is read, and it consists of blanks and of its
tokens' texts, which have no blanks and are not empty, so that the texts joined are the line without
its blanks. Each operator is the longest one that matches where it stands; all other tokens are
words, which hold no operator character, are never next to each other, and are numbers exactly if
they are numerals. -/
theorem read_of_isUnquoted {line : String} (h : IsUnquoted line.toList) :
    ∃ tokens texts pieces, read line = .ok tokens ∧ tokens = pieces.filterMap Piece.token? ∧
      tokens.mapM Token.text? = some texts ∧ line.toList = pieces.flatMap Piece.chars ∧
      (∀ c, Piece.blank c ∈ pieces → isBlank c = true) ∧
      String.join texts = String.ofList (line.toList.filter fun c => !isBlank c) ∧
      (∀ before text op after, pieces = before ++ .token text (.operator op) :: after →
        op.IsLongest (op.text.toList ++ after.flatMap Piece.chars)) ∧
      (∀ token ∈ tokens, ∃ text, Piece.token text token ∈ pieces) ∧
      (∀ text token, Piece.token text token ∈ pieces →
        token.text? = some text ∧ text ≠ "" ∧ (∀ c ∈ text.toList, isBlank c = false) ∧
        ((∃ op, token = .operator op) ∨
          ((∀ c ∈ text.toList, c ∉ ['|', '&', '<', '>']) ∧
            ((IsNumeral text ∧ ∃ n : Nat, token = .number (.int n)) ∨
              (¬ IsNumeral text ∧ token = .symbol text))))) ∧
      pieces.IsChain fun first second => ¬ (first.IsWord ∧ second.IsWord) := by
  obtain ⟨pieces, hpieces, hline⟩ := h.exists_isCut
  have hread : read line = .ok (pieces.filterMap Piece.token?) := by
    rw [read, hline]
    exact hpieces.run (hline ▸ h.plain) 0
  refine ⟨_, _, pieces, hread, rfl, hpieces.mapM_text?, hline, fun c => hpieces.isBlank_of_mem,
    ?_, ?_, ?_, ?_, hpieces.isChain⟩
  · rw [← String.toList_inj, String.toList_join, String.toList_ofList, hline,
      hpieces.filter_chars]
  · rintro before text op after rfl
    exact hpieces.isLongest_of_append
  · intro token htoken
    obtain ⟨_ | ⟨text, t⟩, hpiece, ht⟩ := List.mem_filterMap.mp htoken
    · cases ht
    · cases ht
      exact ⟨text, hpiece⟩
  · intro text token hmem
    obtain ⟨htext, hne, hblank⟩ := hpieces.text_of_mem hmem
    refine ⟨htext, hne, hblank, ?_⟩
    rcases hpieces.cases_of_mem hmem with ⟨op, -, hop⟩ | ⟨-, hchars, hword⟩
    · exact .inl ⟨op, hop⟩
    · exact .inr ⟨fun c hc => not_mem_of_endsWord (hchars c hc),
        numeral_or_symbol_of_unquotedToken hword⟩

/-- Operators that share characters, digits in front of them, and a digit word behind a zero. -/
theorem read_of_isUnquoted_adjacent_operators :
    let line := "2>&1|?x&>>007 0&&&"
    let tokens : List Token := [.number (.int 2), .operator (.redirect .duplicate),
      .number (.int 1), .operator (.connect (.pipe .filter)), .symbol "x",
      .operator (.redirect .appendBoth), .symbol "007", .number (.int 0),
      .operator (.connect (.clause .and)), .operator (.connect .background)]
    IsUnquoted line.toList ∧ read line = .ok tokens ∧
      (tokens.mapM Token.text?).map String.join = some "2>&1|?x&>>0070&&&" := by
  intro line tokens
  have hunquoted : IsUnquoted "2>&1|?x&>>007 0&&&".toList := by
    refine ⟨forall_mem_of_all (by decide), fun run hrun _ => ?_⟩
    exact Nat.le_trans hrun.length_le (by decide)
  have hread : read "2>&1|?x&>>007 0&&&" = .ok tokens := by rfl
  obtain ⟨tokens', texts, pieces, hread', -, htexts, -, -, hjoin, -⟩ :=
    read_of_isUnquoted hunquoted
  cases hread.symm.trans hread'
  refine ⟨hunquoted, hread, ?_⟩
  rw [htexts, Option.map_some, hjoin]
  decide

end Line
end ShellLowering
