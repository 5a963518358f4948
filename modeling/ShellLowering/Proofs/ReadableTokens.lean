import ShellLowering.Line.Reader
import ShellLowering.Proofs.GroupContent
import ShellLowering.Proofs.NumeralText

namespace ShellLowering

/-- A token that some line is read into. -/
def Token.IsReadable : Token → Prop
  | .operator _ => True
  | .symbol name => name ≠ "" ∧ Line.Word.IsSymbolText name
  | .string _ => True
  | .number value => ∃ n : Nat, value = .int n ∧ (toString n).length ≤ digitLimit
  | .embedded term => term.IsCall Line.IsQuotable

namespace Line

/-- A word that was begun: it has a part already, or its first one is an escape. -/
structure Word.IsSound (word : Word) (quoting : Quoting) : Prop where
  text : word.bare = true → word.text ≠ ""
  begun : word.quoted = true ∨ word.bare = true ∨ quoting = .bareEscape

namespace Word

theorem push_ne_empty (s : String) (c : Char) : s.push c ≠ "" := by
  intro h
  simpa [String.toList_push] using congrArg String.toList h

theorem isSound_pushBare (word : Word) (c : Char) (quoting : Quoting) :
    (word.pushBare c).IsSound quoting :=
  ⟨fun _ => push_ne_empty word.text c, .inr (.inl rfl)⟩

theorem isSound_pushQuoted (word : Word) (c : Char) (quoting : Quoting) :
    (word.pushQuoted c).IsSound quoting :=
  ⟨fun _ => push_ne_empty word.text c, .inl rfl⟩

theorem isSound_passQuote {word : Word} (h : word.bare = true → word.text ≠ "")
    (quoting : Quoting) : word.passQuote.IsSound quoting :=
  ⟨h, .inl rfl⟩

theorem isReadable_of_token {word : Word} (h : word.IsSound .bare) {token : Token}
    (htoken : word.token = .ok token) : token.IsReadable := by
  unfold Word.token at htoken
  split at htoken
  · injection htoken with htoken
    subst htoken
    trivial
  · next hquoted =>
      have hbare : word.bare = true := by
        rcases h.begun with hbegun | hbegun | hbegun
        · simpa [hbegun] using hquoted
        · exact hbegun
        · cases hbegun
      rcases unquotedToken_cases htoken with ⟨n, htext, hlimit, rfl⟩ | ⟨hsymbol, rfl⟩
      · exact ⟨n, rfl, htext ▸ hlimit⟩
      · exact ⟨h.text hbare, hsymbol⟩

end Word

namespace Reader

def IsSound : Reader → Prop
  | .between => True
  | .word w quoting => w.IsSound quoting
  | .operator _ => True
  | .group g => g.IsSound

theorem isSound_start (column : Nat) (c : Char) : (start column c).IsSound := by
  have hempty : Word.empty.bare = true → Word.empty.text ≠ "" := by simp [Word.empty]
  unfold start
  split
  · trivial
  · split
    · exact Word.isSound_passQuote hempty _
    · split
      · exact Word.isSound_passQuote hempty _
      · split
        · exact ⟨hempty, .inr (.inr rfl)⟩
        · split
          · exact GroupReader.isSound_start column
          · split
            · trivial
            · exact Word.isSound_pushBare _ _ _

/-- The tokens that were completed are readable, and what is being read is sound. -/
def IsSoundStep (result : List Token × Reader) : Prop :=
  (∀ token ∈ result.1, token.IsReadable) ∧ result.2.IsSound

theorem isSoundStep_none {reader : Reader} (h : reader.IsSound) : IsSoundStep ([], reader) :=
  ⟨by simp, h⟩

theorem isSoundStep_single {token : Token} (h : token.IsReadable) {reader : Reader}
    (hreader : reader.IsSound) : IsSoundStep ([token], reader) :=
  ⟨by simpa using h, hreader⟩

theorem isSoundStep_stepWord {word : Word} {quoting : Quoting} (h : word.IsSound quoting)
    {column : Nat} {c : Char} {result : List Token × Reader}
    (hstep : stepWord column word quoting c = .ok result) : IsSoundStep result := by
  cases quoting with
  | single =>
      rw [stepWord] at hstep
      split at hstep <;> injection hstep with hstep <;> subst hstep <;> apply isSoundStep_none
      · exact Word.isSound_passQuote h.text _
      · exact Word.isSound_pushQuoted _ _ _
  | double =>
      rw [stepWord] at hstep
      split at hstep
      · injection hstep with hstep
        exact hstep ▸ isSoundStep_none (Word.isSound_passQuote h.text _)
      · split at hstep <;> injection hstep with hstep <;> subst hstep <;> apply isSoundStep_none
        · refine ⟨h.text, ?_⟩
          rcases h.begun with hbegun | hbegun | hbegun
          · exact .inl hbegun
          · exact .inr (.inl hbegun)
          · cases hbegun
        · exact Word.isSound_pushQuoted _ _ _
  | bareEscape =>
      injection hstep with hstep
      exact hstep ▸ isSoundStep_none (Word.isSound_pushBare _ _ _)
  | doubleEscape =>
      injection hstep with hstep
      exact hstep ▸ isSoundStep_none (Word.isSound_pushQuoted _ _ _)
  | bare =>
      rw [stepWord] at hstep
      split at hstep
      · injection hstep with hstep
        exact hstep ▸ isSoundStep_none (Word.isSound_passQuote h.text _)
      · split at hstep
        · injection hstep with hstep
          exact hstep ▸ isSoundStep_none (Word.isSound_passQuote h.text _)
        · split at hstep
          · injection hstep with hstep
            exact hstep ▸ isSoundStep_none ⟨h.text, .inr (.inr rfl)⟩
          · split at hstep
            · obtain ⟨token, htoken, hstep⟩ := bind_eq_ok.mp hstep
              injection hstep with hstep
              exact hstep ▸ isSoundStep_single (Word.isReadable_of_token h htoken)
                (isSound_start column c)
            · injection hstep with hstep
              exact hstep ▸ isSoundStep_none (Word.isSound_pushBare _ _ _)

theorem isSoundStep_step {reader : Reader} (h : reader.IsSound) {column : Nat} {c : Char}
    {result : List Token × Reader} (hstep : reader.step column c = .ok result) :
    IsSoundStep result := by
  cases reader with
  | between =>
      injection hstep with hstep
      exact hstep ▸ isSoundStep_none (isSound_start column c)
  | word w quoting => exact isSoundStep_stepWord h hstep
  | operator op =>
      have hreadable : (Token.operator op).IsReadable := trivial
      rw [step] at hstep
      split at hstep <;> injection hstep with hstep
      · exact hstep ▸ isSoundStep_none trivial
      · exact hstep ▸ isSoundStep_single hreadable (isSound_start column c)
  | group g =>
      obtain ⟨progress, hprogress, hstep⟩ := bind_eq_ok.mp hstep
      have hsound := GroupReader.isSound_step h hprogress
      cases progress with
      | reading next =>
          injection hstep with hstep
          exact hstep ▸ isSoundStep_none hsound
      | closed form =>
          have hreadable : (Token.embedded form).IsReadable := hsound
          injection hstep with hstep
          exact hstep ▸ isSoundStep_single hreadable trivial

theorem isReadable_of_finish {reader : Reader} (h : reader.IsSound) {tokens : List Token}
    (hfinish : reader.finish = .ok tokens) : ∀ token ∈ tokens, token.IsReadable := by
  unfold finish at hfinish
  split at hfinish
  · injection hfinish with hfinish
    simp [← hfinish]
  · obtain ⟨token, htoken, hfinish⟩ := bind_eq_ok.mp hfinish
    injection hfinish with hfinish
    simpa [← hfinish] using Word.isReadable_of_token h htoken
  · obtain ⟨token, htoken, hfinish⟩ := bind_eq_ok.mp hfinish
    injection hfinish with hfinish
    simpa [← hfinish] using Word.isReadable_of_token (Word.isSound_pushBare _ _ _) htoken
  · cases hfinish
  · injection hfinish with hfinish
    simp [← hfinish, Token.IsReadable]
  · cases hfinish

theorem isSoundStep_feed {reader : Reader} (h : reader.IsSound) {column : Nat}
    {chars : List Char} {result : List Token × Reader}
    (hfeed : reader.feed column chars = .ok result) : IsSoundStep result := by
  induction chars generalizing reader column result with
  | nil =>
      injection hfeed with hfeed
      exact hfeed ▸ isSoundStep_none h
  | cons c chars ih =>
      obtain ⟨⟨tokens, next⟩, hstep, hfeed⟩ := bind_eq_ok.mp hfeed
      obtain ⟨⟨following, last⟩, hrest, hfeed⟩ := bind_eq_ok.mp hfeed
      injection hfeed with hfeed
      subst hfeed
      obtain ⟨htokens, hnext⟩ := isSoundStep_step h hstep
      obtain ⟨hfollowing, hlast⟩ := ih hnext hrest
      exact ⟨List.forall_mem_append.mpr ⟨htokens, hfollowing⟩, hlast⟩

end Reader

theorem isReadable_of_read {line : String} {tokens : List Token} (h : read line = .ok tokens) :
    ∀ token ∈ tokens, token.IsReadable := by
  obtain ⟨⟨before, last⟩, hfeed, h⟩ := bind_eq_ok.mp h
  obtain ⟨after, hfinish, h⟩ := bind_eq_ok.mp h
  injection h with h
  subst h
  have hbetween : Reader.between.IsSound := trivial
  obtain ⟨hbefore, hlast⟩ := Reader.isSoundStep_feed hbetween hfeed
  exact List.forall_mem_append.mpr ⟨hbefore, Reader.isReadable_of_finish hlast hfinish⟩

end Line
end ShellLowering
