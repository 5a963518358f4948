import ShellLowering.Proofs.Writability

namespace ShellLowering

namespace Text

@[simp] theorem isUnbroken_nil : IsUnbroken [] :=
  List.forall_mem_nil _

@[simp] theorem isUnbroken_cons {c : Char} {chars : List Char} :
    IsUnbroken (c :: chars) ↔ c ≠ '\n' ∧ IsUnbroken chars :=
  List.forall_mem_cons

@[simp] theorem isUnbroken_append_iff {before after : List Char} :
    IsUnbroken (before ++ after) ↔ IsUnbroken before ∧ IsUnbroken after :=
  List.forall_mem_append

theorem isUnbroken_join {parts : List String} :
    IsUnbroken (String.join parts).toList ↔ ∀ part ∈ parts, IsUnbroken part.toList := by
  rw [String.toList_join]
  constructor
  · intro h part hpart c hc
    exact h c (List.mem_flatMap.mpr ⟨part, hpart, hc⟩)
  · intro h c hc
    obtain ⟨part, hpart, hc⟩ := List.mem_flatMap.mp hc
    exact h part hpart c hc

theorem isUnbroken_toDigits {base : Nat} (h : 1 < base) (hbase : base ≤ 16) (n : Nat) :
    IsUnbroken (Nat.toDigits base n) := by
  have hdigit : ∀ d < 16, Nat.digitChar d ≠ '\n' := by decide
  induction n using Nat.strongRecOn with
  | ind n ih =>
      rw [Nat.toDigits_eq_if h]
      split
      · simp [hdigit n (by omega)]
      · have hless : n / base < n := Nat.div_lt_self (by omega) h
        have hlast : n % base < 16 := Nat.lt_of_lt_of_le (Nat.mod_lt n (by omega)) hbase
        simp [ih _ hless, hdigit _ hlast]

theorem isUnbroken_hexCode (width : Nat) (c : Char) : IsUnbroken (hexCode width c) := by
  rw [hexCode, List.leftpad]
  refine isUnbroken_append ?_ (isUnbroken_toDigits (by decide) (by decide) c.toNat)
  intro d hd
  rw [List.eq_of_mem_replicate hd]
  decide

theorem isUnbroken_codeEscape (c : Char) : IsUnbroken (codeEscape c) := by
  unfold codeEscape
  repeat' split
  all_goals simp [isUnbroken_hexCode]

theorem isUnbroken_quotedChar {mark : Char} (hmark : mark ≠ '\n') (c : Char) :
    IsUnbroken (quotedChar mark c) := by
  unfold quotedChar
  split
  · next h =>
      obtain rfl | rfl := h
      · simpa using hmark
      · decide
  · split
    · decide
    · next hnewline =>
        repeat' split
        · decide
        · decide
        · simpa using hnewline
        · exact isUnbroken_codeEscape c

/-- Quoted text stands on one line, whatever it quotes. -/
theorem isUnbroken_quoted (s : String) : IsUnbroken (quoted s).toList := by
  have hmark : quoteMark s.toList ≠ '\n' := by
    obtain h | h := quoteMark_cases s.toList <;> rw [h] <;> decide
  have hchars : IsUnbroken (s.toList.flatMap (quotedChar (quoteMark s.toList))) := by
    intro d hd
    obtain ⟨c, -, hd⟩ := List.mem_flatMap.mp hd
    exact isUnbroken_quotedChar hmark c d hd
  simp [quoted, quotedList, hmark, hchars]

theorem isUnbroken_quotedOption (s : Option String) : IsUnbroken (quotedOption s).toList := by
  cases s with
  | none => decide
  | some s => exact isUnbroken_quoted s

end Text

open Text

theorem GrammarError.isUnbroken_message (e : GrammarError) : IsUnbroken e.message.toList := by
  have hfound : ∀ found : Found, IsUnbroken found.describe.toList := by
    rintro (⟨op, index⟩ | _)
    · exact isUnbroken_quoted op.text
    · decide
  have hcause : IsUnbroken e.cause.toList := by
    cases e <;>
      simp +decide only [cause, isUnbroken_join, List.forall_mem_cons, isUnbroken_quoted, hfound]
  have hplace : IsUnbroken e.place.toList := by
    unfold place
    split
    · simp +decide only [isUnbroken_join, List.forall_mem_cons, isUnbroken_toString]
    · decide
  simp +decide only [message, isUnbroken_join, List.forall_mem_cons, hcause, hplace]

theorem Number.isUnbroken_limitMessage : IsUnbroken limitMessage.toList := by
  rw [limitMessage, isUnbroken_join]
  exact List.forall_mem_cons.mpr ⟨by decide,
    List.forall_mem_cons.mpr ⟨isUnbroken_toString digitLimit, by decide⟩⟩

theorem LoweringError.isUnbroken_message (e : LoweringError) : IsUnbroken e.message.toList := by
  cases e with
  | tooManyDigits => exact Number.isUnbroken_limitMessage
  | _ => simp +decide only [message, isUnbroken_join, List.forall_mem_cons, isUnbroken_quotedOption]

namespace Line

theorem ReadError.isUnbroken_message (e : ReadError) : IsUnbroken e.message.toList := by
  cases e <;>
    simp +decide only [message, isUnbroken_join, List.forall_mem_cons, isUnbroken_toString]

/-- What there is to say about a fault is said on one line. -/
theorem Fault.isUnbroken_message (fault : Fault) : IsUnbroken fault.message.toList := by
  cases fault with
  | unread e => exact e.isUnbroken_message
  | ungrammatical e => exact e.isUnbroken_message
  | unlowered e => exact e.isUnbroken_message
  | invalidMode name =>
      simp +decide only [message, isUnbroken_join, List.forall_mem_cons, isUnbroken_quotedOption]
  | unwritable => exact Number.isUnbroken_limitMessage

/-- Too many digits are only spoken of where there are too many. -/
def ReadError.IsSound : ReadError → Prop
  | .tooManyDigits count => digitLimit < count
  | _ => True

section Sound

variable {α β : Type}

/-- A result whose error, if it is one, is sound. -/
def FailsSoundly (result : Except ReadError α) : Prop :=
  ∀ e, result = .error e → e.IsSound

theorem failsSoundly_ok (a : α) : FailsSoundly (.ok a) := by
  intro e h
  cases h

theorem failsSoundly_error {e : ReadError} (h : e.IsSound) :
    FailsSoundly (.error e : Except ReadError α) := by
  rintro _ ⟨⟩
  exact h

theorem FailsSoundly.bind {result : Except ReadError α} {next : α → Except ReadError β}
    (h : FailsSoundly result) (hnext : ∀ a, FailsSoundly (next a)) :
    FailsSoundly (result >>= next) := by
  cases result with
  | error e => exact failsSoundly_error (h e rfl)
  | ok a => exact hnext a

end Sound

theorem Word.failsSoundly_token (word : Word) : FailsSoundly word.token := by
  unfold token unquotedToken
  split
  · exact failsSoundly_ok _
  · split
    · split
      · next h => exact failsSoundly_error h
      · split <;> exact failsSoundly_ok _
    · exact failsSoundly_ok _

theorem OpenGroup.failsSoundly_form (group : OpenGroup) : FailsSoundly group.form := by
  unfold form
  split
  · exact failsSoundly_error trivial
  · exact failsSoundly_ok _
  · exact failsSoundly_error trivial

namespace GroupReader

theorem failsSoundly_delimit (reader : GroupReader) (column : Nat) (c : Char) :
    FailsSoundly (reader.delimit column c) := by
  unfold delimit
  split
  · exact failsSoundly_ok _
  · split
    · refine (OpenGroup.failsSoundly_form _).bind fun form => ?_
      split <;> exact failsSoundly_ok _
    · split <;> exact failsSoundly_ok _

theorem failsSoundly_step (reader : GroupReader) (column : Nat) (c : Char) :
    FailsSoundly (reader.step column c) := by
  unfold step
  repeat' split
  any_goals exact failsSoundly_ok _
  all_goals exact failsSoundly_delimit _ column c

theorem isSound_unfinished (reader : GroupReader) : reader.unfinished.IsSound := by
  unfold unfinished
  split <;> trivial

end GroupReader

namespace Reader

theorem failsSoundly_stepWord (column : Nat) (word : Word) (quoting : Quoting) (c : Char) :
    FailsSoundly (stepWord column word quoting c) := by
  unfold stepWord
  repeat' split
  any_goals exact failsSoundly_ok _
  exact word.failsSoundly_token.bind fun token => failsSoundly_ok _

theorem failsSoundly_step (reader : Reader) (column : Nat) (c : Char) :
    FailsSoundly (reader.step column c) := by
  cases reader with
  | between => exact failsSoundly_ok _
  | word w quoting => exact failsSoundly_stepWord column w quoting c
  | operator op =>
      rw [step]
      split <;> exact failsSoundly_ok _
  | group g =>
      refine (g.failsSoundly_step column c).bind fun progress => ?_
      cases progress <;> exact failsSoundly_ok _

theorem failsSoundly_finish (reader : Reader) : FailsSoundly reader.finish := by
  unfold finish
  split
  · exact failsSoundly_ok _
  · exact (Word.failsSoundly_token _).bind fun token => failsSoundly_ok _
  · exact (Word.failsSoundly_token _).bind fun token => failsSoundly_ok _
  · exact failsSoundly_error trivial
  · exact failsSoundly_ok _
  · exact failsSoundly_error (GroupReader.isSound_unfinished _)

theorem failsSoundly_run (reader : Reader) (column : Nat) (chars : List Char) :
    FailsSoundly (reader.run column chars) := by
  induction chars generalizing reader column with
  | nil => exact (reader.failsSoundly_finish).bind fun tokens => failsSoundly_ok _
  | cons c chars ih =>
      rw [run_cons]
      refine (reader.failsSoundly_step column c).bind fun step => ?_
      exact (ih _ _).bind fun tokens => failsSoundly_ok _

end Reader

/-- The only fault of a line that ends a session is a digit word over the limit. -/
theorem exists_tooManyDigits_of_isFatal {mode : Mode} {parseOnly : Bool} {line : String}
    {fault : Fault} (h : render mode parseOnly line = .error fault)
    (hfatal : fault.isFatal = true) :
    ∃ count, digitLimit < count ∧ read line = .error (.tooManyDigits count) ∧
      fault = .unread (.tooManyDigits count) := by
  obtain ⟨e, hread, rfl⟩ | ⟨e, rfl⟩ | rfl := render_eq_error h
  · cases e with
    | tooManyDigits count =>
        exact ⟨count, Reader.failsSoundly_run .between 0 line.toList _ hread, hread, rfl⟩
    | _ => cases hfatal
  · cases hfatal
  · cases hfatal

end Line
end ShellLowering
