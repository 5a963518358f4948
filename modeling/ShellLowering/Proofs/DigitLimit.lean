import ShellLowering.Proofs.FaultMessages
import ShellLowering.Proofs.InputPaths
import ShellLowering.Proofs.QuotedWords
import ShellLowering.Proofs.RunSequence
import ShellLowering.Proofs.SessionLoop

namespace ShellLowering

namespace Line

open Text

/-- Lexemes of the line, up to some place in it, of which one is an overlong word. -/
def HasOverlongWord (line : String) : Prop :=
  ∃ lexemes rest parts, AreLexemes rest lexemes ∧
    line.toList = lexemes.flatMap Lexeme.chars ++ rest ∧ .word parts ∈ lexemes ∧
    (Word.ofParts parts).IsOverlong

theorem exists_findSome?_overlong?_iff {lexemes : List Lexeme} :
    (∃ count, lexemes.findSome? Lexeme.overlong? = some count) ↔
      ∃ parts, .word parts ∈ lexemes ∧ (Word.ofParts parts).IsOverlong := by
  rw [← Option.isSome_iff_exists, List.findSome?_isSome_iff]
  constructor
  · rintro ⟨lexeme, hmem, hsome⟩
    cases lexeme with
    | word parts =>
        refine ⟨parts, hmem, ?_⟩
        by_contra hnot
        simp [Lexeme.overlong?, hnot] at hsome
    | _ => cases hsome
  · rintro ⟨parts, hmem, hoverlong⟩
    exact ⟨.word parts, hmem, by simp [Lexeme.overlong?, hoverlong]⟩

/-- Where the lexemes of a line come to an end, its digits do not count. -/
theorem EndsLexemes.ne_tooManyDigits {column : Nat} {rest : List Char} {e : ReadError}
    (h : EndsLexemes column rest (.error e)) (count : Nat) : e ≠ .tooManyDigits count := by
  cases h with
  | quote => nofun
  | group hinner => exact hinner.ne_tooManyDigits count

theorem exists_tooManyDigits_iff {line : String} :
    (∃ count, read line = .error (.tooManyDigits count)) ↔ HasOverlongWord line := by
  constructor
  · rintro ⟨count, hread⟩
    obtain ⟨lexemes, rest, outcome, hlexemes, hends, hline, hread'⟩ := exists_read_eq line
    rw [hread, Lexeme.allTokens_eq] at hread'
    cases hfind : lexemes.findSome? Lexeme.overlong? with
    | some found =>
        obtain ⟨parts, hmem, hoverlong⟩ := exists_findSome?_overlong?_iff.mp ⟨found, hfind⟩
        exact ⟨lexemes, rest, parts, hlexemes, hline, hmem, hoverlong⟩
    | none =>
        rw [hfind] at hread'
        cases outcome with
        | ok => cases hread'
        | error e =>
            cases hread'
            exact absurd rfl (hends.ne_tooManyDigits count)
  · rintro ⟨lexemes, rest, parts, hlexemes, hline, hmem, hoverlong⟩
    obtain ⟨count, hcount⟩ := exists_findSome?_overlong?_iff.mpr ⟨parts, hmem, hoverlong⟩
    refine ⟨count, ?_⟩
    rw [read, hline, hlexemes.run, Lexeme.allTokens_eq, hcount]
    rfl

/-- A line is read, or is at fault, unless a word of it is overlong. -/
theorem read_soundly_iff {line : String} :
    ((∃ tokens, read line = .ok tokens) ∨
      ∃ e, read line = .error e ∧ ∀ count, e ≠ .tooManyDigits count) ↔
      ¬ HasOverlongWord line := by
  rw [← exists_tooManyDigits_iff]
  constructor
  · rintro (⟨tokens, hread⟩ | ⟨e, hread, he⟩) ⟨count, hcount⟩
    · cases hread.symm.trans hcount
    · cases hread.symm.trans hcount
      exact he count rfl
  · intro hnone
    cases hread : read line with
    | ok tokens => exact .inl ⟨tokens, rfl⟩
    | error e => exact .inr ⟨e, rfl, fun count he => hnone ⟨count, by rw [hread, he]⟩⟩

theorem read_of_isDigitText {line : String} (hdigits : isDigitText line = true)
    (hlimit : digitLimit < line.length) : read line = .error (.tooManyDigits line.length) := by
  obtain ⟨hne, hchars⟩ := isDigitText_iff.mp hdigits
  let parts := line.toList.map WordPart.bare
  have hparts : ∀ part ∈ parts, part.IsWritten := by
    rintro part hpart
    obtain ⟨c, hc, rfl⟩ := List.mem_map.mp hpart
    exact isBareChar_of_isDigit (hchars c hc)
  have hhead : parts.head? ≠ some (.bare '(') := by
    intro hhead
    obtain ⟨c, hc, heq⟩ := List.mem_map.mp (List.mem_of_mem_head? hhead)
    injection heq with heq
    subst heq
    exact absurd (hchars '(' hc) (by decide)
  have hword : Word.ofParts parts = ⟨line, false, true⟩ := by
    simpa [parts, Word.ofParts, Word.ofChars, List.flatMap_map, WordPart.text, WordPart.isQuoted]
      using List.exists_mem_of_ne_nil _ hne
  have hlexemes : AreLexemes [] [.word parts] :=
    .cons (.word (by simpa [parts] using hne) hhead (.ends hparts (by simp))) .nil
  have hline : line.toList = [Lexeme.word parts].flatMap Lexeme.chars := by
    simp [parts, Lexeme.chars, List.flatMap_map, WordPart.chars]
  have hoverlong : Word.IsOverlong ⟨line, false, true⟩ := ⟨rfl, hdigits, hlimit⟩
  rw [read_eq_allTokens hlexemes hline, Lexeme.allTokens_eq]
  simp [Lexeme.overlong?, hword, hoverlong]

end Line

namespace Run

open Line (HasOverlongWord)

variable (settings : Settings)

theorem status_ofLine (line : String) :
    (ofLine settings line).status =
      match Line.render settings.mode settings.parseOnly line with
      | .ok _ => .success
      | .error fault => if fault.isFatal then .aborted else .failure := by
  rw [ofLine, Line.render]
  cases (Line.report settings.mode settings.parseOnly line).result <;> rfl

theorem status_ofLine_eq_aborted_iff {line : String} :
    (ofLine settings line).status = .aborted ↔ HasOverlongWord line := by
  rw [← Line.exists_tooManyDigits_iff, status_ofLine]
  constructor
  · intro haborted
    split at haborted
    · cases haborted
    · next fault hrender =>
        have hfatal : fault.isFatal = true := by
          by_contra hfatal
          simp [hfatal] at haborted
        obtain ⟨count, -, hread, -⟩ := Line.exists_tooManyDigits_of_isFatal hrender hfatal
        exact ⟨count, hread⟩
  · rintro ⟨count, hread⟩
    have hrender : Line.render settings.mode settings.parseOnly line =
        .error (.unread (.tooManyDigits count)) := by
      rw [Line.render, Line.report, Line.tokens, hread]
      rfl
    rw [hrender]
    rfl

/-- A line that is passed over has no words. -/
theorem isCutShort_ofRead_iff {line : String} :
    (ofRead settings line).isCutShort = true ↔ HasOverlongWord line := by
  rw [isCutShort_iff, ofRead]
  split
  · next hblank =>
      refine iff_of_false (by decide) fun hoverlong => ?_
      obtain ⟨count, hcount⟩ := Line.exists_tooManyDigits_iff.mpr hoverlong
      cases (Line.read_of_isBlankText hblank).symm.trans hcount
  · exact status_ofLine_eq_aborted_iff settings

theorem status_sequence_eq_aborted_iff {runs : List Run} :
    (sequence runs).status = .aborted ↔ ∃ run ∈ runs, run.isCutShort = true := by
  rw [status_sequence, ← List.any_eq_true]
  cases runs.any isCutShort <;> cases runs.any isFaulty <;> simp

end Run

/-- The lines behind one with an overlong word are not run. -/
theorem Input.runLines_of_hasOverlongWord (settings : Settings) {line : String}
    (h : Line.HasOverlongWord line) (before after : List String) :
    runLines settings (before ++ line :: after) = runLines settings (before ++ [line]) := by
  have haborted := Run.isCutShort_iff.mp ((Run.isCutShort_ofRead_iff settings).mpr h)
  have happend : ∀ run, (Run.ofRead settings line).append run = Run.ofRead settings line :=
    fun _ => if_pos haborted
  rw [runLines_append, runLines_append, runLines, runLines, happend, happend]

theorem upTo_eq_self {α : Type} {p : α → Bool} {as : List α} (h : ∀ a ∈ as, p a = false) :
    upTo p as = as := by
  induction as with
  | nil => rfl
  | cons a as ih =>
      obtain ⟨ha, has⟩ := List.forall_mem_cons.mp h
      rw [upTo, ha, ih has]
      rfl

namespace Session

open Line (HasOverlongWord)

variable (settings : Settings)

theorem Follows.exists_ok_iff {session : Session} {run : Run} {result : Except Raised Session}
    (h : Follows session run result) : (∃ next, result = .ok next) ↔ run.status ≠ .aborted := by
  cases h with
  | ok hstatus => exact iff_of_true ⟨_, rfl⟩ hstatus
  | error hstatus _ => exact iff_of_false (by simp) (by simpa using hstatus)

theorem exists_processLine_eq_ok_iff (line : String) (session : Session) :
    (∃ code next, processLine settings line session = .ok (code, next) ∧ (code = 0 ∨ code = 2)) ↔
      ¬ HasOverlongWord line := by
  rw [← Run.status_ofLine_eq_aborted_iff settings]
  obtain ⟨hstatus, hprocess⟩ | ⟨hstatus, raised, hprocess, -⟩ :=
    processLine_cases settings line session
  · refine iff_of_true ⟨_, _, hprocess, ?_⟩ hstatus
    cases hcode : (Run.ofLine settings line).status with
    | success => exact .inl rfl
    | failure => exact .inr rfl
    | aborted => exact absurd hcode hstatus
  · refine iff_of_false ?_ (not_not.mpr hstatus)
    rintro ⟨code, next, hok, -⟩
    cases hprocess.symm.trans hok

/-- The loop over the lines of a text gets to its end unless a line has an overlong word, and then
with all that the lines add. -/
theorem readLoop_eq_ok_iff (text : String) (session : Session) :
    let lines := (Input.splitLines text.toList).map String.ofList
    let result := readLoop settings (translate text.toList) session
    ((∃ next, result = .ok next) ↔ ∀ line ∈ lines, ¬ HasOverlongWord line) ∧
    ∀ next, result = .ok next →
      next.stdout = session.stdout ++
        String.join (lines.map fun line => (Run.ofRead settings line).stdout) ∧
      next.stderr = session.stderr ++
        String.join (lines.map fun line => (Run.ofRead settings line).stderr) := by
  intro lines result
  have hfollows : Follows session (Run.sequence (lines.map (Run.ofRead settings))) result := by
    rw [← Input.runLines_eq_sequence]
    exact follows_readLoop settings (Input.isSplit_splitLines text.toList) session
  have hruns : (∃ next, result = .ok next) ↔ ∀ line ∈ lines, ¬ HasOverlongWord line := by
    rw [hfollows.exists_ok_iff, ne_eq, Run.status_sequence_eq_aborted_iff]
    simp only [List.mem_map, exists_exists_and_eq_and, Run.isCutShort_ofRead_iff, not_exists,
      not_and]
  refine ⟨hruns, fun next hnext => ?_⟩
  have hall : ∀ run ∈ lines.map (Run.ofRead settings), run.isCutShort = false := by
    rintro run hrun
    obtain ⟨line, hline, rfl⟩ := List.mem_map.mp hrun
    rw [← Bool.not_eq_true, Run.isCutShort_ofRead_iff]
    exact hruns.mp ⟨next, hnext⟩ line hline
  rw [hnext] at hfollows
  cases hfollows
  simp only [follow, Run.stdout_sequence, Run.stderr_sequence, upTo_eq_self hall, List.map_map,
    Function.comp_def, and_self]

/-- A line is read or is at fault, and its processing gives the code 0 or 2, if and only if it has
no overlong word: a word that is not quoted throughout, of more digits than can be read. A session
gets through the lines of a text if and only if none of them has one, and then it writes what each
of them adds; no line behind one that has an overlong word is run. -/
theorem processLine_soundly_iff :
    (∀ line, ((∃ tokens, Line.read line = .ok tokens) ∨
      ∃ e, Line.read line = .error e ∧ ∀ count, e ≠ .tooManyDigits count) ↔
        ¬ HasOverlongWord line) ∧
    (∀ line session, (∃ code next, processLine settings line session = .ok (code, next) ∧
      (code = 0 ∨ code = 2)) ↔ ¬ HasOverlongWord line) ∧
    (∀ (text : String) (session : Session),
      let lines := (Input.splitLines text.toList).map String.ofList
      let result := readLoop settings (translate text.toList) session
      ((∃ next, result = .ok next) ↔ ∀ line ∈ lines, ¬ HasOverlongWord line) ∧
      ∀ next, result = .ok next →
        next.stdout = session.stdout ++
          String.join (lines.map fun line => (Run.ofRead settings line).stdout) ∧
        next.stderr = session.stderr ++
          String.join (lines.map fun line => (Run.ofRead settings line).stderr)) ∧
    ∀ before line after, HasOverlongWord line →
      Input.runLines settings (before ++ line :: after) =
        Input.runLines settings (before ++ [line]) :=
  ⟨fun _ => Line.read_soundly_iff, exists_processLine_eq_ok_iff settings,
    readLoop_eq_ok_iff settings,
    fun before _ after h => Input.runLines_of_hasOverlongWord settings h before after⟩

/-- With one zero too many, a line of zeros is neither read nor at fault. Its processing has no
code, and the line behind it is not run. -/
theorem processLine_zeros_over_limit :
    let line := String.ofList (List.replicate 4301 '0')
    let settings : Settings := ⟨.batch, false, false⟩
    let text := line ++ "\nls"
    Line.read line = .error (.tooManyDigits 4301) ∧
      (¬ ∃ code next, processLine settings line .initial = .ok (code, next) ∧
        (code = 0 ∨ code = 2)) ∧
      (Input.splitLines text.toList).map String.ofList = [line, "ls"] ∧
      (¬ ∃ next, readLoop settings (translate text.toList) .initial = .ok next) ∧
      (Run.ofRead settings "ls").status = .success ∧
      Input.runLines settings [line, "ls"] = Input.runLines settings [line] := by
  intro line settings text
  have hline : line.toList = List.replicate 4301 '0' := String.toList_ofList
  have hzero : ∀ c ∈ line.toList, c = '0' := by
    rw [hline]
    exact fun c hc => List.eq_of_mem_replicate hc
  have hlength : line.length = 4301 := by
    rw [← String.length_toList, hline, List.length_replicate]
  have hdigits : Text.isDigitText line = true := by
    refine Text.isDigitText_iff.mpr ⟨List.ne_nil_of_length_pos ?_, fun c hc => ?_⟩
    · rw [String.length_toList, hlength]
      decide
    · rw [hzero c hc]
      rfl
  have hread : Line.read line = .error (.tooManyDigits 4301) := by
    rw [← hlength]
    exact Line.read_of_isDigitText hdigits (by rw [hlength]; decide)
  have hoverlong : HasOverlongWord line := Line.exists_tooManyDigits_iff.mp ⟨4301, hread⟩
  have htypable : Input.IsTypable line.toList :=
    ⟨fun hmem => absurd (hzero _ hmem) (by decide), fun hmem => absurd (hzero _ hmem) (by decide)⟩
  have hlines : (Input.splitLines text.toList).map String.ofList = [line, "ls"] := by
    have hsplit := Input.splitLines_append htypable (.newLine "ls".toList)
    have htext : text.toList = line.toList ++ (['\n'] ++ "ls".toList) := String.toList_append
    rw [htext, hsplit, List.map_cons, String.ofList_toList]
    rfl
  have hloop := (readLoop_eq_ok_iff settings text .initial).1
  refine ⟨hread, ?_, hlines, ?_, rfl, ?_⟩
  · rw [exists_processLine_eq_ok_iff, not_not]
    exact hoverlong
  · rw [hloop, hlines]
    exact fun hnone => hnone line List.mem_cons_self hoverlong
  · exact Input.runLines_of_hasOverlongWord settings hoverlong [] ["ls"]

end Session
end ShellLowering
