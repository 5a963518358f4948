import ShellLowering.Line.Lowering
import ShellLowering.Proofs.JoinedLists
import ShellLowering.Proofs.LoweringCases
import ShellLowering.Proofs.ShiftedReading

namespace ShellLowering

/-- The first clause stays where it is, and no other one is lowered. -/
theorem CommandList.lower_join_background (mode : Mode) {first : CommandList}
    (h : first.IsCanonical) (second : CommandList) :
    (first.join .background second).lower mode = first.lower mode := by
  obtain ⟨clauses⟩ := first
  obtain ⟨clause, others, rfl, -, -⟩ := Tree.exists_of_joined h
  obtain ⟨more, hmore⟩ := Tree.exists_append_eq Connector.background.text
    ((none, clause) :: others) second.clauses
  rw [join, hmore, List.cons_append, lower_cons, lower_cons]

namespace Line

/-- A separator between blanks is read between the tokens of the two texts around it. -/
theorem read_append_background {line : String} {tokens : List Token}
    (hread : read line = .ok tokens) (hescape : line.toList.getLast? ≠ some '\\')
    (other : String) :
    read (line ++ " & " ++ other) = shiftResult (line.length + 3)
      (tokens ++ .operator (.connect .background) :: ·) (read other) := by
  have hblank : Text.isBlank ' ' = true := by decide
  have hseparator : Reader.between.run 0 ['&'] = .ok [.operator (.connect .background)] := rfl
  have hchars : (line ++ " & " ++ other).toList =
      line.toList ++ ' ' :: (['&'] ++ ' ' :: other.toList) := by
    simp
  have hlength : line.toList.length + 1 + (['&'].length + 1) = line.length + 3 := by
    rw [String.length_toList]
    rfl
  rw [read, hchars, Reader.run_append_blank hread hescape hblank,
    Reader.run_append_blank hseparator (by decide) hblank, shiftResult_shiftResult, hlength]
  rfl

/-- What stands behind a background separator is checked, and it has no other influence on the term
of the line. If it is a command list, the line has the term or the fault that it has without it. If
it cannot be read or parsed, that is the fault of the line, even if what stands in front of the
separator cannot be lowered. -/
theorem lower_append_background {mode : Mode} {line other : String} {tokens : List Token}
    {list : CommandList} (hread : read line = .ok tokens)
    (hparse : CommandList.parse tokens = .ok list) (hescape : line.toList.getLast? ≠ some '\\') :
    (∀ following later, read other = .ok following → CommandList.parse following = .ok later →
      lower mode (line ++ " & " ++ other) = lower mode line) ∧
    (∀ e, read other = .error e →
      lower mode (line ++ " & " ++ other) = .error (.unread (e.shift (line.length + 3)))) ∧
    (∀ following e, read other = .ok following → CommandList.parse following = .error e →
      ∃ found, found.position = e.position.map (tokens.length + 1 + ·) ∧
        lower mode (line ++ " & " ++ other) = .error (.ungrammatical found)) := by
  have hjoined := read_append_background hread hescape other
  refine ⟨?_, ?_, ?_⟩
  · intro following later hother hlater
    rw [hother] at hjoined
    have hlist := CommandList.parse_append_connector_of_ok hparse hlater .background
    have hcanonical := (CommandList.isCanonical_of_parse hparse).1
    rw [lower_of_read hjoined, lower_of_read hread, lowerTokens_of_parse hlist,
      lowerTokens_of_parse hparse, CommandList.lower_join_background mode hcanonical]
  · intro e hother
    rw [hother] at hjoined
    rw [lower, Line.tokens, hjoined]
    rfl
  · intro following e hother he
    rw [hother] at hjoined
    have hverdict := CommandList.verdict_parse_append_connector tokens following .background
    rw [hparse, he] at hverdict
    obtain ⟨found, hfound, hposition⟩ := GrammarError.verdict_eq_error hverdict
    refine ⟨found, hposition, ?_⟩
    rw [lower_of_read hjoined, lowerTokens, treeOfTokens, hfound]
    rfl

/-- A line that cannot be lowered, in front of a command, an open group and an open pipeline. -/
theorem lower_append_background_nameless :
    let line := "> 'x & y'"
    lower .batch line = .error (.unlowered .namelessCommand) ∧
    lower .batch (line ++ " & " ++ "g") = lower .batch line ∧
    lower .batch (line ++ " & " ++ "g (h") = .error (.unread (.unterminatedGroup 14)) ∧
    ∃ found, found.position = none ∧
      lower .batch (line ++ " & " ++ "g |") = .error (.ungrammatical found) := by
  have hread : read "> 'x & y'" = .ok [.operator (.redirect .output), .string "x & y"] := by rfl
  let command : Command := ⟨[.redirect ⟨some ">", .string "x & y", none⟩]⟩
  have hparse : CommandList.parse [.operator (.redirect .output), .string "x & y"] =
      .ok ⟨[(none, ⟨[(none, ⟨[(none, command)], false⟩)]⟩)]⟩ := rfl
  have hescape : "> 'x & y'".toList.getLast? ≠ some '\\' := by decide
  refine ⟨rfl, ?_, ?_, ?_⟩
  · exact (lower_append_background hread hparse hescape).1 [.symbol "g"] _ rfl rfl
  · exact (lower_append_background hread hparse hescape).2.1 (.unterminatedGroup 2) rfl
  · exact (lower_append_background hread hparse hescape).2.2
      [.symbol "g", .operator (.connect (.pipe .pipe))] _ rfl rfl

end Line
end ShellLowering
