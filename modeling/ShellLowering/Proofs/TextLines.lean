import Mathlib.Data.List.Basic
import ShellLowering.Session.Input

namespace ShellLowering.Input

/-- The text holds no character that ends a line. -/
def IsTypable (line : List Char) : Prop :=
  '\n' ∉ line ∧ '\r' ∉ line

instance (line : List Char) : Decidable (IsTypable line) :=
  inferInstanceAs (Decidable (_ ∧ _))

/-- What ends a line in front of the rest of a text. A carriage return in front of a new line is no
end of its own. -/
inductive IsLineEnd : List Char → List Char → Prop
  | newLine (rest : List Char) : IsLineEnd ['\n'] rest
  | both (rest : List Char) : IsLineEnd ['\r', '\n'] rest
  | carriageReturn {rest : List Char} (h : rest.head? ≠ some '\n') : IsLineEnd ['\r'] rest

/-- The lines that make up a text, each up to its end. Only the last may lack an end, and then it is
not empty. -/
inductive IsSplit : List Char → List (List Char) → Prop
  | nil : IsSplit [] []
  | last {line : List Char} (hne : line ≠ []) (hline : IsTypable line) : IsSplit line [line]
  | cons {line ending rest : List Char} {lines : List (List Char)} (hline : IsTypable line)
      (hend : IsLineEnd ending rest) (hrest : IsSplit rest lines) :
      IsSplit (line ++ (ending ++ rest)) (line :: lines)

theorem isTypable_cons {c : Char} {line : List Char} :
    IsTypable (c :: line) ↔ ¬ (c = '\n' ∨ c = '\r') ∧ IsTypable line := by
  simp only [IsTypable, List.mem_cons, eq_comm (a := c)]
  tauto

theorem isTypable_nil : IsTypable [] := by
  simp [IsTypable]

/-- The lines with a character in front of the first. -/
def prepend (c : Char) : List (List Char) → List (List Char)
  | [] => [[c]]
  | line :: lines => (c :: line) :: lines

theorem IsSplit.prepend {c : Char} {rest : List Char} {lines : List (List Char)}
    (hc : ¬ (c = '\n' ∨ c = '\r')) (h : IsSplit rest lines) :
    IsSplit (c :: rest) (Input.prepend c lines) := by
  cases h with
  | nil => exact .last (by simp) (isTypable_cons.mpr ⟨hc, isTypable_nil⟩)
  | last _ hline => exact .last (by simp) (isTypable_cons.mpr ⟨hc, hline⟩)
  | cons hline hend hrest => exact .cons (isTypable_cons.mpr ⟨hc, hline⟩) hend hrest

theorem splitLines_cons {c : Char} (hc : ¬ (c = '\n' ∨ c = '\r')) (rest : List Char) :
    splitLines (c :: rest) = prepend c (splitLines rest) := by
  rw [splitLines, if_neg hc]
  · rfl
  · rintro _ rfl
    exact absurd (.inr rfl) hc

theorem splitLines_ending {ending rest : List Char} (h : IsLineEnd ending rest) :
    splitLines (ending ++ rest) = [] :: splitLines rest := by
  cases h with
  | newLine => simp [splitLines]
  | both => simp [splitLines]
  | carriageReturn hhead =>
      change splitLines ('\r' :: rest) = _
      rw [splitLines, if_pos (.inr rfl)]
      rintro rest - rfl
      exact hhead rfl

theorem isSplit_splitLines (text : List Char) : IsSplit text (splitLines text) := by
  induction text using splitLines.induct with
  | case1 => exact .nil
  | case2 rest ih => exact .cons isTypable_nil (.both rest) ih
  | case3 c rest hboth hc ih =>
      have hend : IsLineEnd [c] rest := by
        obtain rfl | rfl := hc
        · exact .newLine rest
        · refine .carriageReturn fun hhead => ?_
          obtain ⟨rest, rfl⟩ := List.head?_eq_some_iff.mp hhead
          exact hboth rest rfl rfl
      rw [← List.singleton_append, splitLines_ending hend]
      exact .cons isTypable_nil hend ih
  | case4 c rest _ hc _ ih =>
      rw [splitLines_cons hc]
      exact ih.prepend hc
  | case5 c rest _ hc _ _ _ ih =>
      rw [splitLines_cons hc]
      exact ih.prepend hc

theorem splitLines_of_isTypable {line : List Char} (hne : line ≠ []) (hline : IsTypable line) :
    splitLines line = [line] := by
  induction line with
  | nil => exact absurd rfl hne
  | cons c line ih =>
      obtain ⟨hc, hline⟩ := isTypable_cons.mp hline
      rw [splitLines_cons hc]
      obtain rfl | hne := eq_or_ne line []
      · rfl
      · rw [ih hne hline]
        rfl

theorem splitLines_append {line ending rest : List Char} (hline : IsTypable line)
    (hend : IsLineEnd ending rest) :
    splitLines (line ++ (ending ++ rest)) = line :: splitLines rest := by
  induction line with
  | nil => exact splitLines_ending hend
  | cons c line ih =>
      obtain ⟨hc, hline⟩ := isTypable_cons.mp hline
      rw [List.cons_append, splitLines_cons hc, ih hline]
      rfl

/-- A text has one division into lines. -/
theorem isSplit_iff {text : List Char} {lines : List (List Char)} :
    IsSplit text lines ↔ lines = splitLines text := by
  constructor
  · intro h
    induction h with
    | nil => rfl
    | last hne hline => exact (splitLines_of_isTypable hne hline).symm
    | cons hline hend _ ih => rw [splitLines_append hline hend, ih]
  · rintro rfl
    exact isSplit_splitLines text

/-- The lines of a text that ends with a new line do not depend on what comes after it. -/
theorem IsSplit.append {first second : List Char} {lines others : List (List Char)}
    (hfirst : IsSplit first lines) (hlast : first.getLast? = some '\n')
    (hsecond : IsSplit second others) : IsSplit (first ++ second) (lines ++ others) := by
  induction hfirst with
  | nil => simp at hlast
  | last _ hline => exact absurd (List.mem_of_getLast? hlast) hline.1
  | @cons line ending rest lines hline hend hrest ih =>
      rw [List.append_assoc, List.append_assoc]
      obtain rfl | hne := eq_or_ne rest []
      · obtain rfl : lines = [] := isSplit_iff.mp hrest
        cases hend with
        | newLine => exact .cons hline (.newLine second) hsecond
        | both => exact .cons hline (.both second) hsecond
        | carriageReturn => simp at hlast
      · have hrestLast : rest.getLast? = some '\n' := by
          rw [← hlast, ← List.append_assoc, List.getLast?_append_of_ne_nil _ hne]
        refine .cons hline ?_ (ih hrestLast)
        cases hend with
        | newLine => exact .newLine _
        | both => exact .both _
        | carriageReturn hhead =>
            refine .carriageReturn ?_
            rwa [List.head?_append_of_ne_nil _ hne]

/-- Typed lines, each with a new line at its end, make up a text of these lines. -/
theorem isSplit_flatMap {lines : List (List Char)} (h : ∀ line ∈ lines, IsTypable line) :
    IsSplit (lines.flatMap (· ++ ['\n'])) lines := by
  induction lines with
  | nil => exact .nil
  | cons line lines ih =>
      obtain ⟨hline, hlines⟩ := List.forall_mem_cons.mp h
      rw [List.flatMap_cons, List.append_assoc]
      exact .cons hline (.newLine _) (ih hlines)

end ShellLowering.Input
