import Mathlib.Data.List.Basic
import Mathlib.Data.List.Induction
import Mathlib.Data.Nat.Digits.Defs
import ShellLowering.Line.Word

namespace ShellLowering

namespace Text

/-- A digit word in which no zero stands in front of another digit. -/
def IsNumeral (s : String) : Prop :=
  isDigitText s = true ∧ (s = "0" ∨ s.toList.head? ≠ some '0')

theorem isDigitText_iff {s : String} :
    isDigitText s = true ↔ s.toList ≠ [] ∧ ∀ c ∈ s.toList, c.isDigit = true := by
  simp [isDigitText]

theorem asciiDigitsValue_eq (s : String) : asciiDigitsValue s = Nat.ofDigitChars 10 s.toList 0 := by
  rw [asciiDigitsValue, digitsValue, List.foldl_map, Nat.ofDigitChars_eq_foldl]
  rfl

theorem toList_toString (n : Nat) : (toString n).toList = Nat.toDigits 10 n := by
  rw [Nat.toString_eq_ofList_toDigits, String.toList_ofList]

theorem asciiDigitsValue_toString (n : Nat) : asciiDigitsValue (toString n) = n := by
  rw [asciiDigitsValue_eq, toList_toString, Nat.ofDigitChars_ten_toDigits]

theorem head?_toDigits {n : Nat} (h : 0 < n) : (Nat.toDigits 10 n).head? ≠ some '0' := by
  induction n using Nat.strongRecOn with
  | ind n ih =>
      rw [Nat.toDigits_eq_if (by omega)]
      split
      · simp only [List.head?_cons, ne_eq, Option.some.injEq, Nat.digitChar_eq_zero]
        omega
      · rw [List.head?_append_of_ne_nil _ Nat.toDigits_ne_nil]
        exact ih (n / 10) (by omega) (by omega)

theorem exists_digitChar {c : Char} (h : c.isDigit = true) : ∃ d < 10, c = Nat.digitChar d := by
  obtain ⟨hlow, hhigh⟩ := Char.isDigit_iff_toNat.mp h
  have hlow : 48 ≤ c.toNat := hlow
  have hhigh : c.toNat ≤ 57 := hhigh
  refine ⟨c.toNat - 48, by omega, Char.toNat_inj.mp ?_⟩
  rw [Nat.toNat_digitChar_of_lt_ten (by omega)]
  omega

/-- Digits without a leading zero are those of their value. The induction is on the last digit. -/
theorem toDigits_ofDigitChars {digits : List Char} (hne : digits ≠ [])
    (hdigits : ∀ c ∈ digits, c.isDigit = true)
    (hzero : digits = ['0'] ∨ digits.head? ≠ some '0') :
    Nat.toDigits 10 (Nat.ofDigitChars 10 digits 0) = digits := by
  induction digits using List.reverseRecOn with
  | nil => exact absurd rfl hne
  | append_singleton digits c ih =>
      obtain ⟨d, hd, rfl⟩ := exists_digitChar (hdigits c (by simp))
      rw [Nat.ofDigitChars_append, Nat.ofDigitChars_cons_digitChar_of_lt_ten hd,
        Nat.ofDigitChars_nil]
      cases digits with
      | nil => simpa using Nat.toDigits_of_lt_base hd
      | cons first digits =>
          have hhead : (first :: digits).head? ≠ some '0' := by
            rcases hzero with hzero | hzero
            · simp at hzero
            · simpa using hzero
          have hvalue := ih (by simp) (fun c hc => hdigits c (List.mem_append_left _ hc))
            (.inr hhead)
          have hpositive : Nat.ofDigitChars 10 (first :: digits) 0 ≠ 0 := by
            intro h
            rw [h, Nat.toDigits_zero] at hvalue
            simp [← hvalue] at hhead
          rw [Nat.toDigits_of_base_le (by omega) (by omega), Nat.mul_add_div (by omega),
            Nat.div_eq_of_lt hd, Nat.mul_add_mod, Nat.mod_eq_of_lt hd, Nat.add_zero, hvalue]

theorem lt_pow_length_toDigits (n : Nat) : n < 10 ^ (Nat.toDigits 10 n).length := by
  induction n using Nat.strongRecOn with
  | ind n ih =>
      rw [Nat.toDigits_eq_if (by omega)]
      split
      · simpa using ‹n < 10›
      · have hrest := ih (n / 10) (by omega)
        rw [List.length_append, List.length_singleton, Nat.pow_succ]
        omega

theorem length_toString_le_iff {n bound : Nat} (h : 0 < bound) :
    (toString n).length ≤ bound ↔ n < 10 ^ bound := by
  refine ⟨fun hlength => ?_, Nat.repr_length n bound h⟩
  rw [← String.length_toList, toList_toString] at hlength
  exact (lt_pow_length_toDigits n).trans_le (Nat.pow_le_pow_right (by omega) hlength)

theorem isDigitText_toString (n : Nat) : isDigitText (toString n) = true := by
  rw [isDigitText_iff, toList_toString]
  exact ⟨Nat.toDigits_ne_nil, fun c hc => Nat.isDigit_of_mem_toDigits (by omega) (by omega) hc⟩

theorem isNumeral_toString (n : Nat) : IsNumeral (toString n) := by
  refine ⟨isDigitText_toString n, ?_⟩
  rcases Nat.eq_zero_or_pos n with rfl | hpositive
  · exact .inl rfl
  · rw [toList_toString]
    exact .inr (head?_toDigits hpositive)

theorem toString_asciiDigitsValue {s : String} (h : IsNumeral s) :
    toString (asciiDigitsValue s) = s := by
  obtain ⟨hdigits, hzero⟩ := h
  obtain ⟨hne, hdigits⟩ := isDigitText_iff.mp hdigits
  rw [← String.toList_inj, toList_toString, asciiDigitsValue_eq]
  refine toDigits_ofDigitChars hne hdigits (hzero.imp_left ?_)
  rintro rfl
  rfl

end Text

theorem Number.text?_int_eq_none_iff {value : Int} :
    (Number.int value).text? = none ↔ 10 ^ digitLimit ≤ value.natAbs := by
  simp only [text?, integerText?, ite_eq_left_iff, reduceCtorEq, imp_false, not_not]
  rw [← Nat.not_le, Text.length_toString_le_iff (by decide), Nat.not_lt]

namespace Line.Word

open Text

theorem unquotedToken_toString {n : Nat} (h : (toString n).length ≤ digitLimit) :
    unquotedToken (toString n) = .ok (.number (.int n)) := by
  obtain ⟨hdigits, hzero⟩ := isNumeral_toString n
  rw [unquotedToken, if_pos hdigits, if_neg (by omega), if_pos hzero, asciiDigitsValue_toString]

/-- A word that stays a symbol: a digit word does so only behind a leading zero, and if it is not
too long to be read. -/
def IsSymbolText (text : String) : Prop :=
  isDigitText text = true →
    2 ≤ text.length ∧ text.length ≤ digitLimit ∧ text.toList.head? = some '0'

theorem two_le_length_of_head? {text : String} (hhead : text.toList.head? = some '0')
    (hne : text ≠ "0") : 2 ≤ text.length := by
  obtain ⟨rest, hrest⟩ := List.head?_eq_some_iff.mp hhead
  have hlength : text.length = rest.length + 1 := by
    rw [← String.length_toList, hrest, List.length_cons]
  cases rest with
  | nil =>
      have hzero : text = "0" := by
        rw [← String.toList_inj, hrest]
        rfl
      exact absurd hzero hne
  | cons c rest => simp [hlength]

theorem unquotedToken_of_isSymbolText {text : String} (h : IsSymbolText text) :
    unquotedToken text = .ok (.symbol text) := by
  unfold unquotedToken
  split
  · next hdigits =>
      obtain ⟨htwo, hlimit, hhead⟩ := h hdigits
      have hzero : ¬ (text = "0" ∨ text.toList.head? ≠ some '0') := by
        rintro (rfl | hne)
        · exact absurd htwo (by decide)
        · exact hne hhead
      rw [if_neg (Nat.not_lt.mpr hlimit), if_neg hzero]
  · rfl

theorem unquotedToken_cases {text : String} {token : Token} (h : unquotedToken text = .ok token) :
    (∃ n : Nat, text = toString n ∧ text.length ≤ digitLimit ∧ token = .number (.int n)) ∨
      (IsSymbolText text ∧ token = .symbol text) := by
  unfold unquotedToken at h
  split at h
  · next hdigits =>
      split at h
      · cases h
      · next hlimit =>
          have hlimit := Nat.not_lt.mp hlimit
          split at h
          · next hzero =>
              injection h with h
              exact .inl ⟨_, (toString_asciiDigitsValue ⟨hdigits, hzero⟩).symm, hlimit, h.symm⟩
          · next hzero =>
              obtain ⟨hne, hhead⟩ := not_or.mp hzero
              have hhead := not_not.mp hhead
              injection h with h
              exact .inr ⟨fun _ => ⟨two_le_length_of_head? hhead hne, hlimit, hhead⟩, h.symm⟩
  · next hdigits =>
      injection h with h
      exact .inr ⟨fun hdigits' => absurd hdigits' hdigits, h.symm⟩

end Line.Word
end ShellLowering
