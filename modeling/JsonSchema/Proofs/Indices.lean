import JsonSchema.Pointer

/-!
# Array indices as segments

The numeral of an index is a segment that names the index. There is one other: the same numeral with
a line feed behind it.
-/

namespace JsonSchema.Pointer

theorem head?_toDigits_ne_zero {n : Nat} (h : 0 < n) : (Nat.toDigits 10 n).head? ≠ some '0' := by
  induction n using Nat.strongRecOn with
  | ind n ih =>
    by_cases hsmall : n < 10
    · rw [Nat.toDigits_of_lt_base hsmall]
      have hdigit : ∀ digit < 10, 0 < digit → [Nat.digitChar digit].head? ≠ some '0' := by decide
      exact hdigit n hsmall h
    · have hrest : 0 < n / 10 := by omega
      rw [Nat.toDigits_of_base_le (by decide) (by omega), List.head?_append]
      cases hhead : (Nat.toDigits 10 (n / 10)).head? with
      | none => exact absurd (List.head?_eq_none_iff.mp hhead) Nat.toDigits_ne_nil
      | some first =>
        have hfirst := ih (n / 10) (by omega) hrest
        rwa [hhead] at hfirst

theorem isDigit_of_mem_numeral {n : Nat} {c : Char} (h : c ∈ Nat.toDigits 10 n) : c.isDigit :=
  Nat.isDigit_of_mem_toDigits (by decide) (by decide) h

theorem isNumeral_toDigits (n : Nat) : isNumeral (Nat.toDigits 10 n) := by
  have hdigits : ∀ c ∈ Nat.toDigits 10 n, c.isDigit := fun c => isDigit_of_mem_numeral
  match hchars : Nat.toDigits 10 n with
  | [] => exact absurd hchars Nat.toDigits_ne_nil
  | [c] =>
    rw [isNumeral]
    exact hdigits c (hchars ▸ List.mem_cons_self)
  | c :: d :: rest =>
    have hpos : 0 < n := by
      rcases Nat.eq_zero_or_pos n with rfl | hpos
      · cases hchars
      · exact hpos
    have hfirst : c ≠ '0' := by
      have hhead := head?_toDigits_ne_zero hpos
      rw [hchars] at hhead
      exact fun heq => hhead (congrArg some heq)
    rw [hchars, List.forall_mem_cons] at hdigits
    have hrest : (d :: rest).all Char.isDigit := List.all_eq_true.mpr hdigits.2
    simp [isNumeral, hfirst, hdigits.1, hrest]

theorem index?_ofIndex (index : Nat) : index? (ofIndex index) = some index := by
  have hlast : (Nat.toDigits 10 index).getLast? ≠ some '\n' := by
    intro h
    have hdigit := isDigit_of_mem_numeral (List.mem_of_getLast? h)
    exact absurd hdigit (by decide)
  simp [index?, ofIndex, hlast, isNumeral_toDigits, Nat.ofDigitChars_ten_toDigits]

/-! ### Numerals read as numbers -/

theorem exists_digit_of_isDigit {c : Char} (h : c.isDigit) :
    ∃ digit < 10, c = Nat.digitChar digit := by
  have hchars : ∀ digit < 10, Nat.digitChar digit = Char.ofNat ('0'.toNat + digit) := by decide
  obtain ⟨hlow, hhigh⟩ : '0'.toNat ≤ c.toNat ∧ c.toNat ≤ '0'.toNat + 9 := by
    simpa [Char.isDigit, UInt32.le_iff_toNat_le] using h
  have hdigit : c.toNat - '0'.toNat < 10 := by omega
  refine ⟨_, hdigit, ?_⟩
  rw [hchars _ hdigit, Nat.add_sub_cancel' hlow, Char.ofNat_toNat]

/-- Digits behind a numeral that is not zero are kept as they are. -/
theorem toDigits_ofDigitChars_of_pos {digits : List Char} (hdigits : ∀ c ∈ digits, c.isDigit)
    {n : Nat} (hn : 0 < n) :
    Nat.toDigits 10 (Nat.ofDigitChars 10 digits n) = Nat.toDigits 10 n ++ digits := by
  induction digits generalizing n with
  | nil => rw [Nat.ofDigitChars_nil, List.append_nil]
  | cons c rest ih =>
    obtain ⟨hc, hrest⟩ := List.forall_mem_cons.mp hdigits
    obtain ⟨digit, hdigit, rfl⟩ := exists_digit_of_isDigit hc
    rw [Nat.ofDigitChars_cons_digitChar_of_lt_ten hdigit, ih hrest (by omega),
      ← Nat.toDigits_append_toDigits (by decide) hn hdigit, Nat.toDigits_of_lt_base hdigit,
      List.append_assoc, List.singleton_append]

/-- A numeral without superfluous zeros is the numeral of its number. -/
theorem toDigits_ofDigitChars {chars : List Char} (h : isNumeral chars) :
    Nat.toDigits 10 (Nat.ofDigitChars 10 chars 0) = chars := by
  match chars with
  | [c] =>
    obtain ⟨digit, hdigit, rfl⟩ := exists_digit_of_isDigit h
    rw [Nat.ofDigitChars_cons_digitChar_of_lt_ten hdigit, Nat.ofDigitChars_nil, Nat.mul_zero,
      Nat.zero_add, Nat.toDigits_of_lt_base hdigit]
  | c :: d :: rest =>
    simp only [isNumeral, Bool.and_eq_true, decide_eq_true_eq, List.all_eq_true] at h
    obtain ⟨⟨hzero, hc⟩, hrest⟩ := h
    obtain ⟨digit, hdigit, rfl⟩ := exists_digit_of_isDigit hc
    have hpos : 0 < digit := by
      rcases Nat.eq_zero_or_pos digit with rfl | hpos
      · exact absurd rfl hzero
      · exact hpos
    rw [Nat.ofDigitChars_cons_digitChar_of_lt_ten hdigit, Nat.mul_zero, Nat.zero_add,
      toDigits_ofDigitChars_of_pos hrest hpos, Nat.toDigits_of_lt_base hdigit,
      List.singleton_append]

/-- A segment names an index in two spellings: its numeral, and its numeral with a line feed. -/
theorem index?_eq_some_iff {segment : String} {index : Nat} :
    index? segment = some index ↔ segment = ofIndex index ∨ segment = ofIndex index ++ "\n" := by
  constructor
  · intro h
    by_cases hfeed : segment.toList.getLast? = some '\n'
    · simp only [index?, if_pos hfeed, Option.ite_none_right_eq_some, Option.some.injEq] at h
      obtain ⟨hnumeral, rfl⟩ := h
      obtain ⟨numeral, hchars⟩ := List.getLast?_eq_some_iff.mp hfeed
      rw [hchars, List.dropLast_concat] at hnumeral ⊢
      right
      rw [← String.toList_inj, ofIndex, toDigits_ofDigitChars hnumeral, hchars]
      simp
    · simp only [index?, if_neg hfeed, Option.ite_none_right_eq_some, Option.some.injEq] at h
      obtain ⟨hnumeral, rfl⟩ := h
      left
      rw [ofIndex, toDigits_ofDigitChars hnumeral, String.ofList_toList]
  · rintro (rfl | rfl)
    · exact index?_ofIndex index
    · simp [index?, ofIndex, isNumeral_toDigits, Nat.ofDigitChars_ten_toDigits]

end JsonSchema.Pointer
