import JsonSchema.Json.Reader
import JsonSchema.Json.Writer
import JsonSchema.Proofs.Equality
import JsonSchema.Proofs.Indices
import JsonSchema.Proofs.Numbers
import JsonSchema.Proofs.Selection
import Mathlib.Data.List.TakeDrop
import Mathlib.Data.List.TakeWhile

/-!
# Written JSON is read back

The reader undoes the writer on values whose numbers are integers, in every layout
(`readWholeText_chars`). Strings come first, then integers, which end where the text does not go on
with a numeral, then white space. Containers follow by induction on the value, with more fuel than
their texts have characters.
-/

namespace JsonSchema

def Number.IsInt : Number → Prop
  | .int _ => True
  | .float _ => False

namespace Json

variable {layout : Layout} {level fuel : Nat} {c : Char} {blanks closing rest : List Char}

/-! ### Strings -/

/-- A character is spelled with a letter behind a backslash, by its code, or as it is. -/
theorem escape_cases (c : Char) :
    (∃ letter, letter ≠ 'u' ∧ unescape? letter = some c ∧ escape c = ['\\', letter]) ∨
    (c.toNat < 0x20 ∧ escape c =
      ['\\', 'u', '0', '0', Text.hexDigit (c.toNat / 16), Text.hexDigit (c.toNat % 16)]) ∨
    (¬ c.toNat < 0x20 ∧ c ≠ '"' ∧ c ≠ '\\' ∧ escape c = [c]) := by
  unfold escape
  split_ifs with hquote hbackslash hfeed hreturn htab hback hform hcontrol
  · exact .inl ⟨'"', by decide, congrArg some hquote.symm, rfl⟩
  · exact .inl ⟨'\\', by decide, congrArg some hbackslash.symm, rfl⟩
  · exact .inl ⟨'n', by decide, congrArg some hfeed.symm, rfl⟩
  · exact .inl ⟨'r', by decide, congrArg some hreturn.symm, rfl⟩
  · exact .inl ⟨'t', by decide, congrArg some htab.symm, rfl⟩
  · exact .inl ⟨'b', by decide, congrArg some hback.symm, rfl⟩
  · exact .inl ⟨'f', by decide, congrArg some hform.symm, rfl⟩
  · exact .inr (.inl ⟨hcontrol, rfl⟩)
  · exact .inr (.inr ⟨hcontrol, hquote, hbackslash, rfl⟩)

theorem hexValue?_hexDigit : ∀ digit < 16, Text.hexValue? (Text.hexDigit digit) = some digit := by
  decide

theorem isHighSurrogate_eq_false {code : Nat} (h : code < 0x20) : isHighSurrogate code = false := by
  simp only [isHighSurrogate, Bool.and_eq_false_iff, decide_eq_false_iff_not]
  omega

theorem charOfCode_toNat (h : c.toNat < 0x20) : charOfCode c.toNat = c := by
  have hlow : isLowSurrogate c.toNat = false := by
    simp only [isLowSurrogate, Bool.and_eq_false_iff, decide_eq_false_iff_not]
    omega
  rw [charOfCode, isHighSurrogate_eq_false h, hlow, if_neg (by decide), Char.ofNat_toNat]

theorem readUnicodeEscape_control (h : c.toNat < 0x20) (hrest : rest ≠ []) :
    readUnicodeEscape ('0' :: '0' :: Text.hexDigit (c.toNat / 16) ::
      Text.hexDigit (c.toNat % 16) :: rest) = .ok (c, rest) := by
  have hcode : readHex4 ('0' :: '0' :: Text.hexDigit (c.toNat / 16) ::
      Text.hexDigit (c.toNat % 16) :: rest) = some (c.toNat, rest) := by
    have hzero : Text.hexValue? '0' = some 0 := by decide
    have hvalue : ((0 * 16 + 0) * 16 + c.toNat / 16) * 16 + c.toNat % 16 = c.toNat := by omega
    simp only [readHex4, hzero, hexValue?_hexDigit _ (show c.toNat / 16 < 16 by omega),
      hexValue?_hexDigit _ (show c.toNat % 16 < 16 by omega), Option.bind_eq_bind, Option.bind_some,
      hvalue]
    rfl
  obtain ⟨first, others, rfl⟩ := List.exists_cons_of_ne_nil hrest
  unfold readUnicodeEscape
  simp only [hcode, isHighSurrogate_eq_false h, charOfCode_toNat h]

/-- A character is read from its spelling, and the rest of the string as before. -/
theorem readString_escape (opening : Nat) (c : Char) (hrest : rest ≠ []) :
    readString opening (escape c ++ rest) =
      (readString opening rest).map fun (text, rest) => (c :: text, rest) := by
  rcases escape_cases c with ⟨letter, hletter, hc, heq⟩ | ⟨hcontrol, heq⟩ |
    ⟨hcontrol, hquote, hbackslash, heq⟩
  · rw [heq, List.cons_append, List.singleton_append, readString, hc]
    exact hletter
  · have hread := readUnicodeEscape_control hcontrol hrest
    rw [heq]
    simp only [List.cons_append, List.nil_append]
    rw [readString]
    split
    · rename_i hfailure
      cases hread.symm.trans hfailure
    · rename_i hok
      cases hread.symm.trans hok
      rfl
  · rw [heq, List.singleton_append, readString, if_neg hcontrol]
    · exact hquote
    · exact fun hc _ => hbackslash hc
    · exact fun _ hc _ => hbackslash hc
    · exact fun _ _ hc _ => hbackslash hc

/-- By induction on the text: its closing quote is the first that is not escaped. -/
theorem readString_escaped (opening : Nat) (text rest : List Char) :
    readString opening (text.flatMap escape ++ '"' :: rest) = .ok (text, rest) := by
  induction text with
  | nil => rw [List.flatMap_nil, List.nil_append, readString]
  | cons c text ih =>
    have hrest : text.flatMap escape ++ '"' :: rest ≠ [] :=
      List.append_ne_nil_of_right_ne_nil _ (List.cons_ne_nil _ _)
    rw [List.flatMap_cons, List.append_assoc, readString_escape opening c hrest, ih]
    rfl

/-! ### Integers -/

/-- No numeral goes on with a text: it starts with no digit, no point and no exponent. -/
def StopsNumeral (rest : List Char) : Prop :=
  ∀ c ∈ rest.head?, ¬ c.isDigit ∧ c ≠ '.' ∧ c ≠ 'e' ∧ c ≠ 'E'

theorem stopsNumeral_cons (h : c ∈ [',', ']', '\x7d', '\n']) : StopsNumeral (c :: rest) := by
  rintro _ ⟨⟩
  simp only [List.mem_cons, List.not_mem_nil, or_false] at h
  rcases h with rfl | rfl | rfl | rfl <;> decide

/-- A numeral starts with a digit, and only that of zero with a zero. -/
theorem exists_digit_toDigits (n : Nat) :
    ∃ c digits, Nat.toDigits 10 n = c :: digits ∧ c.isDigit ∧ (n ≠ 0 → c ≠ '0') := by
  obtain ⟨c, digits, heq⟩ := List.exists_cons_of_ne_nil (Nat.toDigits_ne_nil (n := n) (b := 10))
  refine ⟨c, digits, heq, Pointer.isDigit_of_mem_numeral (heq ▸ List.mem_cons_self), ?_⟩
  rintro hn rfl
  exact Pointer.head?_toDigits_ne_zero (Nat.pos_of_ne_zero hn) (heq ▸ rfl)

theorem span_toDigits (n : Nat) (hrest : StopsNumeral rest) :
    (Nat.toDigits 10 n ++ rest).span Char.isDigit = (Nat.toDigits 10 n, rest) := by
  have hdigits : ∀ c ∈ Nat.toDigits 10 n, c.isDigit := fun c => Pointer.isDigit_of_mem_numeral
  rw [List.span_eq_takeWhile_dropWhile, List.takeWhile_append_of_pos hdigits,
    List.dropWhile_append_of_pos hdigits]
  cases rest with
  | nil => simp
  | cons c rest =>
    obtain ⟨hdigit, -⟩ := hrest c rfl
    rw [List.takeWhile_cons_of_neg hdigit, List.dropWhile_cons_of_neg hdigit, List.append_nil]

theorem readWhole_toDigits (n : Nat) (hrest : StopsNumeral rest) :
    readWhole (Nat.toDigits 10 n ++ rest) = some (Nat.toDigits 10 n, rest) := by
  rcases eq_or_ne n 0 with rfl | hn
  · rfl
  · obtain ⟨c, digits, heq, hc, hzero⟩ := exists_digit_toDigits n
    have hspan := span_toDigits n hrest
    rw [heq] at hspan ⊢
    rw [List.cons_append, readWhole, if_pos hc, ← List.cons_append, hspan]
    exact hzero hn

theorem readFraction_of_stopsNumeral (h : StopsNumeral rest) : readFraction rest = ([], rest) := by
  unfold readFraction
  split
  · obtain ⟨-, hpoint, -⟩ := h _ rfl
    exact absurd rfl hpoint
  · rfl

theorem readExponent_of_stopsNumeral (h : StopsNumeral rest) : readExponent rest = none := by
  unfold readExponent
  split
  · obtain ⟨-, -, hsmall, hlarge⟩ := h _ rfl
    rw [if_neg (not_or_intro hsmall hlarge)]
  · rfl

theorem intChars_of_neg {n : Int} (h : n < 0) :
    Number.intChars n = '-' :: Nat.toDigits 10 n.natAbs := by
  rw [Number.intChars, if_pos h, List.singleton_append]

theorem intChars_of_nonneg {n : Int} (h : 0 ≤ n) :
    Number.intChars n = Nat.toDigits 10 n.natAbs := by
  rw [Number.intChars, if_neg (Int.not_lt.mpr h), List.nil_append]

theorem readNumber_intChars (n : Int) (hrest : StopsNumeral rest) :
    readNumber (Number.intChars n ++ rest) = .ok (.int n, rest) := by
  have hwhole := readWhole_toDigits n.natAbs hrest
  rcases Int.lt_or_le n 0 with hneg | hpos
  · rw [intChars_of_neg hneg, List.cons_append, readNumber]
    simp only [hwhole, readFraction_of_stopsNumeral hrest, readExponent_of_stopsNumeral hrest,
      Nat.ofDigitChars_ten_toDigits, if_true]
    rw [Int.ofNat_natAbs_of_nonpos (Int.le_of_lt hneg), Int.neg_neg]
  · obtain ⟨c, digits, heq, hc, -⟩ := exists_digit_toDigits n.natAbs
    rw [intChars_of_nonneg hpos, readNumber]
    · simp only [hwhole, readFraction_of_stopsNumeral hrest, readExponent_of_stopsNumeral hrest,
        Nat.ofDigitChars_ten_toDigits, Bool.false_eq_true, if_false]
      rw [Int.natAbs_of_nonneg hpos]
    · intro body hbody
      rw [heq] at hbody
      obtain rfl := (List.cons.inj hbody).1
      exact absurd hc (by decide)

/-- No other value starts with a digit, or with a minus sign before a digit. -/
theorem readValue_intChars (fuel : Nat) (n : Int) (hrest : StopsNumeral rest) :
    readValue (fuel + 1) (Number.intChars n ++ rest) = .ok (.int n, rest) := by
  have hread := readNumber_intChars n hrest
  obtain ⟨c, digits, heq, hc, -⟩ := exists_digit_toDigits n.natAbs
  rcases Int.lt_or_le n 0 with hneg | hpos
  · rw [intChars_of_neg hneg, heq, List.cons_append, List.cons_append] at hread ⊢
    rw [readValue, hread]
    · rfl
    all_goals
      intro tail htail
      injection htail with hfirst htail
    all_goals first
      | exact absurd hfirst (by decide)
      | obtain rfl := (List.cons.inj htail).1
        exact absurd hc (by decide)
  · rw [intChars_of_nonneg hpos, heq, List.cons_append] at hread ⊢
    rw [readValue, hread]
    · rfl
    all_goals
      intro tail htail
      obtain rfl := (List.cons.inj htail).1
      exact absurd hc (by decide)

/-! ### White space -/

theorem skipBlanks_cons (h : isBlank c = false) (rest : List Char) :
    skipBlanks (c :: rest) = c :: rest := by
  rw [skipBlanks, List.dropWhile_cons_of_neg (by rw [h]; decide)]

theorem skipBlanks_append (hblanks : ∀ b ∈ blanks, isBlank b) (rest : List Char) :
    skipBlanks (blanks ++ rest) = skipBlanks rest :=
  List.dropWhile_append_of_pos hblanks

theorem isBlank_of_mem_lineBreak (layout : Layout) (level : Nat) :
    ∀ b ∈ layout.lineBreak level, isBlank b := by
  intro b hb
  cases layout with
  | compact => cases hb
  | spaced => cases hb
  | indented width =>
    rcases List.mem_cons.mp hb with rfl | hspace
    · decide
    · rw [List.eq_of_mem_replicate hspace]
      decide

theorem skipBlanks_lineBreak (layout : Layout) (level : Nat) (hc : isBlank c = false)
    (rest : List Char) : skipBlanks (layout.lineBreak level ++ c :: rest) = c :: rest := by
  rw [skipBlanks_append (isBlank_of_mem_lineBreak layout level), skipBlanks_cons hc]

theorem skipBlanks_stringChars (hblanks : ∀ b ∈ blanks, isBlank b) (name : String)
    (rest : List Char) :
    skipBlanks (blanks ++ (stringChars name ++ rest)) = stringChars name ++ rest := by
  rw [skipBlanks_append hblanks, stringChars, List.cons_append, List.cons_append,
    skipBlanks_cons (by decide)]

theorem exists_itemSeparator (layout : Layout) (level : Nat) :
    ∃ blanks, layout.itemSeparator level = ',' :: blanks ∧ ∀ b ∈ blanks, isBlank b := by
  cases layout with
  | compact => exact ⟨[], rfl, nofun⟩
  | spaced => exact ⟨[' '], rfl, List.forall_mem_singleton.mpr rfl⟩
  | indented width => exact ⟨_, rfl, isBlank_of_mem_lineBreak _ level⟩

theorem exists_nameSeparator (layout : Layout) :
    ∃ blanks, layout.nameSeparator = ':' :: blanks ∧ ∀ b ∈ blanks, isBlank b := by
  cases layout with
  | compact => exact ⟨[], rfl, nofun⟩
  | spaced => exact ⟨[' '], rfl, List.forall_mem_singleton.mpr rfl⟩
  | indented width => exact ⟨[' '], rfl, List.forall_mem_singleton.mpr rfl⟩

/-! ### What stands behind a value in a container -/

variable {item value : Value} {items : List Value} {name : String}
  {members : List (String × Value)}

theorem stopsNumeral_lineBreak (layout : Layout) (level : Nat)
    (hc : c ∈ [',', ']', '\x7d', '\n']) (rest : List Char) :
    StopsNumeral (layout.lineBreak level ++ c :: rest) := by
  cases layout with
  | compact => exact stopsNumeral_cons hc
  | spaced => exact stopsNumeral_cons hc
  | indented width => exact stopsNumeral_cons (by decide)

theorem stopsNumeral_itemSeparator (layout : Layout) (level : Nat) (rest : List Char) :
    StopsNumeral (layout.itemSeparator level ++ rest) := by
  obtain ⟨blanks, hseparator, -⟩ := exists_itemSeparator layout level
  rw [hseparator]
  exact stopsNumeral_cons (by decide)

theorem stopsNumeral_restItems (h : StopsNumeral closing) :
    StopsNumeral (restItems layout level items ++ closing) := by
  cases items with
  | nil => exact h
  | cons item others =>
    simp only [restItems, List.append_assoc]
    exact stopsNumeral_itemSeparator layout level _

theorem stopsNumeral_restMembers (h : StopsNumeral closing) :
    StopsNumeral (restMembers layout level members ++ closing) := by
  cases members with
  | nil => exact h
  | cons member others =>
    simp only [restMembers, List.append_assoc]
    exact stopsNumeral_itemSeparator layout level _

/-! ### Values -/

/-- A value is read back from its text at any level, whatever stands behind it. The text starts neither
with a blank, nor with a bracket that closes an array, nor with a byte order mark. -/
structure ReadsBack (layout : Layout) (value : Value) : Prop where
  starts : ∀ level, ∃ c tail,
    chars layout level value = c :: tail ∧ isBlank c = false ∧ c ≠ ']' ∧ c ≠ '\ufeff'
  reads : ∀ level fuel rest, StopsNumeral rest → (chars layout level value).length < fuel →
    readValue fuel (chars layout level value ++ rest) = .ok (value, rest)

theorem ReadsBack.skipBlanks_chars (h : ReadsBack layout value) (hblanks : ∀ b ∈ blanks, isBlank b)
    (level : Nat) (rest : List Char) :
    skipBlanks (blanks ++ (chars layout level value ++ rest)) =
      chars layout level value ++ rest := by
  obtain ⟨c, tail, hstart, hc, -⟩ := h.starts level
  rw [skipBlanks_append hblanks, hstart, List.cons_append, skipBlanks_cons hc]

/-- What is read of an array from an item on depends on what stands behind the item. -/
theorem readItems_item (h : ReadsBack layout item) (hrest : StopsNumeral rest)
    (hfuel : (chars layout level item).length < fuel) :
    readItems (fuel + 1) (chars layout level item ++ rest) =
      match skipBlanks rest with
      | ']' :: rest => .ok ([item], rest)
      | ',' :: rest => (readItems fuel (skipBlanks rest)).map
        fun (items, rest) => (item :: items, rest)
      | rest => failAt .commaExpected rest := by
  rw [readItems, h.reads level fuel rest hrest hfuel]
  rfl

theorem readMembers_member (h : ReadsBack layout value) (hrest : StopsNumeral rest)
    (hfuel : (chars layout level value).length < fuel) :
    readMembers (fuel + 1) (stringChars name ++ (layout.nameSeparator ++
      (chars layout level value ++ rest))) =
      match skipBlanks rest with
      | '\x7d' :: rest => .ok ([(name, value)], rest)
      | ',' :: rest => (readMembers fuel (skipBlanks rest)).map
        fun (members, rest) => ((name, value) :: members, rest)
      | rest => failAt .commaExpected rest := by
  obtain ⟨blanks, hseparator, hblanks⟩ := exists_nameSeparator layout
  have hvalue : readValue fuel (skipBlanks (blanks ++ (chars layout level value ++ rest))) =
      .ok (value, rest) := by
    rw [h.skipBlanks_chars hblanks, h.reads level fuel rest hrest hfuel]
  rw [hseparator, stringChars, List.append_assoc, List.cons_append, List.singleton_append,
    List.cons_append, readMembers]
  dsimp only
  rw [readString_escaped]
  simp only [Except.bind, bind]
  rw [skipBlanks_cons (by decide)]
  simp only [hvalue, String.ofList_toList]
  rfl

/-- By induction on the items after the first. The separator before each of them pays for the step of
fuel that it takes. -/
theorem readItems_chars (hitems : ∀ value ∈ item :: items, ReadsBack layout value)
    (hclosing : StopsNumeral closing) (hend : skipBlanks closing = ']' :: rest)
    (hfuel : (chars layout level item).length + (restItems layout level items).length + 1 < fuel) :
    readItems fuel (chars layout level item ++ (restItems layout level items ++ closing)) =
      .ok (item :: items, rest) := by
  induction items generalizing item fuel with
  | nil =>
    obtain ⟨fuel, rfl⟩ := Nat.exists_eq_add_one_of_ne_zero (Nat.ne_zero_of_lt hfuel)
    have hitem := hitems item List.mem_cons_self
    rw [restItems, List.nil_append, readItems_item hitem hclosing (by omega), hend]
    rfl
  | cons next others ih =>
    obtain ⟨fuel, rfl⟩ := Nat.exists_eq_add_one_of_ne_zero (Nat.ne_zero_of_lt hfuel)
    obtain ⟨hitem, hothers⟩ := List.forall_mem_cons.mp hitems
    obtain ⟨blanks, hseparator, hblanks⟩ := exists_itemSeparator layout level
    rw [readItems_item hitem (stopsNumeral_restItems hclosing) (by omega)]
    rw [restItems, hseparator] at hfuel ⊢
    simp only [List.length_append, List.length_cons] at hfuel
    simp only [List.cons_append, List.append_assoc]
    rw [skipBlanks_cons (by decide)]
    change Except.map _ (readItems fuel (skipBlanks _)) = _
    rw [(hothers next List.mem_cons_self).skipBlanks_chars hblanks, ih hothers (by omega)]
    rfl

theorem readMembers_chars
    (hmembers : ∀ member ∈ (name, value) :: members, ReadsBack layout member.2)
    (hclosing : StopsNumeral closing) (hend : skipBlanks closing = '\x7d' :: rest)
    (hfuel : (chars layout level value).length + (restMembers layout level members).length + 1 <
      fuel) :
    readMembers fuel (stringChars name ++ (layout.nameSeparator ++ (chars layout level value ++
      (restMembers layout level members ++ closing)))) = .ok ((name, value) :: members, rest) := by
  induction members generalizing name value fuel with
  | nil =>
    obtain ⟨fuel, rfl⟩ := Nat.exists_eq_add_one_of_ne_zero (Nat.ne_zero_of_lt hfuel)
    have hvalue : ReadsBack layout value := hmembers (name, value) List.mem_cons_self
    rw [restMembers, List.nil_append, readMembers_member hvalue hclosing (by omega), hend]
    rfl
  | cons next others ih =>
    obtain ⟨nextName, next⟩ := next
    obtain ⟨fuel, rfl⟩ := Nat.exists_eq_add_one_of_ne_zero (Nat.ne_zero_of_lt hfuel)
    have hvalue : ReadsBack layout value := hmembers (name, value) List.mem_cons_self
    have hothers := fun member hmember => hmembers member (List.mem_cons_of_mem _ hmember)
    obtain ⟨blanks, hseparator, hblanks⟩ := exists_itemSeparator layout level
    rw [readMembers_member hvalue (stopsNumeral_restMembers hclosing) (by omega)]
    rw [restMembers, hseparator] at hfuel ⊢
    simp only [List.length_append, List.length_cons] at hfuel
    simp only [List.cons_append, List.append_assoc]
    rw [skipBlanks_cons (by decide)]
    change Except.map _ (readMembers fuel (skipBlanks _)) = _
    rw [skipBlanks_stringChars hblanks, ih hothers (by omega)]
    rfl

theorem readValue_array (hbracket : c ≠ ']') {tail more : List Char}
    (hskip : skipBlanks tail = c :: more) :
    readValue (fuel + 1) ('[' :: tail) =
      (readItems fuel (c :: more)).map fun (items, rest) => (.array items, rest) := by
  rw [readValue, hskip]
  split
  · rename_i heq
    exact absurd (List.cons.inj heq).1 hbracket
  · rfl

theorem readValue_object (hbrace : c ≠ '\x7d') {tail more : List Char}
    (hskip : skipBlanks tail = c :: more) :
    readValue (fuel + 1) ('\x7b' :: tail) = (readMembers fuel (c :: more)).map
      fun (members, rest) => (.object (Members.ofPairs members), rest) := by
  rw [readValue, hskip]
  split
  · rename_i heq
    exact absurd (List.cons.inj heq).1 hbrace
  · rfl

theorem readsBack_array (h : ∀ item ∈ items, ReadsBack layout item) :
    ReadsBack layout (.array items) := by
  refine ⟨fun level => ?_, fun level fuel rest hrest hfuel => ?_⟩
  · cases items <;> exact ⟨'[', _, rfl, by decide⟩
  · obtain ⟨fuel, rfl⟩ := Nat.exists_eq_add_one_of_ne_zero (Nat.ne_zero_of_lt hfuel)
    cases items with
    | nil => rfl
    | cons item others =>
      have hitem := h item List.mem_cons_self
      obtain ⟨c, tail, hstart, -, hbracket, -⟩ := hitem.starts (level + 1)
      have htext : chars layout level (.array (item :: others)) ++ rest = '[' ::
          (layout.lineBreak (level + 1) ++ (chars layout (level + 1) item ++
            (restItems layout (level + 1) others ++ (layout.lineBreak level ++ ']' :: rest)))) := by
        simp [chars]
      have hskip := hitem.skipBlanks_chars (isBlank_of_mem_lineBreak layout (level + 1)) (level + 1)
        (restItems layout (level + 1) others ++ (layout.lineBreak level ++ ']' :: rest))
      have hbound : (chars layout (level + 1) item).length +
          (restItems layout (level + 1) others).length + 1 < fuel := by
        simp only [chars, List.cons_append, List.length_cons, List.length_append] at hfuel
        omega
      have hitems := readItems_chars h (stopsNumeral_lineBreak layout level (by decide) rest)
        (skipBlanks_lineBreak layout level (by decide) rest) hbound
      rw [hstart, List.cons_append] at hskip hitems
      rw [htext, hstart, List.cons_append, readValue_array hbracket hskip, hitems]
      rfl

theorem readsBack_object (hdistinct : Members.Distinct members)
    (h : ∀ member ∈ members, ReadsBack layout member.2) : ReadsBack layout (.object members) := by
  refine ⟨fun level => ?_, fun level fuel rest hrest hfuel => ?_⟩
  · rcases members with _ | ⟨⟨name, value⟩, others⟩ <;> exact ⟨'\x7b', _, rfl, by decide⟩
  · obtain ⟨fuel, rfl⟩ := Nat.exists_eq_add_one_of_ne_zero (Nat.ne_zero_of_lt hfuel)
    rcases members with _ | ⟨⟨name, value⟩, others⟩
    · rfl
    · have htext : chars layout level (.object ((name, value) :: others)) ++ rest = '\x7b' ::
          (layout.lineBreak (level + 1) ++ (stringChars name ++ (layout.nameSeparator ++
            (chars layout (level + 1) value ++ (restMembers layout (level + 1) others ++
              (layout.lineBreak level ++ '\x7d' :: rest)))))) := by
        simp [chars]
      have hbound : (chars layout (level + 1) value).length +
          (restMembers layout (level + 1) others).length + 1 < fuel := by
        simp only [chars, List.cons_append, List.length_cons, List.length_append] at hfuel
        omega
      have hmembers := readMembers_chars h (stopsNumeral_lineBreak layout level (by decide) rest)
        (skipBlanks_lineBreak layout level (by decide) rest) hbound
      rw [htext, readValue_object (by decide)
        (skipBlanks_stringChars (isBlank_of_mem_lineBreak layout (level + 1)) name _)]
      change Except.map _ (readMembers fuel (stringChars name ++ _)) = _
      rw [hmembers]
      change Except.ok (Value.object (Members.ofPairs _), rest) = _
      rw [Members.ofPairs_of_distinct hdistinct]

theorem readsBack_scalar {c : Char} {tail : List Char}
    (hchars : ∀ level, chars layout level value = c :: tail)
    (hstart : isBlank c = false ∧ c ≠ ']' ∧ c ≠ '\ufeff')
    (hread : ∀ fuel rest, StopsNumeral rest →
      readValue (fuel + 1) (c :: tail ++ rest) = .ok (value, rest)) : ReadsBack layout value := by
  refine ⟨fun level => ⟨c, tail, hchars level, hstart⟩, fun level fuel rest hrest hfuel => ?_⟩
  obtain ⟨fuel, rfl⟩ := Nat.exists_eq_add_one_of_ne_zero (Nat.ne_zero_of_lt hfuel)
  rw [hchars]
  exact hread fuel rest hrest

theorem readsBack_int (layout : Layout) (n : Int) : ReadsBack layout (.int n) := by
  obtain ⟨c, digits, heq, hc, -⟩ := exists_digit_toDigits n.natAbs
  have hread : ∀ fuel rest, StopsNumeral rest →
      readValue (fuel + 1) (Number.intChars n ++ rest) = .ok (.int n, rest) :=
    fun fuel _ => readValue_intChars fuel n
  rcases Int.lt_or_le n 0 with hneg | hpos
  · rw [intChars_of_neg hneg] at hread
    exact readsBack_scalar (fun _ => intChars_of_neg hneg) (by decide) hread
  · rw [intChars_of_nonneg hpos, heq] at hread
    refine readsBack_scalar (fun _ => (intChars_of_nonneg hpos).trans heq) ⟨?_, ?_, ?_⟩ hread
    · by_contra hblank
      simp only [isBlank, Bool.not_eq_false, Bool.or_eq_true, decide_eq_true_eq] at hblank
      rcases hblank with ((rfl | rfl) | rfl) | rfl <;> exact absurd hc (by decide)
    · rintro rfl
      exact absurd hc (by decide)
    · rintro rfl
      exact absurd hc (by decide)

theorem readsBack_string (layout : Layout) (text : String) : ReadsBack layout (.string text) := by
  refine readsBack_scalar (fun _ => rfl) (by decide) fun fuel rest _ => ?_
  change readValue (fuel + 1) ('"' :: (text.toList.flatMap escape ++ ['"'] ++ rest)) = _
  rw [List.append_assoc, List.singleton_append, readValue]
  simp only [readString_escaped, bind, Except.bind, String.ofList_toList]
  rfl

/-- By induction on the value. -/
theorem readsBack (layout : Layout) {value : Value} (hwell : value.WellFormed)
    (hnumbers : value.AllNumbers Number.IsInt) : ReadsBack layout value := by
  induction value using Value.induction with
  | null => exact readsBack_scalar (fun _ => rfl) (by decide) fun _ _ _ => rfl
  | bool b => cases b <;> exact readsBack_scalar (fun _ => rfl) (by decide) fun _ _ _ => rfl
  | string text => exact readsBack_string layout text
  | number n =>
    cases n with
    | int n => exact readsBack_int layout n
    | float x => exact (Value.allNumbers_number_iff.mp hnumbers).elim
  | array items ih =>
    rw [Value.wellFormed_array_iff] at hwell
    rw [Value.allNumbers_array_iff] at hnumbers
    exact readsBack_array fun item hitem => ih item hitem (hwell item hitem) (hnumbers item hitem)
  | object members ih =>
    rw [Value.wellFormed_object_iff] at hwell
    rw [Value.allNumbers_object_iff] at hnumbers
    exact readsBack_object hwell.1 fun member hmember =>
      ih member hmember (hwell.2 member hmember) (hnumbers member hmember)

/-- A written text is read back, also with white space behind it. -/
theorem readWholeText_chars (layout : Layout) (hwell : value.WellFormed)
    (hnumbers : value.AllNumbers Number.IsInt) (hblanks : ∀ b ∈ blanks, isBlank b) :
    readWholeText (chars layout 0 value ++ blanks) = .ok value := by
  have hback := readsBack layout hwell hnumbers
  obtain ⟨c, tail, hstart, -, -, hmark⟩ := hback.starts 0
  have hstops : StopsNumeral blanks := by
    intro b hb
    have hblank := hblanks b (List.mem_of_mem_head? hb)
    simp only [isBlank, Bool.or_eq_true, decide_eq_true_eq] at hblank
    rcases hblank with ((rfl | rfl) | rfl) | rfl <;> decide
  have hskip := hback.skipBlanks_chars (List.forall_mem_nil _) 0 blanks
  have hread := hback.reads 0 ((chars layout 0 value ++ blanks).length + 1) blanks hstops
    (by rw [List.length_append]; omega)
  have hend : skipBlanks blanks = [] := List.dropWhile_eq_nil_iff.mpr hblanks
  rw [List.nil_append] at hskip
  rw [hstart, List.cons_append] at hskip hread ⊢
  rw [readWholeText, hskip, hread]
  · simp only [bind, Except.bind, hend]
    rfl
  · exact fun _ h => hmark (List.cons.inj h).1

end Json

end JsonSchema
