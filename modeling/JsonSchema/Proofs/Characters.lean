import JsonSchema.Proofs.Written

/-!
# The characters of written texts

Strings are written without control characters, so a text has none but those that its layout breaks
lines with: a property of all other characters and of these is one of the whole text.
-/

namespace JsonSchema.Json

variable {layout : Layout} {level : Nat} {p : Char → Prop}

/-- A property of all characters but the controls, and of those that a layout breaks lines with. -/
structure Covers (p : Char → Prop) (layout : Layout) : Prop where
  plain : ∀ c, ¬ c.toNat < 0x20 → p c
  lineBreak : ∀ level, ∀ c ∈ layout.lineBreak level, p c

theorem forall_mem_escape (h : Covers p layout) (c : Char) : ∀ d ∈ escape c, p d := by
  have hdigit : ∀ digit < 16, p (Text.hexDigit digit) := by
    have hlarge : ∀ digit < 16, ¬ (Text.hexDigit digit).toNat < 0x20 := by decide
    exact fun digit hdigit => h.plain _ (hlarge digit hdigit)
  have hletter : ∀ letter, unescape? letter = some c → ¬ letter.toNat < 0x20 := by
    intro letter hc
    unfold unescape? at hc
    split at hc <;> first | decide | cases hc
  rcases escape_cases c with ⟨letter, -, hc, heq⟩ | ⟨hcontrol, heq⟩ | ⟨hcontrol, -, -, heq⟩
  · simp only [heq, List.forall_mem_cons]
    exact ⟨h.plain _ (by decide), h.plain _ (hletter letter hc), List.forall_mem_nil _⟩
  · simp only [heq, List.forall_mem_cons]
    exact ⟨h.plain _ (by decide), h.plain _ (by decide), h.plain _ (by decide),
      h.plain _ (by decide), hdigit _ (by omega), hdigit _ (by omega), List.forall_mem_nil _⟩
  · rw [heq]
    exact List.forall_mem_singleton.mpr (h.plain c hcontrol)

theorem forall_mem_stringChars (h : Covers p layout) (text : String) :
    ∀ c ∈ stringChars text, p c := by
  have hquote : p '"' := h.plain _ (by decide)
  simp only [stringChars, List.cons_append, List.forall_mem_append, List.forall_mem_cons,
    List.mem_flatMap]
  refine ⟨hquote, ?_, hquote, List.forall_mem_nil _⟩
  rintro c ⟨d, -, hc⟩
  exact forall_mem_escape h d c hc

theorem forall_mem_intChars (h : Covers p layout) (n : Int) : ∀ c ∈ Number.intChars n, p c := by
  have hdigits : ∀ c ∈ Nat.toDigits 10 n.natAbs, p c := by
    have hlarge : ∀ digit < 10, ¬ (Nat.digitChar digit).toNat < 0x20 := by decide
    intro c hc
    obtain ⟨digit, hdigit, rfl⟩ :=
      Pointer.exists_digit_of_isDigit (Pointer.isDigit_of_mem_numeral hc)
    exact h.plain _ (hlarge digit hdigit)
  rcases Int.lt_or_le n 0 with hneg | hpos
  · rw [intChars_of_neg hneg]
    exact List.forall_mem_cons.mpr ⟨h.plain _ (by decide), hdigits⟩
  · rwa [intChars_of_nonneg hpos]

theorem forall_mem_itemSeparator (h : Covers p layout) (level : Nat) :
    ∀ c ∈ layout.itemSeparator level, p c := by
  have hcomma : p ',' := h.plain _ (by decide)
  cases layout with
  | compact => exact List.forall_mem_singleton.mpr hcomma
  | spaced =>
    have hspace : p ' ' := h.plain _ (by decide)
    exact List.forall_mem_cons.mpr ⟨hcomma, List.forall_mem_singleton.mpr hspace⟩
  | indented width => exact List.forall_mem_cons.mpr ⟨hcomma, h.lineBreak level⟩

theorem forall_mem_nameSeparator (h : Covers p layout) : ∀ c ∈ layout.nameSeparator, p c := by
  have hcolon : p ':' := h.plain _ (by decide)
  have hspace : ∀ c ∈ [':', ' '], p c :=
    List.forall_mem_cons.mpr ⟨hcolon, List.forall_mem_singleton.mpr (h.plain _ (by decide))⟩
  cases layout with
  | compact => exact List.forall_mem_singleton.mpr hcolon
  | spaced => exact hspace
  | indented width => exact hspace

theorem forall_mem_restItems (h : Covers p layout) {items : List Value}
    (hitems : ∀ item ∈ items, ∀ c ∈ chars layout level item, p c) :
    ∀ c ∈ restItems layout level items, p c := by
  induction items with
  | nil => exact nofun
  | cons item others ih =>
    obtain ⟨hitem, hothers⟩ := List.forall_mem_cons.mp hitems
    simp only [restItems, List.forall_mem_append]
    exact ⟨⟨forall_mem_itemSeparator h level, hitem⟩, ih hothers⟩

theorem forall_mem_restMembers (h : Covers p layout) {members : List (String × Value)}
    (hmembers : ∀ member ∈ members, ∀ c ∈ chars layout level member.2, p c) :
    ∀ c ∈ restMembers layout level members, p c := by
  induction members with
  | nil => exact nofun
  | cons member others ih =>
    obtain ⟨hmember, hothers⟩ := List.forall_mem_cons.mp hmembers
    simp only [restMembers, List.forall_mem_append]
    exact ⟨⟨⟨⟨forall_mem_itemSeparator h level, forall_mem_stringChars h member.1⟩,
      forall_mem_nameSeparator h⟩, hmember⟩, ih hothers⟩

/-- By induction on the value. -/
theorem forall_mem_chars (h : Covers p layout) {value : Value}
    (hnumbers : value.AllNumbers Number.IsInt) (level : Nat) :
    ∀ c ∈ chars layout level value, p c := by
  have hplain : ∀ {cs : List Char}, cs.all (0x20 ≤ ·.toNat) → ∀ c ∈ cs, p c := by
    intro cs hcs c hc
    exact h.plain c (Nat.not_lt.mpr (of_decide_eq_true (List.all_eq_true.mp hcs c hc)))
  induction value using Value.induction generalizing level with
  | null => exact hplain (by rw [chars]; decide)
  | bool b => cases b <;> exact hplain (by rw [chars]; decide)
  | string text => exact forall_mem_stringChars h text
  | number n =>
    cases n with
    | int n => exact forall_mem_intChars h n
    | float x => exact (Value.allNumbers_number_iff.mp hnumbers).elim
  | array items ih =>
    have hitems := fun item hitem =>
      ih item hitem (Value.allNumbers_array_iff.mp hnumbers item hitem) (level + 1)
    cases items with
    | nil => exact hplain (by rw [chars]; decide)
    | cons item others =>
      obtain ⟨hitem, hothers⟩ := List.forall_mem_cons.mp hitems
      simp only [chars, List.cons_append, List.forall_mem_cons, List.forall_mem_append]
      exact ⟨h.plain _ (by decide), ⟨⟨⟨h.lineBreak _, hitem⟩, forall_mem_restItems h hothers⟩,
        h.lineBreak _⟩, h.plain _ (by decide), List.forall_mem_nil _⟩
  | object members ih =>
    have hmembers := fun member hmember =>
      ih member hmember (Value.allNumbers_object_iff.mp hnumbers member hmember) (level + 1)
    rcases members with _ | ⟨⟨name, value⟩, others⟩
    · exact hplain (by rw [chars]; decide)
    · obtain ⟨hvalue, hothers⟩ := List.forall_mem_cons.mp hmembers
      simp only [chars, List.cons_append, List.forall_mem_cons, List.forall_mem_append]
      exact ⟨h.plain _ (by decide), ⟨⟨⟨⟨⟨h.lineBreak _, forall_mem_stringChars h name⟩,
        forall_mem_nameSeparator h⟩, hvalue⟩, forall_mem_restMembers h hothers⟩, h.lineBreak _⟩,
        h.plain _ (by decide), List.forall_mem_nil _⟩

/-- A control character that the layout does not break lines with is never written. -/
theorem notMem_chars {control : Char} (hcontrol : control.toNat < 0x20)
    (hbreak : ∀ level, control ∉ layout.lineBreak level) {value : Value}
    (hnumbers : value.AllNumbers Number.IsInt) : control ∉ chars layout level value := by
  have hcovers : Covers (· ≠ control) layout := by
    constructor
    · rintro _ hplain rfl
      exact hplain hcontrol
    · rintro level _ hc rfl
      exact hbreak level hc
  exact fun hmem => forall_mem_chars hcovers hnumbers level control hmem rfl

/-- No carriage return is ever written, so no line end of a text is changed when it is read. -/
theorem ne_return_of_mem_chars {value : Value} {c : Char}
    (hnumbers : value.AllNumbers Number.IsInt) (hc : c ∈ chars layout level value) : c ≠ '\r' := by
  have hbreak : ∀ level, '\r' ∉ layout.lineBreak level := by
    intro level hmem
    cases layout with
    | compact => cases hmem
    | spaced => cases hmem
    | indented width =>
      rcases List.mem_cons.mp hmem with hfeed | hspace
      · exact absurd hfeed (by decide)
      · exact absurd (List.eq_of_mem_replicate hspace) (by decide)
  rintro rfl
  exact notMem_chars (by decide) hbreak hnumbers hc

end JsonSchema.Json
