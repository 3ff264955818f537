import JsonSchema.Pointer
import Mathlib.Data.Set.Operations

/-!
# Pointers read back

A segment holds no slash once it is escaped, so a written pointer is split at its slashes into the
segments that it was written from. Only the pointer of a single empty segment is that of the whole
value, so reading inverts writing but for it (`parse_format_inverse`); a pointer that is put together
from its first segment on never comes by it, unless that segment is empty.
-/

namespace JsonSchema

theorem Text.splitOn_eq (separator : Char) (chars : List Char) :
    splitOn separator chars = chars.splitOn separator := by
  induction chars with
  | nil => rfl
  | cons c rest ih =>
    obtain ⟨part, parts, hparts⟩ := List.exists_cons_of_ne_nil (List.splitOn_ne_nil separator rest)
    rw [splitOn, List.splitOn_cons_eq_if_modifyHead, ih, hparts]
    simp only [beq_iff_eq, List.modifyHead_cons]

namespace Pointer

/-! ### Segments -/

theorem slash_notMem_escapeChars (chars : List Char) : '/' ∉ escapeChars chars := by
  fun_induction escapeChars chars with
  | case1 => exact List.not_mem_nil
  | case2 rest ih => simp [ih]
  | case3 rest ih => simp [ih]
  | case4 c rest _ hslash ih => simp [ih, Ne.symm hslash]

theorem unescapeChars_escapeChars (chars : List Char) :
    unescapeChars (escapeChars chars) = chars := by
  fun_induction escapeChars chars with
  | case1 => rfl
  | case2 rest ih => rw [unescapeChars, ih]
  | case3 rest ih => rw [unescapeChars, ih]
  | case4 c rest htilde _ ih => rw [unescapeChars, ih] <;> simp_all

theorem escapeChars_eq_nil_iff {chars : List Char} : escapeChars chars = [] ↔ chars = [] := by
  fun_cases escapeChars chars <;> simp

/-! ### The order of replacements -/

/-- Two characters replaced by one wherever they stand together, read from the left. -/
def replacePair (first second new : Char) : List Char → List Char
  | c :: d :: rest =>
    if c = first ∧ d = second then new :: replacePair first second new rest
    else c :: replacePair first second new (d :: rest)
  | few => few

theorem replacePair_cons_of_ne {first c : Char} (h : c ≠ first) (second new : Char)
    (rest : List Char) :
    replacePair first second new (c :: rest) = c :: replacePair first second new rest := by
  cases rest with
  | nil => rfl
  | cons d rest => rw [replacePair, if_neg fun hboth => h hboth.1]

theorem replacePair_cons_of_head?_ne {first second : Char} (c new : Char) {rest : List Char}
    (h : rest.head? ≠ some second) :
    replacePair first second new (c :: rest) = c :: replacePair first second new rest := by
  cases rest with
  | nil => rfl
  | cons d rest => rw [replacePair, if_neg fun hboth => h (congrArg some hboth.2)]

theorem head?_replacePair (first second new : Char) (chars : List Char) :
    (replacePair first second new chars).head? = chars.head? ∨
      (replacePair first second new chars).head? = some new := by
  fun_cases replacePair first second new chars with
  | case1 => exact .inr rfl
  | case2 => exact .inl rfl
  | case3 => exact .inl rfl

/-- Slashes are restored first. The other way round, the `~01` that stands for `~1` would become a
slash. -/
theorem unescapeChars_eq_replacePair (chars : List Char) :
    unescapeChars chars = replacePair '~' '0' '~' (replacePair '~' '1' '/' chars) := by
  fun_induction unescapeChars chars with
  | case1 => rfl
  | case2 rest ih =>
    have hinner : replacePair '~' '1' '/' ('~' :: '0' :: rest) =
        '~' :: '0' :: replacePair '~' '1' '/' rest := by
      rw [replacePair, if_neg (by decide), replacePair_cons_of_ne (by decide)]
    rw [hinner, replacePair, if_pos ⟨rfl, rfl⟩, ih]
  | case3 rest ih =>
    rw [replacePair, if_pos ⟨rfl, rfl⟩, replacePair_cons_of_ne (by decide), ih]
  | case4 c rest hzero hone ih =>
    by_cases hc : c = '~'
    · subst hc
      have hone' : rest.head? ≠ some '1' := by
        cases rest with
        | nil => exact nofun
        | cons d rest => exact fun hd => hone rest rfl (congrArg (· :: rest) (Option.some.inj hd))
      have hzero' : (replacePair '~' '1' '/' rest).head? ≠ some '0' := by
        rcases head?_replacePair '~' '1' '/' rest with hhead | hhead
        · rw [hhead]
          cases rest with
          | nil => exact nofun
          | cons d rest =>
            exact fun hd => hzero rest rfl (congrArg (· :: rest) (Option.some.inj hd))
        · rw [hhead]
          decide
      rw [replacePair_cons_of_head?_ne _ _ hone', replacePair_cons_of_head?_ne _ _ hzero', ih]
    · rw [replacePair_cons_of_ne hc, replacePair_cons_of_ne hc, ih]

/-- Tildes are escaped before slashes, so that none of those is escaped that slashes bring in. -/
theorem escapeChars_eq_flatMap (chars : List Char) :
    escapeChars chars =
      (chars.flatMap fun c => if c = '~' then ['~', '0'] else [c]).flatMap fun c =>
        if c = '/' then ['~', '1'] else [c] := by
  fun_induction escapeChars chars with
  | case1 => rfl
  | case2 rest ih => simp [ih]
  | case3 rest ih => simp [ih]
  | case4 c rest htilde hslash ih =>
    have hc : c ≠ '~' := htilde
    have hc' : c ≠ '/' := hslash
    simp [ih, hc, hc']

/-! ### Whole pointers -/

/-- The written segments, each behind its slash, split into the segments. -/
theorem splitOn_flatMap_escapeChars (first : List Char) (rest : List String) :
    Text.splitOn '/' (escapeChars first ++
        rest.flatMap fun segment => '/' :: escapeChars segment.toList) =
      escapeChars first :: rest.map fun segment => escapeChars segment.toList := by
  rw [Text.splitOn_eq]
  induction rest generalizing first with
  | nil =>
    rw [List.flatMap_nil, List.append_nil, List.map_nil]
    exact List.splitOn_eq_singleton (slash_notMem_escapeChars first)
  | cons segment rest ih =>
    rw [List.flatMap_cons, List.cons_append,
      List.splitOn_append_cons_self_of_not_mem (slash_notMem_escapeChars first), ih, List.map_cons]

theorem parse_of_toList {text : String} {rest : List Char} (h : text.toList = '#' :: '/' :: rest)
    (hrest : rest ≠ []) :
    parse text =
      .ok ((Text.splitOn '/' rest).map fun part => String.ofList (unescapeChars part)) := by
  obtain ⟨c, others, rfl⟩ := List.exists_cons_of_ne_nil hrest
  rw [parse, h]
  rfl

theorem parse_format {segments : List String} (h : segments ≠ [""]) :
    parse (format segments) = .ok segments := by
  cases segments with
  | nil => rfl
  | cons first rest =>
    have hchars : (format (first :: rest)).toList = '#' :: '/' :: (escapeChars first.toList ++
        rest.flatMap fun segment => '/' :: escapeChars segment.toList) := by
      simp [format, formatChars]
    have hne : (escapeChars first.toList ++
        rest.flatMap fun segment => '/' :: escapeChars segment.toList) ≠ [] := by
      intro hnil
      obtain ⟨hfirst, hrest⟩ := List.append_eq_nil_iff.mp hnil
      rw [escapeChars_eq_nil_iff, String.toList_eq_nil_iff] at hfirst
      cases rest with
      | nil => exact h (by rw [hfirst])
      | cons segment rest => cases hrest
    rw [parse_of_toList hchars hne, splitOn_flatMap_escapeChars]
    simp [unescapeChars_escapeChars, Function.comp_def]

/-! ### Extended pointers -/

section Extended

variable {pointer : String} {segments : List String}

/-- A pointer names the whole value, or its segments are read off what stands behind `#/`. -/
theorem cases_of_parse (h : parse pointer = .ok segments) :
    (pointer = "#" ∨ pointer = "#/") ∧ segments = [] ∨
      ∃ rest, rest ≠ [] ∧ pointer.toList = '#' :: '/' :: rest ∧
        segments = (Text.splitOn '/' rest).map fun part => String.ofList (unescapeChars part) := by
  unfold parse at h
  split at h
  · rename_i hchars
    cases h
    exact .inl ⟨.inl (String.toList_inj.mp hchars), rfl⟩
  · rename_i hchars
    cases h
    exact .inl ⟨.inr (String.toList_inj.mp hchars), rfl⟩
  · rename_i rest hlong hchars
    cases h
    exact .inr ⟨rest, hlong, hchars, rfl⟩
  · cases h
  · cases h

/-- An empty segment behind the whole value gives the pointer `#/`, the whole value once more. -/
theorem parse_join (h : parse pointer = .ok segments) (segment : String) :
    parse (join pointer segment) =
      .ok (if segments = [] ∧ segment = "" then [] else segments ++ [segment]) := by
  rcases cases_of_parse h with ⟨hroot, rfl⟩ | ⟨rest, hrest, hchars, rfl⟩
  · rw [join, if_pos hroot]
    by_cases hempty : segment = ""
    · rw [if_pos ⟨rfl, hempty⟩, hempty]
      rfl
    · rw [if_neg fun hboth => hempty hboth.2]
      exact parse_format fun hsingle => hempty (List.cons.inj hsingle).1
  · have hinner : ¬ (pointer = "#" ∨ pointer = "#/") := by
      rintro (rfl | rfl)
      · cases hchars
      · cases hchars
        exact hrest rfl
    have hjoined : (join pointer segment).toList =
        '#' :: '/' :: (rest ++ '/' :: escapeChars segment.toList) := by
      simp [join, hinner, hchars, escape]
    have hsome : (Text.splitOn '/' rest).map (fun part => String.ofList (unescapeChars part)) ≠ [] :=
      fun hnil => List.splitOn_ne_nil '/' rest
        (Text.splitOn_eq '/' rest ▸ List.map_eq_nil_iff.mp hnil)
    rw [parse_of_toList hjoined (by simp), if_neg fun hboth => hsome hboth.1, Text.splitOn_eq,
      List.splitOn_append_cons_self, List.splitOn_eq_singleton (slash_notMem_escapeChars _),
      ← Text.splitOn_eq]
    simp [unescapeChars_escapeChars]

theorem parse_extend (h : parse pointer = .ok segments) (hne : segments ≠ [])
    (further : List String) : parse (extend pointer further) = .ok (segments ++ further) := by
  induction further generalizing pointer segments with
  | nil =>
    rw [List.append_nil]
    exact h
  | cons segment rest ih =>
    have hnext := parse_join h segment
    rw [if_neg fun hboth => hne hboth.1] at hnext
    rw [List.append_cons]
    exact ih hnext (by simp)

/-- Behind the whole value, empty segments are lost up to the first that is not empty. -/
theorem parse_extend_whole (h : parse pointer = .ok []) (further : List String) :
    parse (extend pointer further) = .ok (further.dropWhile (· = "")) := by
  induction further generalizing pointer with
  | nil => exact h
  | cons segment rest ih =>
    have hnext := parse_join h segment
    by_cases hempty : segment = ""
    · rw [if_pos ⟨rfl, hempty⟩] at hnext
      rw [List.dropWhile_cons_of_pos (by simpa using hempty)]
      exact ih hnext
    · rw [if_neg fun hboth => hempty hboth.2] at hnext
      rw [List.dropWhile_cons_of_neg (by simpa using hempty)]
      exact parse_extend hnext (by simp) rest

/-- A pointer into a value, put together segment by segment, is read as these segments. -/
theorem parse_extend_root (h : segments.head? ≠ some "") :
    parse (extend "#" segments) = .ok segments := by
  rw [parse_extend_whole rfl]
  cases segments with
  | nil => rfl
  | cons first rest =>
    have hfirst : first ≠ "" := fun heq => h (congrArg some heq)
    rw [List.dropWhile_cons_of_neg (by simpa using hfirst)]

end Extended

/-! ### Written pointers -/

theorem unescapeChars_eq_nil_iff {chars : List Char} : unescapeChars chars = [] ↔ chars = [] := by
  fun_cases unescapeChars chars <;> simp

/-- No pointer is read as a single empty segment. -/
theorem ne_singleton_empty_of_parse {pointer : String} {segments : List String}
    (h : parse pointer = .ok segments) : segments ≠ [""] := by
  rcases cases_of_parse h with ⟨-, rfl⟩ | ⟨rest, hrest, -, rfl⟩
  · exact nofun
  · intro hsingle
    obtain ⟨part, hsplit, hpart⟩ := List.map_eq_singleton_iff.mp hsingle
    rw [String.ofList_eq_empty_iff, unescapeChars_eq_nil_iff] at hpart
    subst hpart
    rw [Text.splitOn_eq] at hsplit
    apply hrest
    rw [← @List.intercalate_splitOn _ rest _ _ '/', hsplit]
    rfl

/-- Reading is the inverse of writing, but for the single empty segment, which is never read. So what
was read is read again from its written form, and different segments are written differently. -/
theorem parse_format_inverse :
    (∀ segments, parse (format segments) = .ok segments ↔ segments ≠ [""]) ∧
      (∀ pointer segments, parse pointer = .ok segments →
        segments ≠ [""] ∧ parse (format segments) = .ok segments) ∧
      Set.InjOn format {segments | segments ≠ [""]} := by
  refine ⟨fun segments => ⟨ne_singleton_empty_of_parse, parse_format⟩, ?_, ?_⟩
  · intro pointer segments hparse
    have hne := ne_singleton_empty_of_parse hparse
    exact ⟨hne, parse_format hne⟩
  · intro first hfirst second hsecond heq
    have hread : parse (format first) = .ok second := by
      rw [heq]
      exact parse_format hsecond
    exact Except.ok.inj ((parse_format hfirst).symm.trans hread)

/-- Tildes and slashes in names, and an empty name between them. -/
theorem parse_format_awkward :
    parse "#/a~1b//~01" = .ok ["a/b", "", "~1"] ∧
      parse (format ["a/b", "", "~1"]) = .ok ["a/b", "", "~1"] ∧
      format ["a/b"] ≠ format ["a", "b"] := by
  obtain ⟨-, hreread, hinjective⟩ := parse_format_inverse
  have hparse : parse "#/a~1b//~01" = .ok ["a/b", "", "~1"] := by rfl
  refine ⟨hparse, (hreread _ _ hparse).2, fun heq => ?_⟩
  exact absurd (hinjective (show _ ≠ _ by decide) (show _ ≠ _ by decide) heq) (by decide)

end Pointer

end JsonSchema
