import JsonSchema.Proofs.Answers
import JsonSchema.Proofs.Pointers
import JsonSchema.Proofs.Storage

/-!
# Documents told apart

The text of a path is read back as the same path, unless one of its names is none that a file can have.
So documents that are selected by different paths have different texts, and a list that is kept under
these texts keeps them apart.
-/

namespace JsonSchema

theorem Text.notMem_of_mem_splitOn {separator : Char} {chars part : List Char}
    (h : part ∈ splitOn separator chars) : separator ∉ part := by
  rw [splitOn_eq] at h
  induction chars generalizing part with
  | nil =>
    obtain rfl := List.mem_singleton.mp h
    exact List.not_mem_nil
  | cons c rest ih =>
    obtain ⟨first, others, hsplit⟩ := List.exists_cons_of_ne_nil (List.splitOn_ne_nil separator rest)
    rw [List.splitOn_cons_eq_if_modifyHead, hsplit] at h
    rw [hsplit] at ih
    split_ifs at h with hc
    · rcases List.mem_cons.mp h with rfl | hmem
      · exact List.not_mem_nil
      · exact ih hmem
    · rcases List.mem_cons.mp h with rfl | hmem
      · have hne : separator ≠ c := fun heq => hc (beq_iff_eq.mpr heq.symm)
        exact List.not_mem_cons_of_ne_of_not_mem hne (ih List.mem_cons_self)
      · exact ih (List.mem_cons_of_mem first hmem)

/-! ### Paths -/

namespace Path

def IsName (name : String) : Prop := name ≠ "" ∧ name ≠ "." ∧ '/' ∉ name.toList

instance (name : String) : Decidable (IsName name) := inferInstanceAs (Decidable (_ ∧ _ ∧ _))

def IsProper (path : Path) : Prop := ∀ name ∈ path.names, IsName name

theorem isProper_ofString (text : String) : (ofString text).IsProper := by
  intro name hname
  obtain ⟨hpart, hkept⟩ := List.mem_filter.mp hname
  obtain ⟨part, hmem, rfl⟩ := List.mem_map.mp hpart
  have hnames : String.ofList part ≠ "" ∧ String.ofList part ≠ "." := by simpa using hkept
  refine ⟨hnames.1, hnames.2, ?_⟩
  rw [String.toList_ofList]
  exact Text.notMem_of_mem_splitOn hmem

theorem names_of_splitOn {chars : List Char} {names : List String}
    (hnames : ∀ name ∈ names, IsName name)
    (h : Text.splitOn '/' chars = names.map String.toList) :
    ((Text.splitOn '/' chars).map String.ofList).filter (fun name => name ≠ "" && name ≠ ".") =
      names := by
  have hback : (names.map String.toList).map String.ofList = names := by
    simp [List.map_map, Function.comp_def]
  rw [h, hback]
  refine List.filter_eq_self.mpr fun name hname => ?_
  simp [(hnames name hname).1, (hnames name hname).2.1]

theorem splitOn_names {first : String} {rest : List String}
    (h : ∀ name ∈ first :: rest, IsName name) :
    Text.splitOn '/' ("/".intercalate (first :: rest)).toList =
      (first :: rest).map String.toList := by
  rw [String.toList_intercalate, Text.splitOn_eq]
  refine List.splitOn_intercalate '/' (fun part hpart => ?_) (by simp)
  obtain ⟨name, hname, rfl⟩ := List.mem_map.mp hpart
  exact (h name hname).2.2

theorem exists_cons_toList {first : String} (rest : List String) (h : IsName first) :
    ∃ c others, ("/".intercalate (first :: rest)).toList = c :: others ∧ c ≠ '/' := by
  obtain ⟨hempty, -, hslash⟩ := h
  obtain ⟨c, others, hchars⟩ := List.exists_cons_of_ne_nil (mt String.toList_eq_nil_iff.mp hempty)
  have hc : c ≠ '/' := by
    rintro rfl
    exact hslash (hchars ▸ List.mem_cons_self)
  rw [String.toList_intercalate, List.map_cons, hchars]
  cases rest with
  | nil => exact ⟨c, _, rfl, hc⟩
  | cons => exact ⟨c, _, rfl, hc⟩

theorem startOf_cons {c : Char} (h : c ≠ '/') (rest : List Char) :
    startOf (c :: rest) = .workingDirectory ∧ startOf ('/' :: c :: rest) = .top ∧
      startOf ('/' :: '/' :: c :: rest) = .topOfTwoSlashes := by
  simp [startOf, h]

/-- Slashes at the front of a text lead to no names. -/
theorem names_ofString_of_slash {text tail : String} (h : text.toList = '/' :: tail.toList) :
    (ofString text).names = (ofString tail).names := by
  rw [ofString, h, Text.splitOn, if_pos rfl, List.map_cons, List.filter_cons, if_neg (by simp)]
  rfl

/-- The text of a path is read back as the path. -/
theorem ofString_toString {path : Path} (h : path.IsProper) : ofString path.toString = path := by
  obtain ⟨start, names⟩ := path
  -- a path without names has a text of its own, of slashes or a dot
  cases names with
  | nil => cases start <;> decide
  | cons first rest =>
    have hnames : (ofString ("/".intercalate (first :: rest))).names = first :: rest :=
      names_of_splitOn h (splitOn_names h)
    obtain ⟨c, others, hchars, hc⟩ := exists_cons_toList rest (h first List.mem_cons_self)
    obtain ⟨hnone, hone, htwo⟩ := startOf_cons hc others
    rw [← hchars] at hnone hone htwo
    have hslash (text : String) : ("/" ++ text).toList = '/' :: text.toList := by
      rw [String.toList_append]
      rfl
    cases start with
    | workingDirectory => exact Path.ext hnone hnames
    | top =>
      have hskip := names_ofString_of_slash (hslash ("/".intercalate (first :: rest)))
      refine Path.ext ?_ (hskip.trans hnames)
      exact (congrArg startOf (hslash _)).trans hone
    | topOfTwoSlashes =>
      have htext : ("//" ++ "/".intercalate (first :: rest)).toList =
          '/' :: ("/" ++ "/".intercalate (first :: rest)).toList := by
        rw [String.toList_append, hslash]
        rfl
      have hskip := (names_ofString_of_slash htext).trans (names_ofString_of_slash (hslash _))
      refine Path.ext ?_ (hskip.trans hnames)
      exact (congrArg startOf (htext.trans (congrArg _ (hslash _)))).trans htwo

theorem toString_injective {path path' : Path} (h : path.IsProper) (h' : path'.IsProper)
    (heq : path.toString = path'.toString) : path = path' := by
  rw [← ofString_toString h, heq, ofString_toString h']

theorem IsProper.child {path : Path} {name : String} (h : path.IsProper) (hname : IsName name) :
    (path.child name).IsProper := by
  intro other hother
  rcases List.mem_append.mp hother with hold | hnew
  · exact h other hold
  · rwa [List.mem_singleton.mp hnew]

end Path

/-! ### Selected documents -/

def FileTree.IsNamed (tree : FileTree) : Prop :=
  ∀ place entries, tree.find? place = some (.directory entries) →
    ∀ name ∈ Members.names entries, Path.IsName name

theorem FileTree.isNamed_file (text : String) : (file text).IsNamed := by
  intro place entries hfound
  cases place <;> cases hfound

theorem FileTree.isNamed_directory {entries : List (String × FileTree)}
    (hnames : ∀ name ∈ Members.names entries, Path.IsName name)
    (hbelow : ∀ entry ∈ entries, entry.2.IsNamed) : (directory entries).IsNamed := by
  intro place found hfound
  cases place with
  | nil =>
    cases hfound
    exact hnames
  | cons name rest =>
    rw [find?] at hfound
    obtain ⟨entry, hentry, hrest⟩ := Option.bind_eq_some_iff.mp hfound
    exact hbelow (name, entry) (Members.mem_of_lookup hentry) rest found hrest

theorem Files.isProper_of_mem_documents {files : Files} {paths : List Path} {path : Path}
    (hnamed : files.tree.IsNamed) (hpaths : ∀ path ∈ paths, path.IsProper)
    (h : path ∈ files.documents paths) : path.IsProper := by
  obtain ⟨given, hgiven, hmem⟩ := List.mem_flatMap.mp h
  have hproper := hpaths given hgiven
  rw [documentsAt] at hmem
  split at hmem
  · rename_i entries hfound
    obtain ⟨place, -, hplace⟩ := find_eq_ok_iff.mp hfound
    obtain ⟨name, hname, rfl⟩ := List.mem_map.mp (List.mem_filter.mp hmem).1
    rw [List.mem_mergeSort] at hname
    exact hproper.child (hnamed place entries hplace name hname)
  · split_ifs at hmem
    · rwa [List.mem_singleton.mp hmem]
    · cases hmem
  · cases hmem

/-- A new name comes last. -/
theorem Members.insert_of_notMem {α : Type} {name : String} (value : α)
    {members : List (String × α)} (h : name ∉ names members) :
    insert name value members = members ++ [(name, value)] := by
  induction members with
  | nil => rfl
  | cons pair rest ih =>
    obtain ⟨hfirst, hrest⟩ := List.ne_and_not_mem_of_not_mem_cons h
    rw [insert, if_neg (Ne.symm hfirst), ih hrest]
    rfl

/-- Members without a name twice are kept as they are. -/
theorem Members.ofPairs_of_distinct {α : Type} {members : List (String × α)}
    (h : Distinct members) : ofPairs members = members := by
  induction members using List.reverseRecOn with
  | nil => rfl
  | append_singleton members last ih =>
    rw [Distinct, names, List.map_append, List.nodup_append] at h
    obtain ⟨hmembers, -, hapart⟩ := h
    rw [ofPairs_concat, ih hmembers]
    exact insert_of_notMem _ fun hmem => hapart _ hmem _ List.mem_cons_self rfl

theorem Members.lookup_map {α β : Type} {key : α → String} (value : α → β) {l : List α} {a : α}
    (h : ∀ b ∈ l, key b = key a → b = a) (ha : a ∈ l) :
    (l.map fun b => (key b, value b)).lookup (key a) = some (value a) := by
  induction l with
  | nil => cases ha
  | cons b rest ih =>
    rw [List.map_cons, List.lookup_cons]
    by_cases hkey : key a = key b
    · obtain rfl := h b List.mem_cons_self hkey.symm
      rw [beq_self_eq_true]
    · have hrest : a ∈ rest := (List.mem_cons.mp ha).resolve_left fun heq => hkey (heq ▸ rfl)
      rw [beq_false_of_ne hkey]
      exact ih (fun c hc => h c (List.mem_cons_of_mem b hc)) hrest

/-- What is kept under keys that tell the elements of a list apart is kept once for each of them. -/
theorem Members.ofPairs_map {α β : Type} [DecidableEq α] {key : α → String} (value : α → β)
    {l : List α} (h : ∀ a ∈ l, ∀ b ∈ l, key a = key b → a = b) :
    ofPairs (l.map fun a => (key a, value a)) = l.eraseDups.map fun a => (key a, value a) := by
  induction l using List.reverseRecOn with
  | nil => rfl
  | append_singleton l last ih =>
    have hsub {a : α} (ha : a ∈ l.eraseDups) : a ∈ l ++ [last] :=
      List.mem_append_left _ (List.mem_eraseDups.mp ha)
    have hlast : last ∈ l ++ [last] := List.mem_append_right _ List.mem_cons_self
    have hearlier := ih fun a ha b hb =>
      h a (List.mem_append_left _ ha) b (List.mem_append_left _ hb)
    rw [List.map_append, List.map_singleton, ofPairs_concat, hearlier, eraseDups_concat]
    by_cases hmem : last ∈ l
    · rw [if_pos hmem]
      exact insert_of_lookup (lookup_map value (fun b hb => h b (hsub hb) last hlast)
        (List.mem_eraseDups.mpr hmem))
    · rw [if_neg hmem, List.map_append]
      refine insert_of_notMem (value last) fun hname => hmem ?_
      obtain ⟨pair, hpair, hkey⟩ := List.mem_map.mp hname
      obtain ⟨b, hb, rfl⟩ := List.mem_map.mp hpair
      exact h b (hsub hb) last hlast hkey ▸ List.mem_eraseDups.mp hb

end JsonSchema
