import JsonSchema.Files.Tree
import JsonSchema.Proofs.Outcomes

/-!
# Stored files

What is written at a path is found at the same path, by `find_write`. Creating directories and storing
a file leave every directory where it is, so the way that a path took before the file was stored is
still open afterwards, detours over a double dot included.
-/

namespace JsonSchema

namespace FileTree

def IsDirectory (tree : FileTree) (place : List String) : Prop :=
  ∃ entries, tree.find? place = some (.directory entries)

variable {tree tree' new : FileTree} {place place' names : List String} {name : String}

theorem find?_append (tree : FileTree) (place further : List String) :
    tree.find? (place ++ further) = (tree.find? place).bind (·.find? further) := by
  induction place generalizing tree with
  | nil => rfl
  | cons name rest ih =>
    cases tree with
    | file text => rfl
    | directory entries =>
      rw [List.cons_append, find?, find?]
      cases entries.lookup name with
      | none => rfl
      | some entry => exact ih entry

/-- The way to a directory leads through directories. -/
theorem IsDirectory.of_append (place : List String) {further : List String}
    (h : tree.IsDirectory (place ++ further)) :
    tree.IsDirectory place := by
  obtain ⟨entries, hfound⟩ := h
  rw [find?_append] at hfound
  obtain ⟨upper, hupper, hbelow⟩ := Option.bind_eq_some_iff.mp hfound
  cases upper with
  | directory others => exact ⟨others, hupper⟩
  | file text =>
    cases further with
    | nil => cases hbelow
    | cons name rest => cases hbelow

theorem IsDirectory.dropLast (h : tree.IsDirectory place) : tree.IsDirectory place.dropLast := by
  cases hlast : place.getLast? with
  | none =>
    obtain rfl := List.getLast?_eq_none_iff.mp hlast
    exact h
  | some last =>
    rw [← List.dropLast_append_getLast? last hlast] at h
    exact h.of_append _

/-- What is put into a directory is found there. -/
theorem find?_put (h : tree.IsDirectory place) (new : FileTree) (name : String) :
    (put new (place ++ [name]) tree).find? (place ++ [name]) = some new := by
  induction place generalizing tree with
  | nil =>
    obtain ⟨entries, hfound⟩ := h
    cases hfound
    simp [put, find?]
  | cons first rest ih =>
    cases tree with
    | file text =>
      obtain ⟨entries, hfound⟩ := h
      cases hfound
    | directory entries =>
      obtain ⟨below, hfound⟩ := h
      rw [find?] at hfound
      obtain ⟨entry, hentry, hbelow⟩ := Option.bind_eq_some_iff.mp hfound
      rw [List.cons_append, put, find?, Members.lookup_insert_self, hentry]
      exact ih ⟨below, hbelow⟩

/-- Where there is no directory, putting something there leaves all directories in their places. -/
theorem isDirectory_put (hplace : ¬ tree.IsDirectory place) (h : tree.IsDirectory place') :
    (put new place tree).IsDirectory place' := by
  induction place generalizing tree place' with
  | nil => exact absurd (h.of_append []) hplace
  | cons name rest ih =>
    cases tree with
    | file text => exact h
    | directory entries =>
      cases place' with
      | nil => exact ⟨_, rfl⟩
      | cons first others =>
        obtain ⟨below, hfound⟩ := h
        rw [find?] at hfound
        obtain ⟨entry, hentry, hbelow⟩ := Option.bind_eq_some_iff.mp hfound
        by_cases hname : first = name
        · subst hname
          have hfree : ¬ entry.IsDirectory rest := by
            rintro ⟨inner, hinner⟩
            exact hplace ⟨inner, by rw [find?, hentry]; exact hinner⟩
          obtain ⟨kept, hkept⟩ := ih hfree ⟨below, hbelow⟩
          refine ⟨kept, ?_⟩
          rw [put, find?, Members.lookup_insert_self, hentry]
          exact hkept
        · refine ⟨below, ?_⟩
          rw [put, find?, Members.lookup_insert_of_ne hname, hentry]
          exact hbelow

theorem follow_cons_of_isDirectory (h : tree.IsDirectory place) (name : String) (rest : List String) :
    tree.follow place (name :: rest) =
      tree.follow (if name = ".." then place.dropLast else place ++ [name]) rest := by
  obtain ⟨entries, hfound⟩ := h
  rw [follow, hfound]

/-- Creating directories keeps those that are there. The names lead to the last of them in every tree
that has them all. -/
theorem follow_of_createDirectories (hplace : tree.IsDirectory place)
    (h : tree.createDirectories place names = .ok (tree', place')) :
    (∀ other, tree.IsDirectory other → tree'.IsDirectory other) ∧ tree'.IsDirectory place' ∧
      ∀ larger : FileTree, (∀ other, tree'.IsDirectory other → larger.IsDirectory other) →
        larger.follow place names = .ok place' := by
  induction names generalizing tree place with
  | nil =>
    cases h
    exact ⟨fun _ => id, hplace, fun _ _ => rfl⟩
  | cons name rest ih =>
    -- from a tree with the next directory on, the rest of the names is created in the same way
    have hnext {middle : FileTree} {next : List String} (hmiddle : middle.IsDirectory next)
        (hkeep : ∀ other, tree.IsDirectory other → middle.IsDirectory other)
        (hstep : (if name = ".." then place.dropLast else place ++ [name]) = next)
        (hrest : middle.createDirectories next rest = .ok (tree', place')) :
        (∀ other, tree.IsDirectory other → tree'.IsDirectory other) ∧ tree'.IsDirectory place' ∧
          ∀ larger : FileTree, (∀ other, tree'.IsDirectory other → larger.IsDirectory other) →
            larger.follow place (name :: rest) = .ok place' := by
      obtain ⟨hkept, hlast, hfollow⟩ := ih hmiddle hrest
      refine ⟨fun other hother => hkept other (hkeep other hother), hlast, fun larger hlarger => ?_⟩
      have hhere : larger.IsDirectory place := hlarger place (hkept place (hkeep place hplace))
      rw [follow_cons_of_isDirectory hhere, hstep]
      exact hfollow larger hlarger
    rw [createDirectories] at h
    by_cases hup : name = ".."
    · rw [if_pos hup] at h
      exact hnext hplace.dropLast (fun _ => id) (if_pos hup) h
    · rw [if_neg hup] at h
      have hdown : (if name = ".." then place.dropLast else place ++ [name]) = place ++ [name] :=
        if_neg hup
      split at h
      · rename_i entries hfound
        exact hnext ⟨entries, hfound⟩ (fun _ => id) hdown h
      · cases h
      · rename_i hmissing
        have hfree : ¬ tree.IsDirectory (place ++ [name]) := by
          rintro ⟨entries, hfound⟩
          rw [hmissing] at hfound
          cases hfound
        exact hnext ⟨[], find?_put hplace _ name⟩ (fun _ => isDirectory_put hfree) hdown h

theorem follow_append (tree : FileTree) (place names further : List String) :
    tree.follow place (names ++ further) =
      tree.follow place names >>= fun reached => tree.follow reached further := by
  induction names generalizing place with
  | nil => rfl
  | cons name rest ih =>
    rw [List.cons_append, follow, follow]
    split
    · rfl
    · rfl
    · exact ih _

end FileTree

namespace Files

open FileTree

variable {files changed : Files} {path : Path} {text : String}

theorem find_eq_ok_iff {found : FileTree} :
    files.find path = .ok found ↔
      ∃ place, files.tree.follow (files.start path) path.names = .ok place ∧
        files.tree.find? place = some found := by
  rw [find, Except.bind_eq_ok_iff]
  refine exists_congr fun place => and_congr_right fun _ => ?_
  cases files.tree.find? place with
  | none => exact ⟨nofun, nofun⟩
  | some tree =>
    constructor
    · rintro ⟨⟩
      rfl
    · rintro ⟨⟩
      rfl

/-- Any text can be stored at a path. -/
def IsWritable (files : Files) (path : Path) : Prop :=
  ∀ text, ∃ changed, files.write path text = .ok changed

def IsGrounded (files : Files) : Prop := files.tree.IsDirectory files.workingDirectory

theorem IsGrounded.isDirectory_start (h : files.IsGrounded) (path : Path) :
    files.tree.IsDirectory (files.start path) := by
  rw [start]
  split
  · exact h
  · exact h.of_append []
  · exact h.of_append []

/-- A text is stored in a directory, under a name that has no directory yet. -/
theorem cases_of_write (hfiles : files.IsGrounded) (h : files.write path text = .ok changed) :
    ∃ tree place name, path.names.getLast? = some name ∧ name ≠ ".." ∧
      files.tree.createDirectories (files.start path) path.names.dropLast = .ok (tree, place) ∧
      tree.IsDirectory place ∧ ¬ tree.IsDirectory (place ++ [name]) ∧
      changed = { files with tree := put (.file text) (place ++ [name]) tree } := by
  obtain ⟨⟨tree, place⟩, hcreated, hnext⟩ := Except.bind_eq_ok_iff.mp h
  obtain ⟨reached, hreached, hput⟩ := Except.bind_eq_ok_iff.mp hnext
  obtain ⟨-, hplace, -⟩ := follow_of_createDirectories (hfiles.isDirectory_start path) hcreated
  have hfree : ¬ tree.IsDirectory reached ∧
      changed = { files with tree := put (.file text) reached tree } := by
    split at hput
    · cases hput
    · rename_i hother
      cases hput
      exact ⟨fun ⟨entries, hfound⟩ => hother entries hfound, rfl⟩
  cases hname : path.names.getLast? with
  | none =>
    rw [hname] at hreached
    cases hreached
    exact absurd hplace hfree.1
  | some name =>
    rw [hname, Option.toList_some, follow_cons_of_isDirectory hplace] at hreached
    by_cases hup : name = ".."
    · rw [if_pos hup] at hreached
      cases hreached
      exact absurd hplace.dropLast hfree.1
    · rw [if_neg hup] at hreached
      cases hreached
      exact ⟨tree, place, name, rfl, hup, hcreated, hplace, hfree⟩

/-- A text that is stored at a path is found there. -/
theorem find_write (hfiles : files.IsGrounded) (h : files.write path text = .ok changed) :
    changed.find path = .ok (.file text) := by
  obtain ⟨tree, place, name, hname, hup, hcreated, hplace, hfree, rfl⟩ := cases_of_write hfiles h
  obtain ⟨-, -, hfollow⟩ := follow_of_createDirectories (hfiles.isDirectory_start path) hcreated
  have hkept : ∀ other, tree.IsDirectory other →
      (put (.file text) (place ++ [name]) tree).IsDirectory other :=
    fun _ => isDirectory_put hfree
  have hway : (put (.file text) (place ++ [name]) tree).follow (files.start path) path.names =
      .ok (place ++ [name]) := by
    rw [← List.dropLast_append_getLast? name hname, follow_append, hfollow _ hkept]
    refine (follow_cons_of_isDirectory (hkept place hplace) name []).trans ?_
    rw [if_neg hup]
    rfl
  exact find_eq_ok_iff.mpr ⟨_, hway, find?_put hplace _ name⟩

end Files

end JsonSchema
