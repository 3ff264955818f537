/-!
# Members of objects

The members of an object are pairs of a name and a value in the order of the document. Names are
looked up with `List.lookup`; `insert` overwrites in place or appends, so `ofPairs` leaves each name
at its first position with its last value.
-/

namespace JsonSchema.Members

variable {α : Type}

def names (members : List (String × α)) : List String := members.map Prod.fst

def has (name : String) (members : List (String × α)) : Bool := (members.lookup name).isSome

/-- Stores a value under a name, in place if the name is there and at the end otherwise. -/
def insert (name : String) (value : α) : List (String × α) → List (String × α)
  | [] => [(name, value)]
  | (other, old) :: rest =>
    if other = name then (name, value) :: rest else (other, old) :: insert name value rest

def ofPairs (pairs : List (String × α)) : List (String × α) :=
  pairs.foldl (fun members pair => insert pair.1 pair.2 members) []

theorem ofPairs_concat (pairs : List (String × α)) (last : String × α) :
    ofPairs (pairs ++ [last]) = insert last.1 last.2 (ofPairs pairs) := by
  rw [ofPairs, List.foldl_append]
  rfl

def Distinct (members : List (String × α)) : Prop := (names members).Nodup

theorem mem_of_lookup {name : String} {value : α} {members : List (String × α)}
    (h : members.lookup name = some value) : (name, value) ∈ members := by
  obtain ⟨before, after, heq, -⟩ := List.lookup_eq_some_iff.mp h
  rw [heq]
  exact List.mem_append_right _ List.mem_cons_self

theorem has_iff_mem_names {name : String} {members : List (String × α)} :
    has name members ↔ name ∈ names members := by
  induction members with
  | nil => simp [has, names]
  | cons pair rest ih =>
    obtain ⟨other, value⟩ := pair
    by_cases h : name = other
    · simp [has, names, h]
    · have hf : (name == other) = false := by simpa using h
      simp only [has, names, List.lookup_cons, hf, List.map_cons, List.mem_cons, h, false_or] at ih ⊢
      exact ih

/-- Where no name occurs twice, every member is found under its name. -/
theorem lookup_of_mem {name : String} {value : α} {members : List (String × α)}
    (hdistinct : Distinct members) (h : (name, value) ∈ members) :
    members.lookup name = some value := by
  induction members with
  | nil => cases h
  | cons pair rest ih =>
    obtain ⟨other, first⟩ := pair
    obtain ⟨hfresh, hrest⟩ := List.nodup_cons.mp hdistinct
    rcases List.mem_cons.mp h with heq | hmem
    · cases heq
      exact List.lookup_cons_self
    · have hname : name ∈ rest.map Prod.fst := List.mem_map_of_mem (f := Prod.fst) hmem
      have hne : name ≠ other := fun heq => hfresh (heq ▸ hname)
      have hf : (name == other) = false := by simpa using hne
      rw [List.lookup_cons, hf]
      exact ih hrest hmem

@[simp] theorem lookup_insert_self (name : String) (value : α) (members : List (String × α)) :
    (insert name value members).lookup name = some value := by
  induction members with
  | nil => simp [insert]
  | cons pair rest ih =>
    obtain ⟨other, old⟩ := pair
    by_cases h : other = name
    · simp [insert, h]
    · have h' : (name == other) = false := by simpa using Ne.symm h
      simp [insert, h, List.lookup_cons, h', ih]

theorem lookup_insert_of_ne {name other : String} (h : other ≠ name) (value : α)
    (members : List (String × α)) :
    (insert name value members).lookup other = members.lookup other := by
  have hf : (other == name) = false := by simpa using h
  induction members with
  | nil => simp [insert, List.lookup_cons, hf]
  | cons pair rest ih =>
    obtain ⟨first, old⟩ := pair
    by_cases hn : first = name
    · subst hn
      simp [insert, List.lookup_cons, hf]
    · by_cases ho : (other == first) = true
      · simp [insert, hn, List.lookup_cons, ho]
      · simp [insert, hn, List.lookup_cons, ho, ih]

@[simp] theorem insert_insert (name : String) (first second : α) (members : List (String × α)) :
    insert name second (insert name first members) = insert name second members := by
  induction members with
  | nil => simp [insert]
  | cons pair rest ih =>
    obtain ⟨other, old⟩ := pair
    by_cases h : other = name
    · simp [insert, h]
    · simp [insert, h, ih]

/-- Storing what is there already changes nothing, not even the order. -/
theorem insert_of_lookup {name : String} {value : α} {members : List (String × α)}
    (h : members.lookup name = some value) : insert name value members = members := by
  induction members with
  | nil => cases h
  | cons pair rest ih =>
    obtain ⟨other, old⟩ := pair
    by_cases hn : other = name
    · subst hn
      have hold : old = value := by simpa using h
      simp [insert, hold]
    · have hf : (name == other) = false := by simpa using Ne.symm hn
      have hrest : rest.lookup name = some value := by simpa [List.lookup_cons, hf] using h
      simp [insert, hn, ih hrest]

/-- A new name comes last; otherwise the names stay as they are. -/
theorem names_insert (name : String) (value : α) (members : List (String × α)) :
    names (insert name value members) =
      if has name members then names members else names members ++ [name] := by
  induction members with
  | nil => rfl
  | cons pair rest ih =>
    obtain ⟨other, old⟩ := pair
    by_cases h : other = name
    · subst h
      simp [insert, names, has]
    · have hf : (name == other) = false := by simpa using Ne.symm h
      have hhas : has name ((other, old) :: rest) = has name rest := by
        simp [has, List.lookup_cons, hf]
      have hinsert : insert name value ((other, old) :: rest) =
          (other, old) :: insert name value rest := by simp [insert, h]
      rw [hinsert, hhas]
      simp only [names, List.map_cons] at ih ⊢
      rw [ih]
      split <;> rfl

end JsonSchema.Members
