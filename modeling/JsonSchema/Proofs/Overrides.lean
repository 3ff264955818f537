import JsonSchema.Proofs.Outcomes
import JsonSchema.Proofs.WellFormed
import JsonSchema.Settings
import JsonSchema.Yaml.Reader

/-!
# Settings under overrides

A draft passes its check exactly if its values are those that settings can have, and the settings then
hold these very values (`Draft.check_eq_ok_iff`). Laying members over a draft is described by the values
under the three names, where the last member of a name counts (`Draft.overlay_eq_ok_iff`). From the two
follows when an override succeeds and what it leads to, `override_eq_ok_iff`, and all laws of overrides
are read off this.
-/

namespace JsonSchema

/-- Of pairs with one name the last one counts. -/
theorem Members.lookup_ofPairs_append {α : Type} (name : String) (pairs further : List (String × α)) :
    (ofPairs (pairs ++ further)).lookup name =
      ((ofPairs further).lookup name).or ((ofPairs pairs).lookup name) := by
  induction further using List.reverseRecOn with
  | nil =>
    rw [List.append_nil]
    rfl
  | append_singleton further last ih =>
    rw [← List.append_assoc, ofPairs_concat, ofPairs_concat]
    by_cases hname : name = last.1
    · rw [hname, lookup_insert_self, lookup_insert_self, Option.some_or]
    · rw [lookup_insert_of_ne hname, lookup_insert_of_ne hname, ih]

theorem ReportFormat.ofName?_eq_some_iff {name : String} {format : ReportFormat} :
    ofName? name = some format ↔ format.name = name := by
  constructor
  · intro h
    unfold ofName? at h
    simpa using List.find?_some h
  · rintro rfl
    cases format <;> rfl

namespace Settings

variable {settings settings' : Settings} {draft draft' : Draft} {name : String} {value : Value}
  {changes members : List (String × Value)}

theorem mem_names_iff :
    name ∈ names ↔ name = maxErrorsName ∨ name = indentName ∨ name = reportFormatName := by
  simp [names]

namespace Draft

/-! ### The check -/

structure Admissible (draft : Draft) : Prop where
  maxErrors : ∃ n : Int, draft.maxErrors = .int n ∧ 1 ≤ n
  indent : ∃ n : Int, draft.indent = .int n ∧ 0 ≤ n
  reportFormat : draft.reportFormat = .string "jsonl" ∨ draft.reportFormat = .string "json"

theorem integer_eq_ok_iff {n : Int} : integer name value = .ok n ↔ value = .int n := by
  unfold integer
  split
  · simp [Value.int]
  · rename_i hother
    exact iff_of_false nofun fun h => hother n h

theorem text_eq_ok_iff {s : String} : text value = .ok s ↔ value = .string s := by
  unfold text
  split
  · simp
  · rename_i hother
    exact iff_of_false nofun fun h => hother s h

theorem admissible_draft_iff : settings.draft.Admissible ↔ 1 ≤ settings.maxErrors := by
  constructor
  · rintro ⟨⟨n, hn, hpos⟩, -, -⟩
    obtain rfl : (settings.maxErrors : Int) = n := by simpa [draft, Value.int] using hn
    exact_mod_cast hpos
  · intro hpos
    refine ⟨⟨_, rfl, by exact_mod_cast hpos⟩, ⟨_, rfl, Int.natCast_nonneg _⟩, ?_⟩
    rw [draft]
    cases settings.reportFormat with
    | json => exact .inr rfl
    | jsonLines => exact .inl rfl

theorem check_draft (h : 1 ≤ settings.maxErrors) : settings.draft.check = .ok settings := by
  have hlimit : ¬ (settings.maxErrors : Int) < 1 := by omega
  have hindent : ¬ (settings.indent : Int) < 0 := by omega
  have hformat := ReportFormat.ofName?_eq_some_iff.mpr (rfl : settings.reportFormat.name = _)
  refine Except.bind_eq_ok_iff.mpr ⟨_, rfl, Except.bind_eq_ok_iff.mpr ⟨_, rfl,
    Except.bind_eq_ok_iff.mpr ⟨_, rfl, ?_⟩⟩⟩
  rw [if_neg hlimit, if_neg hindent, hformat]
  rfl

/-- A check neither converts a value nor replaces one. -/
theorem check_eq_ok_iff :
    draft.check = .ok settings ↔ settings.draft = draft ∧ draft.Admissible := by
  constructor
  · intro h
    obtain ⟨maxErrors, hmaxErrors, hnext⟩ := Except.bind_eq_ok_iff.mp h
    obtain ⟨indent, hindent, hnext⟩ := Except.bind_eq_ok_iff.mp hnext
    obtain ⟨formatName, hname, hchecked⟩ := Except.bind_eq_ok_iff.mp hnext
    rw [integer_eq_ok_iff] at hmaxErrors hindent
    rw [text_eq_ok_iff] at hname
    split_ifs at hchecked with hlimit hnegative
    split at hchecked
    · rename_i format hformat
      cases hchecked
      have hsame : Settings.draft ⟨maxErrors.toNat, indent.toNat, format⟩ = draft := by
        obtain ⟨first, second, third⟩ := draft
        rw [ReportFormat.ofName?_eq_some_iff] at hformat
        subst hformat
        cases hmaxErrors
        cases hindent
        cases hname
        rw [Settings.draft, Int.toNat_of_nonneg (by omega), Int.toNat_of_nonneg (by omega)]
        rfl
      refine ⟨hsame, hsame ▸ admissible_draft_iff.mpr ?_⟩
      show 1 ≤ maxErrors.toNat
      omega
    · cases hchecked
  · rintro ⟨rfl, hadmissible⟩
    exact check_draft (admissible_draft_iff.mp hadmissible)

/-! ### Laying members over a draft -/

def value? (draft : Draft) (name : String) : Option Value :=
  if name = maxErrorsName then some draft.maxErrors
  else if name = indentName then some draft.indent
  else if name = reportFormatName then some draft.reportFormat
  else none

/-- Drafts with the same values under all names are the same. -/
theorem eq_of_value? (h : ∀ name ∈ names, draft.value? name = draft'.value? name) :
    draft = draft' := by
  obtain ⟨hmaxErrors, hindent, hformat⟩ : draft.value? maxErrorsName = draft'.value? maxErrorsName ∧
      draft.value? indentName = draft'.value? indentName ∧
      draft.value? reportFormatName = draft'.value? reportFormatName := by
    simpa [names] using h
  cases draft
  cases draft'
  cases hmaxErrors
  cases hindent
  cases hformat
  rfl

theorem change?_eq_none (h : name ∉ names) : draft.change? name value = none := by
  simp only [mem_names_iff, not_or] at h
  rw [change?, if_neg h.1, if_neg h.2.1, if_neg h.2.2]

theorem exists_change? (h : name ∈ names) (draft : Draft) (value : Value) :
    ∃ changed, draft.change? name value = some changed ∧ ∀ other ∈ names,
      changed.value? other = if other = name then some value else draft.value? other := by
  rcases mem_names_iff.mp h with rfl | rfl | rfl
  · refine ⟨{ draft with maxErrors := value }, rfl, ?_⟩
    simp [names, value?, maxErrorsName, indentName, reportFormatName]
  · refine ⟨{ draft with indent := value }, rfl, ?_⟩
    simp [names, value?, maxErrorsName, indentName, reportFormatName]
  · refine ⟨{ draft with reportFormat := value }, rfl, ?_⟩
    simp [names, value?, maxErrorsName, indentName, reportFormatName]

theorem overlay_cons (draft : Draft) (name : String) (value : Value)
    (rest : List (String × Value)) :
    draft.overlay ((name, value) :: rest) =
      (draft.change? name value).elim (.error (.noSetting name)) (·.overlay rest) := by
  rw [overlay, List.foldlM_cons]
  dsimp only
  cases draft.change? name value <;> rfl

/-- Only known settings can be overridden. -/
theorem mem_names_of_overlay (h : draft.overlay members = .ok draft')
    (hname : name ∈ Members.names members) : name ∈ names := by
  induction members generalizing draft with
  | nil => cases hname
  | cons member rest ih =>
    obtain ⟨first, value⟩ := member
    rw [overlay_cons] at h
    cases hchange : draft.change? first value with
    | none =>
      rw [hchange] at h
      cases h
    | some changed =>
      rw [hchange] at h
      rcases List.mem_cons.mp hname with rfl | hrest
      · by_contra hunknown
        rw [change?_eq_none hunknown] at hchange
        cases hchange
      · exact ih h hrest

/-- By induction on the members: the value under a name is the last that is given for it, or else the
value that was there. -/
theorem exists_overlay (h : ∀ name ∈ Members.names members, name ∈ names) (draft : Draft) :
    ∃ changed, draft.overlay members = .ok changed ∧ ∀ name ∈ names,
      changed.value? name = ((Members.ofPairs members).lookup name).or (draft.value? name) := by
  induction members generalizing draft with
  | nil => exact ⟨draft, rfl, fun _ _ => rfl⟩
  | cons member rest ih =>
    obtain ⟨first, value⟩ := member
    obtain ⟨hfirst, hrest⟩ := List.forall_mem_cons.mp h
    obtain ⟨middle, hmiddle, hvalue⟩ := exists_change? hfirst draft value
    obtain ⟨changed, hchanged, hvalues⟩ := ih hrest middle
    refine ⟨changed, ?_, fun name hname => ?_⟩
    · rw [overlay_cons, hmiddle]
      exact hchanged
    · have hpairs := Members.lookup_ofPairs_append name [(first, value)] rest
      have hone : (Members.ofPairs [(first, value)]).lookup name =
          if name = first then some value else none := by
        rw [Members.ofPairs, List.foldl_cons, List.foldl_nil, Members.insert, List.lookup_cons]
        split_ifs with hsame
        · rw [beq_iff_eq.mpr hsame]
        · rw [beq_false_of_ne hsame]
          rfl
      rw [hvalues name hname, hvalue name hname]
      rw [List.singleton_append, hone] at hpairs
      rw [hpairs, Option.or_assoc]
      split_ifs <;> rfl

theorem overlay_eq_ok_iff :
    draft.overlay members = .ok draft' ↔ (∀ name ∈ Members.names members, name ∈ names) ∧
      ∀ name ∈ names,
        draft'.value? name = ((Members.ofPairs members).lookup name).or (draft.value? name) := by
  constructor
  · intro h
    have hknown : ∀ name ∈ Members.names members, name ∈ names := fun _ => mem_names_of_overlay h
    obtain ⟨changed, hchanged, hvalues⟩ := exists_overlay hknown draft
    rw [h] at hchanged
    cases hchanged
    exact ⟨hknown, hvalues⟩
  · rintro ⟨hknown, hvalues⟩
    obtain ⟨changed, hchanged, hvalues'⟩ := exists_overlay hknown draft
    rw [hchanged, eq_of_value? fun name hname => (hvalues' name hname).trans (hvalues name hname).symm]

end Draft

/-! ### Overrides -/

def given (changes : List (String × Value)) : List (String × Value) :=
  changes.filter fun change => !isNull change.2

/-- An override succeeds if all that is given is known and the values under all names are then such as
settings can have. -/
theorem override_eq_ok_iff :
    settings.override changes = .ok settings' ↔
      (∀ name ∈ Members.names (given changes), name ∈ names) ∧
      (∀ name ∈ names, settings'.draft.value? name =
        ((Members.ofPairs (given changes)).lookup name).or (settings.draft.value? name)) ∧
      settings'.draft.Admissible := by
  rw [override, Except.bind_eq_ok_iff]
  constructor
  · rintro ⟨draft, hoverlay, hcheck⟩
    obtain ⟨rfl, hadmissible⟩ := Draft.check_eq_ok_iff.mp (Except.mapError_eq_ok_iff.mp hcheck)
    obtain ⟨hknown, hvalues⟩ := Draft.overlay_eq_ok_iff.mp hoverlay
    exact ⟨hknown, hvalues, hadmissible⟩
  · rintro ⟨hknown, hvalues, hadmissible⟩
    refine ⟨settings'.draft, Draft.overlay_eq_ok_iff.mpr ⟨hknown, hvalues⟩, ?_⟩
    exact Except.mapError_eq_ok_iff.mpr (Draft.check_eq_ok_iff.mpr ⟨rfl, hadmissible⟩)

theorem given_eq_self (h : ∀ change ∈ changes, !isNull change.2) : given changes = changes :=
  List.filter_eq_self.mpr h

/-- What is given second is laid over what is given first. -/
theorem override_of_override {first second : List (String × Value)} {changed final : Settings}
    (hfirst : settings.override first = .ok changed)
    (hsecond : changed.override second = .ok final) :
    settings.override (Members.ofPairs (given first ++ given second)) = .ok final := by
  obtain ⟨hknown, hvalues, -⟩ := override_eq_ok_iff.mp hfirst
  obtain ⟨hknown', hvalues', hadmissible⟩ := override_eq_ok_iff.mp hsecond
  obtain ⟨hdistinct, hpairs⟩ := Members.distinct_ofPairs (given first ++ given second)
  have hmem {change : String × Value}
      (h : change ∈ Members.ofPairs (given first ++ given second)) :
      change ∈ given first ∨ change ∈ given second := List.mem_append.mp (hpairs change h)
  have hgiven : given (Members.ofPairs (given first ++ given second)) =
      Members.ofPairs (given first ++ given second) := by
    refine given_eq_self fun change hchange => ?_
    rcases hmem hchange with h | h
    · exact (List.mem_filter.mp h).2
    · exact (List.mem_filter.mp h).2
  refine override_eq_ok_iff.mpr ⟨fun name hname => ?_, fun name hname => ?_, hadmissible⟩
  · rw [hgiven] at hname
    obtain ⟨change, hchange, rfl⟩ := List.mem_map.mp hname
    rcases hmem hchange with h | h
    · exact hknown _ (List.mem_map_of_mem h)
    · exact hknown' _ (List.mem_map_of_mem h)
  · rw [hgiven, Members.ofPairs_of_distinct hdistinct, Members.lookup_ofPairs_append,
      Option.or_assoc, ← hvalues name hname]
    exact hvalues' name hname

theorem override_insert_null (settings : Settings) (before : List (String × Value)) (name : String)
    (after : List (String × Value)) :
    settings.override (before ++ (name, .null) :: after) = settings.override (before ++ after) := by
  rw [override, override, List.filter_append, List.filter_append, List.filter_cons,
    if_neg (by simp [isNull])]

theorem override_of_all_null (hadmissible : settings.draft.Admissible)
    (h : ∀ change ∈ changes, change.2 = .null) : settings.override changes = .ok settings := by
  have hgiven : given changes = [] := by
    refine List.filter_eq_nil_iff.mpr fun change hchange => ?_
    rw [h change hchange]
    decide
  rw [override_eq_ok_iff, hgiven]
  exact ⟨nofun, fun _ _ => rfl, hadmissible⟩

/-! ### Runs of overrides -/

/-- The settings after an override that may fail, which leaves them as they are. -/
def attempt (settings : Settings) (changes : List (String × Value)) : Settings :=
  match settings.override changes with
  | .ok changed => changed
  | .error _ => settings

def attempts (settings : Settings) (steps : List (List (String × Value))) : Settings :=
  steps.foldl attempt settings

theorem admissible_attempt (h : settings.draft.Admissible) (changes : List (String × Value)) :
    (settings.attempt changes).draft.Admissible := by
  unfold attempt
  split
  · rename_i hchanged
    exact (override_eq_ok_iff.mp hchanged).2.2
  · exact h

theorem admissible_attempts (h : settings.draft.Admissible) (steps : List (List (String × Value))) :
    (settings.attempts steps).draft.Admissible := by
  induction steps generalizing settings with
  | nil => exact h
  | cons changes rest ih => exact ih (admissible_attempt h changes)

theorem admissible_default : ({} : Settings).draft.Admissible :=
  Draft.admissible_draft_iff.mpr (by decide)

theorem admissible_of_check {draft : Draft}
    (h : draft.check.mapError SettingsFailure.invalid = .ok settings) :
    settings.draft.Admissible := by
  obtain ⟨rfl, hadmissible⟩ := Draft.check_eq_ok_iff.mp (Except.mapError_eq_ok_iff.mp h)
  exact hadmissible

theorem admissible_of_ofYaml {source : String} {tree : Yaml}
    (h : ofYaml source tree = .ok settings) : settings.draft.Admissible := by
  unfold ofYaml at h
  split at h
  · cases h
    exact admissible_default
  · split at h
    · split at h
      · cases h
      · split at h
        · obtain ⟨draft, -, hcheck⟩ := Except.bind_eq_ok_iff.mp h
          exact admissible_of_check hcheck
        · cases h
    · cases h

theorem admissible_of_load [Platform] {files : Files} {path environment : Option String}
    (h : load files path environment = .ok settings) : settings.draft.Admissible := by
  have hfile : ∀ source, loadFile files source = .ok settings → settings.draft.Admissible := by
    intro source hload
    obtain ⟨text, -, hnext⟩ := Except.bind_eq_ok_iff.mp hload
    obtain ⟨tree, -, htree⟩ := Except.bind_eq_ok_iff.mp hnext
    exact admissible_of_ofYaml htree
  unfold load at h
  split at h
  · exact hfile _ h
  · cases h
    exact admissible_default
  · cases h
    exact admissible_default
  · exact hfile _ h

/-- Settings stay admissible through every sequence of overrides, from the defaults or from a file, with
any values and though some of the overrides fail. An override holds the very values that are given, and
null gives none. Two overrides in a row do what the second laid over the first does. -/
theorem attempts_admissible [Platform] :
    (∀ {start : Settings},
      start = {} ∨ (∃ files path environment, load files path environment = .ok start) →
        ∀ steps, (start.attempts steps).draft.Admissible) ∧
    (∀ (settings settings' : Settings) changes, settings.override changes = .ok settings' ↔
      (∀ name ∈ Members.names (given changes), name ∈ names) ∧
      (∀ name ∈ names, settings'.draft.value? name =
        ((Members.ofPairs (given changes)).lookup name).or (settings.draft.value? name)) ∧
      settings'.draft.Admissible) ∧
    (∀ (settings : Settings) before name after,
      settings.override (before ++ (name, .null) :: after) = settings.override (before ++ after)) ∧
    (∀ {settings : Settings} {changes}, settings.draft.Admissible →
      (∀ change ∈ changes, change.2 = .null) → settings.override changes = .ok settings) ∧
    ∀ {settings changed final : Settings} {first second},
      settings.override first = .ok changed → changed.override second = .ok final →
        settings.override (Members.ofPairs (given first ++ given second)) = .ok final := by
  refine ⟨fun hstart steps => admissible_attempts ?_ steps,
    fun _ _ _ => override_eq_ok_iff, override_insert_null, override_of_all_null,
    override_of_override⟩
  rcases hstart with rfl | ⟨files, path, environment, hload⟩
  · exact admissible_default
  · exact admissible_of_load hload

def limited : Files where
  tree := .directory [("settings.yaml", .file "max_errors: 10\n")]

/-- The second of three overrides fails, as a limit is no boolean. -/
theorem attempts_limited :
    ∃ start, load limited (some "settings.yaml") none = .ok start ∧
      let first := [("indent", Value.int 4), (maxErrorsName, .null)]
      let last := [("report_format", Value.string "json"), ("indent", .int 0)]
      (start.attempts [first, [("indent", .int 7), ("max_errors", .bool true)], last]).draft.Admissible ∧
      start.attempts [first, [("indent", .int 7), ("max_errors", .bool true)], last] =
        { maxErrors := 10, indent := 0, reportFormat := .json } ∧
      start.override (Members.ofPairs (given first ++ given last)) =
        .ok { maxErrors := 10, indent := 0, reportFormat := .json } ∧
      start.override [("indent", .null)] = .ok start := by
  obtain ⟨hruns, -, -, hnull, hboth⟩ := attempts_admissible
  have hload : load limited (some "settings.yaml") none = .ok { maxErrors := 10 } := by
    refine Except.toOption_eq_some_iff.mp ?_
    decide +kernel
  have hstart := hruns (.inr ⟨limited, some "settings.yaml", none, hload⟩)
  refine ⟨_, hload, hstart _, rfl, ?_, ?_⟩
  · have hfirst : ({ maxErrors := 10 } : Settings).override
        [("indent", .int 4), (maxErrorsName, .null)] = .ok { maxErrors := 10, indent := 4 } := rfl
    have hlast : ({ maxErrors := 10, indent := 4 } : Settings).override
        [("report_format", .string "json"), ("indent", .int 0)] =
          .ok { maxErrors := 10, indent := 0, reportFormat := .json } := rfl
    exact hboth hfirst hlast
  · exact hnull (hstart []) (List.forall_mem_singleton.mpr rfl)

end Settings

end JsonSchema
