import JsonSchema.Command.Run
import JsonSchema.Proofs.Contents

/-!
# Runs of activities

What an activity ends with, and the files after it, follow from what its steps do to the files. What
has been printed before is left open, as no step depends on it.
-/

namespace JsonSchema

namespace Activity

variable {α β : Type}

def outcome (activity : Activity α) (session : Session) : Except Failure α × Session :=
  activity.run.run session

/-- In every session with given files, an activity has an end of which `post` holds. -/
def Ends (activity : Activity α) (files : Files) (post : Except Failure α → Files → Prop) : Prop :=
  ∀ session, session.files = files →
    post (activity.outcome session).1 (activity.outcome session).2.files

/-- In every session with given files, an activity leads to a result and leaves the files as they
are. -/
def Gives (activity : Activity α) (files : Files) (a : α) : Prop :=
  activity.Ends files fun result after => result = .ok a ∧ after = files

variable {activity : Activity α} {next : α → Activity β} {files changed : Files} {a : α}
  {post : Except Failure β → Files → Prop}

theorem outcome_bind {session after : Session} (h : activity.outcome session = (.ok a, after)) :
    (activity >>= next).outcome session = (next a).outcome after := by
  unfold outcome at h ⊢
  rw [ExceptT.run_bind, StateT.run_bind, h]
  rfl

theorem Ends.bind
    (h : activity.Ends files fun result after => result = .ok a ∧ after = changed)
    (hnext : (next a).Ends changed post) : (activity >>= next).Ends files post := by
  intro session hfiles
  obtain ⟨hresult, hafter⟩ := h session hfiles
  rw [outcome_bind (Prod.ext hresult rfl)]
  exact hnext _ hafter

theorem Ends.of_outcome (post : Except Failure β → Files → Prop) {session : Session}
    (h : activity.outcome session = (.ok a, session)) (hnext : (next a).Ends session.files post) :
    post ((activity >>= next).outcome session).1 ((activity >>= next).outcome session).2.files := by
  rw [outcome_bind h]
  exact hnext session rfl

theorem gives_pure (files : Files) (a : α) : (pure a : Activity α).Gives files a :=
  fun _ hfiles => ⟨rfl, hfiles⟩

theorem gives_say (files : Files) (line : String) : (say line).Gives files () :=
  fun _ hfiles => ⟨rfl, hfiles⟩

theorem gives_complain (files : Files) (line : String) : (complain line).Gives files () :=
  fun _ hfiles => ⟨rfl, hfiles⟩

theorem gives_files (files : Files) : Activity.files.Gives files files :=
  fun _ hfiles => ⟨congrArg Except.ok hfiles, hfiles⟩

theorem gives_ofExcept {ε : Type} {x : Except ε α} (h : x = .ok a) (failure : ε → Failure)
    (files : Files) : (ofExcept failure x).Gives files a := by
  rw [h]
  exact gives_pure files a

theorem gives_forM {γ : Type} {f : γ → Activity PUnit} {cs : List γ}
    (h : ∀ c ∈ cs, (f c).Gives files ()) : (cs.forM f).Gives files () := by
  induction cs with
  | nil => exact gives_pure files ()
  | cons c rest ih =>
    have hrest := ih fun other hother => h other (List.mem_cons_of_mem c hother)
    exact (h c List.mem_cons_self).bind hrest

theorem gives_mapM {γ : Type} {f : γ → Activity α} {g : γ → α} {cs : List γ}
    (h : ∀ c ∈ cs, (f c).Gives files (g c)) : (cs.mapM f).Gives files (cs.map g) := by
  induction cs with
  | nil => exact gives_pure files []
  | cons c rest ih =>
    have hrest := ih fun other hother => h other (List.mem_cons_of_mem c hother)
    rw [List.mapM_cons]
    exact (h c List.mem_cons_self).bind (hrest.bind (gives_pure files _))

theorem gives_write {path : Path} {text : String} (h : files.write path text = .ok changed) :
    (write path text).Ends files fun result after => result = .ok () ∧ after = changed := by
  refine (gives_files files).bind ((gives_ofExcept h _ files).bind ?_)
  exact fun _ _ => ⟨rfl, rfl⟩

variable [Platform]

theorem outcome_settings {config : Option Path} {changes : List (String × Value)}
    {loaded settings : Settings} {session : Session}
    (hload : Settings.load session.files (config.map toString) session.environment = .ok loaded)
    (h : loaded.override changes = .ok settings) :
    (Activity.settings config changes).outcome session = (.ok settings, session) := by
  have hsession : (get : Activity Session).outcome session = (.ok session, session) := rfl
  have hloaded : (ofExcept settingsFailure
      (Settings.load session.files (config.map toString) session.environment)).outcome session =
        (.ok loaded, session) := by
    rw [hload]
    rfl
  refine (outcome_bind hsession).trans ((outcome_bind hloaded).trans ?_)
  rw [h]
  rfl

theorem gives_schema {path : Path} {schema : Schema} (h : files.HoldsSchema path schema) :
    (Activity.schema path).Gives files schema :=
  (gives_files files).bind (gives_ofExcept h.schema_eq _ files)

theorem gives_document {path : Path} {value : Value} (h : files.Holds path value) :
    (Activity.document path).Gives files value :=
  (gives_files files).bind (gives_ofExcept h.document_eq _ files)

end Activity

end JsonSchema
