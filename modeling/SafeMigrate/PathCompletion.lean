import SafeMigrate.Lookup

/-! Unqualified names against a search path that is known in part. An entry the
model cannot search stands for any schema or for none, and a name is resolved
only when every way to complete the path agrees. -/

namespace SafeMigrate

/-- The system catalog is searched first, unless the path names it. -/
def namesSystemCatalog (path : List SearchPathEntry) : Bool :=
  path.any fun entry => entry.searchedSchema == some systemCatalogSchema

section Resolution

variable {α : Type} (lookup : String → Option α)

/-- The loop of `resolve_unqualified`. -/
def resolveEntries (shadowed : Bool) : List SearchPathEntry → Option α
  | [] => none
  | .unresolved _ :: entries => resolveEntries true entries
  | .schema schema :: entries =>
    match lookup schema with
    | some found => if shadowed then none else some found
    | none => resolveEntries shadowed entries

def resolveUnqualified (path : List SearchPathEntry) : Option α :=
  if namesSystemCatalog path then resolveEntries lookup false path
  else match lookup systemCatalogSchema with
    | some found => some found
    | none => resolveEntries lookup false path

end Resolution

/-- A schema of a completed path with what it holds under the name. -/
structure SearchedSchema (α : Type) where
  name : String
  holds : Option α
deriving DecidableEq

section Completion

variable {α : Type} {lookup : String → Option α} (stands : String → Prop)

/-- `path` completed: a known schema keeps its place and its contents, and an
unresolved entry is left out or replaced by a schema whose name `stands` admits. -/
inductive Completes (lookup : String → Option α) :
    List SearchPathEntry → List (SearchedSchema α) → Prop
  | nil : Completes lookup [] []
  | schema (name : String) {path : List SearchPathEntry} {completed : List (SearchedSchema α)}
      (h : Completes lookup path completed) :
      Completes lookup (.schema name :: path) (⟨name, lookup name⟩ :: completed)
  | leaveOut (name : Option String) {path : List SearchPathEntry}
      {completed : List (SearchedSchema α)} (h : Completes lookup path completed) :
      Completes lookup (.unresolved name :: path) completed
  | fill (name : Option String) (filled : SearchedSchema α) (hname : stands filled.name)
      {path : List SearchPathEntry} {completed : List (SearchedSchema α)}
      (h : Completes lookup path completed) :
      Completes lookup (.unresolved name :: path) (filled :: completed)

def firstHeld (path : List (SearchedSchema α)) : Option α := path.findSome? (·.holds)

/-- PostgreSQL's search: the system catalog first unless the path names it, then
the entries in order. -/
def firstMatch (lookup : String → Option α) (path : List (SearchedSchema α)) : Option α :=
  if path.any (·.name == systemCatalogSchema) then firstHeld path
  else (lookup systemCatalogSchema).or (firstHeld path)

variable {stands} {path : List SearchPathEntry} {completed : List (SearchedSchema α)}

/-- A completion names the system catalog exactly if the path does. -/
theorem Completes.namesSystemCatalog (h : Completes stands lookup path completed)
    (hstands : ∀ name, stands name → name ≠ systemCatalogSchema) :
    (completed.any (·.name == systemCatalogSchema)) = SafeMigrate.namesSystemCatalog path := by
  induction h with
  | nil => rfl
  | schema name h ih =>
    rw [List.any_cons, ih]
    rfl
  | leaveOut name h ih => exact ih
  | fill name filled hname h ih =>
    have hother : (filled.name == systemCatalogSchema) = false := by
      simpa using hstands filled.name hname
    rw [List.any_cons, hother, ih]
    rfl

theorem resolveEntries_shadowed (lookup : String → Option α) (path : List SearchPathEntry) :
    resolveEntries lookup true path = none := by
  induction path with
  | nil => rfl
  | cons entry path ih =>
    cases entry with
    | unresolved name => exact ih
    | schema schema =>
      rw [resolveEntries]
      cases lookup schema with
      | some found => rfl
      | none => exact ih

/-- A name found before every unresolved entry is found in every completion. -/
theorem firstHeld_of_resolveEntries (h : Completes stands lookup path completed) {x : α}
    (hfound : resolveEntries lookup false path = some x) : firstHeld completed = some x := by
  induction h with
  | nil => cases hfound
  | schema name h ih =>
    rw [resolveEntries] at hfound
    cases hname : lookup name with
    | some found =>
      rw [hname] at hfound
      simpa [firstHeld, hname] using hfound
    | none =>
      rw [hname] at hfound
      simpa [firstHeld, hname] using ih hfound
  | leaveOut name h ih =>
    rw [resolveEntries, resolveEntries_shadowed] at hfound
    cases hfound
  | fill name filled hname h ih =>
    rw [resolveEntries, resolveEntries_shadowed] at hfound
    cases hfound

theorem firstMatch_of_resolveUnqualified (h : Completes stands lookup path completed)
    (hstands : ∀ name, stands name → name ≠ systemCatalogSchema) {x : α}
    (hfound : resolveUnqualified lookup path = some x) : firstMatch lookup completed = some x := by
  rw [firstMatch, h.namesSystemCatalog hstands]
  unfold resolveUnqualified at hfound
  split at hfound
  · next hnamed =>
    rw [if_pos hnamed]
    exact firstHeld_of_resolveEntries h hfound
  · next hnamed =>
    rw [if_neg hnamed]
    split at hfound
    · next found hcatalog =>
      rw [hcatalog, Option.some_or]
      exact hfound
    · next hcatalog =>
      rw [hcatalog, Option.none_or]
      exact firstHeld_of_resolveEntries h hfound

/-- The completion without the unresolved entries. -/
theorem exists_completes (lookup : String → Option α) (path : List SearchPathEntry) :
    ∃ completed, Completes stands lookup path completed := by
  induction path with
  | nil => exact ⟨[], .nil⟩
  | cons entry path ih =>
    obtain ⟨completed, h⟩ := ih
    cases entry with
    | schema name => exact ⟨_, .schema name h⟩
    | unresolved name => exact ⟨_, .leaveOut name h⟩

/-- An unresolved entry before the first hit may hold any object. -/
theorem exists_firstHeld (hunresolved : resolveEntries lookup false path = none)
    {name : String} {x : α} (hname : .schema name ∈ path) (hx : lookup name = some x)
    {filler : String} (hfiller : stands filler) (y : α) :
    ∃ completed, Completes stands lookup path completed ∧ firstHeld completed = some y := by
  induction path with
  | nil => cases hname
  | cons entry path ih =>
    cases entry with
    | unresolved other =>
      have hcompletes : ∃ completed, Completes stands lookup path completed :=
        exists_completes lookup path
      obtain ⟨completed, h⟩ := hcompletes
      exact ⟨_, .fill other ⟨filler, some y⟩ hfiller h, rfl⟩
    | schema other =>
      rw [resolveEntries] at hunresolved
      cases hother : lookup other with
      | some found =>
        rw [hother] at hunresolved
        cases hunresolved
      | none =>
        rw [hother] at hunresolved
        have hrest : .schema name ∈ path := by
          rcases List.mem_cons.mp hname with hsame | hrest
          · cases hsame
            rw [hx] at hother
            cases hother
          · exact hrest
        obtain ⟨completed, h, hheld⟩ := ih hunresolved hrest
        refine ⟨_, .schema other h, ?_⟩
        simpa [firstHeld, hother] using hheld

end Completion

/-- The schemas an unresolved entry can stand for: a path entry of the system
catalog is never unresolved. -/
def standsUnresolved (name : String) : Prop := name ≠ systemCatalogSchema

/-- The effective path enters the system catalog as a schema to search. -/
theorem AnalysisState.standsUnresolved_of_mem_pushPathEntry (s : AnalysisState)
    {effective : List SearchPathEntry} {schema name : String}
    (hentries : .unresolved (some name) ∈ effective → standsUnresolved name)
    (h : .unresolved (some name) ∈ s.pushPathEntry effective schema) : standsUnresolved name := by
  unfold pushPathEntry at h
  dsimp only at h
  split at h
  · exact hentries h
  · next entry hentry =>
    split at h
    · exact hentries h
    · rcases List.mem_append.mp h with hold | hnew
      · exact hentries hold
      · have hsame : .unresolved (some name) = entry := List.mem_singleton.mp hnew
        rw [← hsame] at hentry
        by_cases hcatalog : schema = systemCatalogSchema
        · rw [hcatalog] at hentry
          split at hentry
          · split at hentry <;> cases hentry
          · cases hentry
        · have hname : schema = name := by
            repeat' split at hentry
            all_goals cases hentry
            rfl
          exact hname ▸ hcatalog

theorem AnalysisState.standsUnresolved_of_mem_effectiveSearchPath (s : AnalysisState)
    (template : List String) {name : String}
    (h : .unresolved (some name) ∈ s.effectiveSearchPath template) : standsUnresolved name := by
  unfold effectiveSearchPath at h
  induction template using List.reverseRecOn with
  | nil => cases h
  | append_singleton template entry ih =>
    rw [List.foldl_append, List.foldl_cons, List.foldl_nil] at h
    generalize List.foldl _ [] template = effective at h ih
    split at h
    · split at h
      · exact s.standsUnresolved_of_mem_pushPathEntry ih h
      · split at h
        · exact ih h
        · exact ih (by simpa using h)
    · exact s.standsUnresolved_of_mem_pushPathEntry ih h

/-- A name that is resolved is the same object in every completion. A name that
is found and yet not resolved may be any object. -/
theorem resolveUnqualified_sound {α : Type} (lookup : String → Option α)
    (path : List SearchPathEntry) :
    (∀ x, resolveUnqualified lookup path = some x →
      ∀ completed, Completes standsUnresolved lookup path completed →
        firstMatch lookup completed = some x) ∧
    (resolveUnqualified lookup path = none →
      ∀ name x, .schema name ∈ path → lookup name = some x →
        ∀ y, ∃ completed, Completes standsUnresolved lookup path completed ∧
          firstMatch lookup completed = some y) := by
  refine ⟨fun x hx completed h => firstMatch_of_resolveUnqualified h (fun _ => id) hx, ?_⟩
  intro hnone name x hname hx y
  have hstands : standsUnresolved "" := by
    unfold standsUnresolved
    decide
  have hentries : resolveEntries lookup false path = none ∧
      (SafeMigrate.namesSystemCatalog path = true ∨ lookup systemCatalogSchema = none) := by
    unfold resolveUnqualified at hnone
    split at hnone
    · next hnamed => exact ⟨hnone, Or.inl hnamed⟩
    · split at hnone
      · cases hnone
      · next hcatalog => exact ⟨hnone, Or.inr hcatalog⟩
  obtain ⟨completed, h, hheld⟩ := exists_firstHeld hentries.1 hname hx hstands y
  refine ⟨completed, h, ?_⟩
  rw [firstMatch, h.namesSystemCatalog fun _ => id, hheld]
  rcases hentries.2 with hnamed | hcatalog
  · exact if_pos hnamed
  · rw [hcatalog, Option.none_or, ite_self]

/-- An entry that could be the system catalog would move the catalog behind the
schemas before it. -/
theorem resolveUnqualified_catalog_completion :
    ¬∀ (lookup : String → Option Nat) (path : List SearchPathEntry) (x : Nat)
      (completed : List (SearchedSchema Nat)), resolveUnqualified lookup path = some x →
      Completes (fun _ => True) lookup path completed → firstMatch lookup completed = some x := by
  intro h
  have hcompleted := h
    (fun name => if name = systemCatalogSchema then some 1 else if name = "public" then some 2
      else none)
    [.schema "public", .unresolved none] 1 [⟨"public", some 2⟩, ⟨systemCatalogSchema, some 1⟩]
    (by decide) (.schema "public" (.fill none ⟨systemCatalogSchema, some 1⟩ trivial .nil))
  exact absurd hcompleted (by decide)

end SafeMigrate
