import SafeMigrate.RelationFamily
import SafeMigrate.Removal
import SafeMigrate.Statement
import SafeMigrate.Aliases

/-! What a drop leaves of the catalog. A sweep names everything that goes,
and two sweeps leave the same catalog exactly when they agree on what it holds. -/

namespace SafeMigrate

open Removal

/-- The objects that are still there, without their tombstones. -/
@[ext]
structure Catalog where
  relations : ObjectId → Option RelationState
  sequences : ObjectId → Option SequenceState
  triggers : ObjectId → Option TriggerState
  constraints : ObjectId × String → Option ConstraintState
  pending : Finset (ObjectId × String)
  scopes : String → Option (List PublicationObjectFact)
  edges : List DependencyEdge

/-- What is removed from each part of the catalog. -/
@[ext]
structure Sweep where
  relations : ObjectId → Bool := fun _ => false
  sequences : ObjectId → Bool := fun _ => false
  triggers : ObjectId → Bool := fun _ => false
  constraints : ObjectId × String → Bool := fun _ => false
  pending : ObjectId × String → Bool := fun _ => false
  objects : PublicationObjectFact → Bool := fun _ => false
  edges : DependencyEdge → Bool := fun _ => false

def Sweep.or (w w' : Sweep) : Sweep where
  relations id := w.relations id || w'.relations id
  sequences id := w.sequences id || w'.sequences id
  triggers id := w.triggers id || w'.triggers id
  constraints key := w.constraints key || w'.constraints key
  pending key := w.pending key || w'.pending key
  objects object := w.objects object || w'.objects object
  edges e := w.edges e || w'.edges e

namespace Catalog

def without (c : Catalog) (w : Sweep) : Catalog where
  relations := Removal.without w.relations c.relations
  sequences := Removal.without w.sequences c.sequences
  triggers := Removal.without w.triggers c.triggers
  constraints := Removal.without w.constraints c.constraints
  pending := c.pending.filter fun key => !w.pending key
  scopes name := (c.scopes name).map fun objects => objects.filter fun o => !w.objects o
  edges := c.edges.filter fun e => !w.edges e

theorem without_nothing (c : Catalog) : c.without {} = c := by
  have hscopes (name : String) : (c.scopes name).map
      (fun objects => objects.filter fun _ => !false) = c.scopes name := by
    simp
  simp [without, without_none]

theorem without_without (c : Catalog) (w w' : Sweep) :
    (c.without w).without w' = c.without (w.or w') := by
  simp [without, Sweep.or, Removal.without_without, Finset.filter_filter, List.filter_filter,
    Function.comp_def, Bool.and_comm]

/-- Two catalogs hold the same objects and the same of the edges that were
current before. -/
structure Alike (current : DependencyEdge → Bool) (c c' : Catalog) : Prop where
  relations : c.relations = c'.relations
  sequences : c.sequences = c'.sequences
  triggers : c.triggers = c'.triggers
  constraints : c.constraints = c'.constraints
  pending : c.pending = c'.pending
  scopes : c.scopes = c'.scopes
  edges : c.edges.filter current = c'.edges.filter current

end Catalog

/-- Two sweeps agree on everything a catalog holds. -/
structure Sweep.AlikeOn (c : Catalog) (current : DependencyEdge → Bool) (w w' : Sweep) : Prop where
  relations : ∀ id relation, c.relations id = some relation → w.relations id = w'.relations id
  sequences : ∀ id sequence, c.sequences id = some sequence → w.sequences id = w'.sequences id
  triggers : ∀ id trigger, c.triggers id = some trigger → w.triggers id = w'.triggers id
  constraints : ∀ key state, c.constraints key = some state → w.constraints key = w'.constraints key
  pending : ∀ key ∈ c.pending, w.pending key = w'.pending key
  objects : ∀ name objects, c.scopes name = some objects → ∀ o ∈ objects, w.objects o = w'.objects o
  edges : ∀ e ∈ c.edges, current e = true → w.edges e = w'.edges e

theorem Catalog.alike_without_iff {c : Catalog} {current : DependencyEdge → Bool} {w w' : Sweep} :
    Catalog.Alike current (c.without w) (c.without w') ↔ w.AlikeOn c current w' := by
  have hedges : ((c.without w).edges.filter current = (c.without w').edges.filter current) ↔
      ∀ e ∈ c.edges, current e = true → w.edges e = w'.edges e := by
    simp only [Catalog.without, List.filter_filter]
    rw [filter_eq_filter_iff]
    refine forall₂_congr fun e _ => ?_
    cases current e <;> simp
  have hpending : (c.without w).pending = (c.without w').pending ↔
      ∀ key ∈ c.pending, w.pending key = w'.pending key := by
    simp only [Catalog.without, Finset.filter_inj']
    simp
  have hscopes : (c.without w).scopes = (c.without w').scopes ↔ ∀ name objects,
      c.scopes name = some objects → ∀ o ∈ objects, w.objects o = w'.objects o := by
    simp only [Catalog.without, funext_iff]
    refine forall_congr' fun name => ?_
    cases c.scopes name with
    | none => simp
    | some objects => simp [filter_eq_filter_iff]
  constructor
  · intro h
    exact {
      relations := without_eq_without_iff.mp h.relations
      sequences := without_eq_without_iff.mp h.sequences
      triggers := without_eq_without_iff.mp h.triggers
      constraints := without_eq_without_iff.mp h.constraints
      pending := hpending.mp h.pending
      objects := hscopes.mp h.scopes
      edges := hedges.mp h.edges }
  · intro h
    exact {
      relations := without_congr h.relations
      sequences := without_congr h.sequences
      triggers := without_congr h.triggers
      constraints := without_congr h.constraints
      pending := hpending.mpr h.pending
      scopes := hscopes.mpr h.objects
      edges := hedges.mpr h.edges }

theorem Catalog.without_congr {c : Catalog} {w w' : Sweep} (h : w.AlikeOn c (fun _ => true) w') :
    c.without w = c.without w' := by
  have halike := Catalog.alike_without_iff.mpr h
  have hedges := halike.edges
  simp only [List.filter_true] at hedges
  exact Catalog.ext halike.relations halike.sequences halike.triggers halike.constraints
    halike.pending halike.scopes hedges

end SafeMigrate
