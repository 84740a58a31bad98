import SafeMigrate.DependencyOrder
import SafeMigrate.State

/-! The types of an extension, in the order in which dropping the extension
drops them. -/

namespace SafeMigrate

open Relation

/-- The types that a type of this kind is made of. -/
def TypeKind.dependencies : TypeKind → List ObjectId
  | .domain state => state.baseTypeId.toList
  | .range state => state.subtypeId.toList
  | .multirange source => source.toList
  | .composite fields => fields.filterMap (·.dataTypeId)
  | .enum _ | .base _ _ => []

namespace AnalysisState

variable (s : AnalysisState)

def extensionTypeDependencies (id : ObjectId) : List ObjectId :=
  match s.types.lookup id with
  | some (.present state) => state.kind.dependencies
  | _ => []

/-- The ready types are stacked in the order of their names, the last on top. -/
def extensionTypeDropOrder (types : List ObjectId) : List ObjectId :=
  DependencyOrder.sort s.extensionTypeDependencies
    (fun ready => (ready.mergeSort fun a b => decide (a.display ≤ b.display)).reverse) types

/-- A type of the extension is made of another. -/
def TypeDependsOn (types : List ObjectId) (a b : ObjectId) : Prop :=
  a ∈ types ∧ b ∈ types ∧ b ∈ s.extensionTypeDependencies a

variable {s} {types : List ObjectId}

/-- Every type of an extension is dropped once. Where their dependencies have no
cycle, no type that is still to come is made of the one to be dropped, and
otherwise the types stay in the order of the members. -/
theorem extensionTypeDropOrder_spec (hnodup : types.Nodup) :
    (s.extensionTypeDropOrder types).Perm types ∧
      ((∀ id, ¬TransGen (s.TypeDependsOn types) id id) → ∀ dropped id left,
        s.extensionTypeDropOrder types = dropped ++ id :: left →
          ∀ other ∈ id :: left, id ∉ s.extensionTypeDependencies other) ∧
      ((∃ id, TransGen (s.TypeDependsOn types) id id) → s.extensionTypeDropOrder types = types) := by
  have harrange (l : List ObjectId) :
      ((l.mergeSort fun a b => decide (a.display ≤ b.display)).reverse).Perm l :=
    (List.reverse_perm _).trans (List.mergeSort_perm _ _)
  have hperm : (s.extensionTypeDropOrder types).Perm types :=
    DependencyOrder.sort_perm hnodup harrange
  refine ⟨hperm, fun hacyclic dropped id left heq other hother hdepends => ?_, ?_⟩
  · have hmem (x : ObjectId) (hx : x ∈ id :: left) : x ∈ types := by
      rw [← hperm.mem_iff, heq]
      exact List.mem_append_right _ hx
    have hbefore := DependencyOrder.sort_before hnodup harrange hacyclic
      ⟨hmem other hother, hmem id List.mem_cons_self, hdepends⟩
    have hdistinct : (dropped ++ id :: left).Nodup := heq ▸ hperm.nodup_iff.mpr hnodup
    have hnot (x : ObjectId) (hx : x ∈ id :: left) : x ∉ dropped := fun hin =>
      (List.disjoint_of_nodup_append hdistinct) hin hx
    have hfirst : (dropped ++ id :: left).idxOf id = dropped.length := by
      rw [List.idxOf_append_of_notMem (hnot id List.mem_cons_self), List.idxOf_cons_self,
        Nat.add_zero]
    have hlater : dropped.length ≤ (dropped ++ id :: left).idxOf other := by
      rw [List.idxOf_append_of_notMem (hnot other hother)]
      exact Nat.le_add_right _ _
    rw [show DependencyOrder.sort s.extensionTypeDependencies _ types =
      dropped ++ id :: left from heq, hfirst] at hbefore
    omega
  · rintro ⟨id, hcycle⟩
    exact DependencyOrder.sort_of_cycle hnodup harrange hcycle

def citext : ObjectId := ⟨"public", "citext"⟩

def email : ObjectId := ⟨"public", "email"⟩

/-- An extension with a type and a domain over it. -/
def citextInstalled : AnalysisState :=
  { types := AList.singleton email (.present ⟨email, 0, ⟨"", "postgres"⟩, .domain
      { baseType := "citext", baseTypeId := some citext, collation := none, collationId := none,
        default := none, defaultText := none, notNull := false, notNullConstraint := none,
        constraints := ∅ }⟩) }

theorem extensionTypeDropOrder_citext :
    (citextInstalled.extensionTypeDropOrder [citext, email]).Perm [citext, email] ∧
      ((∀ id, ¬TransGen (citextInstalled.TypeDependsOn [citext, email]) id id) →
        ∀ dropped id left,
          citextInstalled.extensionTypeDropOrder [citext, email] = dropped ++ id :: left →
            ∀ other ∈ id :: left, id ∉ citextInstalled.extensionTypeDependencies other) ∧
      ((∃ id, TransGen (citextInstalled.TypeDependsOn [citext, email]) id id) →
        citextInstalled.extensionTypeDropOrder [citext, email] = [citext, email]) :=
  extensionTypeDropOrder_spec (by decide)

end AnalysisState

end SafeMigrate
