import SafeMigrate.ForwardChain
import SafeMigrate.TableWrites

/-! Rename edges as forwarding pointers: what resolving an identity answers,
and how edits of the graph change it. -/

namespace SafeMigrate

namespace DependencyGraph

/-- The rename edges, on which alone the resolution of names depends. -/
def aliases (g : DependencyGraph) : List DependencyEdge := g.edges.filter (·.kind.isRenameTo)

theorem renameBySource_eq (g : DependencyGraph) (id : ObjectId) :
    g.renameBySource id = (g.aliases.find? (·.dependent == id)).map (·.referenced) := by
  simp only [renameBySource, aliases, List.find?_filter, Bool.decide_and, Bool.decide_coe]

theorem renameBySource_congr {g h : DependencyGraph} (e : g.aliases = h.aliases) :
    g.renameBySource = h.renameBySource := by
  funext id
  rw [renameBySource_eq, renameBySource_eq, e]

section Resolve

open ForwardChain

theorem resolveRenameLoop_eq_chase (g : DependencyGraph) (id : ObjectId) (fuel : Nat)
    (visited : List ObjectId) (current : ObjectId) :
    g.resolveRenameLoop id fuel visited current =
      chase g.renameBySource id fuel visited current := by
  induction fuel generalizing visited current with
  | zero => rfl
  | succ fuel ih =>
    unfold resolveRenameLoop chase
    split
    · rfl
    · cases g.renameBySource current with
      | none => rfl
      | some next => exact ih _ _

def aliasSources (g : DependencyGraph) : Finset ObjectId := (g.edges.map (·.dependent)).toFinset

theorem mem_aliasSources {g : DependencyGraph} {id : ObjectId} (h : g.renameBySource id ≠ none) :
    id ∈ g.aliasSources := by
  obtain ⟨next, hnext⟩ := Option.ne_none_iff_exists'.mp h
  obtain ⟨e, he, -, rfl, -⟩ := renameBySource_eq_some hnext
  exact List.mem_toFinset.mpr (List.mem_map_of_mem he)

theorem aliasSources_card_lt (g : DependencyGraph) : g.aliasSources.card < g.edges.length + 2 := by
  have h := List.toFinset_card_le (g.edges.map (·.dependent))
  rw [List.length_map] at h
  exact Nat.lt_succ_of_lt (Nat.lt_succ_of_le h)

/-- Resolution answers with the end of the rename chain, if it has one. -/
theorem resolveRename_eq_iff {g : DependencyGraph} {id answer : ObjectId} :
    g.resolveRename id = answer ↔
      g.renameBySource answer = none ∧ Reaches g.renameBySource id answer ∨
        answer = id ∧ Endless g.renameBySource id := by
  rw [resolveRename, resolveRenameLoop_eq_chase]
  exact chase_eq_iff (fun _ => mem_aliasSources) g.aliasSources_card_lt

theorem resolveRename_eq_self_iff {g : DependencyGraph} {id : ObjectId} :
    g.resolveRename id = id ↔ g.renameBySource id = none ∨ Endless g.renameBySource id := by
  rw [resolveRename, resolveRenameLoop_eq_chase]
  exact chase_eq_start_iff (fun _ => mem_aliasSources) g.aliasSources_card_lt

theorem resolveRename_congr {g h : DependencyGraph} (e : g.aliases = h.aliases) (id : ObjectId) :
    g.resolveRename id = h.resolveRename id := by
  rw [resolveRename_eq_iff, renameBySource_congr e]
  exact resolveRename_eq_iff.mp rfl

end Resolve

section Edits

variable {g : DependencyGraph}

theorem aliases_addEdge {e : DependencyEdge} (h : e.kind.isRenameTo = false) :
    (g.addEdge e).aliases = g.aliases := edgesOf_addEdge h

theorem aliases_addEdges {edges : List DependencyEdge}
    (h : ∀ e ∈ edges, e.kind.isRenameTo = false) :
    (edges.foldl addEdge g).aliases = g.aliases := edgesOf_addEdges h

theorem aliases_mapEdges {f : DependencyEdge → DependencyEdge}
    (hf : ∀ e, e.kind.isRenameTo = true → f e = e)
    (hkind : ∀ e, (f e).kind.isRenameTo = e.kind.isRenameTo) :
    (g.mapEdges f).aliases = g.aliases := edgesOf_mapEdges hf hkind

theorem aliases_updateIndexDefinition (index : ObjectId)
    (f : IndexDefinition → IndexDefinition) :
    (g.updateIndexDefinition index f).aliases = g.aliases :=
  edgesOf_updateIndexDefinition (fun _ => DependencyKind.isRenameTo_of_index) index f

/-- A new alias counts where the identity has none yet. -/
theorem renameBySource_addAlias (oldId newId id : ObjectId) :
    (g.addEdge ⟨oldId, newId, .renameTo⟩).renameBySource id =
      (g.renameBySource id <|> if oldId = id then some newId else none) := by
  unfold addEdge
  split
  · rename_i hmem
    by_cases hid : oldId = id
    · subst hid
      have hne : g.renameBySource oldId ≠ none := by
        intro hnone
        exact renameBySource_eq_none.mp hnone _ hmem rfl rfl
      obtain ⟨next, hnext⟩ := Option.ne_none_iff_exists'.mp hne
      simp [hnext]
    · simp [hid]
  · have hnew : [(⟨oldId, newId, .renameTo⟩ : DependencyEdge)].find?
        (fun e => e.kind.isRenameTo && e.dependent == id) =
          if oldId = id then some ⟨oldId, newId, .renameTo⟩ else none := by
      by_cases hid : oldId = id <;> simp [hid, DependencyKind.isRenameTo]
    rw [renameBySource, List.find?_append, hnew, Option.map_or]
    by_cases hid : oldId = id <;> simp [hid, renameBySource]

end Edits

end DependencyGraph

end SafeMigrate
