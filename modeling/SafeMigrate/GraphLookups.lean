import SafeMigrate.Cascade
import SafeMigrate.GraphStore

/-! Lookups through the stored indexes, and the stored graph as the graph that
the rest of the model computes with. -/

namespace SafeMigrate

namespace GraphIndexes

section Renames

def leaves (id : ObjectId) (e : DependencyEdge) : Bool := e.kind.isRenameTo && e.dependent == id

theorem lookup_foldl_recordRename (edges : List DependencyEdge) (k : Nat)
    (renames : KeyedMap ObjectId Nat) (id : ObjectId) :
    ((edges.zipIdx k).foldl recordRename renames).lookup id =
      (renames.lookup id).or ((edges.findIdx? (leaves id)).map (· + k)) := by
  induction edges generalizing k renames with
  | nil => simp
  | cons e edges ih =>
    have hplaces : (Option.map (· + 1) (edges.findIdx? (leaves id))).map (· + k) =
        (edges.findIdx? (leaves id)).map (· + (k + 1)) := by
      rw [Option.map_map]
      refine congrArg (Option.map · _) (funext fun i => ?_)
      show i + 1 + k = i + (k + 1)
      omega
    rw [List.zipIdx_cons, List.foldl_cons, ih, List.findIdx?_cons]
    by_cases hrename : e.kind.isRenameTo = true ∧ renames.lookup e.dependent = none
    · rw [recordRename, if_pos hrename]
      by_cases hid : e.dependent = id
      · have hleaves : leaves id e = true := by simp [leaves, hrename.1, hid]
        rw [hid] at hrename ⊢
        rw [AList.lookup_insert, hleaves, hrename.2]
        simp
      · have hleaves : leaves id e = false := by simp [leaves, hid]
        rw [AList.lookup_insert_ne (Ne.symm hid), hleaves, if_neg Bool.false_ne_true, hplaces]
    · rw [recordRename, if_neg hrename]
      cases hleaves : leaves id e with
      | false => rw [if_neg Bool.false_ne_true, hplaces]
      | true =>
        simp only [leaves, Bool.and_eq_true, beq_iff_eq] at hleaves
        rw [hleaves.2] at hrename
        obtain ⟨index, hindex⟩ := Option.ne_none_iff_exists'.mp fun hnone =>
          hrename ⟨hleaves.1, hnone⟩
        rw [hindex, Option.some_or, Option.some_or]

theorem renameBySource_build (edges : List DependencyEdge) (id : ObjectId) :
    (build edges).renameBySource.lookup id = edges.findIdx? (leaves id) := by
  show (edges.zipIdx.foldl recordRename ∅).lookup id = _
  rw [lookup_foldl_recordRename]
  simp

/-- The place of a rename edge leads to the edge that a search finds. -/
theorem renamed_edge (g : DependencyGraph) (id : ObjectId) :
    (((build g.edges).renameBySource.lookup id).bind fun index => g.edges[index]?).map
      (·.referenced) = g.renameBySource id := by
  rw [renameBySource_build, DependencyGraph.renameBySource, ← List.find?_eq_bind_findIdx?_getElem?]
  rfl

theorem followRenames_build (g : DependencyGraph) (id : ObjectId) (fuel : Nat)
    (visited : List ObjectId) (current : ObjectId) :
    followRenames g.edges (build g.edges).renameBySource id fuel visited current =
      g.resolveRenameLoop id fuel visited current := by
  induction fuel generalizing visited current with
  | zero => rfl
  | succ fuel ih =>
    rw [followRenames, DependencyGraph.resolveRenameLoop, ← renamed_edge]
    by_cases hvisited : current ∈ visited
    · rw [if_pos hvisited, if_pos hvisited]
    · rw [if_neg hvisited, if_neg hvisited]
      cases ((build g.edges).renameBySource.lookup current).bind fun index => g.edges[index]? with
      | none => rfl
      | some edge => exact ih (current :: visited) edge.referenced

theorem resolveRenameWith_build (g : DependencyGraph) (id : ObjectId) :
    resolveRenameWith g.edges (build g.edges).renameBySource id = g.resolveRename id :=
  followRenames_build g id _ [] id

end Renames

section Referenced

variable (resolve : ObjectId → ObjectId)

theorem lookup_foldl_recordReferenced (entries : List (DependencyEdge × Nat))
    (places : KeyedMap ObjectId (List Nat)) (id : ObjectId) :
    ((entries.foldl (recordReferenced resolve) places).lookup id).getD [] =
      (places.lookup id).getD [] ++
        (entries.filter fun entry => resolve entry.1.referenced == id).map Prod.snd := by
  induction entries generalizing places with
  | nil => simp
  | cons entry entries ih =>
    rw [List.foldl_cons, ih, recordReferenced]
    by_cases hid : resolve entry.1.referenced = id
    · subst hid
      simp
    · have hne : ¬(resolve entry.1.referenced == id) = true := by simpa using hid
      have hfilter : (entry :: entries).filter (fun entry => resolve entry.1.referenced == id) =
          entries.filter fun entry => resolve entry.1.referenced == id :=
        List.filter_cons_of_neg hne
      rw [AList.lookup_insert_ne (Ne.symm hid), hfilter]

theorem filterMap_places (edges : List DependencyEdge) (p : DependencyEdge → Bool) :
    ((edges.zipIdx.filter fun entry => p entry.1).map Prod.snd).filterMap
      (fun index => edges[index]?) = edges.filter p := by
  have hfound : ∀ entry ∈ edges.zipIdx.filter (fun entry => p entry.1),
      ((fun index => edges[index]?) ∘ Prod.snd) entry = some entry.1 := by
    intro entry hentry
    exact List.mem_zipIdx_iff_getElem?.mp (List.mem_of_mem_filter hentry)
  rw [List.filterMap_map, List.filterMap_congr hfound, List.filterMap_eq_map']
  conv_rhs => rw [← List.zipIdx_map_fst 0 edges, List.filter_map]
  rfl

end Referenced

end GraphIndexes

namespace GraphStore

variable {g : GraphStore}

/-- The graph that is stored. -/
def Sound.graph (hg : g.Sound) : DependencyGraph := ⟨g.edges, hg.nodup⟩

variable (hg : g.Sound)

theorem Sound.resolveRename (id : ObjectId) : g.resolveRename id = hg.graph.resolveRename id := by
  rw [GraphStore.resolveRename, hg.readIndexes.1]
  exact GraphIndexes.resolveRenameWith_build hg.graph id

/-- The edges under a resolved identity, by their places or by a search. -/
theorem Sound.resolvedReferencedEdges (id : ObjectId) :
    g.resolvedReferencedEdges id = hg.graph.resolvedReferencedEdges id := by
  rw [GraphStore.resolvedReferencedEdges, hg.readIndexes.1, hg.resolveRename]
  show (((g.edges.zipIdx.foldl (GraphIndexes.recordReferenced _) ∅).lookup _).getD []).filterMap _ = _
  rw [GraphIndexes.lookup_foldl_recordReferenced, AList.lookup_empty, Option.getD_none,
    List.nil_append]
  have hresolve : GraphIndexes.resolveRenameWith g.edges (g.edges.zipIdx.foldl
      GraphIndexes.recordRename ∅) = hg.graph.resolveRename :=
    funext fun other => GraphIndexes.resolveRenameWith_build hg.graph other
  rw [hresolve]
  exact GraphIndexes.filterMap_places g.edges fun e =>
    hg.graph.resolveRename e.referenced == hg.graph.resolveRename id

end GraphStore

end SafeMigrate
