import SafeMigrate.DropTable
import SafeMigrate.TableWrites

/-! Writes under the cells of entries that were pushed before them. A relation
between states says that what was covered stays covered, so that the steps
behind a snapshot compose like those that push their own entries. -/

namespace SafeMigrate

open AnalysisState

instance : KeepsEvidence Logged where
  refl := Logged.refl
  trans _ _ _ := Logged.trans
  taint := AnalysisState.logged_taint

/-- Whatever is covered up to `s`, with entries for these cells, is covered up
to `t`. -/
def StaysCovered (cells : List Cell) (s t : AnalysisState) : Prop :=
  ∀ r, LoggedCovering cells r s → LoggedCovering cells r t

variable {cells : List Cell} {s t u : AnalysisState}

theorem Logged.staysCovered (h : Logged s t) : StaysCovered cells s t := fun _ hr => hr.then h

theorem LoggedCovering.close (hs : LoggedCovering cells s t) (h : StaysCovered cells t u) :
    Logged s u := (h s hs).logged

instance : KeepsEvidence (StaysCovered cells) where
  refl _ := fun _ h => h
  trans _ _ _ h h' := fun r hr => h' r (h r hr)
  taint s code scope := (s.logged_taint code scope).staysCovered

/-- Statements that push an entry and then write under it. -/
theorem logged_opened {α : Type} {f : AnalysisState → AnalysisState} {k : PUnit → Statement α}
    (hf : ∀ s, LoggedCovering cells s (f s)) (hk : Command.Keeps (StaysCovered cells) (k ⟨⟩)) :
    Command.Keeps Logged ((modify f : Statement PUnit) >>= k) := by
  intro s
  rw [Command.after_modify_bind]
  exact (hf s).close (hk (f s))

section Fields

theorem LoggedCovering.setFunctions (h : LoggedCovering cells s t) {id : ObjectId}
    (hc : .function id ∈ cells) {m : KeyedMap ObjectId FunctionOverlay}
    (hm : ∀ k, k ≠ id → m.lookup k = t.functions.lookup k) :
    LoggedCovering cells s (t.setFunctions m) :=
  h.write { AgreeOutside.refl cells t.logged with
    functions := fun _ k hk => (hm k fun he => hk (he ▸ hc)).symm } rfl

end Fields

section Namespace

/-- The states differ at most in fields that a namespace entry restores. -/
structure SameOutsideNamespace (s t : AnalysisState) : Prop where
  transactions : t.transactions = s.transactions
  subscriptions : t.subscriptions = s.subscriptions
  roles : t.roles = s.roles
  timeouts : (t.lockTimeout, t.statementTimeout) = (s.lockTimeout, s.statementTimeout)
  generationCounter : t.generationCounter = s.generationCounter
  grantors : (t.roleMembershipGrantors, t.roleMembershipGrantorsComplete) =
    (s.roleMembershipGrantors, s.roleMembershipGrantorsComplete)
  roleContext : t.roleContext = s.roleContext
  confidence : t.confidence = s.confidence
  evidence : t.evidence = s.evidence

theorem SameOutsideNamespace.refl (s : AnalysisState) : SameOutsideNamespace s s :=
  ⟨rfl, rfl, rfl, rfl, rfl, rfl, rfl, rfl, rfl⟩

theorem SameOutsideNamespace.trans (h : SameOutsideNamespace s t)
    (h' : SameOutsideNamespace t u) : SameOutsideNamespace s u where
  transactions := h'.transactions.trans h.transactions
  subscriptions := h'.subscriptions.trans h.subscriptions
  roles := h'.roles.trans h.roles
  timeouts := h'.timeouts.trans h.timeouts
  generationCounter := h'.generationCounter.trans h.generationCounter
  grantors := h'.grantors.trans h.grantors
  roleContext := h'.roleContext.trans h.roleContext
  confidence := h'.confidence.trans h.confidence
  evidence := h'.evidence.trans h.evidence

theorem SameOutsideNamespace.staysCovered (h : SameOutsideNamespace s t)
    (hc : .namespace ∈ cells) : StaysCovered cells s t := by
  refine fun r hr => hr.write ?_ h.transactions
  exact {
    schemas := fun hn => absurd hc hn
    relations := fun hn => absurd hc hn
    types := fun hn => absurd hc hn
    functions := fun hn => absurd hc hn
    sequences := fun hn => absurd hc hn
    extensions := fun hn => absurd hc hn
    publications := fun hn => absurd hc hn
    subscriptions := fun k _ => congrArg (fun m => m.lookup k) h.subscriptions.symm
    roles := fun k _ => congrArg (fun m => m.lookup k) h.roles.symm
    triggers := fun hn => absurd hc hn
    constraints := fun hn => absurd hc hn
    graph := fun hn => absurd hc hn
    pendingValidation := fun hn => absurd hc hn
    baselineForeignKeys := fun hn => absurd hc hn
    baseline := fun hn => absurd hc hn
    searchPath := fun hn => absurd hc hn
    timeouts := fun _ => h.timeouts.symm
    generationCounter := fun _ => h.generationCounter.symm
    roleMembershipGrantors := fun _ => h.grantors.symm
    roleContext := fun _ => h.roleContext.symm
    confidence := fun _ => h.confidence.symm
    evidence := fun _ => h.evidence.symm }

end Namespace

namespace AnalysisState

variable (s : AnalysisState)

theorem covering_snapshotRelation (id : ObjectId) :
    LoggedCovering [.relation id] s (s.snapshotRelation id) := logged_of_records (.relation id)

theorem covering_snapshotType (id : ObjectId) : LoggedCovering [.type id] s (s.snapshotType id) :=
  logged_of_records (.type id)

theorem covering_snapshotSequence (id : ObjectId) :
    LoggedCovering [.sequence id] s (s.snapshotSequence id) := logged_of_records (.sequence id)

theorem covering_snapshotTrigger (id : ObjectId) :
    LoggedCovering [.trigger id] s (s.snapshotTrigger id) := logged_of_records (.trigger id)

theorem covering_snapshotPublication (name : String) :
    LoggedCovering [.publication name] s (s.snapshotPublication name) :=
  logged_of_records (.publication name)

theorem covering_snapshotRole (id : ObjectId) : LoggedCovering [.role id] s (s.snapshotRole id) :=
  logged_of_records (.role id)

theorem covering_snapshotGraphFull : LoggedCovering [.graph] s s.snapshotGraphFull :=
  logged_of_records .graph

theorem covering_snapshotNamespace : LoggedCovering [.namespace] s s.snapshotNamespace :=
  logged_of_records .namespace

theorem logged_replaceGraph (g : DependencyGraph) : Logged s (s.snapshotGraphFull.setGraph g) :=
  (s.covering_snapshotGraphFull.setGraph (by simp) _).logged

theorem logged_setIndexDefinition (index : ObjectId) (f : IndexDefinition → IndexDefinition) :
    Logged s (s.setIndexDefinition index f) :=
  s.logged_replaceGraph _

theorem logged_putSequence (id : ObjectId) (f : AnalysisState → SequenceState) :
    Logged s (s.putSequence id f) := by
  have hbump := (s.covering_snapshotSequence id).then (s.snapshotSequence id).logged_bumpGeneration
  exact (hbump.setSequences (by simp) fun k hk => AList.lookup_insert_ne hk).logged

/-- Edges behind the recorded length, each after a constraint of its own. -/
theorem covered_putConstraintEdge {len : Nat} {r t : AnalysisState}
    (h : LoggedCovering [.graphTail len] r t) (hlen : len ≤ t.graph.edgeCount)
    (write : ConstraintState × DependencyEdge) :
    LoggedCovering [.graphTail len] r
        ((t.putConstraint write.1).setGraph ((t.putConstraint write.1).graph.addEdge write.2)) ∧
      len ≤ ((t.putConstraint write.1).graph.addEdge write.2).edgeCount := by
  have hgraph : (t.putConstraint write.1).graph = t.graph := t.pushUndo_graph _
  have hprefix := t.graph.prefix_addEdge write.2
  rw [hgraph]
  refine ⟨(h.then (t.logged_putConstraint write.1)).appendEdges (List.mem_singleton_self _) ?_ ?_, ?_⟩
  · rwa [hgraph]
  · rwa [hgraph]
  · exact hlen.trans hprefix.length_le

theorem logged_putConstraintEdges (writes : List (ConstraintState × DependencyEdge)) :
    Logged s (s.putConstraintEdges writes) := by
  have h : LoggedCovering [.graphTail s.graph.edgeCount] s s.snapshotGraph :=
    logged_of_records .graphTail
  have hlen : s.graph.edgeCount ≤ s.snapshotGraph.graph.edgeCount :=
    le_of_eq (congrArg DependencyGraph.edgeCount (s.pushUndo_graph _)).symm
  unfold putConstraintEdges
  generalize s.snapshotGraph = t at h hlen
  induction writes generalizing t with
  | nil => exact h.logged
  | cons write writes ih =>
    obtain ⟨hnext, hlen⟩ := covered_putConstraintEdge h hlen write
    exact ih _ hnext hlen

end AnalysisState

section Tables

variable {id : ObjectId} {declared : Option ObjectId}

theorem keepsTriggerWrites_logged : KeepsTriggerWrites id declared Logged where
  listTrigger s _ := s.logged_updateRelation id _
  bumpGeneration := logged_bumpGeneration
  addGraphEdge s _ _ := s.logged_addGraphEdge _
  addGraphEdges s _ _ := s.logged_addGraphEdges _
  addGraphEdgeFull s _ _ := s.logged_addGraphEdgeFull _
  setIndexDefinition s index f := s.logged_setIndexDefinition index f
  putConstraint := logged_putConstraint
  putConstraintEdges s _ _ := s.logged_putConstraintEdges _
  putTrigger := logged_putTrigger

/-- Behind the snapshot of a table, the table itself may be written. -/
theorem keepsTableWrites_staysCovered (hc : .relation id ∈ cells) :
    KeepsTableWrites id declared (StaysCovered cells) where
  listTrigger s _ := (s.logged_updateRelation id _).staysCovered
  bumpGeneration s := s.logged_bumpGeneration.staysCovered
  addGraphEdge s _ _ := (s.logged_addGraphEdge _).staysCovered
  addGraphEdges s _ _ := (s.logged_addGraphEdges _).staysCovered
  addGraphEdgeFull s _ _ := (s.logged_addGraphEdgeFull _).staysCovered
  setIndexDefinition s index f := (s.logged_setIndexDefinition index f).staysCovered
  putConstraint s constraint := (s.logged_putConstraint constraint).staysCovered
  putConstraintEdges s _ _ := (s.logged_putConstraintEdges _).staysCovered
  putTrigger s trigger := (s.logged_putTrigger trigger).staysCovered
  putSequence s sequenceId f := (s.logged_putSequence sequenceId f).staysCovered
  openTable s := ((s.covering_snapshotRelation id).logged.trans
    (s.snapshotRelation id).logged_bumpGeneration).staysCovered
  putRelation _ _ := fun _ h => h.setRelations hc fun _ hk => AList.lookup_insert_ne hk
  modifyRelation _ f := fun _ h => h.modifyRelation hc f

end Tables

end SafeMigrate
