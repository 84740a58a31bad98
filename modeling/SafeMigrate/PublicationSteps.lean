import SafeMigrate.PublicationScopes

/-! What each publication statement does to the scopes and to the membership
edges where it is applied. -/

namespace SafeMigrate

open Command AnalysisState KeyedList

section Checks

variable {s t : AnalysisState} {R : AnalysisState → AnalysisState → Prop} [KeepsEvidence R]

theorem keeps_checkPublicationColumns (id : ObjectRef) (relation : RelationState)
    (seen columns : List String) :
    Keeps R (checkPublicationColumns id relation seen columns) := by
  induction columns generalizing seen with
  | nil => exact Keeps.pure _
  | cons column columns ih =>
    exact Keeps.bind (keeps_refuseIf _ _) fun _ => Keeps.bind (keeps_refuseIf _ _) fun _ => ih _

theorem keeps_checkPublicationTable (id : ObjectRef) (columns : Option (List String)) :
    Keeps R (checkPublicationTable id columns) := by
  refine Keeps.bind Keeps.get fun s => ?_
  split
  · refine Keeps.ite (fun _ => keeps_checkPublicationColumns _ _ _ _) fun _ => keeps_refuse _
  · exact keeps_refuse _
  · exact Keeps.ite (fun _ => keeps_refuse _) fun _ => keeps_taint _ _

theorem keeps_checkPublicationObject (object : PublicationObjectFact) :
    Keeps R (checkPublicationObject object) := by
  cases object with
  | table name only includePartitions columns rowFilter =>
    exact Keeps.bind Keeps.get fun s => keeps_checkPublicationTable _ _
  | schemaTables schema rowFilter =>
    refine Keeps.bind Keeps.get fun s => Keeps.ite (fun _ => Keeps.pure _) fun _ => ?_
    exact Keeps.bind (keeps_refuseIf _ _) fun _ => keeps_taint _ _
  | currentSchemaShorthand => exact keeps_taint _ _
  | unknown => exact keeps_taint _ _

theorem declines_checkPublicationColumns (id : ObjectRef) (relation : RelationState)
    (seen columns : List String) : Declines (checkPublicationColumns id relation seen columns) := by
  induction columns generalizing seen with
  | nil => exact declines_pure _
  | cons column columns ih =>
    exact Declines.bind (declines_refuseIf _ _) fun _ =>
      Declines.bind (declines_refuseIf _ _) fun _ => ih _

theorem declines_checkPublicationObject (object : PublicationObjectFact) :
    Declines (checkPublicationObject object) := by
  cases object with
  | table name only includePartitions columns rowFilter =>
    refine Declines.bind declines_get fun s => Declines.bind declines_get fun s => ?_
    split
    · refine Throws.ite (fun _ => declines_checkPublicationColumns _ _ _ _) fun _ => declines_refuse _
    · exact declines_refuse _
    · exact Throws.ite (fun _ => declines_refuse _) fun _ => declines_modify _
  | schemaTables schema rowFilter =>
    refine Declines.bind declines_get fun s => Throws.ite (fun _ => declines_pure _) fun _ => ?_
    exact Declines.bind (declines_refuseIf _ _) fun _ => declines_modify _
  | currentSchemaShorthand => exact declines_modify _
  | unknown => exact declines_modify _

theorem declines_validatePublicationObjects (seen : List String)
    (objects : List PublicationObjectFact) :
    Declines (validatePublicationObjects seen objects) := by
  induction objects generalizing seen with
  | nil => exact declines_pure _
  | cons object objects ih =>
    refine Declines.bind declines_get fun s => Declines.bind (declines_refuseIf _ _) fun _ => ?_
    exact Declines.bind (declines_checkPublicationObject _) fun _ => ih _

theorem validatePublicationObjects_ok {seen : List String} {objects : List PublicationObjectFact}
    {a : Unit} (h : (validatePublicationObjects seen objects).run.run s = (.ok a, t)) :
    SameContents s t ∧ Distinct s.publicationObjectKey objects ∧
      ∀ object ∈ objects, s.publicationObjectKey object ∉ seen := by
  induction objects generalizing s seen with
  | nil =>
    cases h
    exact ⟨rfl, List.nodup_nil, by simp⟩
  | cons object objects ih =>
    obtain ⟨_, _, hget, h⟩ := exists_run_of_bind h
    cases hget
    obtain ⟨_, u, hfresh, h⟩ := exists_run_of_bind h
    obtain ⟨rfl, hfresh⟩ := refuseIf_ok hfresh
    obtain ⟨_, v, hcheck, h⟩ := exists_run_of_bind h
    have hkept : SameContents u v := .of_check (keeps_checkPublicationObject object) hcheck
    obtain ⟨hrest, hdistinct, hnew⟩ := ih h
    rw [(SameNamedObjects.of_contents hkept).key] at hdistinct hnew
    refine ⟨hkept.trans hrest, ?_, ?_⟩
    · refine List.nodup_cons.mpr ⟨fun hmem => ?_, hdistinct⟩
      obtain ⟨other, hother, hkey⟩ := List.mem_map.mp hmem
      exact hnew other hother (hkey ▸ List.mem_cons_self)
    · rintro other hother
      rcases List.mem_cons.mp hother with rfl | hother
      · exact hfresh
      · exact fun hseen => hnew other hother (List.mem_cons_of_mem _ hseen)

theorem sameContents_taintInheritance (s : AnalysisState) (scope : PublicationScope) :
    SameContents s (s.taintInheritanceSensitivePublicationScope scope) := by
  unfold taintInheritanceSensitivePublicationScope
  split
  · exact .taint s _ _
  · exact .refl s

theorem publicationScope_of_lookup {name : String} (h : s.publicationLookup name ≠ .present) :
    s.publicationScope name = none := by
  unfold publicationLookup at h
  unfold publicationScope presentPublication
  split
  · rename_i publication hlookup
    rw [hlookup] at h
    exact absurd rfl h
  · rfl

theorem publicationScope_of_present {name : String} (h : s.publicationLookup name = .present) :
    (s.publicationScope name).isSome := by
  unfold publicationLookup at h
  unfold publicationScope presentPublication
  split at h
  · rename_i publication hlookup
    rw [hlookup]
    rfl
  · cases h
  · split at h <;> cases h

end Checks

section Create

variable {s t : AnalysisState} {create : CreatePublication}

theorem declines_createPublication (create : CreatePublication) : Declines create.command := by
  refine Declines.bind declines_get fun s => Declines.bind (declines_refuseIf _ _) fun _ => ?_
  refine Declines.bind (declines_taintIf _ _ _) fun _ => Declines.bind declines_get fun s => ?_
  refine Declines.bind ?_ fun _ => ?_
  · unfold validatePublicationScope
    split
    · exact declines_validatePublicationObjects _ _
    · exact declines_pure _
  · refine Declines.bind (declines_modify _) fun _ => Declines.bind (declines_modify _) fun _ => ?_
    exact declines_pure _

theorem validatePublicationScope_ok {scope : PublicationScope} {a : Unit}
    (h : (validatePublicationScope scope).run.run s = (.ok a, t)) :
    SameContents s t ∧ ∀ objects, scope = .explicit objects →
      Distinct s.publicationObjectKey objects := by
  cases scope with
  | explicit objects =>
    obtain ⟨hkept, hdistinct, -⟩ := validatePublicationObjects_ok h
    refine ⟨hkept, ?_⟩
    rintro _ ⟨⟩
    exact hdistinct
  | allTables except =>
    cases h
    exact ⟨rfl, fun _ h => by cases h⟩

/-- A publication is created under a new name, with distinct objects. -/
theorem applyCreatePublication_applied
    (h : s.applyCreatePublication create = (.applied, t)) :
    s.publicationScope create.name = none ∧
      (∀ objects, s.normalizePublicationScope create.scope = .explicit objects →
        Distinct s.publicationObjectKey objects) ∧
      Republishes s t
        (fun k => if k = create.name then some (s.normalizePublicationScope create.scope)
          else s.publicationScope k)
        fun e => e ∈ s.graph.edges ∨
          e ∈ s.membershipEdges create.name (s.normalizePublicationScope create.scope) := by
  have hrun := ran_of_outcome (declines_createPublication create) h
  obtain ⟨_, _, hget, hrun⟩ := exists_run_of_bind hrun
  cases hget
  obtain ⟨_, u, hrefuse, hrun⟩ := exists_run_of_bind hrun
  obtain ⟨rfl, hnew⟩ := refuseIf_ok hrefuse
  obtain ⟨_, v, htaint, hrun⟩ := exists_run_of_bind hrun
  have hv : SameContents u v := .of_check (keeps_taintIf _ _ _) htaint
  obtain ⟨_, _, hget, hrun⟩ := exists_run_of_bind hrun
  cases hget
  obtain ⟨_, w, hvalid, hrun⟩ := exists_run_of_bind hrun
  obtain ⟨hw, hdistinct⟩ := validatePublicationScope_ok hvalid
  obtain ⟨_, _, hmodify, hrun⟩ := exists_run_of_bind hrun
  cases hmodify
  obtain ⟨_, _, hmodify, hrun⟩ := exists_run_of_bind hrun
  cases hmodify
  cases hrun
  have hnamed := SameNamedObjects.of_contents hv
  rw [hnamed.normalize, hnamed.key] at hdistinct
  rw [hnamed.normalize]
  refine ⟨publicationScope_of_lookup hnew, hdistinct, Republishes.create ?_ create _⟩
  exact (Republishes.refl u).contents (hv.trans (hw.trans (sameContents_taintInheritance w _)))

end Create

section Alter

variable {s t : AnalysisState} {name : String}

theorem isCheck_alterTarget (alter : AlterPublication) : IsCheck alter.checkTarget := by
  refine IsCheck.bind IsCheck.get fun s => ?_
  split
  · exact IsCheck.pure _
  · exact isCheck_leaveUnresolved _
  · exact isCheck_refuse _

theorem isCheck_alterAction (alter : AlterPublication) : IsCheck alter.checkAction := by
  refine IsCheck.bind IsCheck.get fun s => ?_
  split
  · split
    · exact isCheck_refuse _
    · exact isCheck_leaveUnresolved _
    · exact IsCheck.pure _
  · split
    · exact isCheck_refuseIf _ _
    · exact IsCheck.pure _
  · exact IsCheck.pure _

theorem declines_replacementScope (alter : AlterPublication) (current : PublicationScope) :
    Declines (alter.replacementScope current) := by
  have hvalid (scope : PublicationScope) : Declines (validatePublicationScope scope) := by
    unfold validatePublicationScope
    split
    · exact declines_validatePublicationObjects _ _
    · exact declines_pure _
  unfold AlterPublication.replacementScope
  split
  · refine Declines.bind (hvalid _) fun _ => Declines.bind (declines_modify _) fun _ => ?_
    split
    · exact declines_refuse _
    · refine Declines.bind declines_get fun s => Declines.bind ?_ fun _ => declines_pure _
      exact Throws.foldlM _ _ fun _ _ => Declines.bind (declines_refuseIf _ _) fun _ => declines_pure _
  · refine Declines.bind (hvalid _) fun _ => Declines.bind (declines_modify _) fun _ => ?_
    exact declines_pure _
  · refine Declines.bind (declines_modify _) fun _ => ?_
    split
    · exact declines_refuse _
    · refine Declines.bind declines_get fun s => Declines.bind ?_ fun _ => declines_pure _
      exact Throws.foldlM _ _ fun _ _ => Declines.bind (declines_refuseIf _ _) fun _ => declines_pure _
  · exact Declines.bind (declines_modify _) fun _ => declines_pure _
  · exact Declines.bind (declines_modify _) fun _ => declines_pure _
  · exact declines_pure _

theorem declines_alterPublication (alter : AlterPublication) : Declines alter.command := by
  refine Declines.bind ?_ fun _ => Declines.bind ?_ fun _ => ?_
  · refine Declines.bind declines_get fun s => ?_
    split
    · exact declines_pure _
    · exact declines_leaveUnresolved _
    · exact declines_refuse _
  · refine Declines.bind declines_get fun s => ?_
    split
    · split
      · exact declines_refuse _
      · exact declines_leaveUnresolved _
      · exact declines_pure _
    · split
      · exact declines_refuseIf _ _
      · exact declines_pure _
    · exact declines_pure _
  · refine Declines.bind (declines_modify _) fun _ => Declines.bind declines_get fun s => ?_
    refine Declines.bind (declines_replacementScope _ _) fun _ => ?_
    exact Declines.bind (declines_modify _) fun _ => declines_pure _

theorem alterTarget_ok {alter : AlterPublication} {a : Unit}
    (h : alter.checkTarget.run.run s = (.ok a, t)) :
    t = s ∧ (s.publicationScope alter.name).isSome := by
  refine ⟨isCheck_alterTarget alter s a t h, ?_⟩
  obtain ⟨_, _, hget, h⟩ := exists_run_of_bind h
  cases hget
  split at h
  · rename_i hpresent
    exact publicationScope_of_present hpresent
  · cases h
  · cases h

theorem alterAction_ok {alter : AlterPublication} {a : Unit}
    (h : alter.checkAction.run.run s = (.ok a, t)) :
    t = s ∧ ∀ newName, alter.action = .rename newName → s.publicationScope newName = none := by
  refine ⟨isCheck_alterAction alter s a t h, fun newName haction => ?_⟩
  obtain ⟨_, _, hget, h⟩ := exists_run_of_bind h
  cases hget
  rw [haction] at h
  refine publicationScope_of_lookup fun hpresent => ?_
  simp only [hpresent] at h
  cases h

/-- The action runs on the contents of the state before it, and the publication
is present. -/
theorem applyAlterPublication_applied {alter : AlterPublication}
    (h : s.applyAlterPublication alter = (.applied, t)) :
    ∃ current u generation replacement v, s.publicationScope alter.name = some current ∧
      SameContents s u ∧ (alter.replacementScope current).run.run u = (.ok replacement, v) ∧
      t = alter.finish generation replacement v ∧
      ∀ newName, alter.action = .rename newName → s.publicationScope newName = none := by
  obtain ⟨_, u, htarget, hchecked⟩ :=
    exists_run_of_bind (ran_of_outcome (declines_alterPublication alter) h)
  obtain ⟨rfl, hsome⟩ := alterTarget_ok htarget
  obtain ⟨_, v, haction, hrun⟩ := exists_run_of_bind hchecked
  obtain ⟨rfl, hrename⟩ := alterAction_ok haction
  obtain ⟨_, _, hmodify, hrun⟩ := exists_run_of_bind hrun
  cases hmodify
  obtain ⟨_, _, hget, hrun⟩ := exists_run_of_bind hrun
  cases hget
  obtain ⟨replacement, w, hreplacement, hrun⟩ := exists_run_of_bind hrun
  obtain ⟨_, _, hmodify, hrun⟩ := exists_run_of_bind hrun
  cases hmodify
  cases hrun
  have hkept : SameContents v ((v.snapshotPublication alter.name).bumpGeneration) :=
    (SameContents.pushUndo v _).trans (SameContents.bumpGeneration _)
  obtain ⟨current, hcurrent⟩ := Option.isSome_iff_exists.mp hsome
  refine ⟨current, _, _, replacement, w, hcurrent, hkept, ?_, rfl, hrename⟩
  have hscope : ((v.snapshotPublication alter.name).bumpGeneration).publicationScope alter.name =
      some current := by
    rw [← hcurrent]
    exact publicationScope_congr (congrArg _ hkept.publications)
  rw [publicationScope] at hscope
  rw [hscope] at hreplacement
  exact hreplacement

/-- The generation is written after the scope. -/
theorem AnalysisState.Republishes.finish {scopes : String → Option PublicationScope}
    {edges : DependencyEdge → Prop} (h : Republishes s t scopes edges) (alter : AlterPublication)
    (generation : Nat) :
    Republishes s (t.modifyPublication alter.name fun publication =>
      { publication with generation }) scopes edges :=
  h.modify_kept alter.name fun _ => rfl

/-- `SET` stores the objects it was given, once they are read. -/
theorem applySetObjects_applied {scope : PublicationScope}
    (h : s.applyAlterPublication ⟨name, .setObjects scope⟩ = (.applied, t)) :
    (∀ objects, scope = .explicit objects → Distinct s.publicationObjectKey objects) ∧
      Republishes s t
        (fun k => if k = name then some (s.normalizePublicationScope scope)
          else s.publicationScope k)
        fun e => (e ∈ s.graph.edges ∧ (!e.kind.isMembershipOf name) = true) ∨
          e ∈ s.membershipEdges name (s.normalizePublicationScope scope) := by
  obtain ⟨current, u, generation, replacement, v, hcurrent, hu, hrun, rfl, -⟩ :=
    applyAlterPublication_applied h
  obtain ⟨_, w, hvalid, hrun⟩ := exists_run_of_bind hrun
  obtain ⟨hw, hdistinct⟩ := validatePublicationScope_ok hvalid
  obtain ⟨_, _, hmodify, hrun⟩ := exists_run_of_bind hrun
  cases hmodify
  cases hrun
  rw [(SameNamedObjects.of_contents hu).key] at hdistinct
  refine ⟨hdistinct, ?_⟩
  have hstart := (Republishes.refl s).contents (hu.trans (hw.trans
    (sameContents_taintInheritance w scope)))
  have hpresent : (s.publicationScope name).isSome := by rw [hcurrent]; rfl
  exact (hstart.store scope hpresent).finish ⟨name, .setObjects scope⟩ generation

theorem addObjects_ok {alter : AlterPublication} {u : AnalysisState}
    {objects additions result : List PublicationObjectFact}
    (h : (additions.foldlM (alter.addObject u) objects).run.run s = (.ok result, t)) :
    t = s ∧ result = objects ++ additions ∧
      (Distinct u.publicationObjectKey objects → Distinct u.publicationObjectKey result) := by
  induction additions generalizing s objects with
  | nil =>
    cases h
    exact ⟨rfl, (List.append_nil _).symm, id⟩
  | cons addition additions ih =>
    rw [List.foldlM_cons] at h
    obtain ⟨_, v, hadd, hrest⟩ := exists_run_of_bind h
    obtain ⟨_, w, hrefuse, hadded⟩ := exists_run_of_bind hadd
    obtain ⟨rfl, hfresh⟩ := refuseIf_ok hrefuse
    cases hadded
    obtain ⟨rfl, hresult, hdistinct⟩ := ih hrest
    refine ⟨rfl, by rw [hresult, List.append_assoc]; rfl, fun hobjects => ?_⟩
    exact hdistinct (hobjects.concat hfresh)

theorem removeObjects_ok {alter : AlterPublication} {u : AnalysisState}
    {objects removals result : List PublicationObjectFact}
    (h : (removals.foldlM (alter.removeObject u) objects).run.run s = (.ok result, t)) :
    t = s ∧ result =
      (removals.map u.publicationObjectKey).foldl (remove u.publicationObjectKey) objects := by
  induction removals generalizing s objects with
  | nil =>
    cases h
    exact ⟨rfl, rfl⟩
  | cons removal removals ih =>
    rw [List.foldlM_cons] at h
    obtain ⟨_, v, hremove, hrest⟩ := exists_run_of_bind h
    obtain ⟨_, w, hfound, hremoved⟩ := exists_run_of_bind hremove
    obtain ⟨rfl, -⟩ := refuseIf_ok hfound
    cases hremoved
    exact ih hrest

/-- Objects that the list has, each once, can be removed. -/
theorem removeObjects_run (alter : AlterPublication) (u : AnalysisState)
    {objects removals : List PublicationObjectFact}
    (hdistinct : Distinct u.publicationObjectKey removals)
    (hmem : ∀ removal ∈ removals,
      u.publicationObjectKey removal ∈ objects.map u.publicationObjectKey) :
    (removals.foldlM (alter.removeObject u) objects).run.run s =
      (.ok ((removals.map u.publicationObjectKey).foldl (remove u.publicationObjectKey) objects),
        s) := by
  induction removals generalizing objects with
  | nil => rfl
  | cons removal removals ih =>
    have hn := List.nodup_cons.mp hdistinct
    have hfound : ¬u.publicationObjectKey removal ∉ objects.map u.publicationObjectKey :=
      not_not.mpr (hmem removal List.mem_cons_self)
    have hrest := @ih (remove u.publicationObjectKey objects
      (u.publicationObjectKey removal)) hn.2 fun other hother => by
        have hne : u.publicationObjectKey other ≠ u.publicationObjectKey removal :=
          fun heq => hn.1 (heq ▸ List.mem_map_of_mem hother)
        exact mem_keys_remove (hmem other (List.mem_cons_of_mem _ hother)) hne
    rw [List.foldlM_cons, run_bind, AlterPublication.removeObject, refuseIf, if_neg hfound]
    exact hrest

/-- `ADD` stores the objects behind the old ones, and reads all of them again. -/
theorem applyAddObjects_applied {additions : List PublicationObjectFact}
    (h : s.applyAlterPublication ⟨name, .addObjects additions⟩ = (.applied, t)) :
    ∃ objects, s.publicationScope name = some (.explicit objects) ∧
      Distinct s.publicationObjectKey additions ∧
      (Distinct s.publicationObjectKey objects →
        Distinct s.publicationObjectKey (objects ++ additions)) ∧
      Republishes s t
        (fun k => if k = name then
            some (s.normalizePublicationScope (.explicit (objects ++ additions)))
          else s.publicationScope k)
        fun e => (e ∈ s.graph.edges ∧ (!e.kind.isMembershipOf name) = true) ∨
          e ∈ s.membershipEdges name
            (s.normalizePublicationScope (.explicit (objects ++ additions))) := by
  obtain ⟨current, u, generation, replacement, v, hcurrent, hu, hrun, rfl, -⟩ :=
    applyAlterPublication_applied h
  obtain ⟨_, w, hvalid, hadd⟩ := exists_run_of_bind hrun
  obtain ⟨hw, hdistinct⟩ := validatePublicationScope_ok hvalid
  obtain ⟨_, _, hmodify, hadd⟩ := exists_run_of_bind hadd
  cases hmodify
  cases current with
  | allTables except => cases hadd
  | explicit objects =>
    obtain ⟨_, _, hget, hadd⟩ := exists_run_of_bind hadd
    cases hget
    obtain ⟨result, x, hadded, hpure⟩ := exists_run_of_bind hadd
    obtain ⟨rfl, rfl, hkeys⟩ := addObjects_ok hadded
    cases hpure
    have hx := hu.trans (hw.trans (sameContents_taintInheritance w (.explicit additions)))
    rw [(SameNamedObjects.of_contents hu).key] at hdistinct
    rw [(SameNamedObjects.of_contents hx).key] at hkeys
    have hpresent : (s.publicationScope name).isSome := by rw [hcurrent]; rfl
    refine ⟨objects, hcurrent, hdistinct _ rfl, hkeys, ?_⟩
    have hstored := ((Republishes.refl s).contents hx).store (.explicit (objects ++ additions)) hpresent
    exact hstored.finish ⟨name, .addObjects additions⟩ generation

/-- `DROP` stores the objects without those that were given, and reads the rest
again. -/
theorem applyDropObjects_applied {removals : List PublicationObjectFact}
    (h : s.applyAlterPublication ⟨name, .dropObjects removals⟩ = (.applied, t)) :
    ∃ objects, s.publicationScope name = some (.explicit objects) ∧
      Republishes s t
        (fun k => if k = name then some (s.normalizePublicationScope (.explicit
            ((removals.map s.publicationObjectKey).foldl (remove s.publicationObjectKey) objects)))
          else s.publicationScope k)
        fun e => (e ∈ s.graph.edges ∧ (!e.kind.isMembershipOf name) = true) ∨
          e ∈ s.membershipEdges name (s.normalizePublicationScope (.explicit
            ((removals.map s.publicationObjectKey).foldl (remove s.publicationObjectKey)
              objects))) := by
  obtain ⟨current, u, generation, replacement, v, hcurrent, hu, hrun, rfl, -⟩ :=
    applyAlterPublication_applied h
  obtain ⟨_, _, hmodify, hremove⟩ := exists_run_of_bind hrun
  cases hmodify
  cases current with
  | allTables except => cases hremove
  | explicit objects =>
    obtain ⟨_, _, hget, hremove⟩ := exists_run_of_bind hremove
    cases hget
    obtain ⟨result, x, hremoved, hpure⟩ := exists_run_of_bind hremove
    obtain ⟨rfl, rfl⟩ := removeObjects_ok hremoved
    cases hpure
    have hx := hu.trans (sameContents_taintInheritance u (.explicit removals))
    have hpresent : (s.publicationScope name).isSome := by rw [hcurrent]; rfl
    rw [(SameNamedObjects.of_contents hx).key]
    refine ⟨objects, hcurrent, ?_⟩
    have hstored := ((Republishes.refl s).contents hx).store (.explicit ((removals.map
      s.publicationObjectKey).foldl (remove s.publicationObjectKey) objects)) hpresent
    exact hstored.finish ⟨name, .dropObjects removals⟩ generation

theorem AnalysisState.Republishes.setOptions {scopes : String → Option PublicationScope}
    {edges : DependencyEdge → Prop} (h : Republishes s t scopes edges) (name : String)
    (options : List AttributeFact) :
    Republishes s (t.setPublicationOptions name options) scopes edges :=
  h.modify_kept name fun _ => rfl

theorem applySetOptions_applied {options : List AttributeFact}
    (h : s.applyAlterPublication ⟨name, .setOptions options⟩ = (.applied, t)) :
    Republishes s t s.publicationScope fun e => e ∈ s.graph.edges := by
  obtain ⟨current, u, generation, replacement, v, hcurrent, hu, hrun, rfl, -⟩ :=
    applyAlterPublication_applied h
  obtain ⟨_, _, hmodify, hpure⟩ := exists_run_of_bind hrun
  cases hmodify
  cases hpure
  have hoptions := ((Republishes.refl s).contents hu).setOptions name options
  exact hoptions.finish ⟨name, .setOptions options⟩ generation

theorem AnalysisState.Republishes.setOwner {scopes : String → Option PublicationScope}
    {edges : DependencyEdge → Prop} (h : Republishes s t scopes edges) (name : String)
    (role : RoleFact) :
    Republishes s (t.setPublicationOwner name role) scopes edges := by
  unfold setPublicationOwner
  split
  · dsimp only
    split
    · exact h.modify_kept name fun _ => rfl
    · exact (h.contents (.taint t _ _)).modify_kept name fun _ => rfl
  · exact (h.contents (.taint t _ _)).modify_kept name fun _ => rfl

theorem applyOwnerChange_applied {role : RoleFact}
    (h : s.applyAlterPublication ⟨name, .ownerChange role⟩ = (.applied, t)) :
    Republishes s t s.publicationScope fun e => e ∈ s.graph.edges := by
  obtain ⟨current, u, generation, replacement, v, hcurrent, hu, hrun, rfl, -⟩ :=
    applyAlterPublication_applied h
  obtain ⟨_, _, hmodify, hpure⟩ := exists_run_of_bind hrun
  cases hmodify
  cases hpure
  have howner := ((Republishes.refl s).contents hu).setOwner name role
  exact howner.finish ⟨name, .ownerChange role⟩ generation

theorem applyRenamePublication_applied {newName : String}
    (h : s.applyAlterPublication ⟨name, .rename newName⟩ = (.applied, t)) :
    s.publicationScope newName = none ∧ (s.publicationScope name).isSome ∧
      Republishes s t
        (fun k => if k = newName then s.publicationScope name
          else if k = name then none else s.publicationScope k)
        fun e => ∃ old, old.kind.isPublicationIncludes = true ∧ old ∈ s.graph.edges ∧
          old.renamePublication name newName = e := by
  obtain ⟨current, u, generation, replacement, v, hcurrent, hu, hrun, rfl, hnew⟩ :=
    applyAlterPublication_applied h
  cases hrun
  have hpresent : (s.publicationScope name).isSome := by rw [hcurrent]; rfl
  refine ⟨hnew newName rfl, hpresent, ?_⟩
  have hgeneration := ((Republishes.refl s).contents hu).finish
    ⟨name, .rename newName⟩ generation
  exact hgeneration.rename hpresent

theorem publicationLookup_of_scope {scope : PublicationScope}
    (h : s.publicationScope name = some scope) : s.publicationLookup name = .present := by
  obtain ⟨publication, hlookup, -⟩ := publicationScope_eq_some.mp h
  rw [publicationLookup, hlookup]

/-- Objects that a publication lists, each once, can be dropped from it. -/
theorem exists_applyDropObjects {objects removals : List PublicationObjectFact}
    (hscope : s.publicationScope name = some (.explicit objects))
    (hdistinct : Distinct s.publicationObjectKey removals)
    (hmem : ∀ removal ∈ removals,
      s.publicationObjectKey removal ∈ objects.map s.publicationObjectKey) :
    ∃ t, s.applyAlterPublication ⟨name, .dropObjects removals⟩ = (.applied, t) := by
  set alter : AlterPublication := ⟨name, .dropObjects removals⟩ with halter
  have htarget : alter.checkTarget.run.run s = (.ok (), s) := by
    have hlookup : s.publicationLookup alter.name = .present := publicationLookup_of_scope hscope
    refine (run_bind_of_ok (c := get) rfl _).trans ?_
    simp only [hlookup]
    rfl
  have haction : alter.checkAction.run.run s = (.ok (), s) := rfl
  set u := (s.snapshotPublication alter.name).bumpGeneration with hu
  have hkept : SameContents s u := (SameContents.pushUndo s _).trans (SameContents.bumpGeneration _)
  have hcurrent : ((u.presentPublication name).map (·.scope)).getD (.explicit []) =
      .explicit objects := by
    have hsame : u.publicationScope name = s.publicationScope name :=
      publicationScope_congr (congrArg _ hkept.publications)
    rw [← publicationScope, hsame, hscope]
    rfl
  set v := u.taintInheritanceSensitivePublicationScope (.explicit removals) with hv
  have hkeys : v.publicationObjectKey = s.publicationObjectKey :=
    (SameNamedObjects.of_contents (hkept.trans (sameContents_taintInheritance u _))).key
  rw [← hkeys] at hdistinct hmem
  have hremoved := removeObjects_run (s := v) alter v hdistinct hmem
  have hreplacement : (alter.replacementScope (.explicit objects)).run.run u =
      (.ok (some (.explicit ((removals.map v.publicationObjectKey).foldl
        (remove v.publicationObjectKey) objects))), v) :=
    (run_bind_of_ok (c := modify _) rfl _).trans
      ((run_bind_of_ok (c := get) rfl _).trans ((run_bind_of_ok hremoved _).trans rfl))
  refine ⟨alter.finish u.generationCounter (some (.explicit ((removals.map
    v.publicationObjectKey).foldl (remove v.publicationObjectKey) objects))) v, outcome_of_run ?_⟩
  refine (run_bind_of_ok htarget _).trans ((run_bind_of_ok haction _).trans ?_)
  refine (run_bind_of_ok (c := modify _) rfl _).trans ((run_bind_of_ok (c := get) rfl _).trans ?_)
  rw [← hcurrent] at hreplacement
  exact (run_bind_of_ok hreplacement _).trans rfl

end Alter

section Drop

variable {s t : AnalysisState} {drop : DropPublication}

theorem keeps_scanPublication {R : AnalysisState → AnalysisState → Prop} [KeepsEvidence R]
    (drop : DropPublication) (found : List String × Bool) (name : String) :
    Keeps R (drop.scanTarget found name) := by
  refine Keeps.bind Keeps.get fun s => ?_
  split
  · exact Keeps.pure _
  · refine Keeps.ite (fun _ => ?_) fun _ => keeps_leaveUnresolved _
    exact Keeps.bind (keeps_taint _ _) fun _ => Keeps.pure _
  · exact Keeps.ite (fun _ => Keeps.pure _) fun _ => keeps_refuse _

theorem declines_dropPublication (drop : DropPublication) : Declines drop.command := by
  refine Declines.bind (Throws.foldlM _ _ fun found name => ?_) fun found => ?_
  · refine Declines.bind declines_get fun s => ?_
    split
    · exact declines_pure _
    · refine Throws.ite (fun _ => ?_) fun _ => declines_leaveUnresolved _
      exact Declines.bind (declines_modify _) fun _ => declines_pure _
    · exact Throws.ite (fun _ => declines_pure _) fun _ => declines_refuse _
  · refine Declines.bind (declines_leaveUnresolvedIf _ _) fun _ => ?_
    exact Declines.bind (declines_modify _) fun _ => declines_pure _

theorem applyDropPublication_applied (h : s.applyDropPublication drop = (.applied, t)) :
    ∃ names : List String, Republishes s t (fun k => if k ∈ names then none else s.publicationScope k)
      fun e => e ∈ s.graph.edges ∧
        (!(e.kind.isPublicationIncludes && decide (e.referenced.name ∈ names))) = true := by
  obtain ⟨⟨present, unknownTarget⟩, u, hscan, hrun⟩ :=
    exists_run_of_bind (ran_of_outcome (declines_dropPublication drop) h)
  have hu : SameContents s u := by
    refine .of_check (Keeps.foldlM _ _ ?_) hscan
    exact fun found name => keeps_scanPublication drop found name
  obtain ⟨_, v, hknown, hwrite⟩ := exists_run_of_bind hrun
  obtain ⟨rfl, -⟩ := leaveUnresolvedIf_ok hknown
  obtain ⟨_, _, hmodify, hpure⟩ := exists_run_of_bind hwrite
  cases hmodify
  obtain rfl : v.dropPublications present = t := congrArg Prod.snd hpure
  exact ⟨present, ((Republishes.refl s).contents hu).drop present⟩

end Drop

end SafeMigrate
