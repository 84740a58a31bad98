import SafeMigrate.DomainCommands

/-! Which domains are over a domain, and which columns store it inside other
values, does not depend on what the catalog says of the domain itself. -/

namespace SafeMigrate

open Saturation

section Steps

variable {acc : Finset ObjectId × Bool} {entry : Sigma fun _ : ObjectId => TypeOverlay}

/-- A step does nothing, or adds a domain whose base is in the set. -/
theorem takeDomain_cases (acc : Finset ObjectId × Bool)
    (entry : Sigma fun _ : ObjectId => TypeOverlay) :
    (takeDomain acc entry = acc ∧ (entry.1 ∈ acc.1 ∨ ∀ id d base,
      TypeOverlay.domain entry.2 = some (id, d) → d.baseTypeId = some base → base ∉ acc.1)) ∨
    entry.1 ∉ acc.1 ∧ takeDomain acc entry = (insert entry.1 acc.1, true) ∧ ∃ id d base,
      TypeOverlay.domain entry.2 = some (id, d) ∧ d.baseTypeId = some base ∧ base ∈ acc.1 := by
  unfold takeDomain
  by_cases hentry : entry.1 ∈ acc.1
  · exact Or.inl ⟨if_pos hentry, Or.inl hentry⟩
  rw [if_neg hentry]
  cases hdomain : TypeOverlay.domain entry.2 with
  | none => exact Or.inl ⟨rfl, Or.inr fun id d base h => by cases h⟩
  | some found =>
    obtain ⟨id, d⟩ := found
    dsimp only
    cases hbase : d.baseTypeId with
    | none =>
      refine Or.inl ⟨rfl, Or.inr fun id' d' base h hof => ?_⟩
      cases h
      rw [hbase] at hof
      cases hof
    | some base =>
      by_cases hmem : base ∈ acc.1
      · exact Or.inr ⟨hentry, if_pos (decide_eq_true hmem), id, d, base, rfl, hbase, hmem⟩
      · refine Or.inl ⟨if_neg (by simp [hmem]), Or.inr fun id' d' base' h hof => ?_⟩
        cases h
        rw [hbase] at hof
        cases hof
        exact hmem

theorem flags_takeDomain : Flags takeDomain := by
  intro acc entry hdown
  rcases takeDomain_cases acc entry with ⟨hsame, -⟩ | ⟨-, htake, -⟩
  · exact hsame
  · rw [htake] at hdown
    cases hdown

theorem grows_takeDomain : Grows Finset.card takeDomain := by
  intro acc entry
  rcases takeDomain_cases acc entry with ⟨hsame, -⟩ | ⟨hentry, htake, -⟩
  · rw [hsame]
    exact ⟨Nat.le_refl _, Or.inl⟩
  · have hcard := Finset.card_insert_of_notMem hentry
    rw [htake]
    dsimp only
    exact ⟨by omega, fun _ => Or.inr (by omega)⟩

end Steps

namespace AnalysisState

variable {s t : AnalysisState} {domain : ObjectId}

/-- The domain itself, and what has a base among the domains over it. -/
inductive OverDomain (s : AnalysisState) (domain : ObjectId) : ObjectId → Prop
  | self : OverDomain s domain domain
  | above {id base record : ObjectId} {overlay : TypeOverlay} {d : DomainState}
      (hlookup : s.types.lookup id = some overlay)
      (hdomain : TypeOverlay.domain overlay = some (record, d))
      (hbase : d.baseTypeId = some base) (h : OverDomain s domain base) : OverDomain s domain id

/-- Some of the domains over a domain, with the domain itself. -/
structure Gathered (s : AnalysisState) (domain : ObjectId) (domains : Finset ObjectId) : Prop where
  self : domain ∈ domains
  above : ∀ id ∈ domains, s.OverDomain domain id
  within : domains ⊆ insert domain s.types.keys.toFinset

theorem Gathered.round {domains : Finset ObjectId} (h : s.Gathered domain domains) :
    s.Gathered domain (s.types.entries.foldl takeDomain (domains, false)).1 := by
  refine List.foldlRecOn (b := (domains, false))
    (motive := fun acc => s.Gathered domain acc.1) s.types.entries takeDomain h
    fun acc hacc entry hentry => ?_
  rcases takeDomain_cases acc entry with
    ⟨hsame, -⟩ | ⟨-, htake, record, d, base, hdomain, hbase, hmem⟩
  · rw [hsame]
    exact hacc
  · rw [htake]
    refine ⟨Finset.mem_insert_of_mem hacc.self, fun id hid => ?_, fun id hid => ?_⟩
    · rcases Finset.mem_insert.mp hid with rfl | hid
      · exact .above (AList.mem_lookup_iff.mpr hentry) hdomain hbase (hacc.above base hmem)
      · exact hacc.above id hid
    · rcases Finset.mem_insert.mp hid with rfl | hid
      · exact Finset.mem_insert_of_mem (List.mem_toFinset.mpr (List.mem_map_of_mem hentry))
      · exact hacc.within hid

theorem Gathered.card_le {domains : Finset ObjectId} (h : s.Gathered domain domains) :
    domains.card ≤ s.types.entries.length + 1 := by
  have hcard := Finset.card_le_card h.within
  have hinsert := Finset.card_insert_le domain s.types.keys.toFinset
  have hkeys := List.toFinset_card_le s.types.keys
  have hlength : s.types.keys.length = s.types.entries.length := List.length_map _
  omega

/-- The closure holds the domains over a domain, and no other. -/
theorem mem_domainClosure {id : ObjectId} :
    id ∈ s.domainClosure domain ↔ s.OverDomain domain id := by
  have hgrow (domains : Finset ObjectId)
      (hup : (s.types.entries.foldl takeDomain (domains, false)).2 = true) :
      domains.card < (s.types.entries.foldl takeDomain (domains, false)).1.card :=
    ((grows_takeDomain.foldl s.types.entries (domains, false)).2 hup).resolve_left
      Bool.false_ne_true
  have hstart : s.Gathered domain ⟨[domain], List.nodup_singleton domain⟩ := by
    refine ⟨List.mem_singleton_self domain, fun id hid => ?_, fun id hid => ?_⟩
    · rw [List.mem_singleton.mp hid]
      exact .self
    · exact Finset.mem_insert.mpr (Or.inl (List.mem_singleton.mp hid))
  obtain ⟨domains, hrun, hgathered, -, u, -, hround⟩ := saturate_spec
    (fun _ domains h => h.round) (fun _ domains hup => hgrow domains hup)
    (fun domains h => h.card_le) hstart (show _ < s.types.entries.length + 2 + _ by omega) (n := 0)
  have hclosure : s.domainClosure domain = domains := congrArg (Option.getD · ∅) hrun
  have hdown : (s.types.entries.foldl takeDomain (u, false)).2 = false := by rw [hround]
  obtain ⟨hsame, hfixed⟩ := flags_takeDomain.foldl s.types.entries hdown
  have hu : domains = u := by
    rw [hround] at hsame
    exact congrArg Prod.fst hsame
  rw [hclosure]
  refine ⟨hgathered.above id, fun h => ?_⟩
  induction h with
  | self => exact hgathered.self
  | @above id base record overlay d hlookup hdomain hbase _ ih =>
    by_contra hid
    rw [hu] at ih hid
    have hentry := hfixed ⟨id, overlay⟩ (AList.mem_lookup_iff.mp hlookup)
    rcases takeDomain_cases (u, false) ⟨id, overlay⟩ with ⟨-, hmem | hnone⟩ | ⟨-, htake, -⟩
    · exact hid hmem
    · exact hnone record d base hdomain hbase ih
    · rw [htake] at hentry
      exact Bool.false_ne_true (congrArg Prod.snd hentry).symm

/-- Two catalogs that differ, if at all, in a domain. -/
structure AgreeBut (domain : ObjectId) (s t : AnalysisState) : Prop where
  others : ∀ id, id ≠ domain → t.types.lookup id = s.types.lookup id
  before : s.partsOf domain = []
  after : t.partsOf domain = []

theorem AgreeBut.symm (h : AgreeBut domain s t) : AgreeBut domain t s :=
  ⟨fun id hid => (h.others id hid).symm, h.after, h.before⟩

theorem AgreeBut.overDomain (h : AgreeBut domain s t) {id : ObjectId}
    (hid : s.OverDomain domain id) : t.OverDomain domain id := by
  induction hid with
  | self => exact .self
  | @above id base record overlay d hlookup hdomain hbase _ ih =>
    by_cases heq : id = domain
    · rw [heq]
      exact .self
    · exact .above ((h.others id heq).trans hlookup) hdomain hbase ih

theorem AgreeBut.domainClosure (h : AgreeBut domain s t) :
    t.domainClosure domain = s.domainClosure domain := by
  ext id
  rw [mem_domainClosure, mem_domainClosure]
  exact ⟨h.symm.overDomain, h.overDomain⟩

theorem AgreeBut.containerFuel (h : AgreeBut domain s t) :
    t.containerFuel domain = s.containerFuel domain := by
  have hperm : (t.types.erase domain).entries.Perm (s.types.erase domain).entries := by
    refine List.lookup_ext (t.types.erase domain).nodupKeys (s.types.erase domain).nodupKeys
      fun id overlay => ?_
    show (t.types.erase domain).lookup id = some overlay ↔ (s.types.erase domain).lookup id = some overlay
    by_cases hid : id = domain
    · rw [hid, AList.lookup_erase, AList.lookup_erase]
    · rw [AList.lookup_erase_ne hid, AList.lookup_erase_ne hid, h.others id hid]
  unfold AnalysisState.containerFuel
  rw [hperm.length_eq]

theorem AgreeBut.partsOf (h : AgreeBut domain s t) (id : ObjectId) : t.partsOf id = s.partsOf id := by
  by_cases hid : id = domain
  · rw [hid, h.before, h.after]
  · unfold AnalysisState.partsOf
    rw [h.others id hid]

theorem AgreeBut.typeStoresDomain (h : AgreeBut domain s t) (domains : Finset ObjectId) (fuel : Nat)
    (id : ObjectId) (visiting : Finset ObjectId) :
    t.typeStoresDomain domains fuel id visiting = s.typeStoresDomain domains fuel id visiting := by
  induction fuel generalizing id visiting with
  | zero => rfl
  | succ fuel ih =>
    rw [AnalysisState.typeStoresDomain, AnalysisState.typeStoresDomain]
    simp only [ih, h.partsOf]

theorem AgreeBut.columnStoresDomain (h : AgreeBut domain s t) :
    t.columnStoresDomain domain = s.columnStoresDomain domain := by
  funext column
  unfold AnalysisState.columnStoresDomain
  rw [h.domainClosure, h.containerFuel]
  simp only [h.typeStoresDomain]

/-- What is said of a domain in the catalog does not matter for its containers. -/
theorem AgreeBut.containerConflict (h : AgreeBut domain s t) (hrelations : t.relations = s.relations)
    (shown : String) : t.domainContainerValidationConflict domain shown =
      s.domainContainerValidationConflict domain shown := by
  unfold domainContainerValidationConflict
  rw [hrelations, h.columnStoresDomain]

end AnalysisState

end SafeMigrate
