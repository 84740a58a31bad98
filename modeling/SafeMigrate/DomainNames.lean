import SafeMigrate.DomainContainers
import SafeMigrate.GeneratedNames
import SafeMigrate.TypeCreationFrames

/-! Names of domain constraints: which are taken once a domain is in the
catalog, and which one an unnamed clause gets. -/

namespace SafeMigrate

section FirstFree

variable {α : Type} {taken : α → Bool} {candidate : Nat → α}

/-- How far the search may go does not matter once it finds a free name. -/
theorem firstFree_eq_of_free {fuel fuel' suffix : Nat}
    (h : taken (firstFree taken candidate fuel suffix) = false)
    (h' : taken (firstFree taken candidate fuel' suffix) = false) :
    firstFree taken candidate fuel suffix = firstFree taken candidate fuel' suffix := by
  induction fuel generalizing fuel' suffix with
  | zero =>
    rw [firstFree] at h ⊢
    cases fuel' with
    | zero => rfl
    | succ fuel' => rw [firstFree, h, if_neg Bool.false_ne_true]
  | succ fuel ih =>
    cases fuel' with
    | zero =>
      have hzero : firstFree taken candidate 0 suffix = candidate suffix := rfl
      rw [hzero] at h' ⊢
      rw [firstFree, h', if_neg Bool.false_ne_true]
    | succ fuel' =>
      rw [firstFree] at h h' ⊢
      rw [firstFree]
      cases htaken : taken (candidate suffix) with
      | false => rfl
      | true =>
        simp only [htaken, if_true] at h h' ⊢
        exact ih h h'

end FirstFree

theorem DomainState.mem_constraintNames {d : DomainState} {name : String} :
    d.hasConstraintNamed name = true ↔ name ∈ d.constraintNames := by
  unfold hasConstraintNamed constraintNames
  simp only [Bool.or_eq_true, List.contains_iff_mem, beq_iff_eq, List.mem_append, Option.mem_toList]
  exact Or.comm

namespace AnalysisState

variable {s t : AnalysisState} {domain : ObjectId} {d : DomainState}

theorem domainsHaveConstraint_iff {selected : ObjectId → Bool} {name : String} :
    s.domainsHaveConstraint selected name = true ↔ ∃ key overlay record d,
      s.types.lookup key = some overlay ∧ TypeOverlay.domain overlay = some (record, d) ∧
        selected record = true ∧ d.hasConstraintNamed name = true := by
  unfold domainsHaveConstraint
  rw [List.any_eq_true]
  constructor
  · rintro ⟨⟨key, overlay⟩, hentry, hany⟩
    cases hdomain : TypeOverlay.domain overlay with
    | none => simp [hdomain] at hany
    | some found =>
      rw [hdomain, Option.any_some, Bool.and_eq_true] at hany
      exact ⟨key, overlay, found.1, found.2, AList.mem_lookup_iff.mpr hentry, hdomain, hany⟩
  · rintro ⟨key, overlay, record, d, hlookup, hdomain, hboth⟩
    refine ⟨⟨key, overlay⟩, AList.mem_lookup_iff.mp hlookup, ?_⟩
    rw [hdomain, Option.any_some, Bool.and_eq_true]
    exact hboth

/-- A generated name is free. -/
theorem allocateDomainConstraintName_free (s : AnalysisState) (domain : ObjectId) (label : String)
    (reserved : List String) :
    (decide (s.allocateDomainConstraintName domain label reserved ∈ reserved) ||
      s.namespaceConstraintNameIsTaken domain.schema
        (s.allocateDomainConstraintName domain label reserved)) = false := by
  let taken (name : String) : Bool :=
    decide (name ∈ reserved) || s.namespaceConstraintNameIsTaken domain.schema name
  have hused (name : String) (htaken : taken name = true) :
      name ∈ reserved ++ s.constraints.keys.map (·.2) ++ s.domainConstraintNames := by
    rcases Bool.or_eq_true_iff.mp htaken with hreserved | htaken
    · exact List.mem_append_left _ (List.mem_append_left _ (of_decide_eq_true hreserved))
    rcases Bool.or_eq_true_iff.mp htaken with hconstraint | hdomain
    · simp only [constraintNameIsTaken, List.any_eq_true, Bool.and_eq_true, beq_iff_eq] at hconstraint
      obtain ⟨key, hkey, -, hname⟩ := hconstraint
      exact List.mem_append_left _ (List.mem_append_right _ (List.mem_map.mpr ⟨key, hkey, hname⟩))
    · obtain ⟨key, overlay, record, d, hlookup, hof, -, hnamed⟩ := domainsHaveConstraint_iff.mp hdomain
      refine List.mem_append_right _ (List.mem_flatMap.mpr ⟨⟨key, overlay⟩,
        AList.mem_lookup_iff.mp hlookup, ?_⟩)
      rw [hof]
      exact DomainState.mem_constraintNames.mp hnamed
  have hfree : taken (firstFree taken _ (reserved.length + s.constraints.keys.length +
      s.domainConstraintNames.length) 0) = false :=
    firstFree_free (suffixed_injective domain.name none label) _ 0 _
      (fun k _ htaken => hused _ htaken) (by simp only [List.length_append, List.length_map]; omega)
  exact hfree

theorem partsOf_absent (habsent : s.typeIsPresent domain = false) : s.partsOf domain = [] := by
  unfold partsOf
  cases hlookup : s.types.lookup domain with
  | none => rfl
  | some overlay =>
    cases overlay with
    | dropped => rfl
    | present state => exact absurd rfl (CreateType.ne_of_absent habsent hlookup)

/-- `t` is `s` with the domain in its catalog, as far as `ALTER DOMAIN` looks. -/
structure Declares (s : AnalysisState) (domain : ObjectId) (d : DomainState) (t : AnalysisState) :
    Prop where
  others : ∀ id, id ≠ domain → t.types.lookup id = s.types.lookup id
  own : ∃ state : TypeState, t.types.lookup domain = some (.present state) ∧ state.id = domain ∧
    state.kind = .domain d
  relations : t.relations = s.relations
  constraints : t.constraints = s.constraints
  searchPath : t.searchPath = s.searchPath
  pgVersion : t.pgVersion = s.pgVersion

namespace Declares

variable (h : s.Declares domain d t) (habsent : s.typeIsPresent domain = false)

include h habsent

theorem domainsHaveConstraint (selected : ObjectId → Bool) (name : String) :
    t.domainsHaveConstraint selected name =
      (s.domainsHaveConstraint selected name || (selected domain && d.hasConstraintNamed name)) := by
  obtain ⟨state, hstate, hid, hkind⟩ := h.own
  have hown : TypeOverlay.domain (.present state) = some (domain, d) := by
    rw [← hid]
    unfold TypeOverlay.domain
    dsimp only
    rw [hkind]
  have hbefore {overlay : TypeOverlay} {found : ObjectId × DomainState}
      (hlookup : s.types.lookup domain = some overlay) : TypeOverlay.domain overlay ≠ some found := by
    cases overlay with
    | dropped => exact (Option.some_ne_none found).symm
    | present state => exact absurd rfl (CreateType.ne_of_absent habsent hlookup)
  rw [Bool.eq_iff_iff, Bool.or_eq_true, Bool.and_eq_true, domainsHaveConstraint_iff,
    domainsHaveConstraint_iff]
  constructor
  · rintro ⟨key, overlay, record, found, hlookup, hdomain, hboth⟩
    by_cases hkey : key = domain
    · rw [hkey, hstate] at hlookup
      cases hlookup
      rw [hown] at hdomain
      cases hdomain
      exact Or.inr hboth
    · rw [h.others key hkey] at hlookup
      exact Or.inl ⟨key, overlay, record, found, hlookup, hdomain, hboth⟩
  · rintro (⟨key, overlay, record, found, hlookup, hdomain, hboth⟩ | hboth)
    · have hkey : key ≠ domain := fun heq => hbefore (heq ▸ hlookup) hdomain
      rw [← h.others key hkey] at hlookup
      exact ⟨key, overlay, record, found, hlookup, hdomain, hboth⟩
    · exact ⟨domain, _, domain, d, hstate, hown, hboth⟩

theorem domainNameIsTaken (name : String) : t.domainConstraintNameIsTaken domain name =
    (s.domainConstraintNameIsTaken domain name || d.hasConstraintNamed name) := by
  unfold domainConstraintNameIsTaken
  rw [h.domainsHaveConstraint habsent, beq_self_eq_true, Bool.true_and]

theorem namespaceNameIsTaken (name : String) :
    t.namespaceConstraintNameIsTaken domain.schema name =
      (s.namespaceConstraintNameIsTaken domain.schema name || d.hasConstraintNamed name) := by
  unfold namespaceConstraintNameIsTaken constraintNameIsTaken
  rw [h.domainsHaveConstraint habsent, h.constraints, beq_self_eq_true, Bool.true_and,
    Bool.or_assoc]

/-- An unnamed clause gets the name it would get with the names of the domain
reserved. -/
theorem allocate (label : String)
    {reserved : List String} (hreserved : ∀ name, name ∈ reserved ↔ d.hasConstraintNamed name = true) :
    t.allocateDomainConstraintName domain label [] =
      s.allocateDomainConstraintName domain label reserved := by
  have htaken : (fun name => decide (name ∈ ([] : List String)) ||
      t.namespaceConstraintNameIsTaken domain.schema name) = fun name =>
        decide (name ∈ reserved) || s.namespaceConstraintNameIsTaken domain.schema name := by
    funext name
    rw [h.namespaceNameIsTaken habsent, Bool.or_comm (s.namespaceConstraintNameIsTaken _ name)]
    have hmem : decide (name ∈ reserved) = d.hasConstraintNamed name := by
      rw [Bool.eq_iff_iff, decide_eq_true_eq]
      exact hreserved name
    simp [hmem]
  have hfree := t.allocateDomainConstraintName_free domain label []
  have hfree' := s.allocateDomainConstraintName_free domain label reserved
  unfold allocateDomainConstraintName at hfree hfree' ⊢
  rw [htaken] at hfree ⊢
  exact firstFree_eq_of_free (congrFun htaken _ ▸ hfree) hfree'

theorem agreeBut : AgreeBut domain s t := by
  refine ⟨h.others, partsOf_absent habsent, ?_⟩
  obtain ⟨state, hstate, -, hkind⟩ := h.own
  unfold partsOf
  rw [hstate]
  dsimp only
  rw [hkind]
  rfl

theorem containerConflict (shown : String) : t.domainContainerValidationConflict domain shown =
    s.domainContainerValidationConflict domain shown :=
  (h.agreeBut habsent).containerConflict h.relations shown

end Declares

end AnalysisState

end SafeMigrate
