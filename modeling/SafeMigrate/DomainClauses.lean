import SafeMigrate.DomainNames

/-! What one `ALTER DOMAIN ... ADD` does to a domain that was just created: the
clause gets the name that it would get in the list of `CREATE DOMAIN`, but there
is more that stands in its way. -/

namespace SafeMigrate

open Command AnalysisState

namespace DomainConstraintFact

def isNotNull : DomainConstraintFact → Bool
  | .notNull _ => true
  | .check _ | .null => false

def name : DomainConstraintFact → Option String
  | .check fact => fact.name
  | .notNull given => given
  | .null => none

def label : DomainConstraintFact → String
  | .check _ => "check"
  | .notNull _ | .null => "not_null"

end DomainConstraintFact

/-- A domain with one more clause. A not-null constraint may go unrecorded. -/
def DomainState.withClause (d : DomainState) (records : Bool) (name : String) :
    DomainConstraintFact → DomainState
  | .check check => { d with constraints := d.constraints.insert name (check.state name) }
  | .notNull _ =>
    { d with notNull := true, notNullConstraint := if records then some name else none }
  | .null => d

namespace AnalysisState

variable (s : AnalysisState)

/-- The name a clause gets beside those that are reserved. -/
def clauseName (domain : ObjectId) (reserved : List String) (c : DomainConstraintFact) : String :=
  c.name.getD (s.allocateDomainConstraintName domain c.label reserved)

/-- The names reserved after a clause, where that of a not-null constraint may be
forgotten. -/
def reservedAfter (domain : ObjectId) (remembers : Bool) (reserved : List String)
    (c : DomainConstraintFact) : List String :=
  if remembers || !c.isNotNull then s.clauseName domain reserved c :: reserved else reserved

/-- Some clause asks for a name that is reserved, or that an earlier clause has. -/
def clashes (domain : ObjectId) (remembers : Bool) :
    List String → List DomainConstraintFact → Bool
  | _, [] => false
  | reserved, c :: clauses =>
    c.name.any (fun name => decide (name ∈ reserved)) ||
      clashes domain remembers (s.reservedAfter domain remembers reserved c) clauses

/-- `ALTER DOMAIN ... ADD` has a reason of its own to refuse a clause: its target is
not certain, its name is in use elsewhere, or there are values it cannot check. -/
def blocksClause (domain : ObjectRef) (c : DomainConstraintFact) : Bool :=
  let stored := (s.domainContainerValidationConflict domain.id domain.display).isSome
  s.lookupShadowed domain ||
    match c with
    | .check check =>
      check.name.any (s.domainConstraintNameIsTaken domain.id) || (!check.notValid && stored)
    | .notNull name => name.any (s.namespaceConstraintNameIsTaken domain.id.schema) || stored
    | .null => true

/-- The domain with all clauses. -/
def fileClauses (domain : ObjectId) (records : Bool) :
    List String → List DomainConstraintFact → DomainState → DomainState
  | _, [], d => d
  | reserved, c :: clauses, d =>
    fileClauses domain records (s.reservedAfter domain records reserved c) clauses
      (d.withClause records (s.clauseName domain reserved c) c)

def domainAt (domain : ObjectId) : Option DomainState :=
  ((s.types.lookup domain).bind TypeOverlay.domain).map (·.2)

end AnalysisState

/-- The state after a creation. -/
def created : MutationResult × AnalysisState → Option AnalysisState
  | (.applied, t) => some t
  | _ => none

/-- The state after a change that was made, or that was no change. -/
def succeeded : MutationResult × AnalysisState → Option AnalysisState
  | (.applied, t) => some t
  | (.noOp, t) => some t
  | _ => none

section Names

variable {d : DomainState} {records : Bool} {name other : String} {c : DomainConstraintFact}

theorem DomainState.hasConstraintNamed_withClause (hnull : c ≠ .null)
    (hfresh : c.isNotNull = true → d.notNullConstraint = none) :
    (d.withClause records name c).hasConstraintNamed other = true ↔
      ((records = true ∨ c.isNotNull = false) ∧ other = name) ∨ d.hasConstraintNamed other = true := by
  cases c with
  | null => exact absurd rfl hnull
  | check check =>
    simp only [withClause, hasConstraintNamed, Bool.or_eq_true, List.contains_iff_mem, beq_iff_eq,
      ← AList.mem_keys, AList.mem_insert, DomainConstraintFact.isNotNull, or_true, true_and, or_assoc]
  | notNull given =>
    have hnone := hfresh rfl
    cases records with
    | false => simp [withClause, hasConstraintNamed, hnone, DomainConstraintFact.isNotNull]
    | true =>
      simp only [withClause, hasConstraintNamed, hnone, if_true, Bool.or_eq_true, beq_iff_eq,
        Option.some.injEq, true_or, true_and, reduceCtorEq, or_false]
      rw [or_comm, eq_comm]

end Names

namespace AnalysisState

variable {s t u : AnalysisState} {domain : ObjectId} {d : DomainState}

theorem Declares.of_contents (h : s.Declares domain d t) (hu : SameContents t u) :
    s.Declares domain d u where
  others id hid := by rw [hu.types, h.others id hid]
  own := by rw [hu.types]; exact h.own
  relations := hu.relations.trans h.relations
  constraints := hu.constraints.trans h.constraints
  searchPath := hu.searchPath.trans h.searchPath
  pgVersion := hu.pgVersion.trans h.pgVersion

theorem Declares.modifyDomain (h : s.Declares domain d t) (f : DomainState → DomainState) :
    s.Declares domain (f d) (t.modifyDomain domain f) := by
  obtain ⟨state, hstate, hid, hkind⟩ := h.own
  have hwrite : t.modifyDomain domain f =
      t.setTypes (t.types.insert domain (.present { state with kind := .domain (f d) })) := by
    unfold AnalysisState.modifyDomain
    rw [hstate]
    dsimp only
    rw [hkind]
  rw [hwrite]
  refine ⟨fun id hne => (AList.lookup_insert_ne hne).trans (h.others id hne), ?_, h.relations,
    h.constraints, h.searchPath, h.pgVersion⟩
  exact ⟨_, AList.lookup_insert _, hid, rfl⟩

theorem Declares.domainAt (h : s.Declares domain d t) : t.domainAt domain = some d := by
  obtain ⟨state, hstate, -, hkind⟩ := h.own
  unfold AnalysisState.domainAt
  rw [hstate, Option.bind_some]
  unfold TypeOverlay.domain
  dsimp only
  rw [hkind]
  rfl

end AnalysisState

section Outcomes

variable {k : Unit → Statement MutationResult} {s : AnalysisState}

theorem outcome_get_bind (k : AnalysisState → Statement MutationResult) (s : AnalysisState) :
    (get >>= k).outcome s = (k s).outcome s := rfl

theorem outcome_refuseIf_bind {p : Prop} [Decidable p] {reason : String} :
    (refuseIf p reason >>= k).outcome s =
      if p then (.rejected reason, s) else (k ()).outcome s := by
  unfold refuseIf
  split <;> rfl

end Outcomes

namespace AnalysisState

variable {s t : AnalysisState} {domain : ObjectRef} {d : DomainState}

/-- The write of a check, behind the note that data would be scanned. -/
def writeCheck (domain : ObjectId) (check : DomainCheckFact) (name : String) (t : AnalysisState) :
    AnalysisState :=
  let t := if check.notValid then t else t.taintDomainValidationIfDataScanned domain
  (t.snapshotType domain).modifyDomain domain fun d => d.withClause true name (.check check)

theorem outcome_addNamedCheck (check : DomainCheckFact) (name : String) :
    succeeded ((addNamedCheck domain check name).outcome t) =
      if t.domainConstraintNameIsTaken domain.id name || (!check.notValid &&
          (t.domainContainerValidationConflict domain.id domain.display).isSome) then none
      else some (writeCheck domain.id check name t) := by
  unfold addNamedCheck writeCheck
  rw [outcome_get_bind, outcome_refuseIf_bind]
  cases t.domainConstraintNameIsTaken domain.id name with
  | true => rfl
  | false =>
    cases check.notValid with
    | true => rfl
    | false =>
      cases t.domainContainerValidationConflict domain.id domain.display <;> rfl

/-- The write of a not-null constraint, behind the same note. -/
def writeNotNull (domain : ObjectId) (name : String) (t : AnalysisState) : AnalysisState :=
  let t := t.taintDomainValidationIfDataScanned domain
  (t.snapshotType domain).modifyDomain domain fun d =>
    d.withClause t.recordsDomainNotNull name (.notNull none)

theorem outcome_addNamedNotNull (name : String) :
    succeeded ((addNamedNotNull domain name).outcome t) =
      if t.namespaceConstraintNameIsTaken domain.id.schema name ||
          (t.domainContainerValidationConflict domain.id domain.display).isSome then none
      else some (writeNotNull domain.id name t) := by
  unfold addNamedNotNull writeNotNull
  rw [outcome_get_bind, outcome_refuseIf_bind]
  cases t.namespaceConstraintNameIsTaken domain.id.schema name with
  | true => rfl
  | false => cases t.domainContainerValidationConflict domain.id domain.display <;> rfl

theorem Declares.succeeded_ensureDomain (h : s.Declares domain.id d t)
    (k : Unit → Statement MutationResult) :
    succeeded ((ensureDomain domain >>= k).outcome t) =
      if s.lookupShadowed domain then none else succeeded ((k ()).outcome t) := by
  obtain ⟨state, hstate, -, hkind⟩ := h.own
  have hshadowed : t.lookupShadowed domain = s.lookupShadowed domain := by
    unfold lookupShadowed pathShadows
    rw [h.searchPath]
  rw [← hshadowed]
  have hlookup (expected : TypeKind → Bool) (hexpected : expected (.domain d) = true) :
      t.typeLookup domain expected = if t.lookupShadowed domain then .unknown else .present := by
    unfold typeLookup
    rw [hstate]
    dsimp only
    rw [hkind, hexpected]
    rfl
  unfold ensureDomain
  rw [bind_assoc, outcome_get_bind]
  rw [hlookup _ rfl]
  cases t.lookupShadowed domain <;> rfl

/-- A clause's name is taken if it is the clause's own: a generated name is free. -/
theorem clauseName_taken {reserved : List String} {c : DomainConstraintFact}
    {taken : String → Bool}
    (htaken : ∀ name, taken name = true → s.namespaceConstraintNameIsTaken domain.id.schema name = true) :
    (taken (s.clauseName domain.id reserved c) ||
        decide (s.clauseName domain.id reserved c ∈ reserved)) =
      (c.name.any (fun name => decide (name ∈ reserved)) || c.name.any taken) := by
  unfold clauseName
  cases hname : c.name with
  | some name => simp [Bool.or_comm]
  | none =>
    have hfree := s.allocateDomainConstraintName_free domain.id c.label reserved
    rw [Bool.or_eq_false_iff] at hfree
    simp only [Option.getD_none, Option.any_none, Bool.or_false, hfree.1]
    rw [Bool.eq_false_iff]
    intro hused
    rw [htaken _ hused] at hfree
    exact Bool.false_ne_true hfree.2.symm

theorem namespaceNameIsTaken_of_domain {name : String}
    (h : s.domainConstraintNameIsTaken domain.id name = true) :
    s.namespaceConstraintNameIsTaken domain.id.schema name = true := by
  obtain ⟨key, overlay, record, d, hlookup, hof, hrecord, hnamed⟩ := domainsHaveConstraint_iff.mp h
  refine Bool.or_eq_true_iff.mpr (Or.inr (domainsHaveConstraint_iff.mpr
    ⟨key, overlay, record, d, hlookup, hof, ?_, hnamed⟩))
  rw [eq_of_beq hrecord]
  exact beq_self_eq_true _

/-- An added clause without a name gets the name it gets in the list. -/
theorem Declares.clauseName (h : s.Declares domain.id d t)
    (habsent : s.typeIsPresent domain.id = false) {reserved : List String}
    (hreserved : ∀ name, name ∈ reserved ↔ d.hasConstraintNamed name = true)
    (c : DomainConstraintFact) :
    t.clauseName domain.id [] c = s.clauseName domain.id reserved c := by
  unfold AnalysisState.clauseName
  rw [h.allocate habsent c.label hreserved]

theorem sameContents_taintDomainValidation (id : ObjectId) :
    SameContents t (t.taintDomainValidationIfDataScanned id) := by
  unfold taintDomainValidationIfDataScanned
  split
  · exact SameContents.taint t _ _
  · exact SameContents.refl t

theorem Declares.writeCheck (h : s.Declares domain.id d t) (check : DomainCheckFact) (name : String) :
    s.Declares domain.id (d.withClause true name (.check check))
      (writeCheck domain.id check name t) := by
  have hbefore (u : AnalysisState) (hu : SameContents t u) :
      s.Declares domain.id (d.withClause true name (.check check))
        ((u.snapshotType domain.id).modifyDomain domain.id
          fun d => d.withClause true name (.check check)) :=
    (h.of_contents (hu.trans (u.sameContents_snapshotType domain.id))).modifyDomain
      fun d => d.withClause true name (.check check)
  unfold AnalysisState.writeCheck
  dsimp only
  split
  · exact hbefore t (SameContents.refl t)
  · exact hbefore _ (sameContents_taintDomainValidation domain.id)

theorem Declares.writeNotNull (h : s.Declares domain.id d t) (name : String) (given : Option String) :
    s.Declares domain.id (d.withClause s.recordsDomainNotNull name (.notNull given))
      (writeNotNull domain.id name t) := by
  have hsame : SameContents t (t.taintDomainValidationIfDataScanned domain.id) :=
    sameContents_taintDomainValidation domain.id
  have hrecords : (t.taintDomainValidationIfDataScanned domain.id).recordsDomainNotNull =
      s.recordsDomainNotNull := by
    unfold recordsDomainNotNull
    rw [hsame.pgVersion, h.pgVersion]
  rw [← hrecords]
  exact (h.of_contents (hsame.trans (sameContents_snapshotType _ domain.id))).modifyDomain
    fun d => d.withClause _ name (.notNull given)

theorem outcome_addDomainCheck (check : DomainCheckFact) :
    (addDomainCheck domain check).outcome t =
      (addNamedCheck domain check (t.clauseName domain.id [] (.check check))).outcome t := by
  unfold addDomainCheck
  rw [outcome_get_bind]
  rfl

theorem Declares.outcome_addDomainNotNull (h : s.Declares domain.id d t) (given : Option String) :
    (addDomainNotNull domain given).outcome t =
      if d.notNull then (.noOp, t)
      else (addNamedNotNull domain (t.clauseName domain.id [] (.notNull given))).outcome t := by
  obtain ⟨state, hstate, hid, hkind⟩ := h.own
  have hfound : (t.types.lookup domain.id).bind TypeOverlay.domain = some (domain.id, d) := by
    rw [hstate, Option.bind_some, ← hid]
    unfold TypeOverlay.domain
    dsimp only
    rw [hkind]
  unfold addDomainNotNull
  rw [outcome_get_bind, hfound]
  dsimp only
  split <;> rfl

/-- One `ALTER DOMAIN ... ADD` refuses a clause whose name is reserved, or that it
has a reason of its own to refuse, and otherwise records it. -/
theorem Declares.addDomainConstraint (h : s.Declares domain.id d t)
    (habsent : s.typeIsPresent domain.id = false) {reserved : List String}
    (hreserved : ∀ name, name ∈ reserved ↔ d.hasConstraintNamed name = true)
    {c : DomainConstraintFact} (hnull : c ≠ .null) (hfresh : c.isNotNull = true → d.notNull = false) :
    if c.name.any (fun name => decide (name ∈ reserved)) || s.blocksClause domain c then
      succeeded ((addDomainConstraint domain c).outcome t) = none
    else ∃ t', succeeded ((addDomainConstraint domain c).outcome t) = some t' ∧
      s.Declares domain.id
        (d.withClause s.recordsDomainNotNull (s.clauseName domain.id reserved c) c) t' := by
  have hname := h.clauseName habsent hreserved c
  have hmem (name : String) : d.hasConstraintNamed name = decide (name ∈ reserved) := by
    rw [Bool.eq_iff_iff, decide_eq_true_eq]
    exact (hreserved name).symm
  unfold SafeMigrate.addDomainConstraint
  rw [h.succeeded_ensureDomain]
  cases hshadowed : s.lookupShadowed domain with
  | true =>
    have hblocks : s.blocksClause domain c = true := by
      unfold blocksClause
      rw [hshadowed]
      rfl
    rw [hblocks, Bool.or_true]
    rfl
  | false =>
    rw [if_neg Bool.false_ne_true]
    cases c with
    | null => exact absurd rfl hnull
    | check check =>
      have htaken : (s.domainConstraintNameIsTaken domain.id
          (s.clauseName domain.id reserved (.check check)) ||
            decide (s.clauseName domain.id reserved (.check check) ∈ reserved)) = _ :=
        clauseName_taken fun name => namespaceNameIsTaken_of_domain
      dsimp only
      rw [outcome_addDomainCheck, hname, outcome_addNamedCheck, h.domainNameIsTaken habsent, hmem,
        htaken, h.containerConflict habsent]
      unfold blocksClause
      rw [hshadowed, Bool.false_or, ← Bool.or_assoc]
      split
      case isTrue hrefused => exact if_pos hrefused
      case isFalse hrefused => exact ⟨_, if_neg hrefused, h.writeCheck check _⟩
    | notNull given =>
      have htaken : (s.namespaceConstraintNameIsTaken domain.id.schema
          (s.clauseName domain.id reserved (.notNull given)) ||
            decide (s.clauseName domain.id reserved (.notNull given) ∈ reserved)) = _ :=
        clauseName_taken fun name => id
      have hopen : d.notNull = false := hfresh rfl
      dsimp only
      rw [h.outcome_addDomainNotNull, hopen, if_neg Bool.false_ne_true, hname,
        outcome_addNamedNotNull, h.namespaceNameIsTaken habsent, hmem, htaken,
        h.containerConflict habsent]
      unfold blocksClause
      rw [hshadowed, Bool.false_or, ← Bool.or_assoc]
      split
      case isTrue hrefused => exact if_pos hrefused
      case isFalse hrefused => exact ⟨_, if_neg hrefused, h.writeNotNull _ given⟩

end AnalysisState

end SafeMigrate
