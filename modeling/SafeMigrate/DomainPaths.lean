import SafeMigrate.DomainClauses

/-! `CREATE DOMAIN` with constraint clauses, against `CREATE DOMAIN` without them
and one `ALTER DOMAIN ... ADD` for each. Clauses without a name get the same one;
what stands in their way, and what is recorded before PostgreSQL 18, differs. -/

namespace SafeMigrate

open Command AnalysisState

/-- One `ALTER DOMAIN ... ADD` after another. -/
def addAll (domain : ObjectRef) (clauses : List DomainConstraintFact) (t : AnalysisState) :
    Option AnalysisState :=
  clauses.foldlM (fun t c => succeeded ((addDomainConstraint domain c).outcome t)) t

namespace CreateDomain

variable (create : CreateDomain) (text : TypeText) (s : AnalysisState)

def bare : CreateDomain := { create with constraints := [] }

def whole : Option AnalysisState := created ((create.apply text).outcome s)

def stepwise : Option AnalysisState :=
  (created ((create.bare.apply text).outcome s)).bind (addAll create.id create.constraints)

/-- Both ways fail, or both lead to the same domain. -/
def PathsAgree : Prop :=
  (create.whole text s = none ∧ create.stepwise text s = none) ∨
    ∃ t t' d, create.whole text s = some t ∧ create.stepwise text s = some t' ∧
      t.domainAt create.id.id = some d ∧ t'.domainAt create.id.id = some d

/-- The domain's own name, base type and collation pass the checks. -/
def Creatable : Prop := ∃ collation u, (create.checkDomain text).run.run s = (.ok collation, u)

/-- Names that repeat are refused both ways; otherwise nothing is in the way of
the separate clauses, and a not-null constraint is recorded. -/
def AddsAgree : Prop :=
  if s.clashes create.id.id true [] create.constraints = true then
    s.clashes create.id.id s.recordsDomainNotNull [] create.constraints = true ∨
      create.constraints.any (s.blocksClause create.id) = true
  else
    create.constraints.any (s.blocksClause create.id) = false ∧
      (s.recordsDomainNotNull = true ∨
        create.constraints.any DomainConstraintFact.isNotNull = false)

end CreateDomain

namespace AnalysisState

variable {s t : AnalysisState} {domain : ObjectRef} {d : DomainState} {reserved : List String}

/-- At most one clause is a not-null constraint, and none if the domain has one. -/
def FewNotNulls (clauses : List DomainConstraintFact) (notNull : Bool) : Prop :=
  clauses.countP DomainConstraintFact.isNotNull + notNull.toNat ≤ 1

theorem FewNotNulls.tail {c : DomainConstraintFact} {clauses : List DomainConstraintFact}
    {notNull : Bool} (h : FewNotNulls (c :: clauses) notNull) :
    (c.isNotNull = true → notNull = false) ∧ FewNotNulls clauses (notNull || c.isNotNull) := by
  unfold FewNotNulls at h ⊢
  rw [List.countP_cons] at h
  cases hc : c.isNotNull with
  | false =>
    rw [hc, if_neg Bool.false_ne_true] at h
    rw [Bool.or_false]
    exact ⟨fun hno => absurd hno Bool.false_ne_true, h⟩
  | true =>
    rw [hc, if_pos rfl] at h
    cases notNull with
    | true => simp at h
    | false => exact ⟨fun _ => rfl, h⟩

theorem withClause_notNull (records : Bool) (name : String) (c : DomainConstraintFact) :
    (d.withClause records name c).notNull = (d.notNull || c.isNotNull) := by
  cases c with
  | check _ => exact (Bool.or_false _).symm
  | notNull _ => exact (Bool.or_true _).symm
  | null => exact (Bool.or_false _).symm

theorem withClause_open (records : Bool) (name : String) (c : DomainConstraintFact)
    (hopen : d.notNull = false → d.notNullConstraint = none)
    (hstill : (d.withClause records name c).notNull = false) :
    (d.withClause records name c).notNullConstraint = none := by
  rw [withClause_notNull, Bool.or_eq_false_iff] at hstill
  cases c with
  | check _ => exact hopen hstill.1
  | notNull _ => exact absurd hstill.2.symm Bool.false_ne_true
  | null => exact hopen hstill.1

/-- The names reserved are those of the domain, after a clause as before. -/
theorem mem_reservedAfter {records : Bool} {c : DomainConstraintFact} (hnull : c ≠ .null)
    (hfresh : c.isNotNull = true → d.notNullConstraint = none)
    (hreserved : ∀ name, name ∈ reserved ↔ d.hasConstraintNamed name = true) (name : String) :
    name ∈ s.reservedAfter domain.id records reserved c ↔
      (d.withClause records (s.clauseName domain.id reserved c) c).hasConstraintNamed name = true := by
  rw [DomainState.hasConstraintNamed_withClause hnull hfresh, ← hreserved]
  unfold reservedAfter
  cases records <;> cases c.isNotNull <;> simp

theorem Declares.addAll (habsent : s.typeIsPresent domain.id = false)
    (clauses : List DomainConstraintFact) (hnull : ∀ c ∈ clauses, c ≠ .null)
    (h : s.Declares domain.id d t) (hfew : FewNotNulls clauses d.notNull)
    (hopen : d.notNull = false → d.notNullConstraint = none)
    (hreserved : ∀ name, name ∈ reserved ↔ d.hasConstraintNamed name = true) :
    if s.clashes domain.id s.recordsDomainNotNull reserved clauses ||
        clauses.any (s.blocksClause domain) then
      SafeMigrate.addAll domain clauses t = none
    else ∃ t', SafeMigrate.addAll domain clauses t = some t' ∧ s.Declares domain.id
      (s.fileClauses domain.id s.recordsDomainNotNull reserved clauses d) t' := by
  induction clauses generalizing t d reserved with
  | nil => exact ⟨t, rfl, h⟩
  | cons c clauses ih =>
    obtain ⟨hfresh, hfew⟩ := hfew.tail
    have hc := hnull c List.mem_cons_self
    have hstep := h.addDomainConstraint habsent hreserved hc hfresh
    have hany : (s.clashes domain.id s.recordsDomainNotNull reserved (c :: clauses) ||
        (c :: clauses).any (s.blocksClause domain)) =
          ((c.name.any (fun name => decide (name ∈ reserved)) || s.blocksClause domain c) ||
            (s.clashes domain.id s.recordsDomainNotNull
              (s.reservedAfter domain.id s.recordsDomainNotNull reserved c) clauses ||
                clauses.any (s.blocksClause domain))) := by
      rw [clashes, List.any_cons]
      simp only [Bool.or_assoc, Bool.or_left_comm]
    have hadd : SafeMigrate.addAll domain (c :: clauses) t =
        (succeeded ((SafeMigrate.addDomainConstraint domain c).outcome t)).bind
          (SafeMigrate.addAll domain clauses) := List.foldlM_cons ..
    rw [hany, hadd]
    cases hrefused : c.name.any (fun name => decide (name ∈ reserved)) || s.blocksClause domain c with
    | true =>
      rw [hrefused, if_pos rfl] at hstep
      rw [Bool.true_or, if_pos rfl, hstep]
      rfl
    | false =>
      rw [hrefused, if_neg Bool.false_ne_true] at hstep
      obtain ⟨t', hsucceeded, h'⟩ := hstep
      rw [Bool.false_or, hsucceeded]
      refine ih (fun c hmem => hnull c (List.mem_cons_of_mem _ hmem)) h' ?_
        (withClause_open _ _ c hopen) (mem_reservedAfter hc (fun hn => hopen (hfresh hn)) hreserved)
      rw [withClause_notNull]
      exact hfew

theorem reservedAfter_eq (records : Bool) {c : DomainConstraintFact} (h : c.isNotNull = false) :
    s.reservedAfter domain.id records reserved c = s.reservedAfter domain.id true reserved c := by
  unfold reservedAfter
  rw [h, Bool.not_false, Bool.or_true, Bool.or_true]

/-- Where there is no not-null constraint, it does not matter whether they are
recorded. -/
theorem fileClauses_eq (records : Bool) (clauses : List DomainConstraintFact)
    (h : clauses.any DomainConstraintFact.isNotNull = false) :
    s.fileClauses domain.id records reserved clauses d =
      s.fileClauses domain.id true reserved clauses d := by
  induction clauses generalizing reserved d with
  | nil => rfl
  | cons c clauses ih =>
    rw [List.any_cons, Bool.or_eq_false_iff] at h
    have hclause (name : String) : d.withClause records name c = d.withClause true name c := by
      cases c with
      | check _ => rfl
      | notNull _ => exact absurd h.1.symm Bool.false_ne_true
      | null => rfl
    rw [fileClauses, fileClauses, reservedAfter_eq records h.1, hclause]
    exact ih h.2

theorem clashes_eq (records : Bool) (clauses : List DomainConstraintFact)
    (h : clauses.any DomainConstraintFact.isNotNull = false) :
    s.clashes domain.id records reserved clauses = s.clashes domain.id true reserved clauses := by
  induction clauses generalizing reserved with
  | nil => rfl
  | cons c clauses ih =>
    rw [List.any_cons, Bool.or_eq_false_iff] at h
    rw [clashes, clashes, reservedAfter_eq records h.1, ih h.2]

/-- The catalog counts only for the generated names. -/
theorem clashes_congr (h : t.allocateDomainConstraintName = s.allocateDomainConstraintName)
    {id : ObjectId} {records : Bool} (clauses : List DomainConstraintFact) :
    t.clashes id records reserved clauses = s.clashes id records reserved clauses := by
  induction clauses generalizing reserved with
  | nil => rfl
  | cons c clauses ih =>
    rw [clashes, clashes, ih]
    unfold reservedAfter clauseName
    rw [h]

theorem fileClauses_recorded (clauses : List DomainConstraintFact)
    (h : (d.notNullConstraint.isSome || clauses.any DomainConstraintFact.isNotNull) = true) :
    (s.fileClauses domain.id true reserved clauses d).notNullConstraint.isSome = true := by
  induction clauses generalizing reserved d with
  | nil => rwa [List.any_nil, Bool.or_false] at h
  | cons c clauses ih =>
    rw [fileClauses]
    apply ih
    rw [List.any_cons] at h
    cases c with
    | check _ => exact h
    | notNull _ => rfl
    | null => exact h

theorem fileClauses_unrecorded (clauses : List DomainConstraintFact)
    (h : d.notNullConstraint = none) :
    (s.fileClauses domain.id false reserved clauses d).notNullConstraint = none := by
  induction clauses generalizing reserved d with
  | nil => exact h
  | cons c clauses ih =>
    rw [fileClauses]
    apply ih
    cases c with
    | check _ => exact h
    | notNull _ => rfl
    | null => exact h

end AnalysisState

namespace CreateDomain

variable {create : CreateDomain} {text : TypeText} {s t : AnalysisState}

theorem reserveName_eq (name : Option String) (label : String) (reserved : List String) :
    create.reserveName s name label reserved =
      if name.any (fun name => decide (name ∈ reserved)) then
        .error (create.nameInUse (name.getD ""))
      else .ok (name.getD (s.allocateDomainConstraintName create.id.id label reserved)) := by
  cases name with
  | none => rfl
  | some name =>
    unfold reserveName
    by_cases hmem : name ∈ reserved <;> simp [hmem]

variable (create text) in
/-- The loop refuses a clause whose name is reserved, and collects any other. -/
theorem addClause_step {acc : Clauses} {c : DomainConstraintFact} (hnull : c ≠ .null)
    (hsaw : acc.sawNull = false) (hfresh : c.isNotNull = true → acc.notNullConstraint = none) :
    if c.name.any fun name => decide (name ∈ acc.reserved) then
      ∃ reason, create.addClause s acc c = .error reason
    else ∃ acc', create.addClause s acc c = .ok acc' ∧ acc'.sawNull = false ∧
      acc'.reserved = s.reservedAfter create.id.id true acc.reserved c ∧
        ∀ u collation, create.domainState text u collation acc' =
          (create.domainState text u collation acc).withClause true
            (s.clauseName create.id.id acc.reserved c) c := by
  cases c with
  | null => exact absurd rfl hnull
  | check check =>
    rw [addClause, reserveName_eq]
    simp only [DomainConstraintFact.name]
    split
    · exact ⟨_, rfl⟩
    · exact ⟨_, rfl, hsaw, rfl, fun _ _ => rfl⟩
  | notNull name =>
    rw [addClause, hfresh rfl, hsaw, Option.isSome_none, if_neg Bool.false_ne_true, if_neg Bool.false_ne_true,
      reserveName_eq]
    simp only [DomainConstraintFact.name]
    split
    · exact ⟨_, rfl⟩
    · exact ⟨_, rfl, rfl, rfl, fun _ _ => rfl⟩

variable (create text) in
theorem addClauses (clauses : List DomainConstraintFact) (hnull : ∀ c ∈ clauses, c ≠ .null)
    {acc : Clauses} (hsaw : acc.sawNull = false)
    (hfew : FewNotNulls clauses acc.notNullConstraint.isSome) :
    if s.clashes create.id.id true acc.reserved clauses then
      ∃ reason, clauses.foldlM (create.addClause s) acc = .error reason
    else ∃ acc', clauses.foldlM (create.addClause s) acc = .ok acc' ∧
      ∀ u collation, create.domainState text u collation acc' =
        s.fileClauses create.id.id true acc.reserved clauses
          (create.domainState text u collation acc) := by
  induction clauses generalizing acc with
  | nil => exact ⟨acc, rfl, fun _ _ => rfl⟩
  | cons c clauses ih =>
    obtain ⟨hfresh, hfew⟩ := hfew.tail
    have hc := hnull c List.mem_cons_self
    have hstep := create.addClause_step text (s := s) hc hsaw fun hn =>
      Option.isNone_iff_eq_none.mp (by rw [← Option.not_isSome, hfresh hn]; rfl)
    rw [clashes, List.foldlM_cons]
    cases hused : c.name.any fun name => decide (name ∈ acc.reserved) with
    | true =>
      rw [hused, if_pos rfl] at hstep
      obtain ⟨reason, herror⟩ := hstep
      rw [Bool.true_or, if_pos rfl, herror]
      exact ⟨reason, rfl⟩
    | false =>
      rw [hused, if_neg Bool.false_ne_true] at hstep
      obtain ⟨acc', hok, hsaw', hreserved, hstate⟩ := hstep
      have hnotNull : acc'.notNullConstraint.isSome =
          (acc.notNullConstraint.isSome || c.isNotNull) := by
        have hfiled := congrArg DomainState.notNull (hstate s (none, none))
        rwa [withClause_notNull] at hfiled
      rw [← hnotNull] at hfew
      have hrest := ih (fun c hmem => hnull c (List.mem_cons_of_mem _ hmem)) hsaw' hfew
      rw [hreserved] at hrest
      rw [Bool.false_or, hok]
      split
      case isTrue hclash =>
        rw [if_pos hclash] at hrest
        exact hrest
      case isFalse hclash =>
        rw [if_neg hclash] at hrest
        obtain ⟨last, hlast, hfiled⟩ := hrest
        refine ⟨last, hlast, fun u collation => ?_⟩
        rw [hfiled, hstate]
        rfl

theorem keeps_checkDomain {R : AnalysisState → AnalysisState → Prop} [KeepsEvidence R] :
    Keeps R (create.checkDomain text) :=
  Keeps.bind (keeps_ensureCreationTarget _) fun _ => Keeps.bind Keeps.get fun _ =>
    Keeps.bind (keeps_refuseIf _ _) fun _ => Keeps.bind (keeps_checkDeclaredType _ _) fun _ =>
      keeps_resolveCollation _ _ _

theorem declines_checkDomain : Declines (create.checkDomain text) :=
  Declines.bind (declines_ensureCreationTarget _) fun _ => Declines.bind declines_get fun _ =>
    Declines.bind (declines_refuseIf _ _) fun _ =>
      Declines.bind (declines_checkDeclaredType _ _) fun _ => declines_resolveCollation _ _ _

variable {u : AnalysisState} {d : DomainState} {collation : CollationPair}

variable (create) in
theorem created_unchecked {answer : MutationResult}
    (h : (create.checkDomain text).run.run s = (.error answer, u)) :
    created ((create.apply text).outcome s) = none := by
  have hanswer : answer ≠ .applied := declines_checkDomain s _ _ h
  have hrun : (create.apply text).run.run s = (.error answer, u) := by
    unfold apply
    rw [run_bind, h]
  unfold outcome
  rw [hrun]
  cases answer with
  | applied => exact absurd rfl hanswer
  | _ => rfl

variable (create) in
/-- Behind the checks, the creation depends on the loop over the clauses only. -/
theorem created_checked (h : (create.checkDomain text).run.run s = (.ok collation, u)) :
    created ((create.apply text).outcome s) =
      (create.constraints.foldlM (create.addClause u) {}).toOption.map fun clauses =>
        create.install text collation clauses (create.taintUnprovenDefault text u) := by
  have hget : (get : Statement AnalysisState).run.run u = (.ok u, u) := rfl
  unfold outcome apply
  rw [run_bind_of_ok h, run_bind_of_ok hget]
  cases create.constraints.foldlM (create.addClause u) {} <;> rfl

theorem sameContents_taintUnprovenDefault : SameContents s (create.taintUnprovenDefault text s) := by
  unfold taintUnprovenDefault
  split
  · split
    · exact SameContents.refl s
    · exact SameContents.taint s _ _
  · exact SameContents.refl s

theorem declares_install (clauses : Clauses) (hu : SameContents s u) :
    s.Declares create.id.id (create.domainState text u collation clauses)
      (create.install text collation clauses u) := by
  have hsame : SameContents s (u.snapshotType create.id.id).bumpGeneration :=
    hu.trans (u.sameContents_newGeneration create.id.id)
  refine ⟨fun id hid => ?_, ?_, hsame.relations, hsame.constraints,
    hsame.searchPath, hsame.pgVersion⟩
  · rw [← hsame.types]
    exact AList.lookup_insert_ne hid
  · exact ⟨_, AList.lookup_insert _, rfl, rfl⟩

theorem absent_of_checked (h : (create.checkDomain text).run.run s = (.ok collation, u)) :
    SameContents s u ∧ u.typeIsPresent create.id.id = false := by
  have hu : SameContents s u := SameContents.of_check keeps_checkDomain h
  refine ⟨hu, ?_⟩
  obtain ⟨_, v, htarget, hrun⟩ := exists_run_of_bind h
  have hv : SameContents s v := SameContents.of_check (keeps_ensureCreationTarget _) htarget
  obtain ⟨_, _, hget, hfree⟩ := exists_run_of_bind hrun
  cases hget
  obtain ⟨_, w, hrefuse, -⟩ := exists_run_of_bind hfree
  obtain ⟨-, hfree⟩ := refuseIf_ok hrefuse
  have hparts := Bool.or_eq_false_iff.mp (Bool.eq_false_iff.mpr hfree)
  rw [hu.typeIsPresent create.id.id, ← hv.typeIsPresent create.id.id]
  exact hparts.2

/-- The two domains are the same exactly when a not-null constraint, if there is
one, is recorded. -/
theorem fileClauses_agree (hopen : d.notNullConstraint = none) :
    u.fileClauses create.id.id true [] create.constraints d =
        u.fileClauses create.id.id u.recordsDomainNotNull [] create.constraints d ↔
      u.recordsDomainNotNull = true ∨
        create.constraints.any DomainConstraintFact.isNotNull = false := by
  cases hrecords : u.recordsDomainNotNull with
  | true => exact ⟨fun _ => Or.inl rfl, fun _ => rfl⟩
  | false =>
    constructor
    · intro hsame
      by_contra hboth
      have hany : create.constraints.any DomainConstraintFact.isNotNull = true := by
        simpa using hboth
      have hrecorded : (u.fileClauses create.id.id true [] create.constraints
          d).notNullConstraint.isSome = true :=
        fileClauses_recorded create.constraints (by rw [hany, Bool.or_true])
      rw [hsame, fileClauses_unrecorded create.constraints hopen] at hrecorded
      exact Bool.false_ne_true hrecorded
    · rintro (htrue | hnone)
      · exact absurd htrue Bool.false_ne_true
      · exact (fileClauses_eq false create.constraints hnone).symm

/-- What the two ways do behind the checks. -/
theorem pathsAgree_of_checked (hnull : ∀ c ∈ create.constraints, c ≠ .null)
    (hfew : create.constraints.countP DomainConstraintFact.isNotNull ≤ 1)
    (h : (create.checkDomain text).run.run s = (.ok collation, u)) :
    create.PathsAgree text s ↔ create.AddsAgree u := by
  let v := create.taintUnprovenDefault text u
  let d := create.domainState text v collation {}
  have hv : SameContents u v := sameContents_taintUnprovenDefault
  have hbare : create.stepwise text s =
      addAll create.id create.constraints (create.install text collation {} v) := by
    unfold stepwise
    rw [create.bare.created_checked h]
    rfl
  have hwhole : create.whole text s = _ := create.created_checked h
  have hloop := create.addClauses text (s := u) create.constraints hnull
    (show ({} : Clauses).sawNull = false from rfl) hfew
  have hdeclares : u.Declares create.id.id d (create.install text collation {} v) :=
    declares_install {} hv
  have hreserved (name : String) : name ∈ ([] : List String) ↔ d.hasConstraintNamed name = true := by
    simp [d, domainState, DomainState.hasConstraintNamed]
  have hadds := hdeclares.addAll (absent_of_checked h).2 create.constraints hnull hfew (fun _ => rfl)
    hreserved
  rw [← hbare] at hadds
  unfold PathsAgree AddsAgree
  split
  case isTrue hclash =>
    rw [if_pos hclash] at hloop
    obtain ⟨reason, herror⟩ := hloop
    rw [herror] at hwhole
    replace hwhole : create.whole text s = none := hwhole
    rw [hwhole]
    cases hrefused : u.clashes create.id.id u.recordsDomainNotNull [] create.constraints ||
        create.constraints.any (u.blocksClause create.id) with
    | true =>
      rw [hrefused, if_pos rfl] at hadds
      exact ⟨fun _ => Bool.or_eq_true_iff.mp hrefused, fun _ => Or.inl ⟨rfl, hadds⟩⟩
    | false =>
      rw [hrefused, if_neg Bool.false_ne_true] at hadds
      obtain ⟨t', ht', -⟩ := hadds
      constructor
      · rintro (⟨-, hnone⟩ | ⟨_, _, _, hsome, -⟩)
        · rw [ht'] at hnone
          cases hnone
        · cases hsome
      · intro hboth
        rw [Bool.or_eq_true_iff.mpr hboth] at hrefused
        cases hrefused
  case isFalse hclash =>
    rw [if_neg hclash] at hloop
    obtain ⟨acc, hacc, hfiled⟩ := hloop
    rw [hacc] at hwhole
    replace hwhole : create.whole text s = some (create.install text collation acc v) := hwhole
    have hfirst : (create.install text collation acc v).domainAt create.id.id =
        some (u.fileClauses create.id.id true [] create.constraints d) := by
      rw [(declares_install acc hv).domainAt, hfiled]
    rw [hwhole]
    cases hrefused : u.clashes create.id.id u.recordsDomainNotNull [] create.constraints ||
        create.constraints.any (u.blocksClause create.id) with
    | true =>
      rw [hrefused, if_pos rfl] at hadds
      rw [hadds]
      constructor
      · rintro (⟨hnone, -⟩ | ⟨_, _, _, -, hsome, -⟩)
        · cases hnone
        · cases hsome
      · rintro ⟨hblocks, hrecorded⟩
        rw [hblocks, Bool.or_false] at hrefused
        rcases hrecorded with hrecords | hnone
        · rw [hrecords] at hrefused
          exact absurd hrefused hclash
        · rw [clashes_eq _ _ hnone] at hrefused
          exact absurd hrefused hclash
    | false =>
      rw [hrefused, if_neg Bool.false_ne_true] at hadds
      obtain ⟨t', ht', hdeclares⟩ := hadds
      rw [ht', (Bool.or_eq_false_iff.mp hrefused).2, ← fileClauses_agree (d := d) rfl]
      constructor
      · rintro (⟨hnone, -⟩ | ⟨_, _, last, hsome, hsome', hlast, hlast'⟩)
        · cases hnone
        · cases hsome
          cases hsome'
          rw [hfirst] at hlast
          rw [hdeclares.domainAt] at hlast'
          exact ⟨rfl, Option.some.inj (hlast.trans hlast'.symm)⟩
      · rintro ⟨-, hsame⟩
        refine Or.inr ⟨_, _, _, rfl, rfl, hfirst, ?_⟩
        rw [hdeclares.domainAt, hsame]

theorem addsAgree_congr (hu : SameContents s u) (habsent : u.typeIsPresent create.id.id = false) :
    create.AddsAgree u ↔ create.AddsAgree s := by
  have hrecords : u.recordsDomainNotNull = s.recordsDomainNotNull :=
    hu.reads (·.recordsDomainNotNull) fun _ => rfl
  have hnames : u.allocateDomainConstraintName = s.allocateDomainConstraintName :=
    hu.reads (·.allocateDomainConstraintName) fun _ => rfl
  have hparts : s.partsOf create.id.id = [] := by
    rw [← partsOf_absent habsent, hu.reads (·.partsOf create.id.id) fun _ => rfl]
  have hsame : AgreeBut create.id.id s u :=
    ⟨fun id _ => by rw [hu.types], hparts, partsOf_absent habsent⟩
  have hblocks : u.blocksClause create.id = s.blocksClause create.id := by
    funext c
    unfold blocksClause
    rw [hsame.containerConflict hu.relations,
      hu.reads (·.lookupShadowed create.id) fun _ => rfl,
      hu.reads (·.domainConstraintNameIsTaken create.id.id) fun _ => rfl,
      hu.reads (·.namespaceConstraintNameIsTaken create.id.id.schema) fun _ => rfl]
  unfold AddsAgree
  rw [clashes_congr hnames, hrecords, hblocks, clashes_congr hnames]

/-- The two ways agree exactly if the domain cannot be created at all, or the
separate clauses meet the same obstacles and a not-null constraint is recorded. -/
theorem pathsAgree_iff (hnull : ∀ c ∈ create.constraints, c ≠ .null)
    (hfew : create.constraints.countP DomainConstraintFact.isNotNull ≤ 1) :
    create.PathsAgree text s ↔ (create.Creatable text s → create.AddsAgree s) := by
  rcases hchecked : (create.checkDomain text).run.run s with ⟨answer | collation, u⟩
  · have hwhole : create.whole text s = none := create.created_unchecked hchecked
    have hstepwise : create.stepwise text s = none := by
      unfold stepwise
      rw [create.bare.created_unchecked hchecked]
      rfl
    refine ⟨fun _ hcreatable => ?_, fun _ => Or.inl ⟨hwhole, hstepwise⟩⟩
    obtain ⟨collation, v, hok⟩ := hcreatable
    rw [hchecked] at hok
    cases hok
  · obtain ⟨hu, habsent⟩ := absent_of_checked hchecked
    rw [pathsAgree_of_checked hnull hfew hchecked, addsAgree_congr hu habsent]
    exact ⟨fun hagree _ => hagree, fun hagree => hagree ⟨collation, u, hchecked⟩⟩

end CreateDomain

section Sample

/-- `CREATE DOMAIN app.quantity AS integer CHECK (VALUE > 0) NOT NULL`. -/
def quantity : CreateDomain where
  id := ⟨⟨"app", "quantity"⟩, false⟩
  baseType := "integer"
  collation := none
  default := none
  constraints := [
    .check { name := none
             expression := .binaryOp (.columnRef "value") ">" (.literal "0")
             expressionText := "VALUE > 0"
             definition := "CHECK (VALUE > 0)"
             notValid := false },
    .notNull none]

/-- A server of this version, with one schema. -/
def serverAt (version : Nat) : AnalysisState where
  schemas := AList.singleton "app" (.present ⟨"app", ⟨"", "owner"⟩, 0⟩)
  pgVersionNum := some version

theorem quantity_agrees : quantity.PathsAgree builtinText (serverAt 180000) :=
  (CreateDomain.pathsAgree_iff (by simp [quantity]) (by decide +kernel)).mpr fun _ => by
    unfold CreateDomain.AddsAgree
    decide +kernel

theorem quantity_differs : ¬ quantity.PathsAgree builtinText (serverAt 170000) := by
  have hchecked : (quantity.checkDomain builtinText).run.run (serverAt 170000) =
      (.ok (none, none), serverAt 170000) := rfl
  rw [CreateDomain.pathsAgree_of_checked (by simp [quantity]) (by decide +kernel) hchecked]
  unfold CreateDomain.AddsAgree
  decide +kernel

end Sample

end SafeMigrate
