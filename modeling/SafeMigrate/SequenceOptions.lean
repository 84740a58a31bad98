import SafeMigrate.SequenceBounds

/-! Options with different names are independent of each other, so that their
order in a statement decides nothing. -/

namespace SafeMigrate

/-- Steps that commute in pairs end in the same place in every order. -/
theorem foldlM_eq_of_perm {α β : Type} {f : β → α → Option β} {l l' : List α} (hperm : l.Perm l')
    (hcomm : l.Pairwise fun x y => ∀ b, ((f b x).bind fun b => f b y) = (f b y).bind fun b => f b x)
    (b : β) : l.foldlM f b = l'.foldlM f b := by
  induction hperm generalizing b with
  | nil => rfl
  | cons x _ ih =>
    rw [List.foldlM_cons, List.foldlM_cons]
    exact bind_congr fun b => ih (List.pairwise_cons.mp hcomm).2 b
  | swap x y l =>
    have hxy := (List.pairwise_cons.mp hcomm).1 x List.mem_cons_self
    simp only [List.foldlM_cons, Option.bind_eq_bind, ← Option.bind_assoc]
    rw [hxy]
  | trans hleft _ ih₁ ih₂ =>
    have hsymm : ∀ x y, (∀ b, ((f b x).bind fun b => f b y) = (f b y).bind fun b => f b x) →
        ∀ b, ((f b y).bind fun b => f b x) = (f b x).bind fun b => f b y :=
      fun x y h b => (h b).symm
    exact (ih₁ hcomm b).trans (ih₂ ((hleft.pairwise_iff @hsymm).mp hcomm) b)

/-- A part that at most one element of a list has is found in every order. -/
theorem findSome?_eq_of_perm {α β : Type} {f : α → Option β} {l l' : List α} (hperm : l.Perm l')
    (honce : l.Pairwise fun x y => f x = none ∨ f y = none) : l.findSome? f = l'.findSome? f := by
  induction hperm with
  | nil => rfl
  | cons x _ ih => rw [List.findSome?_cons, List.findSome?_cons, ih (List.pairwise_cons.mp honce).2]
  | swap x y l =>
    have hxy := (List.pairwise_cons.mp honce).1 x List.mem_cons_self
    simp only [List.findSome?_cons]
    rcases hxy with hnone | hnone
    · rw [hnone]
    · rw [hnone]
  | trans hleft _ ih₁ ih₂ =>
    exact (ih₁ honce).trans (ih₂ ((hleft.pairwise_iff fun h => h.symm).mp honce))

namespace SequenceClause

theorem bind_map_comm {α β γ : Type} (a : Option α) (b : Option β) (f : α → β → γ) :
    (a.bind fun x => b.map fun y => f x y) = b.bind fun y => a.map fun x => f x y := by
  cases a <;> cases b <;> rfl

theorem bind_some_comp {α β : Type} (a : Option α) (f : α → β) :
    (a.bind fun x => some (f x)) = a.map f := by
  cases a <;> rfl

theorem extract_comm {x y : SequenceClause} (h : x.name ≠ y.name) (r : IdentitySequenceOptions) :
    ((extract r x).bind fun r => extract r y) = (extract r y).bind fun r => extract r x := by
  cases x <;> cases y <;> first
    | exact absurd rfl h
    | rfl
    | (simp only [extract, Option.bind_map, Option.bind_some, Function.comp_def,
         Option.bind_fun_none]
       first
         | rfl
         | exact bind_map_comm _ _ _
         | exact bind_some_comp _ _
         | exact (bind_some_comp _ _).symm)

theorem owner_eq_none {x y : SequenceClause} (h : x.name ≠ y.name) :
    x.owner = none ∨ y.owner = none := by
  cases x with
  | ownedBy owner =>
    cases y with
    | ownedBy other => exact absurd rfl h
    | _ => exact .inr rfl
  | _ => exact .inl rfl

/-- A clause that is understood leaves 64-bit values in its options. -/
theorem inRange_extract {r r' : IdentitySequenceOptions} (hr : r.InRange) {x : SequenceClause}
    (h : extract r x = some r') : r'.InRange := by
  cases x with
  | increment expr =>
    obtain ⟨n, hn, rfl⟩ := Option.map_eq_some_iff.mp h
    obtain ⟨text, -, hparse⟩ := Option.bind_eq_some_iff.mp hn
    refine ⟨fun m hm => ?_, hr.cache⟩
    cases hm
    exact isI64_of_parseI64 hparse
  | cache expr =>
    obtain ⟨n, hn, rfl⟩ := Option.map_eq_some_iff.mp h
    obtain ⟨text, -, hparse⟩ := Option.bind_eq_some_iff.mp hn
    refine ⟨hr.increment, fun m hm => ?_⟩
    cases hm
    exact isI64_of_parseI64 hparse
  | asType _ | maxValue _ | minValue _ | start _ | sequenceName _ =>
    obtain ⟨n, -, rfl⟩ := Option.map_eq_some_iff.mp h
    exact ⟨hr.increment, hr.cache⟩
  | cycle | noCycle | noMaxValue | noMinValue | logged | unlogged | ownedBy _ =>
    cases h
    exact ⟨hr.increment, hr.cache⟩
  | restart => cases h

end SequenceClause

section Clauses

variable {clauses clauses' : List SequenceClause}

theorem inRange_extractSequenceOptions {options : IdentitySequenceOptions}
    (h : extractSequenceOptions clauses = some options) : options.InRange := by
  have hgeneral : ∀ (clauses : List SequenceClause) (r : IdentitySequenceOptions), r.InRange →
      clauses.foldlM SequenceClause.extract r = some options → options.InRange := by
    intro clauses
    induction clauses with
    | nil =>
      intro r hr h
      cases h
      exact hr
    | cons x clauses ih =>
      intro r hr h
      rw [List.foldlM_cons] at h
      obtain ⟨r', hx, h⟩ := Option.bind_eq_some_iff.mp h
      exact ih r' (SequenceClause.inRange_extract hr hx) h
  refine hgeneral clauses {} ⟨fun n hn => ?_, fun n hn => ?_⟩ h
  · cases hn
  · cases hn

theorem pairwise_name_ne {α : Type} {name : α → String} {l : List α} (h : (l.map name).Nodup) :
    l.Pairwise fun x y => name x ≠ name y := List.pairwise_map.mp h

theorem extractSequenceOptions_eq_of_perm (hperm : clauses.Perm clauses')
    (hdistinct : (clauses.map SequenceClause.name).Nodup) :
    extractSequenceOptions clauses = extractSequenceOptions clauses' :=
  foldlM_eq_of_perm hperm
    ((pairwise_name_ne hdistinct).imp fun h => SequenceClause.extract_comm h) {}

theorem CreateSequence.ofClauses_eq_of_perm (hperm : clauses.Perm clauses')
    (hdistinct : (clauses.map SequenceClause.name).Nodup) (id : ObjectRef) (ifNotExists : Bool)
    (persistence : SequencePersistence) :
    ofClauses id ifNotExists persistence clauses = ofClauses id ifNotExists persistence clauses' := by
  have howner : clauses.findSome? SequenceClause.owner = clauses'.findSome? SequenceClause.owner :=
    findSome?_eq_of_perm hperm
      ((pairwise_name_ne hdistinct).imp fun h => SequenceClause.owner_eq_none h)
  unfold ofClauses
  rw [extractSequenceOptions_eq_of_perm hperm hdistinct, howner]

end Clauses

namespace SequenceOption

theorem collect_comm {x y : SequenceOption} (h : x.name ≠ y.name) (set : SequenceOptionSet) :
    y.collect (x.collect set) = x.collect (y.collect set) := by
  cases x <;> cases y <;> first | rfl | exact absurd rfl h

theorem owner_eq_none {x y : SequenceOption} (h : x.name ≠ y.name) :
    x.owner = none ∨ y.owner = none := by
  cases x with
  | ownedBy owner =>
    cases y with
    | ownedBy other => exact absurd rfl h
    | _ => exact .inr rfl
  | _ => exact .inl rfl

/-- An option's increment or cache is a 64-bit value. -/
def InRange : SequenceOption → Prop
  | increment value | cache value => IsI64 value
  | _ => True

theorem inRange_collect {set : SequenceOptionSet} (hset : set.InRange) {x : SequenceOption}
    (hx : x.InRange) : (x.collect set).InRange := by
  cases x with
  | increment value =>
    refine ⟨fun n hn => ?_, hset.cache⟩
    cases hn
    exact hx
  | cache value =>
    refine ⟨hset.increment, fun n hn => ?_⟩
    cases hn
    exact hx
  | _ => exact ⟨hset.increment, hset.cache⟩

end SequenceOption

section Options

variable {options options' : List SequenceOption} {set : SequenceOptionSet}

theorem sequenceOptionSet_go_of_nodup {seen : List String}
    (hdistinct : (options.map SequenceOption.name).Nodup)
    (hseen : ∀ option ∈ options, option.name ∉ seen) :
    sequenceOptionSet.go seen set options =
      .ok (options.foldl (fun set option => option.collect set) set) := by
  induction options generalizing seen set with
  | nil => rfl
  | cons option options ih =>
    obtain ⟨hnew, hdistinct⟩ := List.nodup_cons.mp hdistinct
    have hfirst := hseen option List.mem_cons_self
    unfold sequenceOptionSet.go
    rw [if_neg hfirst, List.foldl_cons]
    refine ih hdistinct fun other hother => ?_
    rw [List.mem_cons, not_or]
    refine ⟨fun heq => hnew ?_, hseen other (List.mem_cons_of_mem _ hother)⟩
    rw [← heq]
    exact List.mem_map_of_mem hother

/-- Distinct options are never redundant, and are simply collected. -/
theorem sequenceOptionSet_of_nodup (hdistinct : (options.map SequenceOption.name).Nodup) :
    sequenceOptionSet options = .ok (options.foldl (fun set option => option.collect set) {}) :=
  sequenceOptionSet_go_of_nodup hdistinct fun _ _ => List.not_mem_nil

theorem sequenceOptionSet_eq_of_perm (hperm : options.Perm options')
    (hdistinct : (options.map SequenceOption.name).Nodup) :
    sequenceOptionSet options = sequenceOptionSet options' := by
  have hdistinct' : (options'.map SequenceOption.name).Nodup :=
    (hperm.map SequenceOption.name).nodup_iff.mp hdistinct
  rw [sequenceOptionSet_of_nodup hdistinct, sequenceOptionSet_of_nodup hdistinct']
  refine congrArg Except.ok (hperm.foldl_eq' (fun x hx y hy set => ?_) _)
  by_cases hname : x.name = y.name
  · rw [List.inj_on_of_nodup_map hdistinct hx hy hname]
  · exact SequenceOption.collect_comm hname set

theorem inRange_sequenceOptionSet_go {seen : List String} {current : SequenceOptionSet}
    (hoptions : ∀ option ∈ options, option.InRange) (hcurrent : current.InRange)
    (h : sequenceOptionSet.go seen current options = .ok set) : set.InRange := by
  induction options generalizing seen current with
  | nil =>
    cases h
    exact hcurrent
  | cons option options ih =>
    unfold sequenceOptionSet.go at h
    split at h
    · cases h
    · exact ih (fun other hother => hoptions other (List.mem_cons_of_mem _ hother))
        (SequenceOption.inRange_collect hcurrent (hoptions option List.mem_cons_self)) h

theorem inRange_sequenceOptionSet (hoptions : ∀ option ∈ options, option.InRange)
    (h : sequenceOptionSet options = .ok set) : set.InRange := by
  refine inRange_sequenceOptionSet_go hoptions ⟨fun n hn => ?_, fun n hn => ?_⟩ h
  · cases hn
  · cases hn

/-- `ALTER SEQUENCE` cannot tell one order of distinct options from another. -/
theorem AlterSequence.command_eq_of_perm (alter : AlterSequence)
    (hperm : alter.options.Perm options') (hdistinct : (alter.options.map SequenceOption.name).Nodup) :
    AlterSequence.command { alter with options := options' } = alter.command := by
  have hset := sequenceOptionSet_eq_of_perm hperm hdistinct
  have howner : alter.options.findSome? SequenceOption.owner =
      options'.findSome? SequenceOption.owner :=
    findSome?_eq_of_perm hperm
      ((pairwise_name_ne hdistinct).imp fun h => SequenceOption.owner_eq_none h)
  have hparameters : ∀ current, alterParameters { alter with options := options' } current =
      alter.alterParameters current := by
    intro current
    unfold alterParameters
    rw [hset]
    rfl
  have hexecute : ∀ current, execute { alter with options := options' } current =
      alter.execute current := by
    intro current
    unfold execute
    rw [howner]
    rfl
  unfold command
  simp only [hparameters, hexecute]
  rfl

end Options

end SafeMigrate
