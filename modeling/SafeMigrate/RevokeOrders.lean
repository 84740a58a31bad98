import SafeMigrate.RevokeCascades

/-! The order in which a cascade comes to the grantees is that of a hash map. It
leaves no grant without a grantor that has the option in any order, if and only
if the cascade is orderly. -/

namespace SafeMigrate

open MapRebuild MapEdits Delegation

/-- The declared order, with one privilege last. -/
def PrivilegeOrder.endingWith (last : Privilege) : PrivilegeOrder where
  list privileges := (PrivilegeOrder.declared.list privileges).filter (fun p => decide (p ≠ last)) ++
    (if last ∈ privileges then [last] else [])
  nodup privileges := by
    refine List.Nodup.append (List.Nodup.filter _ (PrivilegeOrder.declared.nodup privileges)) ?_ ?_
    · split
      · exact List.nodup_singleton _
      · exact List.nodup_nil
    · intro p hp hlast
      have hne : p ≠ last := of_decide_eq_true (List.mem_filter.mp hp).2
      split at hlast
      · exact hne (List.mem_singleton.mp hlast)
      · cases hlast
  mem_list privileges p := by
    rw [List.mem_append, List.mem_filter, PrivilegeOrder.declared.mem_list]
    by_cases hp : p = last
    · by_cases hmem : last ∈ privileges <;> simp [hp, hmem]
    · by_cases hmem : last ∈ privileges <;> simp [hp, hmem]

namespace PrivilegeMatrix

variable {m : PrivilegeMatrix} (order : PrivilegeOrder) (role grantor owner : ObjectId)
  (privileges : Finset Privilege) (far : ObjectId × Privilege → ℕ∞)

/-- The grants are kept with the nearest last. -/
def NearestLast (m : PrivilegeMatrix) : Prop :=
  m.grantors.keys.Pairwise fun k k' => far k' ≤ far k

section Keys

theorem keys_revokeSource (m : PrivilegeMatrix) (privilege : Privilege) :
    (revokeSource role grantor m privilege).grantors.keys.Sublist m.grantors.keys := by
  have hgrantors : (revokeSource role grantor m privilege).grantors =
      GrantSources.withdraw m.grantors (role, privilege) grantor := by
    unfold revokeSource
    dsimp only
    split <;> rfl
  rw [hgrantors]
  exact keys_edit _ _ _

theorem keys_revokeFrom (m : PrivilegeMatrix) :
    (m.revokeFrom order role privileges (some grantor)).grantors.keys.Sublist m.grantors.keys := by
  unfold PrivilegeMatrix.revokeFrom
  dsimp only
  generalize order.list (m.expandPrivileges role privileges) = l
  induction l generalizing m with
  | nil => exact List.Sublist.refl _
  | cons privilege l ih =>
    exact (ih (revokeSource role grantor m privilege)).trans (keys_revokeSource role grantor m privilege)

theorem keys_revokeAll (l : List ObjectId) (m : PrivilegeMatrix) :
    (l.foldl (fun m grantee => m.revokeFrom order grantee privileges (some grantor))
      m).grantors.keys.Sublist m.grantors.keys := by
  induction l generalizing m with
  | nil => exact List.Sublist.refl _
  | cons grantee l ih =>
    exact (ih (m.revokeFrom order grantee privileges (some grantor))).trans
      (keys_revokeFrom order grantee grantor privileges m)

theorem keys_cascadeStep (m : PrivilegeMatrix) (a : ObjectId × Privilege) :
    (cascadeStep order m a).2.grantors.keys.Sublist m.grantors.keys := by
  unfold cascadeStep
  split
  · exact List.Sublist.refl _
  · exact keys_revokeAll order a.1 {a.2} _ m

/-- The grantees come in the order of the map. -/
theorem cascadeStep_sublist (m : PrivilegeMatrix) (a : ObjectId × Privilege) :
    (cascadeStep order m a).1.Sublist m.grantors.keys := by
  unfold cascadeStep
  split
  · exact List.nil_sublist _
  · dsimp only
    have hkeys : (m.granteesOf a.1 a.2).map (fun grantee => (grantee, a.2)) =
        (m.grantors.entries.filter fun entry =>
          decide (entry.1.2 = a.2 ∧ a.1 ∈ entry.2)).map Sigma.fst := by
      unfold granteesOf
      induction m.grantors.entries with
      | nil => rfl
      | cons entry l ih =>
        by_cases hentry : entry.1.2 = a.2 ∧ a.1 ∈ entry.2
        · have hkey : (entry.1.1, a.2) = entry.1 := Prod.ext rfl hentry.1.symm
          simp only [List.filterMap_cons, List.filter_cons, decide_eq_true_eq, if_pos hentry,
            List.map_cons, ih, hkey]
        · simp only [List.filterMap_cons, if_neg hentry, ih, List.filter_cons, decide_eq_true_eq]
    rw [hkeys]
    exact (List.filter_sublist).map _

variable {far}

/-- The nearest of the grantees is on top of the stack. -/
theorem exists_top_of_nearestLast (hsorted : m.NearestLast far) {a b : ObjectId × Privilege}
    {n : Nat} (hb : b ∈ (cascadeStep order m a).1) (hnear : far b ≤ n)
    (hfar : ∀ x ∈ (cascadeStep order m a).1, n ≤ far x) :
    ∃ top rest, (cascadeStep order m a).1.reverse = top :: rest ∧ far top = n := by
  have hpairwise : (cascadeStep order m a).1.Pairwise fun k k' => far k' ≤ far k :=
    hsorted.sublist (cascadeStep_sublist order m a)
  rw [← List.pairwise_reverse] at hpairwise
  cases hreverse : (cascadeStep order m a).1.reverse with
  | nil =>
    rw [List.reverse_eq_nil_iff] at hreverse
    rw [hreverse] at hb
    exact absurd hb List.not_mem_nil
  | cons top rest =>
    have htop : top ∈ (cascadeStep order m a).1 := by
      rw [← List.mem_reverse, hreverse]
      exact List.mem_cons_self
    refine ⟨top, rest, rfl, le_antisymm ?_ (hfar top htop)⟩
    rw [hreverse] at hpairwise
    rw [← List.mem_reverse, hreverse] at hb
    rcases List.mem_cons.mp hb with rfl | hb
    · exact hnear
    · exact ((List.pairwise_cons.mp hpairwise).1 b hb).trans hnear

end Keys

section Chains

variable {L : Ledger (ObjectId × Privilege)} {start : ObjectId × Privilege → Prop}
  {a c : ObjectId × Privilege}

/-- Who is visited with the option is not withdrawn later. -/
theorem exists_walked_kept (hrecorded : L.Recorded) {m : PrivilegeMatrix}
    {visited pending : List (ObjectId × Privilege)} {Q : ObjectId × Privilege → Prop}
    {x : ObjectId × Privilege} {fuel : Nat} (hwalked : Walked L start visited (x :: pending) Q)
    (hnot : x ∉ visited) (hstill : (L.without Q).holds x) (hledger : m.ledger = L.without Q)
    (hall : ∀ y ∈ x :: pending, y.2 ≠ .all)
    (hfuel : (x :: pending).length + m.sourceCount ≤ fuel) :
    ∃ visited' Q', Walked L start visited' [] Q' ∧
      (Worklist.drain (cascadeStep order) fuel visited (x :: pending) m).2.ledger = L.without Q' ∧
      ¬Q' x := by
  have hoption : m.hasGrantOption x.1 x.2 = true := by
    rw [← holds_ledger, hledger]
    exact hstill
  rw [List.length_cons] at hfuel
  cases fuel with
  | zero => omega
  | succ fuel =>
    rw [Worklist.drain, if_neg hnot, cascadeStep_of_option order hoption]
    have hrest : pending.length + m.sourceCount ≤ fuel := by omega
    obtain ⟨visited', Q', hend, hleft, hkept⟩ := exists_walked_drain order hrecorded
      (fun y hy => hall y (List.mem_cons_of_mem x hy)) (hwalked.keep hstill) hledger hrest
    exact ⟨visited', Q', hend, hleft, hkept x List.mem_cons_self fun hgone =>
      hnot (hwalked.visited_of_gone x hgone)⟩

/-- A walk that goes straight to `a` leaves someone on its way who still held
the option then, and `a` at the latest. -/
theorem exists_kept (hrecorded : L.Recorded) (hholds : L.holds a) (hoption : L.options c a) (n : Nat)
    {m : PrivilegeMatrix} {visited pending : List (ObjectId × Privilege)}
    {Q : ObjectId × Privilege → Prop} {x : ObjectId × Privilege} {fuel : Nat}
    (hx : distance (Lost L start fun y => y = c) L a x = n)
    (hvisited : ∀ y ∈ visited, (n : ℕ∞) < distance (Lost L start fun y => y = c) L a y)
    (hwalked : Walked L start visited (x :: pending) Q) (hc : ¬Q c) (hledger : m.ledger = L.without Q)
    (hsorted : m.NearestLast (distance (Lost L start fun y => y = c) L a))
    (hall : ∀ y ∈ x :: pending, y.2 ≠ .all)
    (hfuel : (x :: pending).length + m.sourceCount ≤ fuel) :
    ∃ y visited' Q', (y = a ∨ Lost L start (fun y => y = c) y ∧ ∃ d, L.grants y d) ∧
      Walked L start visited' [] Q' ∧
      (Worklist.drain (cascadeStep order) fuel visited (x :: pending) m).2.ledger = L.without Q' ∧
      ¬Q' y := by
  have hunseen (n : Nat) (x : ObjectId × Privilege) (visited : List (ObjectId × Privilege))
      (hx : distance (Lost L start fun y => y = c) L a x = n)
      (hvisited : ∀ y ∈ visited, (n : ℕ∞) < distance (Lost L start fun y => y = c) L a y) :
      x ∉ visited := fun hmem => absurd hx (hvisited x hmem).ne'
  induction n generalizing m visited pending Q x fuel with
  | zero =>
    -- the walk is at `a`, which still has the option from `c`
    have hxa : x = a := leads_of_distance hx
    have hnot := hunseen 0 x visited hx hvisited
    have hstill : (L.without Q).holds x := by
      rw [hxa]
      exact hholds.imp id fun hheld => ⟨hheld, c, hoption, fun hgone => hc hgone.1⟩
    obtain ⟨visited', Q', hend, hleft, hkept⟩ :=
      exists_walked_kept order hrecorded hwalked hnot hstill hledger hall hfuel
    exact ⟨x, visited', Q', .inl hxa, hend, hleft, hkept⟩
  | succ n ih =>
    have hnot := hunseen (n + 1) x visited hx hvisited
    obtain ⟨hlost, ⟨y, hgrant, hnear⟩, hfar⟩ := exists_next_of_distance hx
    by_cases hstill : (L.without Q).holds x
    · obtain ⟨visited', Q', hend, hleft, hkept⟩ :=
        exists_walked_kept order hrecorded hwalked hnot hstill hledger hall hfuel
      exact ⟨x, visited', Q', .inr ⟨hlost, y, hgrant⟩, hend, hleft, hkept⟩
    · -- it lost its option: the walk goes on with a grantee that is nearer
      have hnone : ¬m.hasGrantOption x.1 x.2 = true := by
        rw [← holds_ledger, hledger]
        exact hstill
      obtain ⟨Q', hwalked', hledger', hgone, hsame, hcost⟩ := cascadeStep_walked order hrecorded
        (hall x List.mem_cons_self) hwalked hnot hledger
      have hmem (b : ObjectId × Privilege) : b ∈ (cascadeStep order m x).1 ↔ L.grants x b := by
        rw [mem_cascadeStep order hnone, hledger, Ledger.grants_without]
        exact and_iff_left fun hgone => hnot (hwalked.visited_of_gone x hgone)
      obtain ⟨top, rest, htop, hdistance⟩ := exists_top_of_nearestLast order hsorted
        ((hmem y).mpr hgrant) hnear fun b hb => hfar b ((hmem b).mp hb)
      have hstack : (cascadeStep order m x).1.reverse ++ pending = top :: (rest ++ pending) := by
        rw [htop, List.cons_append]
      rw [hstack] at hwalked'
      cases fuel with
      | zero => exact absurd hfuel (by simp)
      | succ fuel =>
        rw [Worklist.drain, if_neg hnot, hstack]
        refine ih hdistance (fun v hv => ?_) hwalked' (fun hcgone => ?_) hledger'
          (hsorted.sublist (keys_cascadeStep order m x)) (fun v hv => ?_) ?_
        · rcases List.mem_cons.mp hv with rfl | hv
          · rw [hx]
            exact_mod_cast Nat.lt_succ_self n
          · exact lt_trans (by exact_mod_cast Nat.lt_succ_self n) (hvisited v hv)
        · rcases hgone c hcgone with hcgone | rfl
          · exact hc hcgone
          · exact hlost.not_spared rfl
        · rw [← hstack, List.mem_append] at hv
          rcases hv with hv | hv
          · rw [hsame v (List.mem_reverse.mp hv)]
            exact hall x List.mem_cons_self
          · exact hall v (List.mem_cons_of_mem x hv)
        · have hlength := congrArg List.length hstack
          rw [List.length_append, List.length_reverse] at hlength
          rw [List.length_cons] at hfuel
          omega

end Chains

section Reordered

open Classical in
/-- The grants in another order. -/
noncomputable def nearestLast (m : PrivilegeMatrix) : PrivilegeMatrix :=
  { m with
    grantors := ⟨m.grantors.entries.mergeSort fun e e' => decide (far e'.1 ≤ far e.1),
      (List.perm_nodupKeys (List.mergeSort_perm _ _)).mpr m.grantors.nodupKeys⟩ }

open Classical in
theorem nearestLast_sorted (m : PrivilegeMatrix) : (m.nearestLast far).NearestLast far := by
  unfold NearestLast nearestLast AList.keys List.keys
  rw [List.pairwise_map]
  let nearer (e e' : Sigma fun _ : ObjectId × Privilege => Finset ObjectId) : Bool :=
    decide (far e'.1 ≤ far e.1)
  have hsorted : (m.grantors.entries.mergeSort nearer).Pairwise fun e e' => nearer e e' := by
    refine List.pairwise_mergeSort (fun a b c hab hbc => ?_) (fun a b => ?_) _
    · exact decide_eq_true ((of_decide_eq_true hbc).trans (of_decide_eq_true hab))
    · rcases le_total (far b.1) (far a.1) with hle | hle
      · simp [nearer, hle]
      · simp [nearer, hle]
  exact hsorted.imp fun h => of_decide_eq_true h

theorem sameMaps_nearestLast (m : PrivilegeMatrix) : m.SameMaps (m.nearestLast far) where
  grants _ := rfl
  grantOptions _ := rfl
  grantors _ := AList.perm_lookup (List.mergeSort_perm _ _)
  grantOptionGrantors _ := rfl

variable {m' : PrivilegeMatrix}

theorem SameMaps.ledger (h : m.SameMaps m') : m'.ledger = m.ledger := by
  unfold PrivilegeMatrix.ledger sources optionSources options
  simp only [h.grantOptions, h.grantors, h.grantOptionGrantors]

theorem SameMaps.expandPrivileges (h : m.SameMaps m') :
    m'.expandPrivileges role privileges = m.expandPrivileges role privileges := by
  unfold PrivilegeMatrix.expandPrivileges
  rw [h.grants]

theorem SameMaps.struckLedger (h : m.SameMaps m') :
    m'.struckLedger role grantor privileges = m.struckLedger role grantor privileges := by
  unfold PrivilegeMatrix.struckLedger
  rw [h.ledger, h.expandPrivileges]

theorem SameMaps.struck (h : m.SameMaps m') :
    m'.Struck role privileges = m.Struck role privileges := by
  unfold PrivilegeMatrix.Struck
  rw [h.expandPrivileges]

end Reordered

section Necessity

variable {L : Ledger (ObjectId × Privilege)} {owner}

/-- What a matrix says of the ledger that it ends with. -/
theorem Grounded.holds {last : PrivilegeMatrix} (hgrounded : last.Grounded owner)
    {Q : ObjectId × Privilege → Prop} (hleft : last.ledger = L.without Q) (g a : ObjectId × Privilege)
    (hother : ¬g.1 = owner) (hsource : (L.without Q).grants g a ∨ (L.without Q).options g a) :
    (L.without Q).holds g := by
  rw [← hleft] at hsource ⊢
  have hsame : g.2 = a.2 := hsource.elim And.left And.left
  rw [holds_ledger, hsame]
  exact hgrounded g.1 a.1 a.2 (hsource.imp And.right And.right) hother

theorem endingWith_struckPending {privilege : Privilege}
    (hmem : privilege ∈ m.expandPrivileges role privileges) :
    ∃ pending, m.struckPending (.endingWith privilege) role privileges =
      (role, privilege) :: pending := by
  have hlist : (PrivilegeOrder.endingWith privilege).list (m.expandPrivileges role privileges) =
      (PrivilegeOrder.declared.list (m.expandPrivileges role privileges)).filter
        (fun p => decide (p ≠ privilege)) ++ [privilege] := by
    show _ ++ (if _ then _ else _) = _
    rw [if_pos hmem]
  unfold struckPending
  rw [hlist, List.map_append, List.reverse_append]
  exact ⟨_, rfl⟩

/-- If no order leaves a grant without a grantor that has the option, the
cascade is orderly. -/
theorem orderly_of_grounded (hcomplete : m.CompleteProvenance owner)
    (howner : ∀ privilege, m.hasGrantOption owner privilege = false)
    (hgrounded : ∀ order m', m.SameMaps m' →
      (m'.revokeFromCascade order role privileges (some grantor) true).Grounded owner) :
    m.OrderlyCascade role grantor owner privileges := by
  have hrecorded : m.ledger.Recorded := recorded_iff.mpr hcomplete.options
  have hexempt (g : ObjectId × Privilege) (hg : g.1 = owner) :
      ¬(m.struckLedger role grantor privileges).holds g := by
    intro hholds
    have hbefore : m.ledger.holds g := hholds.imp id And.left
    rw [holds_ledger, hg, howner] at hbefore
    exact Bool.false_ne_true hbefore
  constructor
  · intro a d hlost hother hoption
    by_contra hnot
    obtain ⟨visited, Q, hwalked, hleft⟩ :=
      exists_walked_revokeFromCascade .declared role grantor privileges hrecorded
    have hall := (hgrounded .declared m ⟨fun _ => rfl, fun _ => rfl, fun _ => rfl, fun _ => rfl⟩).holds hleft
    exact (hwalked.gone_of_lost hall hexempt hlost).1
      (hall a d hother (.inr ⟨hoption, fun hgone => hnot hgone.2⟩))
  · intro a b c d hlost hother hholds hgrant hoption hgrantor hb
    -- the order in which the walk goes straight to `a` over `b`, while `c` stands
    have hleads : Leads (Lost (m.struckLedger role grantor privileges) (m.Struck role privileges)
        fun x => x = c) (m.struckLedger role grantor privileges) a 1 b := ⟨hb, a, hgrantor, rfl⟩
    obtain ⟨s, k, hstart, -, hs⟩ := exists_start_leads hb hleads
    obtain ⟨n, hn⟩ := ENat.ne_top_iff_exists.mp
      (ne_top_of_le_ne_top (ENat.natCast_ne_top k) (distance_le hs))
    have hsame := sameMaps_nearestLast (distance (Lost (m.struckLedger role grantor privileges)
      (m.Struck role privileges) fun x => x = c) (m.struckLedger role grantor privileges) a) m
    have hsorted := nearestLast_sorted (distance (Lost (m.struckLedger role grantor privileges)
      (m.Struck role privileges) fun x => x = c) (m.struckLedger role grantor privileges) a) m
    revert hsame hsorted
    generalize m.nearestLast _ = m'
    intro hsame hsorted
    have hrecorded' : m'.ledger.Recorded := hsame.ledger ▸ hrecorded
    have hprivilege : s.2 ∈ m'.expandPrivileges role privileges :=
      hsame.expandPrivileges role privileges ▸ hstart.2
    obtain ⟨pending, hpending⟩ := endingWith_struckPending role privileges hprivilege
    have hs' : (role, s.2) = s := Prod.ext hstart.1.symm rfl
    have hwalked := walked_struckPending (m := m') (.endingWith s.2) role grantor privileges
    have hfirst := ledger_revokeFrom_expand (.endingWith s.2) role grantor privileges hrecorded'
    rw [hsame.struckLedger] at hfirst
    rw [hsame.struckLedger, hsame.struck, hpending, hs'] at hwalked
    have hall : ∀ y ∈ s :: pending, y.2 ≠ .all := by
      intro y hy
      refine ne_all_of_mem_struckPending (m := m') (.endingWith s.2) role privileges ?_
      rw [hpending, hs']
      exact hy
    have hrun := hgrounded (.endingWith s.2) m' hsame
    rw [revokeFromCascade_eq, hpending, hs'] at hrun
    obtain ⟨y, visited, Q, hy, hend, hleft, hkept⟩ := exists_kept (.endingWith s.2)
      Ledger.recorded_strike hholds hoption n hn.symm (fun y hy => absurd hy List.not_mem_nil) hwalked
      id hfirst (hsorted.sublist (keys_revokeFrom _ role grantor _ m')) hall (Nat.le_refl _)
    have hgone := hend.gone_of_lost (a := y) (hrun.holds hleft) hexempt
    rcases hy with rfl | ⟨hylost, d', hygrant⟩
    · exact hkept ((hgone hlost).2 d hgrant)
    · exact hkept ((hgone (hylost.mono fun _ h => h.elim)).2 d' hygrant)

end Necessity

variable {owner role grantor privileges} {m' : PrivilegeMatrix}

theorem CompleteProvenance.sameMaps (h : m.CompleteProvenance owner) (hsame : m.SameMaps m') :
    m'.CompleteProvenance owner where
  granted role privilege := by
    unfold PrivilegeMatrix.granted sources
    rw [hsame.grants, hsame.grantors]
    exact h.granted role privilege
  options role privilege := by
    unfold PrivilegeMatrix.options optionSources
    rw [hsame.grantOptions, hsame.grantOptionGrantors]
    exact h.options role privilege
  grantors g role privilege := by
    unfold sources optionSources hasGrantOption
    rw [hsame.grantors, hsame.grantOptionGrantors, hsame.grantOptions]
    exact h.grantors g role privilege

theorem OrderlyCascade.sameMaps (h : m.OrderlyCascade role grantor owner privileges)
    (hsame : m.SameMaps m') : m'.OrderlyCascade role grantor owner privileges := by
  unfold OrderlyCascade
  rw [hsame.struckLedger, hsame.struck]
  exact h

end PrivilegeMatrix

open PrivilegeMatrix

/-- An orderly cascade leaves no grant without a grantor that has the option,
whatever the order of the maps; one that is not orderly does, in some order,
unless the owner itself has an option from others. -/
theorem revokeCascade_grounded_iff {m : PrivilegeMatrix} (owner role grantor : ObjectId)
    (privileges : Finset Privilege) (hcomplete : m.CompleteProvenance owner) :
    (m.OrderlyCascade role grantor owner privileges → ∀ order m', m.SameMaps m' →
      (m'.revokeFromCascade order role privileges (some grantor) true).Grounded owner) ∧
    ((∀ privilege, m.hasGrantOption owner privilege = false) →
      ((∀ order m', m.SameMaps m' →
          (m'.revokeFromCascade order role privileges (some grantor) true).Grounded owner) ↔
        m.OrderlyCascade role grantor owner privileges)) := by
  have henough : m.OrderlyCascade role grantor owner privileges → ∀ order m', m.SameMaps m' →
      (m'.revokeFromCascade order role privileges (some grantor) true).Grounded owner :=
    fun horderly order m' hsame => grounded_of_orderly order role grantor owner privileges
      (hcomplete.sameMaps hsame) (horderly.sameMaps hsame)
  exact ⟨henough, fun howner =>
    ⟨orderly_of_grounded role grantor privileges hcomplete howner, henough⟩⟩

section Households

namespace PrivilegeMatrix

variable {m : PrivilegeMatrix} {owner : ObjectId}

theorem exists_entry_of_source {sources : GrantSources} {key : ObjectId × Privilege} {g : ObjectId}
    (h : g ∈ (sources.lookup key).getD ∅) : ∃ found, ⟨key, found⟩ ∈ sources.entries ∧ g ∈ found := by
  cases hlookup : sources.lookup key with
  | none => simp [hlookup] at h
  | some found =>
    rw [hlookup, Option.getD_some] at h
    exact ⟨found, mem_entries_iff.mpr hlookup, h⟩

/-- What grants and revokes leave is complete, if the grantors had the option. -/
theorem Sourced.completeProvenance (h : m.Sourced) (hgrantors : ∀ e ∈ m.grantors.entries,
    ∀ g ∈ e.2, g ≠ owner → m.hasGrantOption g e.1.2 = true) : m.CompleteProvenance owner where
  granted role privilege := (h.granted_iff role privilege).mp
  options role privilege := (h.options_iff role privilege).mp
  grantors g role privilege hsource hother := by
    have hgranted : g ∈ m.sources (role, privilege) :=
      hsource.elim id fun hoption => h.granting _ hoption
    obtain ⟨found, hmem, hfound⟩ := exists_entry_of_source hgranted
    exact hgrantors _ hmem g hfound hother

/-- A cascade down a tree is orderly. -/
theorem Sourced.orderlyCascade (h : m.Sourced) (role grantor owner : ObjectId)
    (privileges : Finset Privilege) (hsingle : ∀ e ∈ m.grantors.entries, e.2.card ≤ 1) :
    m.OrderlyCascade role grantor owner privileges := by
  have hgrants (a b : ObjectId × Privilege) (hoption : m.ledger.options a b) : m.ledger.grants a b :=
    ⟨hoption.1, h.granting b hoption.2⟩
  refine orderly_of_unique (fun a b hoption => ⟨hgrants a b hoption.1, hoption.2⟩) ?_
  intro a b c hoption hgrant
  have hb := hgrant.1
  have hc := hgrants c a hoption.1
  obtain ⟨found, hmem, hfound⟩ := exists_entry_of_source hb.2
  obtain ⟨found', hmem', hfound'⟩ := exists_entry_of_source hc.2
  have hsame : found' = found := by
    have hlookup := (mem_entries_iff.mp hmem').symm.trans (mem_entries_iff.mp hmem)
    exact Option.some_inj.mp hlookup
  rw [hsame] at hfound'
  exact Prod.ext (Finset.card_le_one.mp (hsingle _ hmem) b.1 hfound c.1 hfound')
    (hb.1.trans hc.1.symm)

end PrivilegeMatrix

private def landlord : ObjectId := ⟨"", "landlord"⟩

private def tenant : ObjectId := ⟨"", "tenant"⟩

private def lodger : ObjectId := ⟨"", "lodger"⟩

private def cousin : ObjectId := ⟨"", "cousin"⟩

private def guest : ObjectId := ⟨"", "guest"⟩

private def visitor : ObjectId := ⟨"", "visitor"⟩

private def passOn (m : PrivilegeMatrix) (grant : ObjectId × ObjectId) : PrivilegeMatrix :=
  m.grantFrom .declared grant.2 {.select} (some grant.1) true

/-- The privilege handed down from one to the next. -/
def handedDown : PrivilegeMatrix :=
  [(landlord, tenant), (tenant, lodger), (lodger, guest)].foldl passOn {}

/-- The guest has it from two, who both have it from the tenant. -/
def diamond : PrivilegeMatrix :=
  [(landlord, tenant), (tenant, lodger), (tenant, cousin), (lodger, guest), (cousin, guest),
    (guest, visitor)].foldl passOn {}

def diamondRevoked : PrivilegeMatrix :=
  diamond.revokeFromCascade .declared tenant {.select} (some landlord) true

private theorem sourced_passOn (grants : List (ObjectId × ObjectId)) :
    (grants.foldl passOn {}).Sourced :=
  sourced_empty.foldl grants fun _ grant h => h.grantFrom .declared grant.2 grant.1 true

theorem handedDown_revoked :
    (handedDown.revokeFromCascade .declared tenant {.select} (some landlord) true).Grounded landlord := by
  have hsourced : handedDown.Sourced := by
    unfold handedDown
    exact sourced_passOn _
  have hcomplete : handedDown.CompleteProvenance landlord :=
    hsourced.completeProvenance (by decide +kernel)
  have horderly := hsourced.orderlyCascade tenant landlord landlord {.select} (by decide +kernel)
  have hcascade := revokeCascade_grounded_iff landlord tenant landlord {.select} hcomplete
  have hevery := hcascade.1 horderly
  have hsame : handedDown.SameMaps handedDown := ⟨fun _ => rfl, fun _ => rfl, fun _ => rfl, fun _ => rfl⟩
  have hgrounded := hevery .declared handedDown hsame
  exact hgrounded

/-- The guest is looked at while the second of them stands, and never again. -/
theorem visitor_left_behind :
    ¬∀ (m : PrivilegeMatrix) (owner role grantor : ObjectId) (privileges : Finset Privilege),
      m.CompleteProvenance owner →
        (m.revokeFromCascade .declared role privileges (some grantor) true).Grounded owner := by
  intro h
  have hsourced : diamond.Sourced := by
    unfold diamond
    exact sourced_passOn _
  have hcomplete : diamond.CompleteProvenance landlord :=
    hsourced.completeProvenance (by decide +kernel)
  have hgrounded := h diamond landlord tenant landlord {.select} hcomplete
  rw [← diamondRevoked] at hgrounded
  have hother : guest ≠ landlord := by decide +kernel
  have hleft : guest ∈ diamondRevoked.sources (visitor, .select) := by decide +kernel
  have hnone : diamondRevoked.hasGrantOption guest .select = false := by decide +kernel
  have hoption := hgrounded guest visitor .select (.inl hleft) hother
  rw [hnone] at hoption
  exact Bool.false_ne_true hoption

end Households

end SafeMigrate
