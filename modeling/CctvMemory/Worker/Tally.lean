import CctvMemory.Worker.Phases

/-!
# The tally of a fresh scale and its unit rows

How a unit that has no row yet ends, what the reconciliation of its job makes
of it, and when the counts of the tally are the counts of the unit rows.
-/

namespace CctvMemory.Worker

variable {env : WorkerEnv} {c : JobView} {u : PlannedUnit} {us : List PlannedUnit}

/-! ## One unit -/

/-- The row of a unit after it ran and its job was reconciled. -/
def settled (env : WorkerEnv) (c : JobView) (u : PlannedUnit) : Option UnitRow :=
  (unitEnd env c u).2.map (reconcileUnit env)

/-- The claim of a unit commits, and its body does not lose a done status. -/
structure RowKept (env : WorkerEnv) (u : PlannedUnit) : Prop where
  claimed : (env.envOf u).writeFault .claim 1 = none
  kept : (env.envOf u).raises .unitRunning = none →
    ¬ (processorOf u.key.analysisScale).DoneLost (env.envOf u) JobLookup.present
      (some (env.envOf u).firstRow)

theorem reconcile_of_running {row : Option UnitRow} (h : HasStatus .running row) :
    HasStatus .failed (row.map (reconcileUnit env)) := by
  cases row with
  | none => cases h
  | some r =>
      have hr : r.status = .running := Option.some.inj h
      show some (reconcileUnit env r).status = _
      rw [reconcileUnit, if_pos hr]
      rfl

theorem reconcile_of_terminal {o : UnitOutcome} {row : Option UnitRow}
    (h : HasStatus o.toStatus row) :
    HasStatus o.toStatus (row.map (reconcileUnit env)) := by
  cases row with
  | none => cases h
  | some r =>
      have hr : r.status = o.toStatus := Option.some.inj h
      have hne : r.status ≠ .running := by
        rw [hr]
        cases o <;> decide
      show some (reconcileUnit env r).status = _
      rw [reconcileUnit, if_neg hne, hr]

theorem unitEnd_of_fresh (hrow : c.units u.key = none) :
    unitEnd env c u
      = Act.exec ((processorOf u.key.analysisScale).runUnit (env.envOf u) JobLookup.present)
          none := by
  rw [unitEnd, hrow, unitAct]

/-- The tally of a unit whose row is kept is what the row stores in the end. -/
theorem settled_of_kept (hrow : c.units u.key = none) (h : RowKept env u) :
    HasStatus (unitTally env c u).toStatus (settled env c u) := by
  unfold settled unitTally
  rw [unitEnd_of_fresh hrow, UnitProcessor.exec_runUnit_claimed rfl h.claimed]
  have hfirst : HasStatus .running (some (env.envOf u).firstRow) := rfl
  cases hevent : (env.envOf u).raises .unitRunning with
  | some e => exact reconcile_of_running hfirst
  | none =>
      dsimp only
      rcases hbody : Act.exec ((processorOf u.key.analysisScale).body (env.envOf u)
        JobLookup.present) (some (env.envOf u).firstRow) with ⟨⟨phase, e⟩ | o, row'⟩
      · have hescaped := UnitProcessor.escaped_of_exec_body hfirst hbody
        rw [exec_guarded_error hbody]
        split
        · exact reconcile_of_terminal (o := .failed)
            (hasStatus_map (fun _ => rfl) hescaped.isSome)
        · -- the forced write failed, so no done status was committed
          rename_i hforced
          have hnot : ¬ Done row' := fun hdone =>
            h.kept hevent ⟨⟨_, _, hbody, hdone⟩, hforced⟩
          rcases hescaped.1 with hrunning | hterminal
          · exact reconcile_of_running hrunning
          · exact reconcile_of_terminal (o := .failed)
              (hterminal.done_or_failed.resolve_left hnot)
      · rw [exec_guarded_ok hbody]
        exact reconcile_of_terminal ((triple_body _ rfl).ok hfirst hbody)

/-- Otherwise the tally is a failure that no row stores. -/
theorem settled_of_not_kept (hrow : c.units u.key = none) (h : ¬ RowKept env u) :
    unitTally env c u = .failed ∧ ¬ HasStatus .failed (settled env c u) := by
  unfold settled unitTally
  rw [unitEnd_of_fresh hrow]
  cases hclaim : (env.envOf u).writeFault .claim 1 with
  | some e =>
      rw [UnitProcessor.exec_runUnit_unclaimed rfl hclaim]
      exact ⟨rfl, fun h => by cases h⟩
  | none =>
      rw [UnitProcessor.exec_runUnit_claimed rfl hclaim]
      cases hevent : (env.envOf u).raises .unitRunning with
      | some e => exact absurd ⟨hclaim, fun hnone => by rw [hevent] at hnone; cases hnone⟩ h
      | none =>
          have hlost : (processorOf u.key.analysisScale).DoneLost (env.envOf u)
              JobLookup.present (some (env.envOf u).firstRow) := by
            by_contra hkept
            exact h ⟨hclaim, fun _ => hkept⟩
          obtain ⟨⟨⟨phase, e⟩, row', hbody, hdone⟩, hforced⟩ := hlost
          dsimp only
          rw [exec_guarded_error hbody, if_neg hforced]
          refine ⟨rfl, fun hfailed => ?_⟩
          rcases hdone with hdone | hdone
          · have hset := @reconcile_of_terminal env .succeeded _ hdone
            cases hset.unique hfailed
          · have hset := @reconcile_of_terminal env .skipped _ hdone
            cases hset.unique hfailed

/-! ## The counts of a scale -/

/-- The counts of a list of unit rows. -/
def ScaleProcessResult.ofRows (rows : List UnitRow) : ScaleProcessResult where
  total := rows.length
  succeeded := rows.countP fun r => decide (r.status = .succeeded)
  failed := rows.countP fun r => decide (r.status = .failed)
  skipped := rows.countP fun r => decide (r.status = .skipped)

theorem ScaleProcessResult.ofRows_perm {rows rows' : List UnitRow} (h : rows.Perm rows') :
    ofRows rows = ofRows rows' := by
  unfold ofRows
  rw [h.length_eq, h.countP_eq, h.countP_eq, h.countP_eq]

theorem ScaleProcessResult.tally_perm {os os' : List UnitOutcome} (h : os.Perm os') :
    tally os = tally os' := by
  unfold tally
  rw [h.length_eq, h.count_eq, h.count_eq, h.count_eq]

/-- The counts of the settled rows of `us`. -/
def settledResult (env : WorkerEnv) (c : JobView) (us : List PlannedUnit) :
    ScaleProcessResult :=
  .ofRows (us.filterMap (settled env c))

theorem tally_eq_settledResult (hrows : ∀ u ∈ us, c.units u.key = none)
    (h : ∀ u ∈ us, RowKept env u) :
    ScaleProcessResult.tally (us.map (unitTally env c)) = settledResult env c us := by
  induction us with
  | nil => rfl
  | cons u us ih =>
      have hih := ih (fun v hv => hrows v (List.mem_cons_of_mem _ hv))
        fun v hv => h v (List.mem_cons_of_mem _ hv)
      have hu := settled_of_kept (hrows u List.mem_cons_self) (h u List.mem_cons_self)
      cases hs : settled env c u with
      | none =>
          rw [hs] at hu
          cases hu
      | some r =>
          rw [hs] at hu
          have hstatus : r.status = (unitTally env c u).toStatus := Option.some.inj hu
          simp only [ScaleProcessResult.tally, settledResult, ScaleProcessResult.ofRows,
            ScaleProcessResult.mk.injEq, List.length_map] at hih ⊢
          obtain ⟨htotal, hsucc, hfail, hskip⟩ := hih
          rw [List.filterMap_cons, hs, List.map_cons]
          simp only [List.length_cons, List.countP_cons, List.count_cons, hstatus]
          cases unitTally env c u <;> simp [UnitOutcome.toStatus, *]

/-- Predicates in one direction, of one count, agree in the other. -/
theorem countP_eq_of_imp {α : Type} {p q : α → Bool} {l : List α}
    (hpq : ∀ a ∈ l, p a = true → q a = true) (h : l.countP p = l.countP q) :
    ∀ a ∈ l, q a = true → p a = true := by
  induction l with
  | nil => exact fun a ha => by cases ha
  | cons b l ih =>
      have htail : l.countP p ≤ l.countP q :=
        List.countP_mono_left fun a ha => hpq a (List.mem_cons_of_mem _ ha)
      rw [List.countP_cons, List.countP_cons] at h
      have hb := hpq b List.mem_cons_self
      intro a ha hqa
      by_cases hpb : p b = true
      · rw [if_pos hpb, if_pos (hb hpb)] at h
        rcases List.mem_cons.mp ha with rfl | ha
        · exact hpb
        · exact ih (fun a ha => hpq a (List.mem_cons_of_mem _ ha)) (by omega) a ha hqa
      · rw [if_neg hpb] at h
        by_cases hqb : q b = true
        · rw [if_pos hqb] at h
          omega
        · rw [if_neg hqb] at h
          rcases List.mem_cons.mp ha with rfl | ha
          · exact absurd hqa hqb
          · exact ih (fun a ha => hpq a (List.mem_cons_of_mem _ ha)) (by omega) a ha hqa

/-- Only where every row is kept do the failures agree. -/
theorem kept_of_failed_eq (hrows : ∀ u ∈ us, c.units u.key = none)
    (h : (ScaleProcessResult.tally (us.map (unitTally env c))).failed
      = (settledResult env c us).failed) : ∀ u ∈ us, RowKept env u := by
  intro u hu
  by_contra hnot
  let stored : PlannedUnit → Bool := fun u => decide (HasStatus .failed (settled env c u))
  let told : PlannedUnit → Bool := fun u => decide (unitTally env c u = .failed)
  have htold : (us.map (unitTally env c)).count .failed = us.countP told := by
    rw [List.count_eq_countP, List.countP_map]
    refine List.countP_congr fun v _ => ?_
    simp [told]
  have hstored : (us.filterMap (settled env c)).countP (fun r => decide (r.status = .failed))
      = us.countP stored := by
    rw [List.countP_filterMap]
    refine List.countP_congr fun v _ => ?_
    cases hs : settled env c v <;> simp [stored, HasStatus, hs]
  have himp : ∀ v ∈ us, stored v = true → told v = true := by
    intro v hv hs
    have hfailed : HasStatus .failed (settled env c v) := of_decide_eq_true hs
    by_cases hkept : RowKept env v
    · refine decide_eq_true ?_
      have htally := (settled_of_kept (hrows v hv) hkept).unique hfailed
      cases ho : unitTally env c v with
      | failed => rfl
      | succeeded | skipped =>
          rw [ho] at htally
          cases htally
    · exact absurd hfailed (settled_of_not_kept (hrows v hv) hkept).2
  have hcount : us.countP stored = us.countP told := by
    rw [← hstored, ← htold]
    exact h.symm
  obtain ⟨htally, hrow⟩ := settled_of_not_kept (hrows u hu) hnot
  exact hrow (of_decide_eq_true (countP_eq_of_imp himp hcount u hu (decide_eq_true htally)))

end CctvMemory.Worker
