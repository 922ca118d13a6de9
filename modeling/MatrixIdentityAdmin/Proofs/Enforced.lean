import MatrixIdentityAdmin.Proofs.Failures
import MatrixIdentityAdmin.Proofs.FixedPoint
import MatrixIdentityAdmin.Spec.Promises

/-!
# A reconciliation without warnings

One warning for each call that failed means that without warnings nothing
failed, and a run in which nothing failed is the run of a good day. So what is
known of good days is known of every reconciliation that has nothing to report.
-/

namespace MatrixIdentityAdmin.Ref

open MatrixIdentityAdmin.Lib

variable {w w' : World} {keycloakId m actorSubject actorUsername : String}
  {groups roles : List String} {bindings : List PolicyBinding}

/-- A call of a good day: it comes back `Ok`, and it is no session list, which
may come back short even so. -/
def Fine (c : Call) (x : Answer c) : Prop :=
  x.isOk = true ∧ ∀ id, c ≠ .mas (.listSessions id)

theorem serve_of_fine {c : Call} {x : Answer c} (hx : Fine c x)
    (hs : World.env.step w c x w') : w.serve c = (x, w') := by
  obtain ⟨hok, hc⟩ := hx
  cases x with
  | error e => cases hok
  | ok a => exact World.step_ok hs hc

/-- The reconciliation lists nobody's sessions. -/
theorem reconcileMembership_lists_nothing :
    (reconcileMembership keycloakId m groups roles actorSubject actorUsername
      bindings).Only fun c => ∀ id, c ≠ .mas (.listSessions id) :=
  reconcileMembership_only (fun _ => by simp) fun _ _ _ _ => by simp

theorem reconcileMembership_count {t : List Exchange} {o : WorkflowOutcome}
    (hr : (reconcileMembership keycloakId m groups roles actorSubject actorUsername
      bindings).Runs t (.ok o)) : o.warnings.length = t.countP failed := by
  have htally := Prog.wp_monitor_reaches reconcileMembership_tally hr
  obtain ⟨o', ho, hlen⟩ := htally
  cases ho
  rw [hlen, foldl_tally, Nat.zero_add]

/-- Without warnings it is the run of a good day. -/
theorem reconcileMembership_fine {t : List Exchange} {o : WorkflowOutcome}
    (hr : (reconcileMembership keycloakId m groups roles actorSubject actorUsername
      bindings).Runs t (.ok o)) (hp : World.env.Path w t w')
    (hclean : o.warnings = []) :
    (reconcileMembership keycloakId m groups roles actorSubject actorUsername
      bindings).exec World.serve w = ⟨.ok o, t, w'⟩ := by
  have hlen := reconcileMembership_count hr
  rw [hclean, List.length_nil, eq_comm, List.countP_eq_zero] at hlen
  refine Prog.exec_of_path (fun s c x s' => serve_of_fine) hr hp fun e he => ?_
  refine ⟨?_, reconcileMembership_lists_nothing.reaches hr e.call
    (List.mem_map_of_mem he)⟩
  simpa [failed] using hlen e he

theorem reconcileMembership_enforced {t : List Exchange} {o : WorkflowOutcome}
    (hr : (reconcileMembership keycloakId m groups roles actorSubject actorUsername
      bindings).Runs t (.ok o)) (hp : World.env.Path w t w')
    (hclean : o.warnings = []) (hconsistent : w.Consistent groups roles bindings) :
    w.Enforced m groups roles bindings w' := by
  intro r
  have hrun := reconcileMembership_fine hr hp hclean
  have hmember := settle_member keycloakId m groups roles actorSubject actorUsername
    hconsistent (r := r)
  rw [settle, hrun] at hmember
  exact hmember

end MatrixIdentityAdmin.Ref
