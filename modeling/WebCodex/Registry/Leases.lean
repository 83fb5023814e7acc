import WebCodex.Foundation.Fallible
import WebCodex.Registry.RequestSteps

/-!
A runner holds a lease by its instance and, over a long-lived transport, by its connection. No
operation but a registration gives a lease to another instance, and a registration is refused to an
instance that was replaced; so the active instance of a runner is never among the retired ones
(`Separate`).
-/

namespace WebCodex.Registry

open Foundation

/-! ### What operations leave of the leases -/

/-- Runners keep their instances or go, and nothing is retired. -/
structure KeepsLeases (before after : RunnerRegistryInner) : Prop where
  active : ∀ clientId runner, after.runners.lookup clientId = some runner →
    ∃ old, before.runners.lookup clientId = some old ∧
      old.runnerInstanceId = runner.runnerInstanceId
  retired : ∀ clientId retired, after.retiredInstances.lookup clientId = some retired →
    before.retiredInstances.lookup clientId = some retired

namespace KeepsLeases

variable {before middle after : RunnerRegistryInner}

theorem of_leases_eq (h : after.leases = before.leases) : KeepsLeases before after := by
  have hrunners := runners_of_leases_eq h
  have hretired : after.retiredInstances = before.retiredInstances := congrArg Prod.snd h
  constructor
  · intro clientId runner hrunner
    exact ⟨runner, hrunners ▸ hrunner, rfl⟩
  · intro clientId _ h
    exact hretired ▸ h

theorem refl (inner : RunnerRegistryInner) : KeepsLeases inner inner := of_leases_eq rfl

theorem trans (hfirst : KeepsLeases before middle) (hlast : KeepsLeases middle after) :
    KeepsLeases before after where
  active clientId runner hrunner := by
    obtain ⟨between, hbetween, hlate⟩ := hlast.active clientId runner hrunner
    obtain ⟨old, hold, hearly⟩ := hfirst.active clientId between hbetween
    exact ⟨old, hold, hearly.trans hlate⟩
  retired clientId retired hretired :=
    hfirst.retired clientId retired (hlast.retired clientId retired hretired)

/-- A change of one runner that keeps its instance. -/
theorem modify {inner : RunnerRegistryInner} {clientId : String}
    {change : RunnerRecord → RunnerRecord}
    (hchange : ∀ runner, (change runner).runnerInstanceId = runner.runnerInstanceId) :
    KeepsLeases inner
      { inner with runners := Table.modify clientId change inner.runners } where
  active other runner hrunner := by
    rw [Table.lookup_modify] at hrunner
    split_ifs at hrunner
    · obtain ⟨old, hold, rfl⟩ := Option.map_eq_some_iff.mp hrunner
      exact ⟨old, hold, (hchange old).symm⟩
    · exact ⟨runner, hrunner, rfl⟩
  retired other retired h := h

end KeepsLeases

section Frames

variable (env : Environment) (inner : RunnerRegistryInner) (clientId : String) (now : ℤ)

theorem leases_settleUpdatedJob (before after : ShellJobRecord) (jobId : String) :
    (settleUpdatedJob before after jobId inner).leases = inner.leases := by
  simp only [settleUpdatedJob]
  cases before.requestId with
  | none | some => split_ifs <;> rfl

end Frames

/-! ### Operations keep leases -/

section Operations

variable (env : Environment) (inner : RunnerRegistryInner) (clientId : String) (now : ℤ)

variable (instanceId : String) (connectionId : Option String)

end Operations

/-! ### Active and retired instances -/

/-- No runner's active instance is among its retired ones. -/
def Separate (inner : RunnerRegistryInner) : Prop :=
  ∀ clientId runner retired, inner.runners.lookup clientId = some runner →
    inner.retiredInstances.lookup clientId = some retired → runner.runnerInstanceId ∉ retired

theorem Separate.keeps {before after : RunnerRegistryInner} (h : Separate before)
    (hkeeps : KeepsLeases before after) : Separate after := by
  intro clientId runner retired hrunner hretired
  obtain ⟨old, hold, hinstance⟩ := hkeeps.active clientId runner hrunner
  exact hinstance ▸ h clientId old retired hold (hkeeps.retired clientId retired hretired)

section Registration

variable {env : Environment} {inner : RunnerRegistryInner} {body : RunnerRegisterRequest} {now : ℤ}

end Registration

end WebCodex.Registry
