import Kfw.Common.Atomic

open exec Result kfw.rtos

namespace kfw.net

abbrev sys_prot_t := Int32

def sys_arch_protect [Itron] (cpu : Cpu) : sys_prot_t × Cpu := (1, loc_cpu cpu)

def sys_arch_unprotect [Itron] (_pval : sys_prot_t) (cpu : Cpu) : Cpu := unl_cpu cpu

/-- The processor, and what the calls of `sys_arch_protect` returned that are not
yet undone, the innermost first. -/
structure Protection where
  cpu : Cpu
  levels : List sys_prot_t := []

inductive ProtectOp where
  | protect
  | unprotect

namespace Protection

/-- Each `unprotect` gets what its `protect` returned. -/
def step [Itron] (protection : Protection) : ProtectOp → Exec Protection
  | .protect =>
    let (pval, cpu) := sys_arch_protect protection.cpu
    ok { cpu, levels := pval :: protection.levels }
  | .unprotect =>
    match protection.levels with
    | [] => fail .invalid_access
    | pval :: levels => ok { cpu := sys_arch_unprotect pval protection.cpu, levels }

/-- No more calls are undone than were made. -/
def Nested (protection : Protection) (op : ProtectOp) : Prop := op = .unprotect → protection.levels ≠ []

/-- The processor is locked while a call is not undone, and otherwise as it was
before the first one. -/
def Protects (before : Cpu) (protection : Protection) : Prop :=
  if protection.levels = [] then protection.cpu = before else protection.cpu.locked = true

/-- Only an outermost call is undone, and only on a processor that was not locked
before it. -/
def Outermost (before : Cpu) (protection : Protection) (op : ProtectOp) : Prop :=
  op = .unprotect → protection.levels.length = 1 ∧ before.locked = false

variable {before : Cpu} {protection : Protection} {op : ProtectOp}

theorem Protects.step [Itron] (h : protection.Protects before) (houtermost : protection.Outermost before op)
    {next : Protection} (hnext : protection.step op = ok next) : next.Protects before := by
  cases op with
  | protect =>
    cases hnext
    simp [Protects, loc_cpu, Itron.loc_cpu_eq]
  | unprotect =>
    obtain ⟨hone, hunlocked⟩ := houtermost rfl
    obtain ⟨pval, hlevels⟩ := List.length_eq_one_iff.mp hone
    simp only [Protection.step, hlevels, ok.injEq] at hnext
    rw [← hnext, Protects, if_pos rfl, sys_arch_unprotect, unl_cpu, Itron.unl_cpu_eq]
    cases before
    rw [Cpu.mk.injEq]
    exact hunlocked.symm

/-- Any other call of `sys_arch_unprotect` unlocks a processor that has to stay
locked. -/
theorem unlocks [Itron] (hnested : protection.Nested op) (hinner : ¬ protection.Outermost before op) :
    ∃ next, protection.step op = ok next ∧ ¬ next.Protects before := by
  rw [Outermost, Classical.not_imp, not_and, Bool.not_eq_false] at hinner
  obtain ⟨rfl, hlocked⟩ := hinner
  obtain ⟨pval, levels, hlevels⟩ := List.exists_cons_of_ne_nil (hnested rfl)
  have hopen : (unl_cpu protection.cpu).locked = false := Itron.unl_cpu_eq _
  refine ⟨{ cpu := unl_cpu protection.cpu, levels }, ?_, fun hprotects => ?_⟩
  · rw [Protection.step, hlevels]
    rfl
  · cases levels with
    | nil =>
      -- the processor was locked before the outermost call
      have hbefore : before.locked = true := hlocked (by rw [hlevels, List.length_singleton])
      rw [Protects, if_pos rfl] at hprotects
      rw [← hprotects, hopen] at hbefore
      cases hbefore
    | cons outer levels =>
      -- an outer call is not yet undone
      rw [Protects, if_neg (List.cons_ne_nil _ _), hopen] at hprotects
      cases hprotects

end Protection

/-- Over every nested sequence of calls, from either state of the processor, it is
protected exactly if only outermost calls are undone and it was not locked before
them. -/
theorem sys_arch_protects_iff [Itron] (before : Cpu) {ops : List ProtectOp}
    (hnested : Along Protection.step Protection.Nested { cpu := before } ops) :
    Always Protection.step (Protection.Protects before) { cpu := before } ops ↔
      Along Protection.step (Protection.Outermost before) { cpu := before } ops := by
  refine always_iff_along_of_break (Protection.Protects before) (fun _ hprotects => hprotects) ?_ ?_ rfl hnested
  · intro protection op next hprotects _ houtermost hnext
    exact hprotects.step houtermost hnext
  · intro protection op _ hop hinner
    exact Protection.unlocks hop hinner

/-- One section after another, none inside another. -/
theorem sys_arch_protects_twice :
    Always Protection.step (Protection.Protects { locked := false }) { cpu := { locked := false } }
      [.protect, .unprotect, .protect, .unprotect] := by
  refine (sys_arch_protects_iff { locked := false } ?_).mpr ?_
  · simp [Along, Protection.Nested, Protection.step]
  · simp [Along, Protection.Outermost, Protection.step]

/-- The inner of two sections opens the outer one. -/
theorem sys_arch_unprotect_opens_outer :
    Along Protection.step Protection.Nested { cpu := { locked := false } } [.protect, .protect, .unprotect] ∧
      ¬ Always Protection.step (Protection.Protects { locked := false }) { cpu := { locked := false } }
        [.protect, .protect, .unprotect] := by
  constructor
  · simp [Along, Protection.Nested, Protection.step]
  · intro hprotects
    have hrun : steps Protection.step { cpu := { locked := false } } [.protect, .protect, .unprotect] =
        ok { cpu := { locked := false }, levels := [1] } := rfl
    have hlast := hprotects.last hrun
    simp [Protection.Protects] at hlast

end kfw.net
