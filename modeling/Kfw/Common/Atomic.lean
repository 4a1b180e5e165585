import Kfw.Lib.Run
import Kfw.Rtos.Itron

open exec Result kfw.rtos

namespace kfw

/-- The state of the processor that the kernel's lock calls read and change. -/
structure Cpu where
  locked : Bool

def sns_loc [Itron] (cpu : Cpu) : Bool := Itron.sns_loc cpu.locked

def loc_cpu [Itron] (cpu : Cpu) : Cpu := { locked := Itron.loc_cpu cpu.locked }

def unl_cpu [Itron] (cpu : Cpu) : Cpu := { locked := Itron.unl_cpu cpu.locked }

abbrev interlock_stat_t := Bool

def atomic_lock [Itron] (cpu : Cpu) : interlock_stat_t × Cpu := (sns_loc cpu, loc_cpu cpu)

def atomic_unlock [Itron] (lock_stat : interlock_stat_t) (cpu : Cpu) : Cpu := if lock_stat then unl_cpu cpu else cpu

structure AtomicLock where
  m_stat : interlock_stat_t

/-- `AtomicLock()`. -/
def AtomicLock.construct [Itron] (cpu : Cpu) : AtomicLock × Cpu :=
  let (m_stat, cpu) := atomic_lock cpu
  ({ m_stat }, cpu)

/-- `~AtomicLock()`. -/
def AtomicLock.destroy [Itron] (self : AtomicLock) (cpu : Cpu) : Cpu := atomic_unlock self.m_stat cpu

/-- The processor and the locks that are alive, the innermost first. -/
structure Locks where
  cpu : Cpu
  alive : List AtomicLock := []

inductive LockOp where
  | construct
  | destroy
  deriving DecidableEq

namespace Locks

/-- A lock is constructed, or the innermost one destroyed. -/
def step [Itron] (locks : Locks) : LockOp → Exec Locks
  | .construct =>
    let (lock, cpu) := AtomicLock.construct locks.cpu
    ok { cpu, alive := lock :: locks.alive }
  | .destroy =>
    match locks.alive with
    | [] => fail .invalid_access
    | lock :: alive => ok { cpu := lock.destroy locks.cpu, alive }

/-- No more locks are destroyed than were constructed. -/
def Nested (locks : Locks) (op : LockOp) : Prop := op = .destroy → locks.alive ≠ []

/-- The processor is locked while a lock is alive, and as it was before the first
one when none is. -/
def Protects (before : Cpu) (locks : Locks) : Prop :=
  if locks.alive = [] then locks.cpu = before else locks.cpu.locked = true

/-- What the locks saved: the outermost one the state before it, the others that
the processor was locked. -/
structure Saved (before : Cpu) (locks : Locks) : Prop where
  protects : locks.Protects before
  saved : locks.alive = [] ∨
    ∃ inner, locks.alive = List.replicate inner { m_stat := true } ++ [{ m_stat := before.locked }]

variable {before : Cpu} {locks : Locks}

theorem Saved.construct [Itron] (h : locks.Saved before) {next : Locks} (hnext : locks.step .construct = ok next) :
    next.Saved before := by
  cases hnext
  refine ⟨by simp [Protects, loc_cpu, Itron.loc_cpu_eq], .inr ?_⟩
  have hprotects := h.protects
  unfold Protects at hprotects
  obtain hnone | ⟨inner, hinner⟩ := h.saved
  · rw [if_pos hnone] at hprotects
    exact ⟨0, by simp [sns_loc, Itron.sns_loc_eq, hnone, hprotects]⟩
  · rw [if_neg (by simp [hinner])] at hprotects
    exact ⟨inner + 1, by simp [sns_loc, Itron.sns_loc_eq, hinner, hprotects, List.replicate_succ]⟩

/-- The first lock to be destroyed leaves the wrong state. -/
theorem Saved.destroy [Itron] (h : locks.Saved before) {next : Locks} (hnext : locks.step .destroy = ok next) :
    ¬ next.Protects before := by
  obtain hnone | ⟨inner, hinner⟩ := h.saved
  · simp [step, hnone] at hnext
  · cases inner with
    | zero =>
      -- the outermost lock, which unlocks if the processor was locked before it, and only then
      have hlocked : locks.cpu.locked = true := by
        have hprotects := h.protects
        rwa [Protects, if_neg (by simp [hinner])] at hprotects
      simp only [step, hinner, List.replicate_zero, List.nil_append, ok.injEq] at hnext
      rw [← hnext, Protects, if_pos rfl]
      intro hrestored
      have hsame := congrArg Cpu.locked hrestored
      cases hbefore : before.locked with
      | false => simp [AtomicLock.destroy, atomic_unlock, hbefore, hlocked] at hsame
      | true => simp [AtomicLock.destroy, atomic_unlock, hbefore, unl_cpu, Itron.unl_cpu_eq] at hsame
    | succ inner =>
      -- an inner lock, which unlocks although the outermost one is alive
      simp only [step, hinner, List.replicate_succ, List.cons_append, ok.injEq] at hnext
      rw [← hnext]
      simp [Protects, AtomicLock.destroy, atomic_unlock, unl_cpu, Itron.unl_cpu_eq]

/-- A run without destructions goes through all its operations. -/
theorem along_not_destroy_iff [Itron] {ops : List LockOp} :
    Along step (fun _ op => op ≠ .destroy) locks ops ↔ .destroy ∉ ops := by
  induction ops generalizing locks with
  | nil => simp [Along]
  | cons op ops ih =>
    cases op with
    | construct =>
      rw [along_cons_of_ok (rfl : locks.step .construct = ok _), ih]
      simp
    | destroy => simp [Along]

end Locks

/-- Over every nested sequence of constructions and destructions, from either
state of the processor, the locks protect exactly if none of them is destroyed. -/
theorem atomic_lock_protects_iff [Itron] (before : Cpu) {ops : List LockOp}
    (hnested : Along Locks.step Locks.Nested { cpu := before } ops) :
    Always Locks.step (Locks.Protects before) { cpu := before } ops ↔ .destroy ∉ ops := by
  have hstart : Locks.Saved before { cpu := before } := ⟨rfl, .inl rfl⟩
  rw [← Locks.along_not_destroy_iff]
  refine always_iff_along_of_break (Locks.Saved before) (fun _ hsaved => hsaved.protects) ?_ ?_ hstart hnested
  · intro locks op next hsaved _ hconstruct hnext
    cases op with
    | construct => exact hsaved.construct hnext
    | destroy => exact absurd rfl hconstruct
  · intro locks op hsaved hop hdestroy
    obtain rfl : op = .destroy := not_not.mp hdestroy
    obtain ⟨lock, alive, halive⟩ := List.exists_cons_of_ne_nil (hop rfl)
    have hnext : locks.step .destroy = ok { cpu := lock.destroy locks.cpu, alive } := by
      rw [Locks.step, halive]
    exact ⟨_, hnext, hsaved.destroy hnext⟩

theorem atomic_lock_protects_inside :
    Always Locks.step (Locks.Protects { locked := false }) { cpu := { locked := false } }
      [.construct, .construct] := by
  refine (atomic_lock_protects_iff { locked := false } ?_).mpr (by simp)
  simp [Along, Locks.Nested]

/-- One lock constructed and destroyed on a processor that is not locked leaves
it locked. -/
theorem atomic_lock_stays_locked :
    Along Locks.step Locks.Nested { cpu := { locked := false } } [.construct, .destroy] ∧
      ¬ Always Locks.step (Locks.Protects { locked := false }) { cpu := { locked := false } }
        [.construct, .destroy] := by
  constructor
  · simp [Along, Locks.Nested, Locks.step]
  · intro hprotects
    have hrun : steps Locks.step { cpu := { locked := false } } [.construct, .destroy] =
        ok { cpu := { locked := true } } := rfl
    have hlast := hprotects.last hrun
    simp [Locks.Protects] at hlast

end kfw
