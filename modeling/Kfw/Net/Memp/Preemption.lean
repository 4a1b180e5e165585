import Kfw.Net.Memp

open exec Result

namespace kfw.net

/-- Where a task stands in a call of `memp_malloc` or `memp_free`. `SYS_LIGHTWEIGHT_PROT` is 0,
so that `SYS_ARCH_PROTECT` is nothing and a task can be preempted between any two accesses. -/
inductive MempCall where
  | none
  /-- `memp = *desc->tab` is read -/
  | malloc (memp : Addr)
  /-- `memp->next` is read -/
  | unlink (memp next : Addr)
  /-- `*desc->tab` is read, which `memp->next` is to be -/
  | free (memp next : Addr)
  /-- `memp->next` is written -/
  | link (memp : Addr)
  deriving DecidableEq

/-- The call is about to put the element back. -/
def MempCall.Frees (call : MempCall) (mem : Addr) : Prop :=
  match call with
  | .free memp _ => memp = mem
  | .link memp => memp = mem
  | _ => False

/-- A task is in `memp_malloc`, or may call it. -/
def MempCall.Mallocs : MempCall → Prop
  | .none | .malloc _ | .unlink _ _ => True
  | .free _ _ | .link _ => False

theorem MempCall.Frees.unique {call : MempCall} {mem other : Addr} (h : call.Frees mem) (hother : call.Frees other) :
    mem = other := by
  cases call with
  | none | malloc | unlink => exact h.elim
  | free | link => exact h.symm.trans hother

theorem MempCall.Frees.eq_of_none_or {call : MempCall} {mem other : Addr} (h : call.Frees mem)
    (hcall : call = .none ∨ call.Frees other) : other = mem := by
  rcases hcall with hnone | hother
  · rw [hnone] at h
    exact h.elim
  · exact hother.unique h

theorem MempCall.Mallocs.not_frees {call : MempCall} (h : call.Mallocs) (mem : Addr) : ¬ call.Frees mem := by
  cases call with
  | none | malloc | unlink => exact id
  | free | link => exact h.elim

/-- The number of accesses that `memp_free` still makes. -/
def MempCall.free_left : MempCall → Nat
  | .none => 3
  | .free _ _ => 2
  | .link _ => 1
  | .malloc _ | .unlink _ _ => 0

/-- A call takes an element only where there is one. -/
def MempCall.Valid : MempCall → Prop
  | .malloc memp | .unlink memp _ => memp ≠ nullptr
  | _ => True

/-- A pool shared by tasks, with the elements that are out. -/
structure MempTasks (Tid : Type) where
  pool : Memp
  call : Tid → MempCall := fun _ => .none
  out : List Addr := []

inductive MempStep (Tid : Type) where
  /-- the first access of a call -/
  | malloc (task : Tid)
  | free (task : Tid) (mem : Addr)
  /-- the next access of the call that the task is in -/
  | next (task : Tid)
  /-- the user of an element writes to its first word -/
  | store (mem word : Addr)

namespace MempTasks

variable {Tid : Type}

/-- The element is out and nobody is putting it back. -/
def InUse (tasks : MempTasks Tid) (mem : Addr) : Prop :=
  mem ∈ tasks.out ∧ ∀ task, ¬ (tasks.call task).Frees mem

/-- A task is in one call at a time, and elements are written to and put back only by who has
them; they may go from one task to another in between. -/
def Enabled (tasks : MempTasks Tid) : MempStep Tid → Prop
  | .malloc task => tasks.call task = .none
  | .free task mem => tasks.call task = .none ∧ tasks.InUse mem
  | .next _ => True
  | .store mem _ => tasks.InUse mem

/-- Every element is free or out, once, and the free ones are linked. -/
def Conserved (all : List Addr) (tasks : MempTasks Tid) : Prop := ∃ free, tasks.pool.Represents all free tasks.out

/-- What a call writes to `*desc->tab` rests on what it has read still being there. -/
def Current (tasks : MempTasks Tid) : MempStep Tid → Prop
  | .next task =>
    match tasks.call task with
    | .unlink memp next => tasks.pool.tab = memp ∧ tasks.pool.next memp = next
    | .link memp => tasks.pool.next memp = tasks.pool.tab
    | _ => True
  | _ => True

instance Current.decidable (tasks : MempTasks Tid) : ∀ action, Decidable (tasks.Current action)
  | .malloc _ | .free _ _ | .store _ _ => .isTrue trivial
  | .next task =>
    show Decidable (match tasks.call task with
      | .unlink memp next => tasks.pool.tab = memp ∧ tasks.pool.next memp = next
      | .link memp => tasks.pool.next memp = tasks.pool.tab
      | _ => True) from
    match tasks.call task with
    | .none | .malloc _ | .free _ _ => .isTrue trivial
    | .unlink _ _ => inferInstanceAs (Decidable (_ ∧ _))
    | .link _ => inferInstanceAs (Decidable (_ = _))

/-- What `SYS_ARCH_PROTECT` is for: no access to a pool while another task is in a call. -/
def Protected (tasks : MempTasks Tid) : MempStep Tid → Prop
  | .malloc task | .free task _ | .next task => ∀ other, other ≠ task → tasks.call other = .none
  | .store _ _ => True

/-- Each call puts back an element that is out, and no two the same. -/
structure Calls (call : Tid → MempCall) (out : List Addr) : Prop where
  valid : ∀ task, (call task).Valid
  mem_out : ∀ task mem, (call task).Frees mem → mem ∈ out
  alone : ∀ task other mem, (call task).Frees mem → (call other).Frees mem → task = other

structure Kept (all : List Addr) (tasks : MempTasks Tid) : Prop where
  conserved : tasks.Conserved all
  calls : Calls tasks.call tasks.out

theorem Calls.mono {call : Tid → MempCall} {out more : List Addr} (h : Calls call out) (hsubset : out ⊆ more) :
    Calls call more :=
  ⟨h.valid, fun task mem hfrees => hsubset (h.mem_out task mem hfrees), h.alone⟩

/-- What a call has read is still there. -/
def Fresh (pool : Memp) : MempCall → Prop
  | .none => True
  | .malloc memp => pool.tab = memp
  | .unlink memp next => pool.tab = memp ∧ pool.next memp = next
  | .free _ next => pool.tab = next
  | .link memp => pool.next memp = pool.tab

/-- Protected, nobody changes the pool under a call. -/
structure Settled (all : List Addr) (tasks : MempTasks Tid) : Prop extends Kept all tasks where
  fresh : ∀ task, Fresh tasks.pool (tasks.call task)

theorem Settled.current {all : List Addr} {tasks : MempTasks Tid} (h : tasks.Settled all) (action : MempStep Tid) :
    tasks.Current action := by
  cases action with
  | malloc | free | store => trivial
  | next task =>
    have hfresh := h.fresh task
    simp only [Current]
    cases hcall : tasks.call task with
    | none | malloc | free => trivial
    | unlink memp next =>
      rw [hcall] at hfresh
      exact hfresh
    | link memp =>
      rw [hcall] at hfresh
      exact hfresh

/-- The tasks on a pool that `memp_init_pool` has made. -/
def start (num size : Nat) (base : Addr) (next : Addr → Addr) : MempTasks Tid :=
  { pool := Memp.memp_init_pool num size base next }

theorem start_settled {num size : Nat} {base : Addr} (hsize : 0 < size) (hbase : base ≠ nullptr)
    (next : Addr → Addr) : (start num size base next : MempTasks Tid).Settled (Memp.elements num size base) where
  conserved := ⟨_, Memp.memp_init_pool_represents hsize hbase next⟩
  calls := ⟨fun _ => trivial, fun _ _ hfrees => hfrees.elim, fun _ _ _ hfrees => hfrees.elim⟩
  fresh _ := trivial

variable [DecidableEq Tid]

def set_call (tasks : MempTasks Tid) (task : Tid) (call : MempCall) : MempTasks Tid :=
  { tasks with call := Function.update tasks.call task call }

@[simp] theorem set_call_self (tasks : MempTasks Tid) (task : Tid) (call : MempCall) :
    (tasks.set_call task call).call task = call :=
  Function.update_self _ _ _

def next (tasks : MempTasks Tid) (task : Tid) : MempTasks Tid :=
  match tasks.call task with
  | .none => tasks
  | .malloc memp => tasks.set_call task (.unlink memp (tasks.pool.next memp))
  | .unlink memp next =>
    { tasks.set_call task .none with pool := { tasks.pool with tab := next }, out := memp :: tasks.out }
  | .free memp next =>
    { tasks.set_call task (.link memp) with
      pool := { tasks.pool with next := Function.update tasks.pool.next memp next } }
  | .link memp =>
    { tasks.set_call task .none with pool := { tasks.pool with tab := memp }, out := tasks.out.erase memp }

def step (tasks : MempTasks Tid) : MempStep Tid → Exec (MempTasks Tid)
  | .malloc task =>
    if tasks.pool.tab = nullptr then ok tasks else ok (tasks.set_call task (.malloc tasks.pool.tab))
  | .free task mem => ok (tasks.set_call task (.free mem tasks.pool.tab))
  | .next task => ok (tasks.next task)
  | .store mem word =>
    ok { tasks with pool := { tasks.pool with next := Function.update tasks.pool.next mem word } }

/-- The next access of a task to the pool in `memp_malloc`, and what that returns if it was
the last one. -/
def memp_malloc (tasks : MempTasks Tid) (task : Tid) : Option Addr × MempTasks Tid :=
  match tasks.call task with
  | .none =>
    if tasks.pool.tab = nullptr then (some nullptr, tasks)
    else (none, tasks.set_call task (.malloc tasks.pool.tab))
  | .unlink memp _ => (some memp, tasks.next task)
  | _ => (none, tasks.next task)

/-- The next access of a task to the pool in `memp_free`, and whether it was the last one. -/
def memp_free (tasks : MempTasks Tid) (task : Tid) (mem : Addr) : Bool × MempTasks Tid :=
  match tasks.call task with
  | .none => if mem = nullptr then (true, tasks) else (false, tasks.set_call task (.free mem tasks.pool.tab))
  | .link _ => (true, tasks.next task)
  | _ => (false, tasks.next task)

section calls

variable {call : Tid → MempCall} {out : List Addr} {task : Tid}

/-- A task goes on with another call, which puts back nothing that another task does. -/
theorem Calls.update (h : Calls call out) {new : MempCall} (hvalid : new.Valid)
    (hnew : ∀ mem, new.Frees mem → mem ∈ out ∧ ∀ other, other ≠ task → ¬ (call other).Frees mem) :
    Calls (Function.update call task new) out := by
  refine ⟨fun other => ?_, fun other mem hfrees => ?_, fun first second mem hfirst hsecond => ?_⟩
  · by_cases hother : other = task
    · rwa [hother, Function.update_self]
    · rw [Function.update_of_ne hother]
      exact h.valid other
  · by_cases hother : other = task
    · rw [hother, Function.update_self] at hfrees
      exact (hnew mem hfrees).1
    · rw [Function.update_of_ne hother] at hfrees
      exact h.mem_out other mem hfrees
  · by_cases hfirstTask : first = task <;> by_cases hsecondTask : second = task
    · rw [hfirstTask, hsecondTask]
    · rw [hfirstTask, Function.update_self] at hfirst
      rw [Function.update_of_ne hsecondTask] at hsecond
      exact absurd hsecond ((hnew mem hfirst).2 second hsecondTask)
    · rw [hsecondTask, Function.update_self] at hsecond
      rw [Function.update_of_ne hfirstTask] at hfirst
      exact absurd hfirst ((hnew mem hsecond).2 first hfirstTask)
    · rw [Function.update_of_ne hfirstTask] at hfirst
      rw [Function.update_of_ne hsecondTask] at hsecond
      exact h.alone first second mem hfirst hsecond

theorem Calls.returns (h : Calls call out) : Calls (Function.update call task .none) out :=
  h.update trivial fun _ hfrees => hfrees.elim

/-- An element that was put back was nobody else's to put back. -/
theorem Calls.erase (h : Calls call out) {memp : Addr} (hcall : (call task).Frees memp) :
    Calls (Function.update call task .none) (out.erase memp) := by
  have hreturns : Calls (Function.update call task .none) out := h.returns
  refine ⟨hreturns.valid, fun other mem hfrees => ?_, hreturns.alone⟩
  have hother : other ≠ task := by
    rintro rfl
    rw [Function.update_self] at hfrees
    exact hfrees
  have hmem := hreturns.mem_out other mem hfrees
  rw [Function.update_of_ne hother] at hfrees
  refine (List.mem_erase_of_ne ?_).mpr hmem
  rintro rfl
  exact hother (h.alone other task mem hfrees hcall)

end calls

variable {all : List Addr} {tasks later : MempTasks Tid} {task : Tid} {action : MempStep Tid}

/-- One access of a call, which writes to the head of the list only what is current. -/
theorem Kept.access (h : tasks.Kept all) (hcurrent : tasks.Current (.next task)) : (tasks.next task).Kept all := by
  obtain ⟨free, hrep⟩ := h.conserved
  have hvalid := h.calls.valid task
  simp only [Current] at hcurrent
  unfold MempTasks.next
  cases hcall : tasks.call task with
  | none => exact h
  | malloc memp =>
    rw [hcall] at hvalid
    exact ⟨h.conserved, h.calls.update hvalid fun _ hfrees => hfrees.elim⟩
  | unlink memp next =>
    rw [hcall] at hcurrent hvalid
    obtain ⟨rfl, rfl⟩ := hcurrent
    obtain ⟨rest, -, hnext⟩ := hrep.unlink hvalid
    exact ⟨⟨rest, hnext⟩, h.calls.returns.mono (List.subset_cons_self _ _)⟩
  | free memp next =>
    have hfrees : (tasks.call task).Frees memp := by rw [hcall]; rfl
    have hout := h.calls.mem_out task memp hfrees
    refine ⟨⟨free, hrep.store hout next⟩, h.calls.update trivial fun mem hmem => ?_⟩
    obtain rfl : memp = mem := hmem
    exact ⟨hout, fun other hother hboth => hother (h.calls.alone other task memp hboth hfrees)⟩
  | link memp =>
    rw [hcall] at hcurrent
    have hfrees : (tasks.call task).Frees memp := by rw [hcall]; rfl
    exact ⟨⟨_, hrep.link (h.calls.mem_out task memp hfrees) hcurrent⟩, h.calls.erase hfrees⟩

theorem Kept.step (h : tasks.Kept all) (henabled : tasks.Enabled action) (hcurrent : tasks.Current action)
    (hnext : tasks.step action = ok later) : later.Kept all := by
  obtain ⟨free, hrep⟩ := h.conserved
  cases action with
  | malloc task =>
    simp only [MempTasks.step] at hnext
    split at hnext
    · cases hnext
      exact h
    · rename_i htab
      cases hnext
      exact ⟨h.conserved, h.calls.update htab fun _ hfrees => hfrees.elim⟩
  | free task mem =>
    cases hnext
    refine ⟨h.conserved, h.calls.update trivial fun memp hfrees => ?_⟩
    obtain rfl : mem = memp := hfrees
    exact ⟨henabled.2.1, fun other _ => henabled.2.2 other⟩
  | next task =>
    cases hnext
    exact h.access hcurrent
  | store mem word =>
    cases hnext
    exact ⟨⟨free, hrep.store henabled.1 word⟩, h.calls⟩

theorem next_call_of_ne {other : Tid} (hother : other ≠ task) : (tasks.next task).call other = tasks.call other := by
  unfold MempTasks.next
  cases tasks.call task with
  | none => rfl
  | malloc | unlink | free | link => exact Function.update_of_ne hother _ _

/-- `memp_malloc` goes on, or it returns an element that nobody has. -/
theorem Kept.memp_malloc (h : tasks.Kept all) (hcurrent : tasks.Current (.next task))
    (hcall : (tasks.call task).Mallocs) (htab : tasks.call task = .none → tasks.pool.tab ≠ nullptr) :
    ∃ later, later.Kept all ∧ (∀ other, other ≠ task → later.call other = tasks.call other) ∧
      ((tasks.memp_malloc task = (none, later) ∧ later.out = tasks.out ∧ (later.call task).Mallocs) ∨
        ∃ memp, memp ≠ nullptr ∧ tasks.memp_malloc task = (some memp, later) ∧ later.out = memp :: tasks.out ∧
          later.call task = .none) := by
  have hvalid := h.calls.valid task
  have hnext := h.access hcurrent
  unfold MempTasks.memp_malloc
  cases hpc : tasks.call task with
  | none =>
    have hnull := htab hpc
    have hstep : tasks.step (.malloc task) = ok (tasks.set_call task (.malloc tasks.pool.tab)) := by
      rw [MempTasks.step, if_neg hnull]
    have hkept := h.step (show tasks.Enabled (.malloc task) from hpc) trivial hstep
    refine ⟨_, hkept, fun other hother => Function.update_of_ne hother _ _, .inl ⟨if_neg hnull, rfl, ?_⟩⟩
    rw [set_call_self]
    trivial
  | malloc memp =>
    refine ⟨_, hnext, fun _ => next_call_of_ne, .inl ⟨rfl, ?_, ?_⟩⟩
    · simp only [MempTasks.next, hpc, set_call]
    · simp only [MempTasks.next, hpc, set_call_self]
      trivial
  | unlink memp next =>
    rw [hpc] at hvalid
    refine ⟨_, hnext, fun _ => next_call_of_ne, .inr ⟨memp, hvalid, rfl, ?_, ?_⟩⟩
    · simp only [MempTasks.next, hpc]
    · simp only [MempTasks.next, hpc, set_call_self]
  | free | link =>
    rw [hpc] at hcall
    exact hcall.elim

/-- Whatever became of the pool, `memp_free` goes on with the element or returns, and has then
made its last access. -/
theorem memp_free_cases {mem : Addr} (hcall : tasks.call task = .none ∨ (tasks.call task).Frees mem) :
    ∃ later, (∀ other, other ≠ task → later.call other = tasks.call other) ∧
      ((tasks.memp_free task mem = (false, later) ∧ later.out = tasks.out ∧ (later.call task).Frees mem ∧
          (later.call task).free_left < (tasks.call task).free_left) ∨
        (tasks.memp_free task mem = (true, later) ∧ (mem ≠ nullptr → later.out = tasks.out.erase mem) ∧
          later.call task = .none ∧ 0 < (tasks.call task).free_left)) := by
  unfold MempTasks.memp_free
  cases hpc : tasks.call task with
  | none =>
    by_cases hmem : mem = nullptr
    · exact ⟨tasks, fun _ _ => rfl, .inr ⟨if_pos hmem, absurd hmem, hpc, Nat.succ_pos 2⟩⟩
    · refine ⟨_, fun other hother => Function.update_of_ne hother _ _, .inl ⟨if_neg hmem, rfl, ?_⟩⟩
      rw [set_call_self]
      exact ⟨rfl, Nat.lt_succ_self 2⟩
  | malloc | unlink =>
    rw [hpc] at hcall
    exact hcall.elim nofun False.elim
  | free memp next =>
    rw [hpc] at hcall
    obtain rfl : memp = mem := hcall.elim nofun id
    have hnext : (tasks.next task).call task = .link memp := by simp only [MempTasks.next, hpc, set_call_self]
    refine ⟨_, fun _ => next_call_of_ne, .inl ⟨rfl, ?_, ?_⟩⟩
    · simp only [MempTasks.next, hpc, set_call]
    · rw [hnext]
      exact ⟨rfl, Nat.lt_succ_self 1⟩
  | link memp =>
    rw [hpc] at hcall
    obtain rfl : memp = mem := hcall.elim nofun id
    refine ⟨_, fun _ => next_call_of_ne, .inr ⟨rfl, fun _ => ?_, ?_, Nat.succ_pos 0⟩⟩
    · simp only [MempTasks.next, hpc]
    · simp only [MempTasks.next, hpc, set_call_self]

/-- `memp_free` goes on, or the element is free again when it returns. -/
theorem Kept.memp_free (h : tasks.Kept all) (hcurrent : tasks.Current (.next task)) {mem : Addr}
    (hcall : tasks.call task = .none ∧ tasks.InUse mem ∨ (tasks.call task).Frees mem) :
    ∃ later, later.Kept all ∧ (∀ other, other ≠ task → later.call other = tasks.call other) ∧
      ((tasks.memp_free task mem = (false, later) ∧ later.out = tasks.out ∧ (later.call task).Frees mem) ∨
        (tasks.memp_free task mem = (true, later) ∧ later.out = tasks.out.erase mem ∧ later.call task = .none)) := by
  have hmem : mem ∈ tasks.out := by
    rcases hcall with ⟨-, hused⟩ | hfrees
    · exact hused.1
    · exact h.calls.mem_out task mem hfrees
  obtain ⟨free, hrep⟩ := h.conserved
  have hnull := hrep.ne_null_of_mem_out hmem
  have hkept : (tasks.memp_free task mem).2.Kept all := by
    unfold MempTasks.memp_free
    cases hpc : tasks.call task with
    | none =>
      rw [hpc] at hcall
      have hused := hcall.elim (·.2) False.elim
      have hstep : tasks.step (.free task mem) = ok (tasks.set_call task (.free mem tasks.pool.tab)) := rfl
      simp only [if_neg hnull]
      exact h.step (show tasks.Enabled (.free task mem) from ⟨hpc, hused⟩) trivial hstep
    | malloc | unlink | free | link => exact h.access hcurrent
  obtain ⟨later, hothers, ⟨hfree, hout, hfrees, -⟩ | ⟨hfree, hout, hnone, -⟩⟩ :=
    memp_free_cases (hcall.imp_left And.left)
  · rw [hfree] at hkept
    exact ⟨later, hkept, hothers, .inl ⟨hfree, hout, hfrees⟩⟩
  · rw [hfree] at hkept
    exact ⟨later, hkept, hothers, .inr ⟨hfree, hout hnull, hnone⟩⟩

/-- A task that is not preempted in `memp_malloc` takes what `do_memp_malloc_pool` does. -/
theorem malloc_undisturbed (hcall : tasks.call task = .none) (htab : tasks.pool.tab ≠ nullptr) :
    steps step tasks [.malloc task, .next task, .next task] = ok
      { tasks with
        pool := tasks.pool.do_memp_malloc_pool.2, out := tasks.pool.do_memp_malloc_pool.1 :: tasks.out } := by
  simp [steps, step, htab, MempTasks.next, set_call, Memp.do_memp_malloc_pool, ← hcall]

theorem free_undisturbed (hcall : tasks.call task = .none) {mem : Addr} (hmem : mem ≠ nullptr) :
    steps step tasks [.free task mem, .next task, .next task] = ok
      { tasks with pool := tasks.pool.memp_free mem, out := tasks.out.erase mem } := by
  simp [steps, step, MempTasks.next, set_call, Memp.memp_free, hmem, Memp.do_memp_free_pool, ← hcall]

/-- A stale head or link that is written to the head of the list loses an element or gives one
away twice. -/
theorem Kept.breaks (h : tasks.Kept all) (hstale : ¬ tasks.Current action) :
    ∃ later, tasks.step action = ok later ∧ ¬ later.Conserved all := by
  obtain ⟨free, hrep⟩ := h.conserved
  cases action with
  | malloc | free | store => exact absurd trivial hstale
  | next task =>
    refine ⟨tasks.next task, rfl, ?_⟩
    simp only [Current] at hstale
    unfold MempTasks.next
    cases hcall : tasks.call task with
    | none | malloc | free =>
      rw [hcall] at hstale
      exact absurd trivial hstale
    | unlink memp next =>
      rw [hcall] at hstale
      rintro ⟨rest, hrest⟩
      exact hstale (hrep.unlink_inv hrest)
    | link memp =>
      rw [hcall] at hstale
      have hout := h.calls.mem_out task memp (by rw [hcall]; rfl)
      rintro ⟨more, hmore⟩
      exact hstale (hrep.link_inv hout hmore)

/-- The only task in a call has read what is there. -/
theorem fresh_update {pool : Memp} {call : Tid → MempCall} {new : MempCall} (hnew : Fresh pool new)
    (hothers : ∀ other, other ≠ task → call other = .none) (other : Tid) :
    Fresh pool (Function.update call task new other) := by
  by_cases hother : other = task
  · rwa [hother, Function.update_self]
  · rw [Function.update_of_ne hother, hothers other hother]
    trivial

theorem Settled.fresh_step (h : tasks.Settled all) (henabled : tasks.Enabled action)
    (hprotected : tasks.Protected action) (hnext : tasks.step action = ok later) (other : Tid) :
    Fresh later.pool (later.call other) := by
  cases action with
  | malloc task =>
    simp only [MempTasks.step] at hnext
    split at hnext
    · cases hnext
      exact h.fresh other
    · cases hnext
      refine fresh_update ?_ hprotected other
      exact rfl
  | free task mem =>
    cases hnext
    refine fresh_update ?_ hprotected other
    exact rfl
  | next task =>
    cases hnext
    have hfresh := h.fresh task
    unfold MempTasks.next
    cases hcall : tasks.call task with
    | none => exact h.fresh other
    | malloc memp =>
      rw [hcall] at hfresh
      refine fresh_update ?_ hprotected other
      exact ⟨hfresh, rfl⟩
    | unlink | link =>
      refine fresh_update ?_ hprotected other
      trivial
    | free memp next =>
      rw [hcall] at hfresh
      refine fresh_update ?_ hprotected other
      exact (Function.update_self _ _ _).trans hfresh.symm
  | store mem word =>
    cases hnext
    obtain ⟨free, hrep⟩ := h.conserved
    have hfresh := h.fresh other
    have hvalid := h.calls.valid other
    cases hcall : tasks.call other with
    | none => trivial
    | malloc | free =>
      rw [hcall] at hfresh
      exact hfresh
    | unlink memp next =>
      rw [hcall] at hfresh hvalid
      refine ⟨hfresh.1, (Function.update_of_ne ?_ _ _).trans hfresh.2⟩
      -- the element is still free, and only one that is out is written to
      rintro rfl
      obtain ⟨rest, rfl, -⟩ := hrep.unlink (by rw [hfresh.1]; exact hvalid)
      exact hrep.disjoint henabled.1 (by rw [hfresh.1]; exact List.mem_cons_self)
    | link memp =>
      rw [hcall] at hfresh
      refine (Function.update_of_ne ?_ _ _).trans hfresh
      rintro rfl
      exact henabled.2 other (by rw [hcall]; rfl)

theorem Settled.step (h : tasks.Settled all) (henabled : tasks.Enabled action) (hprotected : tasks.Protected action)
    (hnext : tasks.step action = ok later) : later.Settled all :=
  { h.toKept.step henabled (h.current action) hnext with
    fresh := h.fresh_step henabled hprotected hnext }

/-- Any number of tasks that call `memp_malloc` and `memp_free` on a pool, preempted between
any two accesses: every element stays free or out, once, if and only if no call writes a head
to the list that rests on a stale read. That is so when no task is preempted in a call by
another call on the pool. -/
theorem preempted_conserved_iff {num size : Nat} {base : Addr} (hsize : 0 < size) (hbase : base ≠ nullptr)
    (next : Addr → Addr) (actions : List (MempStep Tid))
    (hactions : Along step Enabled (start num size base next) actions) :
    (Always step (Conserved (Memp.elements num size base)) (start num size base next) actions ↔
      Along step Current (start num size base next) actions) ∧
    (Along step Protected (start num size base next) actions →
      Along step Current (start num size base next) actions) := by
  have hstart : (start num size base next : MempTasks Tid).Settled _ := start_settled hsize hbase next
  constructor
  · refine always_iff_along_of_break (Kept (Memp.elements num size base)) (fun tasks h => h.conserved) ?_ ?_
      hstart.toKept hactions
    · intro tasks action later h henabled hcurrent hnext
      exact h.step henabled hcurrent hnext
    · intro tasks action h _ hstale
      exact h.breaks hstale
  · intro hprotected
    refine Along.imp_of_invariant (Settled (Memp.elements num size base)) ?_ ?_ hstart
      (along_and.mpr ⟨hactions, hprotected⟩)
    · intro tasks action h _
      exact h.current action
    · intro tasks action later h hallowed hnext
      exact h.step hallowed.1 hallowed.2 hnext

/-- Of a pool of two, a task takes an element and puts it back. In `memp_free` it is preempted
by one that takes the other element and puts it back, so that what was read is there again. -/
def preempted_in_free : List (MempStep Bool) :=
  [.malloc true, .next true, .next true, .free true 72,
    .malloc false, .next false, .next false, .free false 64, .next false, .next false,
    .next true, .next true]

theorem preempted_conserved_in_free :
    Always step (Conserved (Memp.elements 2 8 64)) (start 2 8 64 fun _ => nullptr) preempted_in_free := by
  have hrun : Along step (fun tasks action => tasks.Enabled action ∧ tasks.Current action)
      (start 2 8 64 fun _ => nullptr) preempted_in_free := by
    simp [preempted_in_free, Along, Enabled, Current, InUse, MempCall.Frees, step, start, Memp.memp_init_pool,
      Memp.init_loop, MempTasks.next, set_call, nullptr, Function.update]
  obtain ⟨henabled, hcurrent⟩ := along_and.mp hrun
  exact (preempted_conserved_iff (by decide) (by decide) _ _ henabled).1.mpr hcurrent

/-- Preempted after its first access by a task that takes an element too, a task takes the
same one. -/
theorem malloc_preempted_takes_same {first second : Tid} (hne : first ≠ second) (hfirst : tasks.call first = .none)
    (hsecond : tasks.call second = .none) (htab : tasks.pool.tab ≠ nullptr) :
    Along step Enabled tasks
        [.malloc first, .malloc second, .next second, .next second, .next first, .next first] ∧
      ∃ last, steps step tasks
          [.malloc first, .malloc second, .next second, .next second, .next first, .next first] = ok last ∧
        last.out = tasks.pool.tab :: tasks.pool.tab :: tasks.out := by
  constructor
  · simp [Along, Enabled, step, htab, set_call, hne.symm, hfirst, hsecond]
  · simp [steps, step, htab, set_call, MempTasks.next, Function.update, hne]

end MempTasks

end kfw.net
