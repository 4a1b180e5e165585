import Kfw.Common.SharedString

open exec Result

namespace kfw.shared

/-- All `String` variables, with the pointer of each one that is alive, and the
heap. -/
structure Strings (V : Type) where
  m_s : V → Option dse_string_t
  heap : Heap

/-- The operations on `String` variables. -/
inductive StringOp (V : Type) where
  | construct (v : V)
  | construct_ref (v : V) (s : ConstStringRef)
  | construct_copy (v obj : V)
  | assign (v obj : V)
  | assign_c_str (v : V) (z_str : Pointer)
  | destroy (v : V)

namespace Strings

variable {V : Type}

/-- What each variable holds; those that are not alive hold nothing. -/
def held (strings : Strings V) : V → dse_string_t := fun v => (strings.m_s v).getD nullptr

theorem held_eq_nullptr {strings : Strings V} {v : V} (hv : strings.m_s v = none) : strings.held v = nullptr := by
  rw [held, hv, Option.getD_none]

variable [DecidableEq V]

/-- The strings after one variable was set to a pointer. -/
def set (strings : Strings V) (v : V) (result : dse_string_t × Heap) : Strings V where
  m_s := Function.update strings.m_s v (some result.1)
  heap := result.2

theorem held_update (strings : Strings V) (v : V) (m_s : Option dse_string_t) (heap : Heap) :
    ({ m_s := Function.update strings.m_s v m_s, heap } : Strings V).held =
      Function.update strings.held v (m_s.getD nullptr) := by
  funext other
  by_cases hother : other = v
  · simp [held, hother]
  · simp [held, Function.update_of_ne hother]

@[simp] theorem held_set (strings : Strings V) (v : V) (result : dse_string_t × Heap) :
    (strings.set v result).held = Function.update strings.held v result.1 :=
  held_update strings v (some result.1) result.2

/-- An operation on variables that are alive. -/
def step (allocator : Allocator) (strings : Strings V) : StringOp V → Exec (Strings V)
  | .construct v => ok (strings.set v (nullptr, strings.heap))
  | .construct_ref v s => do
    let result ← string_of_ref allocator strings.heap s
    ok (strings.set v result)
  | .construct_copy v obj => do
    let result ← string_copy strings.heap (strings.held obj)
    ok (strings.set v result)
  | .assign v obj => do
    let result ← string_assign strings.heap (strings.held v) (strings.held obj)
    ok (strings.set v result)
  | .assign_c_str v z_str => do
    let result ← string_assign_c_str allocator strings.heap (strings.held v) z_str
    ok (strings.set v result)
  | .destroy v => do
    let heap ← string_release strings.heap (strings.held v)
    ok { m_s := Function.update strings.m_s v none, heap }

/-- What a program may do: construct variables that are not alive, use those that
are, and pass characters that can be read. -/
def Legal (strings : Strings V) : StringOp V → Prop
  | .construct v => strings.m_s v = none
  | .construct_ref v s => strings.m_s v = none ∧
      ∃ memory, readable strings.heap s.m_data = ok memory ∧ s.m_length.toNat ≤ memory.length
  | .construct_copy v obj => strings.m_s v = none ∧ strings.m_s obj ≠ none
  | .assign v obj => strings.m_s v ≠ none ∧ strings.m_s obj ≠ none
  | .assign_c_str v z_str => strings.m_s v ≠ none ∧ ∃ memory, readable strings.heap z_str = ok memory ∧ 0 ∈ memory
  | .destroy v => strings.m_s v ≠ none

variable [Fintype V]

/-- A variable that alone holds its buffer is not assigned to itself, nor a C
string in that buffer to it. -/
def Unaliased (strings : Strings V) : StringOp V → Prop
  | .assign v obj => v = obj → strings.held v ≠ nullptr → holders strings.held (strings.held v) ≠ 1
  | .assign_c_str v (.inside s _) => s = strings.held v → holders strings.held s ≠ 1
  | _ => True

/-- An operation touches no freed buffer, and after it all counts are right. -/
def Counts (allocator : Allocator) (strings : Strings V) (op : StringOp V) : Prop :=
  strings.step allocator op ≠ fail .invalid_access ∧
    ∀ next, strings.step allocator op = ok next → Counted next.held next.heap

variable {strings : Strings V} {v obj : V}

theorem Counts.of_ok {allocator : Allocator} {op : StringOp V} {next : Strings V}
    (hstep : strings.step allocator op = ok next) (hcounted : Counted next.held next.heap) :
    strings.Counts allocator op := by
  refine ⟨by simp [hstep], fun other hother => ?_⟩
  cases hstep.symm.trans hother
  exact hcounted

/-- After a variable gave up its buffer, the others still hold theirs. -/
theorem held_after_release (hunaliased : strings.Unaliased (.assign v obj)) :
    strings.held obj = nullptr ∨ ∃ w, Function.update strings.held v nullptr w = strings.held obj := by
  refine or_iff_not_imp_left.mpr fun hnull => ?_
  by_cases hobj : obj = v
  · subst hobj
    have hshared := hunaliased rfl hnull
    have hpos : 0 < holders strings.held (strings.held obj) := holders_pos_iff.mpr ⟨obj, rfl⟩
    have hgone := holders_update_gone (rfl : strings.held obj = _) (Ne.symm hnull)
    exact holders_pos_iff.mp (by omega)
  · exact ⟨obj, Function.update_of_ne hobj _ _⟩

section

variable (h : Counted strings.held strings.heap) (hcard : Fintype.card V < 2 ^ 32) (allocator : Allocator)
include h

theorem counts_construct (hlegal : strings.Legal (.construct v)) : strings.Counts allocator (.construct v) := by
  refine .of_ok rfl ?_
  rw [held_set, ← held_eq_nullptr hlegal, Function.update_eq_self]
  exact h

theorem counts_construct_ref {s : ConstStringRef} (hlegal : strings.Legal (.construct_ref v s)) :
    strings.Counts allocator (.construct_ref v s) := by
  obtain ⟨hv, memory, hread, hlength⟩ := hlegal
  obtain ⟨m_s, nextHeap, hcreate, hcounted⟩ := h.create (held_eq_nullptr hv) allocator hread hlength
  by_cases hnull : m_s = nullptr
  · simp [Counts, step, string_of_ref, hcreate, hnull]
  · have hstep : strings.step allocator (.construct_ref v s) = ok (strings.set v (m_s, nextHeap)) := by
      simp [step, string_of_ref, hcreate, hnull]
    refine .of_ok hstep ?_
    rw [held_set]
    exact hcounted

include hcard

theorem counts_construct_copy (hlegal : strings.Legal (.construct_copy v obj)) :
    strings.Counts allocator (.construct_copy v obj) := by
  obtain ⟨nextHeap, hcopy, hcounted⟩ := h.string_copy hcard (held_eq_nullptr hlegal.1) (.inr ⟨obj, rfl⟩)
  refine .of_ok (by rw [step, hcopy, bind_ok]) ?_
  rw [held_set]
  exact hcounted

theorem counts_destroy : strings.Counts allocator (.destroy v) := by
  obtain ⟨nextHeap, hrelease, hcounted, _⟩ := h.string_release hcard v
  refine .of_ok (by rw [step, hrelease, bind_ok]) ?_
  rw [held_update]
  exact hcounted

theorem counts_assign_iff :
    strings.Counts allocator (.assign v obj) ↔ strings.Unaliased (.assign v obj) := by
  obtain ⟨released, hrelease, hcounted, _⟩ := h.string_release hcard v
  constructor
  · rintro ⟨hnot, _⟩ rfl hheld hsole
    -- the count is read after the buffer was freed
    obtain ⟨p, block, hv, _⟩ := (h.held_cases v).resolve_left hheld
    have hfreed := dse_string_addref_of_freed (hcounted.freed_of_sole hv (hv ▸ hsole))
    rw [← hv] at hfreed
    exact hnot (by simp [step, string_assign, hrelease, string_copy, hheld, hfreed])
  · intro hunaliased
    obtain ⟨nextHeap, hcopy, hnext⟩ := hcounted.string_copy hcard (Function.update_self ..)
      (held_after_release hunaliased)
    refine .of_ok (by rw [step, string_assign, hrelease, bind_ok, hcopy, bind_ok]) ?_
    rw [Function.update_idem] at hnext
    rw [held_set]
    exact hnext

theorem counts_assign_c_str_iff {z_str : Pointer} (hlegal : strings.Legal (.assign_c_str v z_str)) :
    strings.Counts allocator (.assign_c_str v z_str) ↔ strings.Unaliased (.assign_c_str v z_str) := by
  obtain ⟨_, memory, hread, hnul⟩ := hlegal
  obtain ⟨released, hrelease, hcounted, hreadable⟩ := h.string_release hcard v
  constructor
  · intro hcounts
    cases z_str with
    | outside outside fits => trivial
    | inside s offset =>
      rintro rfl hsole
      -- the C string is read after the buffer was freed
      obtain hnull | ⟨p, block, hv, _⟩ := h.held_cases v
      · rw [hnull, readable_of_freed strings.heap.null offset] at hread
        cases hread
      · have hfreed : released.live (strings.held v - 8) = none := by
          rw [hv, Nat.add_sub_cancel]
          exact hcounted.freed_of_sole hv (hv ▸ hsole)
        refine hcounts.1 ?_
        simp only [step, string_assign_c_str, hrelease, ConstStringRef.of_c_str, strlen,
          readable_of_freed hfreed offset, bind_ok, bind_fail]
  · intro hunaliased
    have hafter : readable released z_str = ok memory := by
      refine hreadable z_str memory hread ?_
      rintro offset rfl
      exact hunaliased rfl
    obtain ⟨m_length, hlength⟩ : ∃ m_length, (memory.takeWhile (· ≠ 0)).length.toUInt32 = m_length := ⟨_, rfl⟩
    have hfits : m_length.toNat ≤ memory.length := by
      rw [← hlength]
      exact (Nat.mod_le _ _).trans (List.takeWhile_prefix _).length_le
    have hstrlen : strlen released z_str = ok m_length := by
      rw [strlen, hafter, bind_ok, if_pos hnul, hlength]
    obtain ⟨m_s, nextHeap, hcreate, hnext⟩ :=
      hcounted.create (s := ⟨z_str, m_length⟩) (Function.update_self ..) allocator hafter hfits
    rw [Function.update_idem] at hnext
    have hstep : strings.step allocator (.assign_c_str v z_str) = ok (strings.set v (m_s, nextHeap)) := by
      simp only [step, string_assign_c_str, hrelease, ConstStringRef.of_c_str, hstrlen, hcreate, bind_ok]
    refine .of_ok hstep ?_
    rw [held_set]
    exact hnext

end

/-- An operation counts as it should exactly if it is not one of the two that
read a buffer they have just freed. -/
theorem counts_iff (h : Counted strings.held strings.heap) (hcard : Fintype.card V < 2 ^ 32)
    (allocator : Allocator) {op : StringOp V} (hlegal : strings.Legal op) :
    strings.Counts allocator op ↔ strings.Unaliased op := by
  cases op with
  | construct v => exact iff_of_true (counts_construct h allocator hlegal) trivial
  | construct_ref v s => exact iff_of_true (counts_construct_ref h allocator hlegal) trivial
  | construct_copy v obj => exact iff_of_true (counts_construct_copy h hcard allocator hlegal) trivial
  | assign v obj => exact counts_assign_iff h hcard allocator
  | assign_c_str v z_str => exact counts_assign_c_str_iff h hcard allocator hlegal
  | destroy v => exact iff_of_true (counts_destroy h hcard allocator) trivial

/-- No variable is alive, and nothing is allocated. -/
def none_alive : Strings V where
  m_s _ := none
  heap := Heap.empty

end Strings

/-- The place of a variable in memory, which is not null. -/
abbrev Place := { addr : UInt32 // addr ≠ 0 }

theorem card_place_lt : Fintype.card Place < 2 ^ 32 := by
  have hinjective : Function.Injective fun place : Place => place.val.toFin := by
    intro place other heq
    exact Subtype.ext (UInt32.toFin_inj.mp heq)
  have hcard := Fintype.card_lt_of_injective_of_notMem _ hinjective (b := 0) (by
    rintro ⟨place, hplace⟩
    exact place.property (UInt32.toFin_inj.mp hplace))
  rwa [Fintype.card_fin] at hcard

/-- Over every legal sequence of operations the counts are right and no freed
buffer is touched exactly if no operation is one of the two that read a buffer
they have just freed. -/
theorem string_counts_iff (allocator : Allocator) {ops : List (StringOp Place)}
    (hlegal : Along (Strings.step allocator) Strings.Legal .none_alive ops) :
    Along (Strings.step allocator) (Strings.Counts allocator) .none_alive ops ↔
      Along (Strings.step allocator) Strings.Unaliased .none_alive ops := by
  refine Along.iff_of_step (fun strings => Counted strings.held strings.heap) ?_ ?_ ?_ hlegal
  · intro strings op hcounted hop
    exact strings.counts_iff hcounted card_place_lt allocator hop
  · intro strings op next hcounted hop hunaliased hnext
    exact ((strings.counts_iff hcounted card_place_lt allocator hop).mpr hunaliased).2 next hnext
  · refine ⟨fun p => ?_, fun _ => .inl rfl⟩
    have hnone : ¬ 0 < holders (Strings.none_alive : Strings Place).held (p + 8) := by
      rw [holders_pos_iff]
      rintro ⟨v, hv⟩
      exact Nat.succ_ne_zero _ hv.symm
    exact Nat.eq_zero_of_not_pos hnone

theorem string_copy_fst {heap : Heap} {obj : dse_string_t} {result : dse_string_t × Heap}
    (hcopy : string_copy heap obj = ok result) : result.1 = obj := by
  by_cases hnull : obj = nullptr
  · simp only [string_copy, hnull, ne_eq, not_true, if_false, ok.injEq] at hcopy
    rw [← hcopy, hnull]
  · simp only [string_copy, ne_eq, hnull, not_false_eq_true, if_true] at hcopy
    obtain ⟨_, _, hok⟩ := bind_eq_ok_iff.mp hcopy
    cases hok
    rfl

/-- The string "A", outside of all buffers. -/
def letter : ConstStringRef where
  m_data := .outside [65] (by decide)
  m_length := 1

/-- A variable is constructed, copied and assigned to itself. -/
theorem string_counts_shared :
    Along (Strings.step (.bump id)) (Strings.Counts (.bump id)) (.none_alive : Strings Place)
      [.construct_ref ⟨4, by decide⟩ letter, .construct_copy ⟨8, by decide⟩ ⟨4, by decide⟩,
        .assign ⟨4, by decide⟩ ⟨4, by decide⟩] := by
  refine (string_counts_iff (.bump id) ?_).mpr ?_
  · refine ⟨⟨rfl, [65], rfl, Nat.le_refl 1⟩, fun first hfirst => ?_⟩
    obtain ⟨created, _, hcreated⟩ := bind_eq_ok_iff.mp hfirst
    cases hcreated
    refine ⟨?_, fun second hsecond => ?_⟩
    · simp [Strings.Legal, Strings.set, Strings.none_alive]
    · obtain ⟨copied, _, hcopied⟩ := bind_eq_ok_iff.mp hsecond
      cases hcopied
      refine ⟨?_, fun _ _ => trivial⟩
      simp [Strings.Legal, Strings.set]
  · refine ⟨trivial, fun first _ => ⟨trivial, fun second hsecond => ⟨?_, fun _ _ => trivial⟩⟩⟩
    intro _ _
    obtain ⟨copied, hcopy, hcopied⟩ := bind_eq_ok_iff.mp hsecond
    cases hcopied
    rw [Strings.held_set, string_copy_fst hcopy]
    exact Nat.ne_of_gt (one_lt_holders (show (⟨8, by decide⟩ : Place) ≠ ⟨4, by decide⟩ by decide) rfl
      (by simp))

/-- A variable that alone holds its buffer is assigned to itself: its count is
read after the buffer was freed. -/
theorem string_self_assignment_reads_freed :
    Along (Strings.step (.bump id)) Strings.Legal (.none_alive : Strings Place)
        [.construct_ref ⟨4, by decide⟩ letter, .assign ⟨4, by decide⟩ ⟨4, by decide⟩] ∧
      ¬ Along (Strings.step (.bump id)) (Strings.Counts (.bump id)) (.none_alive : Strings Place)
        [.construct_ref ⟨4, by decide⟩ letter, .assign ⟨4, by decide⟩ ⟨4, by decide⟩] := by
  constructor
  · refine ⟨⟨rfl, [65], rfl, Nat.le_refl 1⟩, fun first hfirst => ?_⟩
    obtain ⟨created, _, hcreated⟩ := bind_eq_ok_iff.mp hfirst
    cases hcreated
    refine ⟨?_, fun _ _ => trivial⟩
    simp [Strings.Legal, Strings.set]
  · intro hcounts
    have hfails : (steps (Strings.step (.bump id)) (.none_alive : Strings Place)
        [.construct_ref ⟨4, by decide⟩ letter, .assign ⟨4, by decide⟩ ⟨4, by decide⟩] >>= fun _ => ok ()) =
          fail .invalid_access := by
      decide +kernel
    exact (hcounts.imp fun _ _ hop => hop.1).steps_ne_fail (bind_ok_eq_fail_iff.mp hfails)

end kfw.shared
