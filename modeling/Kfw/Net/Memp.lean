import Kfw.Common.Base
import Kfw.Lib.Run
import Kfw.Lib.Segment

open exec Result

namespace kfw.net

/-- A pool of `memp.c`: the first free element, and the first word of every element. As
`MEMP_SIZE` is 0, the link to the next free element is kept in that word, which belongs to
the user of an element that is not free. -/
structure Memp where
  tab : Addr := nullptr
  next : Addr → Addr

namespace Memp

def do_memp_malloc_pool (pool : Memp) : Addr × Memp :=
  if pool.tab = nullptr then (nullptr, pool) else (pool.tab, { pool with tab := pool.next pool.tab })

def do_memp_free_pool (pool : Memp) (mem : Addr) : Memp :=
  { tab := mem, next := Function.update pool.next mem pool.tab }

def memp_free (pool : Memp) (mem : Addr) : Memp := if mem = nullptr then pool else pool.do_memp_free_pool mem

/-- The loop of `memp_init_pool` over the `num` elements from `memp` on. -/
def init_loop (size : Nat) : Nat → Addr → Memp → Memp
  | 0, _, pool => pool
  | num + 1, memp, pool =>
    init_loop size num (memp + size) { tab := memp, next := Function.update pool.next memp pool.tab }

/-- `base` and `size` are those of the descriptor, aligned; `next` is what the memory has before. -/
def memp_init_pool (num size : Nat) (base : Addr) (next : Addr → Addr) : Memp :=
  init_loop size num base { next }

/-- The elements of a pool. -/
def elements (num size : Nat) (base : Addr) : List Addr := (List.range num).map fun i => base + i * size

/-- The free elements are linked from `tab` on, and every element is either one of them or
out, and that once. -/
structure Represents (pool : Memp) (all free out : List Addr) : Prop where
  linked : Segment pool.next pool.tab free nullptr
  perm : (free ++ out).Perm all
  nodup : all.Nodup
  null : nullptr ∉ all

namespace Represents

variable {pool : Memp} {all free out : List Addr} {mem : Addr}

theorem disjoint (h : pool.Represents all free out) (hmem : mem ∈ out) : mem ∉ free := by
  have hnodup := h.perm.nodup_iff.mpr h.nodup
  intro hfree
  exact (List.nodup_append.mp hnodup).2.2 mem hfree mem hmem rfl

theorem length_eq (h : pool.Represents all free out) : free.length + out.length = all.length := by
  rw [← h.perm.length_eq, List.length_append]

theorem null_notMem (h : pool.Represents all free out) : nullptr ∉ free :=
  fun hfree => h.null (h.perm.subset (List.mem_append_left _ hfree))

/-- The list of free elements ends where the links do. -/
theorem tab_eq_null_iff (h : pool.Represents all free out) : pool.tab = nullptr ↔ free = [] := by
  cases free with
  | nil => exact ⟨fun _ => rfl, fun _ => h.linked⟩
  | cons memp free =>
    refine ⟨fun htab => ?_, fun hnil => by cases hnil⟩
    rw [← h.linked.1, htab] at h
    exact absurd List.mem_cons_self h.null_notMem

/-- The first free element is handed out. -/
theorem unlink (h : pool.Represents all free out) (htab : pool.tab ≠ nullptr) :
    ∃ rest, free = pool.tab :: rest ∧
      Represents { pool with tab := pool.next pool.tab } all rest (pool.tab :: out) := by
  cases free with
  | nil => exact absurd h.linked htab
  | cons memp rest =>
    obtain ⟨rfl, hrest⟩ := h.linked
    exact ⟨rest, rfl, hrest, List.perm_middle.trans h.perm, h.nodup, h.null⟩

/-- What is in an element that is out does not matter. -/
theorem store (h : pool.Represents all free out) (hmem : mem ∈ out) (word : Addr) :
    Represents { pool with next := Function.update pool.next mem word } all free out :=
  ⟨h.linked.update (h.disjoint hmem) word, h.perm, h.nodup, h.null⟩

/-- An element that is out and has the link to the first free one becomes the first. -/
theorem link (h : pool.Represents all free out) (hmem : mem ∈ out) (hnext : pool.next mem = pool.tab) :
    Represents { pool with tab := mem } all (mem :: free) (out.erase mem) := by
  refine ⟨⟨rfl, ?_⟩, ?_, h.nodup, h.null⟩
  · rw [hnext]
    exact h.linked
  · exact (List.perm_middle.symm.trans ((List.perm_cons_erase hmem).symm.append_left free)).trans h.perm

/-- An element can only be handed out where it is the first free one and its link is left as
the first. -/
theorem unlink_inv (h : pool.Represents all free out) {memp next : Addr} {rest : List Addr}
    (hnext : Represents { pool with tab := next } all rest (memp :: out)) :
    pool.tab = memp ∧ pool.next memp = next := by
  have hperm : free.Perm (memp :: rest) := by
    have hall := h.perm.trans (hnext.perm.symm.trans List.perm_middle)
    exact (List.perm_append_right_iff out).mp (by simpa using hall)
  obtain ⟨front, rfl⟩ := h.linked.ends_with hnext.linked h.null_notMem
    fun node hnode => hperm.mem_iff.mpr (List.mem_cons_of_mem _ hnode)
  have hfront : front = [memp] := by
    have hone : (front ++ rest).Perm ([memp] ++ rest) := hperm
    exact List.perm_singleton.mp ((List.perm_append_right_iff rest).mp hone)
  rw [hfront] at h
  exact ⟨h.linked.1, h.linked.2.head_unique hnext.linked⟩

/-- An element can only be put back with the link to the first free one. -/
theorem link_inv (h : pool.Represents all free out) (hmem : mem ∈ out) {more : List Addr}
    (hnext : Represents { pool with tab := mem } all more (out.erase mem)) : pool.next mem = pool.tab := by
  have hperm : more.Perm (mem :: free) := by
    have hout := (List.perm_cons_erase hmem).append_left free
    have hall := hnext.perm.trans (h.perm.symm.trans (hout.trans List.perm_middle))
    exact (List.perm_append_right_iff (out.erase mem)).mp hall
  cases more with
  | nil => exact absurd hperm.length_eq (by simp)
  | cons memp more =>
    obtain ⟨hfirst, hlinked⟩ := hnext.linked
    obtain rfl : mem = memp := hfirst
    have hmore : more.Perm free := hperm.cons_inv
    obtain ⟨front, rfl⟩ := h.linked.ends_with hlinked h.null_notMem hmore.subset
    have hfront : front = [] := by
      have hlength := hmore.length_eq
      rw [List.length_append] at hlength
      exact List.eq_nil_of_length_eq_zero (by omega)
    rw [hfront, List.nil_append] at h
    exact hlinked.head_unique h.linked

/-- Unless all elements are out, there is one to hand out. -/
theorem tab_ne_null (h : pool.Represents all free out) (hroom : out.length < all.length) : pool.tab ≠ nullptr := by
  have hlength := h.length_eq
  rw [Ne, h.tab_eq_null_iff]
  rintro rfl
  simp only [List.length_nil] at hlength
  omega

theorem ne_null_of_mem_out (h : pool.Represents all free out) (hmem : mem ∈ out) : mem ≠ nullptr := by
  rintro rfl
  exact h.null (h.perm.subset (List.mem_append_right _ hmem))

theorem out_nodup (h : pool.Represents all free out) : out.Nodup :=
  (List.nodup_append.mp (h.perm.nodup_iff.mpr h.nodup)).2.1

end Represents

theorem elements_succ (num size : Nat) (base : Addr) :
    elements (num + 1) size base = base :: elements num size (base + size) := by
  simp only [elements, List.range_succ_eq_map, List.map_cons, List.map_map, Nat.zero_mul, Nat.add_zero]
  congr 1
  apply List.map_congr_left
  intro i _
  simp only [Function.comp_apply, Nat.succ_eq_add_one]
  ring

theorem le_of_mem_elements {num size : Nat} {base memp : Addr} (h : memp ∈ elements num size base) : base ≤ memp := by
  obtain ⟨i, -, rfl⟩ := List.mem_map.mp h
  exact Nat.le_add_right _ _

theorem elements_nodup {size : Nat} (hsize : 0 < size) (num : Nat) (base : Addr) : (elements num size base).Nodup := by
  refine List.nodup_range.map fun i j heq => ?_
  exact Nat.eq_of_mul_eq_mul_right hsize (Nat.add_left_cancel heq)

/-- The elements that the loop has linked are in front of those it was given. -/
theorem init_loop_linked {size : Nat} (hsize : 0 < size) (num : Nat) (memp : Addr) (pool : Memp) (linked : List Addr)
    (hlinked : Segment pool.next pool.tab linked nullptr) (hbefore : ∀ node ∈ linked, node < memp) :
    Segment (init_loop size num memp pool).next (init_loop size num memp pool).tab
      ((elements num size memp).reverse ++ linked) nullptr := by
  induction num generalizing memp pool linked with
  | zero => exact hlinked
  | succ num ih =>
    have hnew : memp ∉ linked := fun hmem => Nat.lt_irrefl _ (hbefore memp hmem)
    rw [elements_succ, List.reverse_cons, List.append_assoc]
    refine ih (memp + size) _ (memp :: linked) (hlinked.push hnew) fun node hnode => ?_
    rcases List.mem_cons.mp hnode with rfl | hnode
    · exact Nat.lt_add_of_pos_right hsize
    · exact (hbefore node hnode).trans (Nat.lt_add_of_pos_right hsize)

/-- After `memp_init_pool` all elements are free. -/
theorem memp_init_pool_represents {num size : Nat} {base : Addr} (hsize : 0 < size) (hbase : base ≠ nullptr)
    (next : Addr → Addr) :
    (memp_init_pool num size base next).Represents (elements num size base) (elements num size base).reverse [] := by
  refine ⟨?_, ?_, elements_nodup hsize num base, fun hnull => ?_⟩
  · have hlinked := init_loop_linked hsize num base { next } [] rfl (by simp)
    rwa [List.append_nil] at hlinked
  · rw [List.append_nil]
    exact List.reverse_perm _
  · exact hbase (Nat.le_zero.mp (le_of_mem_elements hnull))

end Memp

end kfw.net
