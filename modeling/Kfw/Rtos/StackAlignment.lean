import Kfw.Rtos.Kernel

namespace kfw.rtos

def align_down {T : Type} [Sub T] [Mod T] (value align : T) : T := value - value % align

def align_up {T : Type} [Add T] [Sub T] [Mod T] [OfNat T 0] [DecidableEq T] (value align : T) : T :=
  if value % align ≠ 0 then value + (align - value % align) else value

/-- What `create` tells the kernel of a task; addresses have 32 bits on the target. -/
structure T_CTSK where
  itskpri : Int
  stk : UInt32
  stksz : UInt32
  deriving DecidableEq

/-- The packet that `ThreadContext::create` fills in. -/
def T_CTSK.of_stack (priority : Int) (stack_size stack_mem : UInt32) : T_CTSK :=
  let unaligned_mem := stack_mem
  let aligned_mem := align_up unaligned_mem 8
  let offset := aligned_mem - unaligned_mem
  let aligned_size := align_down (stack_size - offset) 8
  { itskpri := priority, stk := aligned_mem, stksz := aligned_size }

/-- `ThreadContext::create` with its stack, and the packet it passes to `acre_tsk` if it comes
to that; `acre_tsk` is how the kernel answers to a packet. -/
def ThreadContext.create_on_stack [Itron] (self : ThreadContext) (kernel : Kernel) (er_flg : Int)
    (acre_tsk : T_CTSK → Int) (priority : Int) (stack_size stack_mem : UInt32) :
    (ret_t × ThreadContext × Kernel) × Option T_CTSK :=
  if self.m_handle ≠ kInvalidThreadHandle then ((kEInvalidOperation, self, kernel), none)
  else
    let ctsk := T_CTSK.of_stack priority stack_size stack_mem
    (self.create kernel er_flg (acre_tsk ctsk), some ctsk)

/-- Whatever the stack, the objects that are created depend on the kernel's answers only. -/
theorem ThreadContext.create_on_stack_fst [Itron] (self : ThreadContext) (kernel : Kernel) (er_flg : Int)
    (acre_tsk : T_CTSK → Int) (priority : Int) (stack_size stack_mem : UInt32) :
    (self.create_on_stack kernel er_flg acre_tsk priority stack_size stack_mem).1 =
      self.create kernel er_flg (acre_tsk (T_CTSK.of_stack priority stack_size stack_mem)) := by
  by_cases hhandle : self.m_handle ≠ kInvalidThreadHandle
  · rw [create_on_stack, if_pos hhandle, create, if_pos hhandle]
  · rw [create_on_stack, if_neg hhandle]

theorem align_down_toNat (value align : UInt32) :
    (align_down value align).toNat = value.toNat - value.toNat % align.toNat := by
  have hle : value % align ≤ value := UInt32.le_iff_toNat_le.mpr (Nat.mod_le _ _)
  rw [align_down, UInt32.toNat_sub_of_le _ _ hle, UInt32.toNat_mod]

/-- How far the next multiple of 8 is. -/
def padding (addr : Nat) : Nat := (8 - addr % 8) % 8

theorem dvd_add_padding (addr : Nat) : 8 ∣ addr + padding addr := by
  rw [padding]
  omega

/-- Between two addresses is a multiple of 8 if the padding of the first does not go past
the second. -/
theorem exists_dvd_iff (addr size : Nat) : (∃ pos ∈ Set.Icc addr (addr + size), 8 ∣ pos) ↔ padding addr ≤ size := by
  constructor
  · rintro ⟨pos, ⟨hlow, hhigh⟩, hdvd⟩
    rw [padding]
    omega
  · intro hle
    exact ⟨addr + padding addr, ⟨by omega, by omega⟩, dvd_add_padding addr⟩

/-- Only the last multiple of 8 wraps, to 0. -/
theorem align_up_eight_toNat (value : UInt32) :
    (align_up value 8).toNat = (value.toNat + padding value.toNat) % 2 ^ 32 := by
  have hlt := value.toNat_lt
  have hmod : (value % 8).toNat = value.toNat % 8 := UInt32.toNat_mod value 8
  by_cases hzero : value % 8 = 0
  · have hpadding : padding value.toNat = 0 := by
      rw [hzero] at hmod
      rw [padding, ← hmod]
      rfl
    rw [align_up, if_neg (not_not.mpr hzero), hpadding, Nat.add_zero, Nat.mod_eq_of_lt hlt]
  · have hne : value.toNat % 8 ≠ 0 := fun h => hzero (UInt32.toNat_inj.mp (hmod.trans h))
    have hle : value % 8 ≤ 8 := UInt32.le_iff_toNat_le.mpr (by rw [hmod]; exact (Nat.mod_lt _ (by omega)).le)
    have hpadding : padding value.toNat = 8 - value.toNat % 8 := Nat.mod_eq_of_lt (by omega)
    rw [align_up, if_pos hzero, UInt32.toNat_add, UInt32.toNat_sub_of_le _ _ hle, hmod, hpadding]
    rfl

namespace T_CTSK

/-- The region of a packet is made of aligned blocks of the memory given, and empty if that
has none. -/
structure StackWithin (ctsk : T_CTSK) (stack_mem stack_size : UInt32) : Prop where
  stk_dvd : 8 ∣ ctsk.stk.toNat
  stksz_dvd : 8 ∣ ctsk.stksz.toNat
  within : Set.Ico ctsk.stk.toNat (ctsk.stk.toNat + ctsk.stksz.toNat) ⊆
    Set.Ico stack_mem.toNat (stack_mem.toNat + stack_size.toNat)
  empty : (∀ addr, 8 ∣ addr → ¬ Set.Ico addr (addr + 8) ⊆
    Set.Ico stack_mem.toNat (stack_mem.toNat + stack_size.toNat)) → ctsk.stksz = 0

variable (priority : Int) (stack_size stack_mem : UInt32)

theorem of_stack_stk :
    (of_stack priority stack_size stack_mem).stk.toNat = (stack_mem.toNat + padding stack_mem.toNat) % 2 ^ 32 :=
  align_up_eight_toNat stack_mem

/-- The offset is the padding, also where the aligned address wraps. -/
theorem offset_toNat : (align_up stack_mem 8 - stack_mem).toNat = padding stack_mem.toNat := by
  have hlt := stack_mem.toNat_lt
  rw [UInt32.toNat_sub, align_up_eight_toNat, padding]
  omega

theorem of_stack_stksz : (of_stack priority stack_size stack_mem).stksz.toNat =
    (stack_size - (align_up stack_mem 8 - stack_mem)).toNat -
      (stack_size - (align_up stack_mem 8 - stack_mem)).toNat % 8 :=
  align_down_toNat _ 8

/-- Both numbers are multiples of 8, for every memory. -/
theorem of_stack_dvd : 8 ∣ (of_stack priority stack_size stack_mem).stk.toNat ∧
    8 ∣ (of_stack priority stack_size stack_mem).stksz.toNat := by
  have hdvd := dvd_add_padding stack_mem.toNat
  rw [of_stack_stk, of_stack_stksz]
  constructor
  · omega
  · exact Nat.dvd_sub_mod _

variable {stack_size stack_mem}

theorem of_stack_stksz_of_padding_le (hle : padding stack_mem.toNat ≤ stack_size.toNat) :
    (of_stack priority stack_size stack_mem).stksz.toNat =
      (stack_size.toNat - padding stack_mem.toNat) - (stack_size.toNat - padding stack_mem.toNat) % 8 := by
  have hoffset : align_up stack_mem 8 - stack_mem ≤ stack_size :=
    UInt32.le_iff_toNat_le.mpr (by rw [offset_toNat]; exact hle)
  rw [of_stack_stksz, UInt32.toNat_sub_of_le _ _ hoffset, offset_toNat]

/-- A memory that ends in front of its first multiple of 8 is taken for all but the last
8 bytes of the address space: the size that is left is below 0. -/
theorem of_stack_stksz_of_lt_padding (hlt : stack_size.toNat < padding stack_mem.toNat) :
    (of_stack priority stack_size stack_mem).stksz.toNat = 2 ^ 32 - 8 := by
  have hpadding : padding stack_mem.toNat < 8 := Nat.mod_lt _ (by omega)
  rw [of_stack_stksz, UInt32.toNat_sub, offset_toNat]
  omega

theorem stackWithin_of_padding_le (hregion : stack_mem.toNat + stack_size.toNat ≤ 2 ^ 32)
    (hle : padding stack_mem.toNat ≤ stack_size.toNat) :
    (of_stack priority stack_size stack_mem).StackWithin stack_mem stack_size := by
  obtain ⟨hstk, hstksz⟩ := of_stack_dvd priority stack_size stack_mem
  have hsize := of_stack_stksz_of_padding_le priority hle
  have haddr := of_stack_stk priority stack_size stack_mem
  by_cases hzero : (of_stack priority stack_size stack_mem).stksz = 0
  · refine ⟨hstk, hstksz, ?_, fun _ => hzero⟩
    rw [hzero]
    rintro pos ⟨hlow, hhigh⟩
    exact absurd hlow (Nat.not_le.mpr hhigh)
  · -- a size that is left keeps the aligned address below the top
    have hpositive : (of_stack priority stack_size stack_mem).stksz.toNat ≠ 0 :=
      fun h => hzero (UInt32.toNat_inj.mp h)
    have hwithin : stack_mem.toNat + padding stack_mem.toNat < 2 ^ 32 := by omega
    rw [Nat.mod_eq_of_lt hwithin] at haddr
    refine ⟨hstk, hstksz, ?_, fun hnone => absurd ?_ (hnone _ hstk)⟩
    · exact Set.Ico_subset_Ico (by omega) (by omega)
    · exact Set.Ico_subset_Ico (by omega) (by omega)

theorem StackWithin.padding_le (h : (of_stack priority stack_size stack_mem).StackWithin stack_mem stack_size) :
    padding stack_mem.toNat ≤ stack_size.toNat := by
  by_contra hlt
  have hsize := of_stack_stksz_of_lt_padding priority (Nat.not_le.mp hlt)
  -- the region has a first address, which is aligned
  obtain ⟨hlow, hhigh⟩ := h.within ⟨Nat.le_refl _, by omega⟩
  exact hlt ((exists_dvd_iff _ _).mp ⟨_, ⟨hlow, hhigh.le⟩, h.stk_dvd⟩)

theorem of_stack_stackWithin_iff (hregion : stack_mem.toNat + stack_size.toNat ≤ 2 ^ 32) :
    (of_stack priority stack_size stack_mem).StackWithin stack_mem stack_size ↔
      ∃ addr ∈ Set.Icc stack_mem.toNat (stack_mem.toNat + stack_size.toNat), 8 ∣ addr := by
  rw [exists_dvd_iff]
  exact ⟨StackWithin.padding_le priority, stackWithin_of_padding_le priority hregion⟩

end T_CTSK

namespace ThreadContext

variable {stack_size stack_mem : UInt32}

/-- What `create` passes to the kernel is a part of the stack memory exactly if there is a
multiple of 8 in it or right behind it, or if the context has a task already, so that nothing
is passed. -/
theorem create_on_stack_within_iff [Itron] (self : ThreadContext) (kernel : Kernel) (er_flg : Int)
    (acre_tsk : T_CTSK → Int) (priority : Int) (hregion : stack_mem.toNat + stack_size.toNat ≤ 2 ^ 32) :
    (∀ ctsk ∈ (self.create_on_stack kernel er_flg acre_tsk priority stack_size stack_mem).2,
        ctsk.StackWithin stack_mem stack_size) ↔
      self.m_handle ≠ kInvalidThreadHandle ∨
        ∃ addr ∈ Set.Icc stack_mem.toNat (stack_mem.toNat + stack_size.toNat), 8 ∣ addr := by
  by_cases hhandle : self.m_handle ≠ kInvalidThreadHandle
  · rw [create_on_stack, if_pos hhandle]
    exact iff_of_true (fun ctsk hctsk => nomatch hctsk) (.inl hhandle)
  · rw [create_on_stack, if_neg hhandle, or_iff_right hhandle, ← T_CTSK.of_stack_stackWithin_iff priority hregion]
    simp

/-- 16 bytes from address 1 on have the 8 bytes at address 8 in them. -/
theorem create_on_stack_within_sixteen :
    (1 : UInt32).toNat + (16 : UInt32).toNat ≤ 2 ^ 32 ∧
      ∀ ctsk ∈ (({} : ThreadContext).create_on_stack {} 1 (fun _ => 1) 2 16 1).2, ctsk.StackWithin 1 16 :=
  ⟨by decide, (create_on_stack_within_iff {} {} 1 (fun _ => 1) 2 (by decide)).mpr
    (.inr ⟨8, ⟨by decide, by decide⟩, Nat.dvd_refl 8⟩)⟩

/-- Of the 3 bytes from address 1 on the kernel is told a stack of 0xFFFFFFF8 bytes at
address 8. -/
theorem create_on_stack_overrun :
    (1 : UInt32).toNat + (3 : UInt32).toNat ≤ 2 ^ 32 ∧
      (({} : ThreadContext).create_on_stack {} 1 (fun _ => 1) 2 3 1).2 =
        some { itskpri := 2, stk := 8, stksz := 0xFFFFFFF8 } ∧
      ¬ ∀ ctsk ∈ (({} : ThreadContext).create_on_stack {} 1 (fun _ => 1) 2 3 1).2, ctsk.StackWithin 1 3 := by
  have hpassed : (({} : ThreadContext).create_on_stack {} 1 (fun _ => 1) 2 3 1).2 =
      some { itskpri := 2, stk := 8, stksz := 0xFFFFFFF8 } := by decide
  refine ⟨by decide, hpassed, fun hall => ?_⟩
  have hwithin := (hall _ hpassed).within
  obtain ⟨_, hhigh⟩ := hwithin ⟨Nat.le_refl 8, by decide⟩
  exact absurd hhigh (by decide)

end ThreadContext

end kfw.rtos
