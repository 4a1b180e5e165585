import Kfw.Common.Base

open exec Result

namespace kfw.rtos

def E_OK : Int := 0
def E_OBJ : Int := -41
def E_QOVR : Int := -43
def E_TMOUT : Int := -50

def TMO_FEVR : Int := -1

inductive ObjectKind where
  | sem
  | mtx
  | flg
  | dtq
  | tsk
  | cyc
  deriving DecidableEq

/-- The kernel below the framework is not part of the repository. These are the services of
it that are called, as functions of what their objects hold, with what the µITRON
specification says about them. A service that has to wait is not helped by another task. -/
class Itron where
  /-- Whether `sns_loc` finds the processor locked, and whether it is so after the calls. -/
  sns_loc (locked : Bool) : Bool
  sns_loc_eq (locked : Bool) : sns_loc locked = locked
  loc_cpu (locked : Bool) : Bool
  loc_cpu_eq (locked : Bool) : loc_cpu locked = true
  unl_cpu (locked : Bool) : Bool
  unl_cpu_eq (locked : Bool) : unl_cpu locked = false
  /-- The objects after a service that creates one has answered `er_id`: its id, or an error. -/
  acre (live : Finset (ObjectKind × Int)) (kind : ObjectKind) (er_id : Int) : Finset (ObjectKind × Int)
  acre_of_id {live : Finset (ObjectKind × Int)} {kind : ObjectKind} {er_id : Int} :
    0 < er_id → acre live kind er_id = insert (kind, er_id) live
  acre_of_error {live : Finset (ObjectKind × Int)} {kind : ObjectKind} {er_id : Int} :
    ¬ 0 < er_id → acre live kind er_id = live
  /-- The objects after a service that deletes one. -/
  del (live : Finset (ObjectKind × Int)) (kind : ObjectKind) (id : Int) : Finset (ObjectKind × Int)
  del_eq (live : Finset (ObjectKind × Int)) (kind : ObjectKind) (id : Int) : del live kind id = live.erase (kind, id)
  /-- The answer of `twai_sem`, and the tokens that are left. -/
  twai_sem (semcnt : Nat) (tmout : Int) : Exec (Int × Nat)
  twai_sem_of_token {semcnt : Nat} (tmout : Int) : 0 < semcnt → twai_sem semcnt tmout = ok (E_OK, semcnt - 1)
  twai_sem_forever : twai_sem 0 TMO_FEVR = div
  twai_sem_timeout {tmout : Int} : tmout ≠ TMO_FEVR → ∃ er, er ≠ E_OK ∧ twai_sem 0 tmout = ok (er, 0)
  /-- The answer of `sig_sem` or `isig_sem`, and the tokens after it. -/
  sig_sem (semcnt maxsem : Nat) : Int × Nat
  sig_sem_of_room {semcnt maxsem : Nat} : semcnt < maxsem → sig_sem semcnt maxsem = (E_OK, semcnt + 1)
  sig_sem_of_full {semcnt maxsem : Nat} : ¬ semcnt < maxsem → sig_sem semcnt maxsem = (E_QOVR, semcnt)
  /-- The tokens that `ref_sem` reports. -/
  ref_sem (semcnt : Nat) : Nat
  ref_sem_eq (semcnt : Nat) : ref_sem semcnt = semcnt
  /-- The answer of `set_flg`, and the pattern after it. -/
  set_flg (flgptn setptn : UInt32) : Int × UInt32
  set_flg_eq (flgptn setptn : UInt32) : set_flg flgptn setptn = (E_OK, flgptn ||| setptn)
  /-- The answer of `twai_flg` to a wait for all bits without timeout, on a flag without `TA_CLR`. -/
  twai_flg (flgptn waiptn : UInt32) : Exec Int
  twai_flg_of_set {flgptn waiptn : UInt32} : flgptn &&& waiptn = waiptn → twai_flg flgptn waiptn = ok E_OK
  twai_flg_of_unset {flgptn waiptn : UInt32} : flgptn &&& waiptn ≠ waiptn → twai_flg flgptn waiptn = div
  /-- The answer of `psnd_dtq` or `ipsnd_dtq` on a queue for `dtqcnt` data, and the data after
  it; `er` is the answer if there is room. -/
  psnd_dtq {Data : Type} (dtqcnt : Nat) (queue : List Data) (data : Data) (er : Int) : Int × List Data
  psnd_dtq_of_room {Data : Type} {dtqcnt : Nat} {queue : List Data} (data : Data) :
    queue.length < dtqcnt → psnd_dtq dtqcnt queue data E_OK = (E_OK, queue ++ [data])
  psnd_dtq_of_error {Data : Type} {dtqcnt : Nat} {queue : List Data} {er : Int} (data : Data) :
    queue.length < dtqcnt → er ≠ E_OK → psnd_dtq dtqcnt queue data er = (er, queue)
  psnd_dtq_of_full {Data : Type} {dtqcnt : Nat} {queue : List Data} (data : Data) (er : Int) :
    ¬ queue.length < dtqcnt → psnd_dtq dtqcnt queue data er = (E_TMOUT, queue)
  /-- The answer of `trcv_dtq` without timeout, what it received, and the data after it. -/
  trcv_dtq {Data : Type} (queue : List Data) : Exec (Int × Option Data × List Data)
  trcv_dtq_nil {Data : Type} : trcv_dtq ([] : List Data) = div
  trcv_dtq_cons {Data : Type} (data : Data) (queue : List Data) :
    trcv_dtq (data :: queue) = ok (E_OK, some data, queue)
  /-- The answer of `sta_tsk`, for a task that is dormant or not. -/
  sta_tsk (dormant : Bool) : Int
  sta_tsk_dormant : sta_tsk true = E_OK
  sta_tsk_started : sta_tsk false = E_OBJ

/-- A kernel that does what the specification says, for runs on given inputs. -/
instance Itron.reference : Itron where
  sns_loc locked := locked
  sns_loc_eq _ := rfl
  loc_cpu _ := true
  loc_cpu_eq _ := rfl
  unl_cpu _ := false
  unl_cpu_eq _ := rfl
  acre live kind er_id := if 0 < er_id then insert (kind, er_id) live else live
  acre_of_id her := if_pos her
  acre_of_error her := if_neg her
  del live kind id := live.erase (kind, id)
  del_eq _ _ _ := rfl
  twai_sem semcnt tmout :=
    if 0 < semcnt then ok (E_OK, semcnt - 1) else if tmout = TMO_FEVR then div else ok (E_TMOUT, 0)
  twai_sem_of_token _ htoken := if_pos htoken
  twai_sem_forever := rfl
  twai_sem_timeout htmout := ⟨E_TMOUT, by decide, if_neg htmout⟩
  sig_sem semcnt maxsem := if semcnt < maxsem then (E_OK, semcnt + 1) else (E_QOVR, semcnt)
  sig_sem_of_room hroom := if_pos hroom
  sig_sem_of_full hfull := if_neg hfull
  ref_sem semcnt := semcnt
  ref_sem_eq _ := rfl
  set_flg flgptn setptn := (E_OK, flgptn ||| setptn)
  set_flg_eq _ _ := rfl
  twai_flg flgptn waiptn := if flgptn &&& waiptn = waiptn then ok E_OK else div
  twai_flg_of_set hset := if_pos hset
  twai_flg_of_unset hunset := if_neg hunset
  psnd_dtq dtqcnt queue data er :=
    if queue.length < dtqcnt then (er, if er = E_OK then queue ++ [data] else queue) else (E_TMOUT, queue)
  psnd_dtq_of_room _ hroom := if_pos hroom
  psnd_dtq_of_error data hroom her := by simp only [if_pos hroom, if_neg her]
  psnd_dtq_of_full _ _ hfull := if_neg hfull
  trcv_dtq
    | [] => div
    | data :: queue => ok (E_OK, some data, queue)
  trcv_dtq_nil := rfl
  trcv_dtq_cons _ _ := rfl
  sta_tsk dormant := if dormant then E_OK else E_OBJ
  sta_tsk_dormant := rfl
  sta_tsk_started := rfl

end kfw.rtos
