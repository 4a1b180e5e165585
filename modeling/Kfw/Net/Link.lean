import Kfw.Net.Wire

open exec Result kfw.io

namespace kfw.net

/-- A connection that takes some writes whole and refuses others: `answers` is
what `netconn_write` answers to the writes still to come, and `log` has the
writes so far with their answers. What it receives is that of a wire. -/
structure Link where
  wire : Wire
  answers : Nat → Int
  log : List (List UInt8 × Int) := []

/-- The bytes of the writes that were taken. -/
def accepted (log : List (List UInt8 × Int)) : List UInt8 :=
  log.flatMap fun entry => if entry.2 = ERR_OK then entry.1 else []

/-- Every write was taken. -/
def Taken (log : List (List UInt8 × Int)) : Prop := ∀ entry ∈ log, entry.2 = ERR_OK

instance (log : List (List UInt8 × Int)) : Decidable (Taken log) :=
  inferInstanceAs (Decidable (∀ entry ∈ log, entry.2 = ERR_OK))

namespace Link

/-- The link after a write. -/
def wrote (link : Link) (data : List UInt8) : Link :=
  { link with answers := fun k => link.answers (k + 1), log := link.log ++ [(data, link.answers 0)] }

def stream : Stream Link where
  read link size := do
    let (r, data, wire) ← Wire.stream.read link.wire size
    ok (r, data, { link with wire })
  write link data :=
    if link.answers 0 = ERR_OK then ok (⟨kOk, data.length.toUInt32⟩, link.wrote data)
    else ok (⟨lwip_err_to_ret (link.answers 0), 0⟩, link.wrote data)
  flush := ok

end Link

theorem accepted_cons (entry : List UInt8 × Int) (log : List (List UInt8 × Int)) :
    accepted (entry :: log) = (if entry.2 = ERR_OK then entry.1 else []) ++ accepted log :=
  List.flatMap_cons

/-- Over a link every write is taken whole or not at all. -/
theorem Link.stream_allOrNothing : Link.stream.AllOrNothing fun link => accepted link.log := by
  refine ⟨fun link data => ?_, fun link => ⟨link, rfl, rfl⟩⟩
  by_cases herr : link.answers 0 = ERR_OK
  · refine ⟨⟨kOk, data.length.toUInt32⟩, link.wrote data, if_pos herr, .inl ⟨rfl, ?_⟩⟩
    simp [wrote, accepted, herr]
  · refine ⟨⟨lwip_err_to_ret (link.answers 0), 0⟩, link.wrote data, if_neg herr,
      .inr ⟨is_failed_lwip_err_to_ret herr, ?_⟩⟩
    simp [wrote, accepted, herr]

/-- The writes that sending `parts` comes to, with their answers; nothing is
written for an empty part. -/
def attempts (answers : Nat → Int) : List (List UInt8) → List (List UInt8 × Int)
  | [] => []
  | part :: parts =>
    if part = [] then attempts answers parts
    else (part, answers 0) :: attempts (fun k => answers (k + 1)) parts

/-- The link after an attempt to send all of `parts`. -/
def Link.attempted (link : Link) (parts : List (List UInt8)) : Link :=
  { link with
    answers := fun k => link.answers (k + (attempts link.answers parts).length)
    log := link.log ++ attempts link.answers parts }

/-- After the first write that is refused, what is taken is only what comes next. -/
def Gapless : List (List UInt8 × Int) → Prop
  | [] => True
  | (data, err) :: log =>
    if err = ERR_OK then Gapless log else accepted log <+: data ++ (log.map Prod.fst).flatten

theorem flatten_attempts (answers : Nat → Int) (parts : List (List UInt8)) :
    ((attempts answers parts).map Prod.fst).flatten = parts.flatten := by
  induction parts generalizing answers with
  | nil => rfl
  | cons part parts ih =>
    rw [attempts]
    by_cases hpart : part = []
    · rw [if_pos hpart, ih, hpart, List.flatten_cons, List.nil_append]
    · rw [if_neg hpart, List.map_cons, List.flatten_cons, ih, List.flatten_cons]

theorem attempts_append (answers : Nat → Int) (parts more : List (List UInt8)) :
    attempts answers (parts ++ more) = attempts answers parts ++
      attempts (fun k => answers (k + (attempts answers parts).length)) more := by
  induction parts generalizing answers with
  | nil => rfl
  | cons part parts ih =>
    rw [List.cons_append, attempts, attempts]
    split
    · exact ih answers
    · rw [ih, List.cons_append, List.length_cons]
      simp only [Nat.add_assoc]

theorem attempted_append (link : Link) (parts more : List (List UInt8)) :
    link.attempted (parts ++ more) = (link.attempted parts).attempted more := by
  simp only [Link.attempted, attempts_append, List.length_append, List.append_assoc, Nat.add_assoc,
    Nat.add_comm (attempts link.answers parts).length]

theorem taken_append {log more : List (List UInt8 × Int)} : Taken (log ++ more) ↔ Taken log ∧ Taken more :=
  List.forall_mem_append

theorem Taken.accepted_eq {log : List (List UInt8 × Int)} (h : Taken log) :
    accepted log = (log.map Prod.fst).flatten := by
  induction log with
  | nil => rfl
  | cons entry log ih =>
    rw [accepted_cons, if_pos (h entry (by simp)), ih fun other hother => h other (by simp [hother])]
    rfl

theorem length_accepted_le (log : List (List UInt8 × Int)) :
    (accepted log).length ≤ ((log.map Prod.fst).flatten).length := by
  induction log with
  | nil => exact Nat.le_refl _
  | cons entry log ih =>
    rw [accepted_cons, List.map_cons, List.flatten_cons, List.length_append, List.length_append]
    split
    · omega
    · rw [List.length_nil]
      omega

/-- What is taken of a log is the beginning of all that was to be sent, and of
anything that goes on with `rest`, if and only if the log has no gap. -/
theorem accepted_prefix_iff (log : List (List UInt8 × Int)) (rest : List UInt8) :
    accepted log <+: (log.map Prod.fst).flatten ++ rest ↔ Gapless log := by
  induction log with
  | nil => simp [accepted, Gapless]
  | cons entry log ih =>
    obtain ⟨data, err⟩ := entry
    rw [accepted_cons, List.map_cons, List.flatten_cons, Gapless]
    by_cases herr : err = ERR_OK
    · rw [if_pos herr, if_pos herr, List.append_assoc, List.prefix_append_right_inj, ih]
    · rw [if_neg herr, if_neg herr, List.nil_append]
      -- what is taken is not longer than what was to be sent
      have hlength : (accepted log).length ≤ (data ++ (log.map Prod.fst).flatten).length := by
        rw [List.length_append]
        exact Nat.le_trans (length_accepted_le log) (Nat.le_add_left _ _)
      constructor
      · intro hprefix
        exact List.prefix_of_prefix_length_le hprefix (List.prefix_append _ _) hlength
      · intro hprefix
        exact hprefix.trans (List.prefix_append _ _)

instance (log : List (List UInt8 × Int)) : Decidable (Gapless log) :=
  decidable_of_iff _ (accepted_prefix_iff log [])

end kfw.net
