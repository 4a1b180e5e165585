import Mathlib

namespace exec

variable {α : Type}

/-- Following `next` from `head` visits exactly `nodes`, in order, and then
stands at `tail`. Nothing is said about `tail` itself. -/
def Segment (next : α → α) : α → List α → α → Prop
  | head, [], tail => head = tail
  | head, node :: nodes, tail => head = node ∧ Segment next (next node) nodes tail

@[simp] theorem segment_nil (next : α → α) (head tail : α) :
    Segment next head [] tail ↔ head = tail := Iff.rfl

@[simp] theorem segment_cons (next : α → α) (head node tail : α) (nodes : List α) :
    Segment next head (node :: nodes) tail ↔ head = node ∧ Segment next (next node) nodes tail :=
  Iff.rfl

/-- Only the links of the visited nodes matter. -/
theorem Segment.congr {next other : α → α} {head tail : α} {nodes : List α}
    (h : Segment next head nodes tail) (hsame : ∀ node ∈ nodes, other node = next node) :
    Segment other head nodes tail := by
  induction nodes generalizing head with
  | nil => exact h
  | cons node nodes ih =>
    obtain ⟨rfl, hrest⟩ := h
    refine ⟨rfl, ?_⟩
    rw [hsame head (by simp)]
    exact ih hrest (fun node hnode => hsame node (by simp [hnode]))

theorem Segment.update [DecidableEq α] {next : α → α} {head tail : α} {nodes : List α}
    (h : Segment next head nodes tail) {node : α} (hnode : node ∉ nodes) (link : α) :
    Segment (Function.update next node link) head nodes tail := by
  apply h.congr
  intro visited hvisited
  exact Function.update_of_ne (by rintro rfl; exact hnode hvisited) _ _

/-- Linking a node in front of a segment that does not contain it. -/
theorem Segment.push [DecidableEq α] {next : α → α} {head tail : α} {nodes : List α}
    (h : Segment next head nodes tail) {node : α} (hnode : node ∉ nodes) :
    Segment (Function.update next node head) node (node :: nodes) tail := by
  refine ⟨rfl, ?_⟩
  rw [Function.update_self]
  exact h.update hnode head

/-- Going one node further. -/
theorem Segment.concat {next : α → α} {head node : α} {nodes : List α}
    (h : Segment next head nodes node) : Segment next head (nodes ++ [node]) (next node) := by
  induction nodes generalizing head with
  | nil =>
    obtain rfl : head = node := h
    exact ⟨rfl, rfl⟩
  | cons first nodes ih => exact ⟨h.1, ih h.2⟩

/-- Two segments to the same end are the same when neither passes through it. -/
theorem Segment.unique {next : α → α} {head tail : α} {first second : List α}
    (hfirst : Segment next head first tail) (hsecond : Segment next head second tail)
    (hfirstEnd : tail ∉ first) (hsecondEnd : tail ∉ second) : first = second := by
  induction first generalizing head second with
  | nil =>
    cases second with
    | nil => rfl
    | cons node nodes =>
      obtain ⟨rfl, _⟩ := hsecond
      exact absurd (by rw [← hfirst]; simp) hsecondEnd
  | cons node nodes ih =>
    obtain ⟨rfl, hrest⟩ := hfirst
    cases second with
    | nil => exact absurd (by rw [← hsecond]; simp) hfirstEnd
    | cons other others =>
      obtain ⟨rfl, hothers⟩ := hsecond
      rw [ih hrest hothers (fun h => hfirstEnd (by simp [h])) (fun h => hsecondEnd (by simp [h]))]

/-- The part of a segment from one of its nodes on. -/
theorem Segment.from_node {next : α → α} {head node tail : α} {front back : List α}
    (h : Segment next head (front ++ node :: back) tail) : Segment next node (node :: back) tail := by
  induction front generalizing head with
  | nil =>
    obtain ⟨rfl, hrest⟩ := h
    exact ⟨rfl, hrest⟩
  | cons first front ih => exact ih h.2

/-- A segment to the same end, through nodes of another one only, is its last part. -/
theorem Segment.ends_with {next : α → α} {head other tail : α} {nodes others : List α}
    (h : Segment next head nodes tail) (hother : Segment next other others tail)
    (hend : tail ∉ nodes) (hsubset : others ⊆ nodes) : ∃ front, nodes = front ++ others := by
  cases others with
  | nil => exact ⟨nodes, (List.append_nil nodes).symm⟩
  | cons node others =>
    obtain ⟨front, back, rfl⟩ := List.append_of_mem (hsubset List.mem_cons_self)
    obtain ⟨rfl, hothers⟩ := hother
    have hback : Segment next other (other :: others) tail := ⟨rfl, hothers⟩
    have hsame := h.from_node.unique hback (fun hmem => hend (List.mem_append_right _ hmem))
      (fun hmem => hend (hsubset hmem))
    exact ⟨front, by rw [hsame]⟩

/-- Segments through the same nodes to the same end have the same start. -/
theorem Segment.head_unique {next : α → α} {head other tail : α} {nodes : List α}
    (h : Segment next head nodes tail) (hother : Segment next other nodes tail) : head = other := by
  cases nodes with
  | nil => exact h.trans hother.symm
  | cons node nodes => exact h.1.trans hother.1.symm

/-- A segment that stops when it meets its end goes through no node twice. -/
theorem Segment.nodup {next : α → α} {head tail : α} {nodes : List α} (h : Segment next head nodes tail)
    (hend : tail ∉ nodes) : nodes.Nodup := by
  induction nodes generalizing head with
  | nil => exact List.nodup_nil
  | cons node nodes ih =>
    obtain ⟨rfl, hrest⟩ := h
    refine List.nodup_cons.mpr ⟨fun hmem => ?_, ih hrest fun hmem => hend (by simp [hmem])⟩
    -- from its second visit on, the segment would be shorter and the same
    obtain ⟨front, back, rfl⟩ := List.append_of_mem hmem
    have hwhole : Segment next head (head :: (front ++ head :: back)) tail := ⟨rfl, hrest⟩
    have hsame := hwhole.unique hrest.from_node hend
      (fun hmem => hend (by simp only [List.mem_cons, List.mem_append] at hmem ⊢; tauto))
    have hlength := congrArg List.length hsame
    simp only [List.length_cons, List.length_append] at hlength
    omega

end exec
