import Mathlib.Data.List.Basic
import Mathlib.Tactic.Common

/-!
# Lines in a stream

Lines are sent with an end mark behind each.  A stream is whole lines and a tail without the mark,
in one way only, whatever the receiver makes of the tail.  A receiver that takes one element at a
time gets the lines that were sent, in their order.
-/

namespace Reasoning

variable {α : Type*}

/-- The stream of these lines, each with its end mark. -/
def frame (mark : α) (lines : List (List α)) : List α := lines.flatMap (· ++ [mark])

@[simp] theorem frame_nil (mark : α) : frame mark [] = [] := rfl

@[simp] theorem frame_cons (mark : α) (line : List α) (lines : List (List α)) :
    frame mark (line :: lines) = line ++ mark :: frame mark lines := by
  rw [frame, List.flatMap_cons, List.append_assoc]
  rfl

theorem frame_append (mark : α) (lines lines' : List (List α)) :
    frame mark (lines ++ lines') = frame mark lines ++ frame mark lines' :=
  List.flatMap_append

section

variable [DecidableEq α]

/-- The first line and what comes behind its mark, or `none` if there is no mark. -/
def firstLine? (mark : α) : List α → Option (List α × List α)
  | [] => none
  | a :: stream =>
    if a = mark then some ([], stream)
    else (firstLine? mark stream).map fun (line, rest) => (a :: line, rest)

theorem firstLine?_of_notMem {mark : α} {tail : List α} (h : mark ∉ tail) :
    firstLine? mark tail = none := by
  induction tail with
  | nil => rfl
  | cons a tail ih =>
    obtain ⟨ha, htail⟩ := List.ne_and_not_mem_of_not_mem_cons h
    rw [firstLine?, if_neg (Ne.symm ha), ih htail, Option.map_none]

theorem firstLine?_line {mark : α} {line : List α} (h : mark ∉ line) (rest : List α) :
    firstLine? mark (line ++ mark :: rest) = some (line, rest) := by
  induction line with
  | nil => rw [List.nil_append, firstLine?, if_pos rfl]
  | cons a line ih =>
    obtain ⟨ha, hline⟩ := List.ne_and_not_mem_of_not_mem_cons h
    rw [List.cons_append, firstLine?, if_neg (Ne.symm ha), ih hline, Option.map_some]

/-- **Every stream is whole lines and a tail.** -/
theorem exists_frame (mark : α) (stream : List α) :
    ∃ lines tail, stream = frame mark lines ++ tail ∧ (∀ line ∈ lines, mark ∉ line) ∧
      mark ∉ tail := by
  induction stream with
  | nil => exact ⟨[], [], rfl, fun _ h => absurd h List.not_mem_nil, List.not_mem_nil⟩
  | cons a stream ih =>
    obtain ⟨lines, tail, rfl, hlines, htail⟩ := ih
    by_cases ha : a = mark
    · refine ⟨[] :: lines, tail, by rw [ha, frame_cons]; rfl, ?_, htail⟩
      exact List.forall_mem_cons.mpr ⟨List.not_mem_nil, hlines⟩
    · cases lines with
      | nil =>
        refine ⟨[], a :: tail, rfl, fun _ h => absurd h List.not_mem_nil, ?_⟩
        exact List.not_mem_cons_of_ne_of_not_mem (Ne.symm ha) htail
      | cons line lines =>
        obtain ⟨hline, hlines⟩ := List.forall_mem_cons.mp hlines
        refine ⟨(a :: line) :: lines, tail, by rw [frame_cons, frame_cons]; rfl, ?_, htail⟩
        have hline' := List.not_mem_cons_of_ne_of_not_mem (Ne.symm ha) hline
        exact List.forall_mem_cons.mpr ⟨hline', hlines⟩

/-- **In one way only.** -/
theorem frame_inj {mark : α} {lines lines' : List (List α)} {tail tail' : List α}
    (hlines : ∀ line ∈ lines, mark ∉ line) (hlines' : ∀ line ∈ lines', mark ∉ line)
    (htail : mark ∉ tail) (htail' : mark ∉ tail')
    (h : frame mark lines ++ tail = frame mark lines' ++ tail') :
    lines = lines' ∧ tail = tail' := by
  induction lines generalizing lines' with
  | nil =>
    cases lines' with
    | nil => exact ⟨rfl, h⟩
    | cons line' lines' =>
      refine absurd ?_ htail
      rw [show tail = frame mark (line' :: lines') ++ tail' from h, frame_cons]
      simp
  | cons line lines ih =>
    cases lines' with
    | nil =>
      refine absurd ?_ htail'
      rw [show tail' = frame mark (line :: lines) ++ tail from h.symm, frame_cons]
      simp
    | cons line' lines' =>
      obtain ⟨hline, hlines₁⟩ := List.forall_mem_cons.mp hlines
      obtain ⟨hline', hlines₁'⟩ := List.forall_mem_cons.mp hlines'
      rw [frame_cons, frame_cons, List.append_assoc, List.append_assoc, List.cons_append,
        List.cons_append] at h
      have hfirst := firstLine?_line hline (frame mark lines ++ tail)
      rw [h, firstLine?_line hline'] at hfirst
      obtain ⟨rfl, hrest⟩ := Prod.mk.inj (Option.some.inj hfirst)
      obtain ⟨rfl, rfl⟩ := ih hlines₁ hlines₁' hrest.symm
      exact ⟨rfl, rfl⟩

end

/-! ## A stream in transit -/

/-- These lines have been sent and not taken yet: the receiver has `ret` of the first one, and
`stream` is still to come. -/
structure InTransit (mark : α) (ret stream : List α) (lines : List (List α)) : Prop where
  unmarked : ∀ line ∈ lines, mark ∉ line
  unfinished : mark ∉ ret
  bytes : ret ++ stream = frame mark lines

namespace InTransit

variable {mark : α} {ret stream : List α} {lines more : List (List α)}

theorem nil : InTransit mark [] [] [] :=
  ⟨fun _ h => absurd h List.not_mem_nil, List.not_mem_nil, rfl⟩

theorem send (h : InTransit mark ret stream lines) (hmore : ∀ line ∈ more, mark ∉ line) :
    InTransit mark ret (stream ++ frame mark more) (lines ++ more) := by
  refine ⟨fun line hline => ?_, h.unfinished, ?_⟩
  · rw [List.mem_append] at hline
    exact hline.elim (h.unmarked line) (hmore line)
  · rw [← List.append_assoc, h.bytes, frame_append]

/-- Another element of the first line comes in. -/
theorem receive {a : α} (h : InTransit mark ret (a :: stream) lines) (ha : a ≠ mark) :
    InTransit mark (ret ++ [a]) stream lines := by
  refine ⟨h.unmarked, ?_, ?_⟩
  · rw [List.mem_append, List.mem_singleton, not_or]
    exact ⟨h.unfinished, ha.symm⟩
  · rw [List.append_assoc, List.singleton_append, h.bytes]

/-- With the mark the first line is complete. -/
theorem receive_mark (h : InTransit mark ret (mark :: stream) lines) :
    ∃ rest, lines = ret :: rest ∧ InTransit mark [] stream rest := by
  have hbytes := h.bytes
  cases lines with
  | nil => exact absurd (List.append_eq_nil_iff.mp hbytes).2 (List.cons_ne_nil _ _)
  | cons line rest =>
    classical
    obtain ⟨hline, hrest⟩ := List.forall_mem_cons.mp h.unmarked
    have hfirst := firstLine?_line h.unfinished stream
    rw [hbytes, frame_cons, firstLine?_line hline] at hfirst
    obtain ⟨rfl, rfl⟩ := Prod.mk.inj (Option.some.inj hfirst)
    exact ⟨rest, rfl, hrest, List.not_mem_nil, rfl⟩

-- The mark of the first line is still to come.
theorem stream_ne_nil (h : InTransit mark ret stream lines) (hlines : lines ≠ []) :
    stream ≠ [] := by
  intro hnil
  have hbytes := h.bytes
  obtain ⟨line, rest, rfl⟩ := List.exists_cons_of_ne_nil hlines
  rw [hnil, List.append_nil, frame_cons] at hbytes
  apply h.unfinished
  rw [hbytes]
  exact List.mem_append_right _ List.mem_cons_self

/-- When all has come in, all lines have been taken whole. -/
theorem ret_eq_nil (h : InTransit mark ret [] lines) : ret = [] := by
  have hlines : lines = [] := by
    by_contra hne
    exact h.stream_ne_nil hne rfl
  have hbytes := h.bytes
  rwa [hlines, frame_nil, List.append_nil] at hbytes

end InTransit

end Reasoning
