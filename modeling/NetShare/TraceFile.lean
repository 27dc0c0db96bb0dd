import NetShare.Reasoning.Machine
import NetShare.Reasoning.Slots
import NetShare.Tracing
import Mathlib.Algebra.Order.BigOperators.Group.Finset

/-!
# What a trace holds

The slots of `event_buffer` are filled in any order, and a flush waits for those that are not yet
filled before it writes the block it has taken.  So the file holds the events in the order in which
they were accepted, up to where the last flush has got.
-/

namespace NetShare

open Reasoning

variable {ε : Type} {n : Nat}

namespace Tracer

variable {s : Tracer ε n} {flusher : Option (Fin n)} {i : Fin n}

/-! ## 1. What is in the blocks and in the file -/

/-- Nobody has to write into `flush_buffer`. -/
def Settled (s : Tracer ε n) : Prop := ∀ j, (s.pc j).owes (!s.event_buffer) = none

/-- How far a flush of `batch` has got, after the events `finished`. -/
def Phase (s : Tracer ε n) (finished batch : List ε) : TracePc ε → Prop
  | .waiting event_count_copy _ =>
    event_count_copy = batch.length ∧ s.f = some (finished.map some)
  | .writing k event_count_copy _ =>
    event_count_copy = batch.length ∧ k ≤ event_count_copy ∧
      s.f = some ((finished ++ batch.take k).map some) ∧ s.Settled
  | .finishing _ => s.f = some ((finished ++ batch).map some) ∧ s.Settled
  | _ => True

/-- The events of a session in the order of their slots: those of the flushes before, those of the
flush that is going on, and those that no flush has taken. -/
structure Contents (s : Tracer ε n) (finished batch recent : List ε) : Prop where
  recent_slots :
    Slots (s.blocks s.event_buffer) (fun j => (s.pc j).owes s.event_buffer) recent
  batch_slots :
    Slots (s.blocks (!s.event_buffer)) (fun j => (s.pc j).owes (!s.event_buffer)) batch
  count : s.event_count = recent.length
  still : (∀ j, (s.pc j).inFlush = false) → batch = [] ∧ s.f = some (finished.map some)
  phase : ∀ j, s.Phase finished batch (s.pc j)
  last : ∀ j, (s.pc j).isLast = true → s.closed = [] → recent = []
  later : s.closed ≠ [] → finished = []

variable {finished batch recent : List ε}

theorem Phase.of_not_inFlush {pc : TracePc ε} (h : pc.inFlush = false) :
    s.Phase finished batch pc := by
  cases pc <;> trivial

/-- A phase depends on the file and on who has to write into `flush_buffer`. -/
theorem Phase.congr {t : Tracer ε n} {pc : TracePc ε} (h : s.Phase finished batch pc)
    (hf : t.f = s.f) (hsettled : s.Settled → t.Settled) : t.Phase finished batch pc := by
  cases pc with
  | waiting => exact ⟨h.1, hf.trans h.2⟩
  | writing => exact ⟨h.1, h.2.1, hf.trans h.2.2.1, hsettled h.2.2.2⟩
  | finishing => exact ⟨hf.trans h.1, hsettled h.2⟩
  | _ => trivial

/-- Who owes what after one thread has moved. -/
theorem owes_update (pc : Fin n → TracePc ε) (i : Fin n) (x : TracePc ε) (b : Bool) :
    (fun j => (Function.update pc i x j).owes b) =
      Function.update (fun j => (pc j).owes b) i (x.owes b) := by
  funext j
  by_cases hj : j = i
  · subst hj
    rw [Function.update_self, Function.update_self]
  · rw [Function.update_of_ne hj, Function.update_of_ne hj]

/-- The moves of a thread that change neither block nor the file. -/
theorem Contents.move (h : s.Contents finished batch recent) {t : Tracer ε n} {x : TracePc ε}
    (hpc : t.pc = Function.update s.pc i x) (hblocks : t.blocks = s.blocks)
    (hbuffer : t.event_buffer = s.event_buffer) (hcount : t.event_count = s.event_count)
    (hf : t.f = s.f) (hclosed : t.closed = s.closed)
    (howes : ∀ b, x.owes b = (s.pc i).owes b) (hflush : x.inFlush = (s.pc i).inFlush)
    (hphase : t.Phase finished batch x) (hlast : x.isLast = true → s.closed = [] → recent = []) :
    t.Contents finished batch recent := by
  have hsame (b : Bool) : (fun j => (t.pc j).owes b) = fun j => (s.pc j).owes b := by
    rw [hpc, owes_update, howes, Function.update_eq_self]
  refine ⟨?_, ?_, hcount.trans h.count, fun hall => ?_, fun j => ?_, fun j hj hc => ?_, ?_⟩
  · rw [hblocks, hbuffer, hsame]
    exact h.recent_slots
  · rw [hblocks, hbuffer, hsame]
    exact h.batch_slots
  · rw [hf]
    refine h.still fun j => ?_
    have hj := hall j
    rw [hpc] at hj
    by_cases hji : j = i
    · rw [hji, Function.update_self, hflush] at hj
      rw [hji, hj]
    · rwa [Function.update_of_ne hji] at hj
  · rw [hpc]
    by_cases hji : j = i
    · rw [hji, Function.update_self]
      exact hphase
    · rw [Function.update_of_ne hji]
      refine (h.phase j).congr hf fun hsettled k => ?_
      rw [hbuffer]
      exact (congrFun (hsame _) k).trans (hsettled k)
  · rw [hclosed] at hc
    rw [hpc] at hj
    by_cases hji : j = i
    · rw [hji, Function.update_self] at hj
      exact hlast hj hc
    · rw [Function.update_of_ne hji] at hj
      exact h.last j hj hc
  · rw [hclosed]
    exact h.later

-- The other block is not the one that a thread fills.
theorem owes_filling_other (b : Bool) (slot : Nat) (event : ε) :
    (TracePc.filling b slot event).owes (!b) = none :=
  if_neg (by cases b <;> exact Bool.noConfusion)

/-- An event that is accepted is the next one. -/
theorem Contents.accept (h : s.Contents finished batch recent) (hpc : s.pc i = .idle)
    (hquiet : ∀ j, (s.pc j).inShutdown = false) (event : ε) :
    (s.accept i event).Contents finished batch (recent ++ [event]) := by
  have hself : (s.accept i event).pc i = .filling s.event_buffer s.event_count event :=
    Function.update_self ..
  have hother {j : Fin n} (hj : j ≠ i) : (s.accept i event).pc j = s.pc j :=
    Function.update_of_ne hj ..
  have hsame : (fun j => ((s.accept i event).pc j).owes (!s.event_buffer)) =
      fun j => (s.pc j).owes (!s.event_buffer) := by
    refine (owes_update ..).trans ?_
    rw [owes_filling_other]
    refine Function.update_eq_self_iff.mpr ?_
    rw [hpc]
    rfl
  refine ⟨?_, ?_, ?_, fun hall => ?_, fun j => ?_, fun j hj => ?_, h.later⟩
  · refine h.recent_slots.reserve (i := i) (by rw [hpc]; rfl) event ?_
    refine (owes_update ..).trans ?_
    rw [← h.count]
    exact congrArg _ (if_pos rfl)
  · exact h.batch_slots.congr fun j => congrFun hsame j
  · rw [List.length_append, List.length_singleton, ← h.count]
    rfl
  · refine h.still fun j => ?_
    by_cases hj : j = i
    · rw [hj, hpc]
      rfl
    · rw [← hother hj]
      exact hall j
  · by_cases hj : j = i
    · rw [hj, hself]
      trivial
    · rw [hother hj]
      exact (h.phase j).congr rfl fun hsettled k => (congrFun hsame k).trans (hsettled k)
  · by_cases hji : j = i
    · rw [hji, hself] at hj
      contradiction
    · rw [hother hji] at hj
      have hshutdown := TracePc.inShutdown_of_isLast hj
      rw [hquiet j] at hshutdown
      contradiction

/-- The event that is owed is written. -/
theorem Contents.fill (h : s.Contents finished batch recent) {block : Bool} {slot : Nat}
    {event : ε} (hpc : s.pc i = .filling block slot event) :
    (s.fill i block slot event).Contents finished batch recent := by
  have hself : (s.fill i block slot event).pc i = .filled := Function.update_self ..
  have hother {j : Fin n} (hj : j ≠ i) : (s.fill i block slot event).pc j = s.pc j :=
    Function.update_of_ne hj ..
  have howes (b : Bool) : (fun j => ((s.fill i block slot event).pc j).owes b) =
      Function.update (fun j => (s.pc j).owes b) i none := owes_update ..
  have hslots {b : Bool} {items : List ε}
      (hb : Slots (s.blocks b) (fun j => (s.pc j).owes b) items) :
      Slots ((s.fill i block slot event).blocks b)
        (fun j => ((s.fill i block slot event).pc j).owes b) items := by
    by_cases hblock : block = b
    · subst hblock
      have hi : (s.pc i).owes block = some (slot, event) := by
        rw [hpc]
        exact if_pos rfl
      have hfill := hb.fill hi (howes block)
      rwa [show (s.fill i block slot event).blocks block = _ from Function.update_self ..]
    · rw [show (s.fill i block slot event).blocks b = s.blocks b from
        Function.update_of_ne (Ne.symm hblock) ..]
      have hnone : (s.pc i).owes b = none := by
        rw [hpc]
        exact if_neg hblock
      have hsame := howes b
      rw [Function.update_eq_self_iff.mpr hnone.symm] at hsame
      exact hb.congr fun j => congrFun hsame j
  have hsettled (hs : s.Settled) : (s.fill i block slot event).Settled := by
    intro j
    refine (congrFun (howes _) j).trans ?_
    by_cases hj : j = i
    · rw [hj, Function.update_self]
    · rw [Function.update_of_ne hj]
      exact hs j
  refine ⟨hslots h.recent_slots, hslots h.batch_slots, h.count, fun hall => ?_, fun j => ?_,
    fun j hj => ?_, h.later⟩
  · refine h.still fun j => ?_
    by_cases hj : j = i
    · rw [hj, hpc]
      rfl
    · rw [← hother hj]
      exact hall j
  · by_cases hj : j = i
    · rw [hj, hself]
      trivial
    · rw [hother hj]
      exact (h.phase j).congr rfl hsettled
  · by_cases hji : j = i
    · rw [hji, hself] at hj
      contradiction
    · rw [hother hji] at hj
      exact h.last j hj

theorem Contents.leave (h : s.Contents finished batch recent) (hpc : s.pc i = .filled) :
    (s.leave i).Contents finished batch recent :=
  h.move rfl rfl rfl rfl rfl rfl (fun _ => by rw [hpc]; rfl) (by rw [hpc]; rfl) trivial
    fun hfalse => absurd hfalse Bool.false_ne_true

-- The threads that are not in a flush are in no phase of one.
theorem Owned.phase_other (h : s.Owned (some i)) {t : Tracer ε n} {j : Fin n} (hj : j ≠ i)
    {finished batch : List ε} : t.Phase finished batch (s.pc j) := by
  refine .of_not_inFlush ?_
  cases hflush : (s.pc j).inFlush with
  | false => rfl
  | true => exact absurd (Option.some.inj ((h.inFlush_iff j).mp hflush)).symm hj

/-- The swap hands the recent events to the flush. -/
theorem Contents.swap (h : s.Contents finished batch recent)
    (hstill : ∀ j, (s.pc j).inFlush = false) (hnone : (s.pc i).owes s.event_buffer = none)
    (hnone' : (s.pc i).owes (!s.event_buffer) = none) (is_last : Bool) :
    (s.swap i is_last).Contents finished recent [] := by
  obtain ⟨rfl, hf⟩ := h.still hstill
  have hself : (s.swap i is_last).pc i = .waiting s.event_count is_last := Function.update_self ..
  have hother {j : Fin n} (hj : j ≠ i) : (s.swap i is_last).pc j = s.pc j :=
    Function.update_of_ne hj ..
  have hsame {b : Bool} (hb : (s.pc i).owes b = none) (j : Fin n) :
      ((s.swap i is_last).pc j).owes b = (s.pc j).owes b := by
    by_cases hj : j = i
    · rw [hj, hself, hb]
      rfl
    · rw [hother hj]
  refine ⟨.empty fun j => ?_, ?_, rfl, fun hall => ?_, fun j => ?_, fun _ _ _ => rfl, h.later⟩
  · refine (hsame hnone' j).trans ?_
    cases howes : (s.pc j).owes (!s.event_buffer) with
    | none => rfl
    | some due => cases h.batch_slots.due j due.1 due.2 howes
  · have hslots := h.recent_slots.congr (hsame hnone)
    rw [← Bool.not_not s.event_buffer] at hslots
    exact hslots
  · have hi := hall i
    rw [hself] at hi
    contradiction
  · by_cases hj : j = i
    · rw [hj, hself]
      exact ⟨h.count, hf⟩
    · rw [hother hj]
      exact .of_not_inFlush (hstill j)

/-- No event is in progress, and so nobody has to write any more. -/
theorem Contents.unlock (h : s.Contents finished batch recent) (howned : s.Owned flusher)
    {event_count_copy : Nat} {is_last : Bool}
    (hpc : s.pc i = .waiting event_count_copy is_last) (hprogress : s.events_in_progress = 0) :
    (s.unlock i event_count_copy is_last).Contents finished batch recent := by
  have hidle (j : Fin n) (b : Bool) : (s.pc j).owes b = none := by
    have hzero := howned.inProgress.symm.trans hprogress
    rw [countThreads_eq_sum, Finset.sum_eq_zero_iff] at hzero
    have hj := hzero j (Finset.mem_univ j)
    cases hpcj : s.pc j with
    | filling =>
      rw [hpcj] at hj
      contradiction
    | _ => rfl
  have hphase := h.phase i
  rw [hpc] at hphase
  refine h.move rfl rfl rfl rfl rfl rfl (fun b => ?_) (by rw [hpc]; rfl)
    ⟨hphase.1, Nat.zero_le _, ?_, fun j => ?_⟩ fun hlast => ?_
  · rw [hpc]
    rfl
  · rw [List.take_zero, List.append_nil]
    exact hphase.2
  · by_cases hj : j = i
    · rw [hj]
      exact congrArg _ (Function.update_self ..)
    · exact (congrArg _ (Function.update_of_ne hj ..)).trans (hidle j _)
  · exact h.last i (by rw [hpc]; exact hlast)

/-- The slot that the flush reads next holds the event of the batch that is due there. -/
theorem Contents.slot (h : s.Contents finished batch recent) {k event_count_copy : Nat}
    {is_last : Bool} (hpc : s.pc i = .writing k event_count_copy is_last)
    (hk : k < event_count_copy) :
    ∃ hlt : k < batch.length, s.blocks (!s.event_buffer) k = some batch[k] := by
  have hphase := h.phase i
  rw [hpc] at hphase
  obtain ⟨hcount, -, -, hsettled⟩ := hphase
  have hbatch : k < batch.length := hcount ▸ hk
  exact ⟨hbatch, h.batch_slots.settled hsettled hbatch⟩

/-- **What the flush writes is the next event of the batch, and all of it.** -/
theorem Contents.writeEvent (h : s.Contents finished batch recent) (howned : s.Owned (some i))
    {k event_count_copy : Nat} {is_last : Bool}
    (hpc : s.pc i = .writing k event_count_copy is_last) (hk : k < event_count_copy) :
    (s.writeEvent i k event_count_copy is_last).Contents finished batch recent := by
  have hself : (s.writeEvent i k event_count_copy is_last).pc i =
      .writing (k + 1) event_count_copy is_last := Function.update_self ..
  have hother {j : Fin n} (hj : j ≠ i) :
      (s.writeEvent i k event_count_copy is_last).pc j = s.pc j := Function.update_of_ne hj ..
  have hsame (b : Bool) (j : Fin n) :
      ((s.writeEvent i k event_count_copy is_last).pc j).owes b = (s.pc j).owes b := by
    by_cases hj : j = i
    · rw [hj, hself, hpc]
      rfl
    · rw [hother hj]
  have hphase := h.phase i
  rw [hpc] at hphase
  obtain ⟨hcount, -, hf, hsettled⟩ := hphase
  obtain ⟨hbatch, hslot⟩ := h.slot hpc hk
  refine ⟨h.recent_slots.congr (hsame _), h.batch_slots.congr (hsame _), h.count, fun hall => ?_,
    fun j => ?_, fun j hj => ?_, h.later⟩
  · have hi := hall i
    rw [hself] at hi
    contradiction
  · by_cases hj : j = i
    · rw [hj, hself]
      refine ⟨hcount, hk, ?_, fun j => (hsame _ j).trans (hsettled j)⟩
      show s.f.map (fun file => file ++ [s.blocks (!s.event_buffer) k]) = _
      rw [hf, hslot, Option.map_some, ← List.take_append_getElem hbatch, List.map_append,
        List.map_append, List.map_append, List.append_assoc]
      rfl
    · rw [hother hj]
      exact howned.phase_other hj
  · by_cases hji : j = i
    · rw [hji, hself] at hj
      exact h.last i (by rw [hpc]; exact hj)
    · rw [hother hji] at hj
      exact h.last j hj

theorem Contents.written (h : s.Contents finished batch recent) {k event_count_copy : Nat}
    {is_last : Bool} (hpc : s.pc i = .writing k event_count_copy is_last)
    (hk : ¬ k < event_count_copy) :
    (s.goto i (.finishing is_last)).Contents finished batch recent := by
  have hphase := h.phase i
  rw [hpc] at hphase
  obtain ⟨hcount, -, hf, hsettled⟩ := hphase
  refine h.move rfl rfl rfl rfl rfl rfl (fun b => by rw [hpc]; rfl) (by rw [hpc]; rfl)
    ⟨?_, fun j => ?_⟩ fun hlast => h.last i (by rw [hpc]; exact hlast)
  · rw [← List.take_of_length_le (l := batch) (i := k) (by omega)]
    exact hf
  · by_cases hj : j = i
    · rw [hj]
      exact congrArg _ (Function.update_self ..)
    · exact (congrArg _ (Function.update_of_ne hj ..)).trans (hsettled j)

/-- The flush is over: its events are in the file. -/
theorem Contents.finish (h : s.Contents finished batch recent) (howned : s.Owned (some i))
    {is_last : Bool} (hpc : s.pc i = .finishing is_last) :
    (s.finish i is_last).Contents (finished ++ batch) [] recent := by
  have hself : (s.finish i is_last).pc i = if is_last then .closing else .idle :=
    Function.update_self ..
  have hother {j : Fin n} (hj : j ≠ i) : (s.finish i is_last).pc j = s.pc j :=
    Function.update_of_ne hj ..
  have hsame (b : Bool) (j : Fin n) : ((s.finish i is_last).pc j).owes b = (s.pc j).owes b := by
    by_cases hj : j = i
    · rw [hj, hself, hpc]
      cases is_last <;> rfl
    · rw [hother hj]
  have hphase := h.phase i
  rw [hpc] at hphase
  obtain ⟨hf, hsettled⟩ := hphase
  refine ⟨h.recent_slots.congr (hsame _), .empty fun j => (hsame _ j).trans (hsettled j), h.count,
    fun _ => ⟨rfl, hf⟩, fun j => ?_, fun j hj => ?_, fun hclosed => ?_⟩
  · by_cases hj : j = i
    · rw [hj, hself]
      cases is_last <;> trivial
    · rw [hother hj]
      exact howned.phase_other hj
  · by_cases hji : j = i
    · rw [hji, hself] at hj
      cases is_last with
      | true => exact h.last i (by rw [hpc]; rfl)
      | false => contradiction
    · rw [hother hji] at hj
      exact h.last j hj
  · have hnone := howned.ended (.inl hclosed)
    contradiction

theorem Contents.stop (h : s.Contents finished batch recent) (hpc : s.pc i = .idle) :
    (s.stop i).Contents finished batch recent :=
  h.move rfl rfl rfl rfl rfl rfl (fun _ => by rw [hpc]; rfl) (by rw [hpc]; rfl) trivial
    fun hfalse => absurd hfalse Bool.false_ne_true

theorem Contents.refused (h : s.Contents finished batch recent) (hpc : s.pc i = .idle) :
    (s.goto i .idle).Contents finished batch recent :=
  h.move rfl rfl rfl rfl rfl rfl (fun _ => by rw [hpc]) (by rw [hpc]) trivial
    fun hfalse => absurd hfalse Bool.false_ne_true

theorem Contents.init (hidle : ∀ j, (s.pc j).isIdle = true) : s.mtr_init.Contents [] [] [] := by
  have hpc (j : Fin n) : s.mtr_init.pc j = .idle := TracePc.eq_idle (hidle j)
  refine ⟨.empty fun j => ?_, .empty fun j => ?_, rfl, fun _ => ⟨rfl, rfl⟩, fun j => ?_,
    fun _ _ _ => rfl, fun _ => rfl⟩
  · rw [hpc j]
    rfl
  · rw [hpc j]
    rfl
  · rw [hpc j]
    trivial

/-- A last flush that is refused: a session was closed before. -/
theorem Contents.refusedLast (h : s.Contents finished batch recent) (howned : s.Owned flusher)
    (hpc : s.pc i = .stopped) (hflushing : s.is_flushing = true) :
    (s.goto i .closing).Contents finished batch recent := by
  refine h.move rfl rfl rfl rfl rfl rfl (fun _ => by rw [hpc]; rfl) (by rw [hpc]; rfl) trivial
    fun _ hclosed => ?_
  have hothers {j : Fin n} (hj : j ≠ i) : s.pc j = .idle :=
    howned.alone (i := i) (by rw [hpc]; rfl) hj
  rcases howned.flushing_iff.mp hflushing with hsome | hnonempty | ⟨j, hj⟩
  · obtain ⟨j, rfl⟩ := Option.isSome_iff_exists.mp hsome
    have hflush := (howned.inFlush_iff j).mpr rfl
    by_cases hji : j = i
    · rw [hji, hpc] at hflush
      contradiction
    · rw [hothers hji] at hflush
      contradiction
  · exact absurd hclosed hnonempty
  · by_cases hji : j = i
    · rw [hji, hpc] at hj
      contradiction
    · rw [hothers hji] at hj
      contradiction

end Tracer

/-! ## 2. Runs -/

/-- The events that were accepted, of the session that is open and of those that were closed. -/
structure RecordedTracer (ε : Type) (n : Nat) where
  tracer : Tracer ε n := {}
  accepted : List ε := []
  sessions : List (List ε) := []

namespace RecordedTracer

def next (r : RecordedTracer ε n) (a : TraceLabel ε n) : Option (RecordedTracer ε n) :=
  (r.tracer.next a).map fun tracer =>
    match a with
    | .call _ .mtr_init => { r with tracer, accepted := [] }
    | .call _ (.internal_mtr_raw_event event) =>
      if r.tracer.is_tracing = false ∨ INTERNAL_MINITRACE_BUFFER_SIZE ≤ r.tracer.event_count then
        { r with tracer }
      else { r with tracer, accepted := r.accepted ++ [event] }
    | .call _ _ => { r with tracer }
    | .step i =>
      if (r.tracer.pc i).isClosing then
        { tracer, accepted := [], sessions := r.sessions ++ [r.accepted] }
      else { r with tracer }

end RecordedTracer

def tracerMachine (ε : Type) (n : Nat) : Machine (RecordedTracer ε n) (TraceLabel ε n) where
  init r := r = {}
  next := RecordedTracer.next

/-- The files of sessions with these events, where only the first one is written down. -/
def firstOnly : List (List ε) → List (List (Option ε))
  | [] => []
  | first :: later => first.map some :: later.map fun _ => []

theorem firstOnly_concat {sessions : List (List ε)} (hsessions : sessions ≠ [])
    (events : List ε) : firstOnly (sessions ++ [events]) = firstOnly sessions ++ [[]] := by
  cases sessions with
  | nil => contradiction
  | cons first later => simp [firstOnly]

namespace RecordedTracer

open Tracer

variable {r : RecordedTracer ε n}

structure Traced (r : RecordedTracer ε n) (flusher : Option (Fin n)) : Prop where
  owned : r.tracer.Owned flusher
  contents : r.tracer.f.isSome = true → ∃ finished batch recent,
    r.tracer.Contents finished batch recent ∧ r.accepted = finished ++ batch ++ recent
  closed : r.tracer.closed = firstOnly r.sessions

/-- A step that hands events on, but takes none away and adds none. -/
theorem Traced.keep {flusher flusher' : Option (Fin n)} (h : r.Traced flusher) {t : Tracer ε n}
    (howned : t.Owned flusher') (hclosed : t.closed = r.tracer.closed)
    (hf : r.tracer.f.isSome = true)
    (hcontents : ∀ finished batch recent, r.tracer.Contents finished batch recent →
      ∃ finished' batch' recent', t.Contents finished' batch' recent' ∧
        finished' ++ batch' ++ recent' = finished ++ batch ++ recent) :
    ({ r with tracer := t } : RecordedTracer ε n).Traced flusher' := by
  obtain ⟨finished, batch, recent, hold, haccepted⟩ := h.contents hf
  obtain ⟨finished', batch', recent', hnew, hsame⟩ := hcontents finished batch recent hold
  exact ⟨howned, fun _ => ⟨finished', batch', recent', hnew, haccepted.trans hsame.symm⟩,
    hclosed.trans h.closed⟩

/-- A flush that is called for, or the last one. -/
theorem Traced.flush {flusher : Option (Fin n)} (h : r.Traced flusher) {i : Fin n} {is_last : Bool}
    (hlock : r.tracer.canLock = true)
    (hstart : r.tracer.pc i = .idle ∧ is_last = false ∧
        (∀ j, (r.tracer.pc j).inShutdown = false) ∨
      r.tracer.pc i = .stopped ∧ is_last = true) :
    ∃ flusher',
      ({ r with tracer := r.tracer.flush i is_last } : RecordedTracer ε n).Traced flusher' := by
  have hf : r.tracer.f.isSome = true := (Bool.and_eq_true_iff.mp hlock).1
  unfold Tracer.flush
  cases hflushing : r.tracer.is_flushing with
  | true =>
    rcases hstart with ⟨hpc, rfl, -⟩ | ⟨hpc, rfl⟩
    · exact ⟨_, h.keep (h.owned.refused hpc hf) rfl hf fun finished batch recent hold =>
        ⟨finished, batch, recent, hold.refused hpc, rfl⟩⟩
    · have hsame : r.tracer.goto i .closing = r.tracer.finish i true := by
        rw [Tracer.goto, Tracer.finish, if_pos rfl, ← hflushing]
      have howned := h.owned.closing (i := i) (by rw [hpc]; rfl) (by rw [hpc]; rfl) hlock
      exact ⟨_, h.keep (hsame ▸ howned) rfl hf fun finished batch recent hold =>
        ⟨finished, batch, recent, hold.refusedLast h.owned hpc hflushing, rfl⟩⟩
  | false =>
    have howned := h.owned.swap hlock hflushing hstart
    have hstill (j : Fin n) : (r.tracer.pc j).inFlush = false := by
      cases hj : (r.tracer.pc j).inFlush with
      | false => rfl
      | true =>
        have hsome := (h.owned.inFlush_iff j).mp hj
        have := h.owned.flushing_iff.mpr (.inl (by rw [hsome]; rfl))
        exact absurd (hflushing.symm.trans this) Bool.false_ne_true
    have howes (b : Bool) : (r.tracer.pc i).owes b = none := by
      rcases hstart with ⟨hpc, -⟩ | ⟨hpc, -⟩ <;> rw [hpc] <;> rfl
    refine ⟨_, h.keep howned rfl hf fun finished batch recent hold => ?_⟩
    obtain ⟨rfl, -⟩ := hold.still hstill
    refine ⟨finished, recent, [], hold.swap hstill (howes _) (howes _) is_last, ?_⟩
    rw [List.append_nil, List.append_nil]

/-- A thread goes on with its call. -/
theorem Traced.step {flusher : Option (Fin n)} (h : r.Traced flusher) {i : Fin n}
    {t : Tracer ε n} (hn : r.tracer.step i = some t)
    (hclosing : (r.tracer.pc i).isClosing = false) :
    ∃ flusher', ({ r with tracer := t } : RecordedTracer ε n).Traced flusher' := by
  unfold Tracer.step at hn
  cases hpc : r.tracer.pc i with
  | idle =>
    rw [hpc] at hn
    contradiction
  | filling block slot event =>
    rw [hpc] at hn
    obtain rfl := Option.some.inj hn
    have hf := h.owned.opened (i := i) (by rw [hpc]; rfl)
    exact ⟨_, h.keep (h.owned.fill hpc) rfl hf fun finished batch recent hold =>
      ⟨finished, batch, recent, hold.fill hpc, rfl⟩⟩
  | filled =>
    rw [hpc] at hn
    obtain rfl := Option.some.inj hn
    have hf := h.owned.opened (i := i) (by rw [hpc]; rfl)
    exact ⟨_, h.keep (h.owned.leave hpc) rfl hf fun finished batch recent hold =>
      ⟨finished, batch, recent, hold.leave hpc, rfl⟩⟩
  | waiting event_count_copy is_last =>
    rw [hpc] at hn
    obtain rfl := Option.some.inj hn
    have hf := h.owned.opened (i := i) (by rw [hpc]; rfl)
    split
    next hprogress =>
      exact ⟨_, h.keep (h.owned.unlock hpc) rfl hf fun finished batch recent hold =>
        ⟨finished, batch, recent, hold.unlock h.owned hpc hprogress, rfl⟩⟩
    next => exact ⟨_, h⟩
  | writing k event_count_copy is_last =>
    rw [hpc] at hn
    have hf := h.owned.opened (i := i) (by rw [hpc]; rfl)
    have hflusher := (h.owned.inFlush_iff i).mp (by rw [hpc]; rfl)
    subst hflusher
    dsimp only at hn
    split at hn
    next => contradiction
    next =>
      split at hn
      next hk =>
        obtain rfl := Option.some.inj hn
        exact ⟨_, h.keep (h.owned.writeEvent hpc) rfl hf fun finished batch recent hold =>
          ⟨finished, batch, recent, hold.writeEvent h.owned hpc hk, rfl⟩⟩
      next hk =>
        obtain rfl := Option.some.inj hn
        exact ⟨_, h.keep (h.owned.written hpc) rfl hf fun finished batch recent hold =>
          ⟨finished, batch, recent, hold.written hpc hk, rfl⟩⟩
  | finishing is_last =>
    rw [hpc] at hn
    have hf := h.owned.opened (i := i) (by rw [hpc]; rfl)
    have hflusher := (h.owned.inFlush_iff i).mp (by rw [hpc]; rfl)
    subst hflusher
    dsimp only at hn
    split at hn
    next hlock =>
      obtain rfl := Option.some.inj hn
      have hhanded (finished batch recent : List ε)
          (hold : r.tracer.Contents finished batch recent) :
          ∃ finished' batch' recent',
            (r.tracer.finish i is_last).Contents finished' batch' recent' ∧
              finished' ++ batch' ++ recent' = finished ++ batch ++ recent :=
        ⟨finished ++ batch, [], recent, hold.finish h.owned hpc, by rw [List.append_nil]⟩
      cases is_last with
      | true =>
        have howned := h.owned.closing (i := i) (by rw [hpc]; rfl) (by rw [hpc]; rfl) hlock
        exact ⟨_, h.keep howned rfl hf hhanded⟩
      | false => exact ⟨_, h.keep (h.owned.finish hpc) rfl hf hhanded⟩
    next => contradiction
  | stopped =>
    rw [hpc] at hn
    dsimp only at hn
    split at hn
    next hlock =>
      obtain rfl := Option.some.inj hn
      exact h.flush hlock (.inr ⟨hpc, rfl⟩)
    next => contradiction
  | closing =>
    rw [hpc] at hclosing
    contradiction

/-- The file of a session is closed: the first one with all its events, any later one empty. -/
theorem Traced.close {flusher : Option (Fin n)} (h : r.Traced flusher) {i : Fin n}
    (hpc : r.tracer.pc i = .closing) {file : List (Option ε)} (hf : r.tracer.f = some file) :
    ({ tracer := r.tracer.close i file, accepted := [], sessions := r.sessions ++ [r.accepted] } :
      RecordedTracer ε n).Traced none := by
  refine ⟨h.owned.close hpc file, fun hnone => by contradiction, ?_⟩
  obtain ⟨finished, batch, recent, hold, haccepted⟩ := h.contents (by rw [hf]; rfl)
  have hover : r.tracer.Over := .inr ⟨i, by rw [hpc]; rfl⟩
  have hstill (j : Fin n) : (r.tracer.pc j).inFlush = false := by
    by_cases hj : j = i
    · rw [hj, hpc]
      rfl
    · rw [h.owned.alone (i := i) (by rw [hpc]; rfl) hj]
      rfl
  obtain ⟨rfl, hfile⟩ := hold.still hstill
  obtain rfl := Option.some.inj (hf.symm.trans hfile)
  show r.tracer.closed ++ [finished.map some] = firstOnly (r.sessions ++ [r.accepted])
  have hclosed := h.closed
  cases hsessions : r.sessions with
  | nil =>
    rw [hsessions] at hclosed
    have hrecent := hold.last i (by rw [hpc]; rfl) hclosed
    rw [hclosed, haccepted, hrecent, List.append_nil, List.append_nil]
    rfl
  | cons first later =>
    have hlater : r.tracer.closed ≠ [] := by
      rw [hclosed, hsessions]
      exact List.cons_ne_nil _ _
    rw [← hsessions, firstOnly_concat (by rw [hsessions]; exact List.cons_ne_nil _ _), hclosed,
      hold.later hlater]
    rfl

theorem Traced.next {flusher : Option (Fin n)} (h : r.Traced flusher) {a : TraceLabel ε n}
    (hquiet : r.tracer.Quiet a) {t : RecordedTracer ε n} (hn : r.next a = some t) :
    ∃ flusher', t.Traced flusher' := by
  obtain ⟨tracer, htracer, rfl⟩ := Option.map_eq_some_iff.mp hn
  cases a with
  | step i =>
    dsimp only
    cases hclosing : (r.tracer.pc i).isClosing with
    | false => exact h.step htracer hclosing
    | true =>
      have hpc : r.tracer.pc i = .closing := by
        cases hpc : r.tracer.pc i with
        | closing => rfl
        | _ =>
          rw [hpc] at hclosing
          contradiction
      simp only [Tracer.next, Tracer.step, hpc] at htracer
      obtain ⟨file, hf, rfl⟩ := Option.map_eq_some_iff.mp htracer
      exact ⟨_, h.close hpc hf⟩
  | call i c =>
    simp only [Tracer.next] at htracer
    split at htracer
    next hi =>
      cases c with
      | mtr_init =>
        obtain rfl := Option.some.inj htracer
        exact ⟨_, h.owned.init hquiet,
          fun _ => ⟨[], [], [], .init hquiet, rfl⟩, h.closed⟩
      | mtr_flush =>
        simp only [call] at htracer
        split at htracer
        next hlock =>
          obtain rfl := Option.some.inj htracer
          exact h.flush hlock (.inl ⟨TracePc.eq_idle hi, rfl, hquiet⟩)
        next => contradiction
      | mtr_shutdown =>
        simp only [call] at htracer
        split at htracer
        next hlock =>
          obtain rfl := Option.some.inj htracer
          have hf : r.tracer.f.isSome = true := (Bool.and_eq_true_iff.mp hlock).1
          exact ⟨_, h.keep (h.owned.stop hquiet hf) rfl hf fun finished batch recent hold =>
            ⟨finished, batch, recent, hold.stop (TracePc.eq_idle hi), rfl⟩⟩
        next => contradiction
      | internal_mtr_raw_event event =>
        simp only [call] at htracer
        split at htracer
        next hlock =>
          obtain rfl := Option.some.inj htracer
          have hf : r.tracer.f.isSome = true := (Bool.and_eq_true_iff.mp hlock).1
          have howned := h.owned.reserve hi hlock hquiet event
          unfold Tracer.reserve at howned ⊢
          dsimp only
          split
          next => exact ⟨_, h⟩
          next haccepted =>
            rw [if_neg haccepted] at howned
            obtain ⟨finished, batch, recent, hold, hevents⟩ := h.contents hf
            refine ⟨_, howned, fun _ => ⟨finished, batch, recent ++ [event],
              hold.accept (TracePc.eq_idle hi) hquiet event, ?_⟩, h.closed⟩
            show r.accepted ++ [event] = _
            rw [hevents, List.append_assoc]
        next => contradiction
    next => contradiction

theorem traced_of_reach (h : (tracerMachine ε n).ReachWhile (fun r a => r.tracer.Quiet a) r) :
    ∃ flusher, r.Traced flusher := by
  refine h.invariant (I := fun r => ∃ flusher, r.Traced flusher) (fun s hs => ?_)
    fun s a t ⟨flusher, hI⟩ hquiet hn => hI.next hquiet hn
  obtain rfl : s = {} := hs
  refine ⟨none, ⟨fun j => ?_, ?_, fun _ => rfl, fun j => ?_, ?_, fun _ _ => rfl, fun _ hk => ?_⟩,
    fun hf => ?_, rfl⟩
  · exact ⟨fun hfalse => absurd hfalse Bool.false_ne_true, fun hnone => by contradiction⟩
  · refine ⟨fun hfalse => absurd hfalse Bool.false_ne_true, ?_⟩
    rintro (hnone | hclosed | ⟨j, hj⟩)
    · contradiction
    · exact absurd rfl hclosed
    · contradiction
  · exact ⟨fun hnone => by contradiction, fun hfalse => absurd hfalse Bool.false_ne_true⟩
  · rw [countThreads_eq_sum]
    exact (Finset.sum_eq_zero fun _ _ => rfl).symm
  · contradiction
  · contradiction

end RecordedTracer

/-- Where the events of the open session are: `written` in the file, `unwritten` in `flush_buffer`
behind those of the same flush that are in the file, and `recent` in `event_buffer`.  A slot that is
due holds its event, or a thread has still to write it there. -/
structure Tracer.Placed (s : Tracer ε n) (written unwritten recent : List ε) : Prop where
  file : s.f = some (written.map some)
  flush_buffer : ∃ begun, begun <:+ written ∧
    Slots (s.blocks (!s.event_buffer)) (fun j => (s.pc j).owes (!s.event_buffer))
      (begun ++ unwritten)
  unflushed : (∀ j, (s.pc j).inFlush = false) → unwritten = []
  settled : ∀ j, (s.pc j).isWriting = true → s.Settled
  event_buffer : Slots (s.blocks s.event_buffer) (fun j => (s.pc j).owes s.event_buffer) recent
  event_count : s.event_count = recent.length

/-- A flush is at some place of its batch. -/
theorem Tracer.Contents.placed {s : Tracer ε n} {flusher : Option (Fin n)}
    {finished batch recent : List ε} (h : s.Contents finished batch recent)
    (howned : s.Owned flusher) :
    ∃ written unwritten, finished ++ batch = written ++ unwritten ∧
      s.Placed written unwritten recent := by
  have hsettled (j : Fin n) (hj : (s.pc j).isWriting = true) : s.Settled := by
    have hphase := h.phase j
    cases hpc : s.pc j with
    | writing =>
      rw [hpc] at hphase
      exact hphase.2.2.2
    | _ =>
      rw [hpc] at hj
      contradiction
  -- the flush has written the front part `begun` of its batch
  have hplaced {begun rest : List ε} (hbatch : batch = begun ++ rest)
      (hf : s.f = some ((finished ++ begun).map some))
      (hrest : (∀ j, (s.pc j).inFlush = false) → rest = []) :
      ∃ written unwritten, finished ++ batch = written ++ unwritten ∧
        s.Placed written unwritten recent := by
    refine ⟨finished ++ begun, rest, by rw [hbatch, List.append_assoc], hf,
      ⟨begun, List.suffix_append _ _, ?_⟩, hrest, hsettled, h.recent_slots, h.count⟩
    rw [← hbatch]
    exact h.batch_slots
  cases flusher with
  | none =>
    obtain ⟨hbatch, hf⟩ := h.still fun j => by
      cases hj : (s.pc j).inFlush with
      | false => rfl
      | true => cases (howned.inFlush_iff j).mp hj
    exact hplaced (show batch = [] ++ batch from rfl) (by rw [List.append_nil]; exact hf)
      fun _ => hbatch
  | some i =>
    have hflush := (howned.inFlush_iff i).mpr rfl
    have hbusy {rest : List ε} (hall : ∀ j, (s.pc j).inFlush = false) : rest = [] := by
      rw [hall i] at hflush
      contradiction
    have hphase := h.phase i
    cases hpc : s.pc i with
    | waiting =>
      rw [hpc] at hphase
      exact hplaced (show batch = [] ++ batch from rfl)
        (by rw [List.append_nil]; exact hphase.2) hbusy
    | writing k =>
      rw [hpc] at hphase
      exact hplaced (List.take_append_drop k batch).symm hphase.2.2.1 hbusy
    | finishing =>
      rw [hpc] at hphase
      exact hplaced (List.append_nil batch).symm hphase.1 fun _ => rfl
    | _ =>
      rw [hpc] at hflush
      contradiction

/-- **Every event accepted in the first session is written once, in order and whole.**  Its file,
once closed, holds all of them.  Until then, and in any later session that is open, the accepted
events are those in the file, those that a flush has still to write and those in `event_buffer`. -/
theorem trace_exactlyOnce {r : RecordedTracer ε n}
    (h : (tracerMachine ε n).ReachWhile (fun r a => r.tracer.Quiet a) r) :
    (r.tracer.f.isSome = true → ∃ written unwritten recent,
      r.accepted = written ++ unwritten ++ recent ∧ r.tracer.Placed written unwritten recent) ∧
    r.tracer.closed.head? = r.sessions.head?.map fun first => first.map some := by
  obtain ⟨flusher, hr⟩ := RecordedTracer.traced_of_reach h
  refine ⟨fun hf => ?_, ?_⟩
  · obtain ⟨finished, batch, recent, hold, haccepted⟩ := hr.contents hf
    obtain ⟨written, unwritten, hsame, hplaced⟩ := hold.placed hr.owned
    exact ⟨written, unwritten, recent, by rw [haccepted, hsame], hplaced⟩
  · rw [hr.closed]
    cases r.sessions <;> rfl

instance (s : Tracer ε n) : (a : TraceLabel ε n) → Decidable (s.Quiet a)
  | .call _ .mtr_init => inferInstanceAs (Decidable (∀ j : Fin n, (s.pc j).isIdle = true))
  | .call _ .mtr_shutdown => inferInstanceAs (Decidable (∀ j : Fin n, (s.pc j).isIdle = true))
  | .call _ .mtr_flush => inferInstanceAs (Decidable (∀ j : Fin n, (s.pc j).inShutdown = false))
  | .call _ (.internal_mtr_raw_event _) =>
    inferInstanceAs (Decidable (∀ j : Fin n, (s.pc j).inShutdown = false))
  | .step _ => inferInstanceAs (Decidable True)

/-- A flush takes an event whose slot is filled only afterwards, and another event comes in. -/
def flushedWhileFilled (i j : Fin n) : List (TraceLabel Nat n) :=
  [.call i .mtr_init, .call j (.internal_mtr_raw_event 7), .call i .mtr_flush, .step i, .step j,
    .step j, .step i, .call j (.internal_mtr_raw_event 8), .step i]

theorem trace_exactlyOnce_flushedWhileFilled :
    let r := ((tracerMachine Nat 2).runWhile (fun r a => r.tracer.Quiet a) {}
      (flushedWhileFilled 0 1)).get (by decide)
    r.accepted = [7, 8] ∧ r.tracer.f = some [some 7] ∧
    (r.tracer.f.isSome = true → ∃ written unwritten recent,
      r.accepted = written ++ unwritten ++ recent ∧ r.tracer.Placed written unwritten recent) ∧
    r.tracer.closed.head? = r.sessions.head?.map fun first => first.map some :=
  ⟨by decide, by decide, trace_exactlyOnce
    ⟨{}, rfl, Machine.leads_of_runWhile (Option.some_get (by decide)).symm⟩⟩

/-- **Only the first session is written down**, as long as the callers keep to `Quiet`.  Its file
holds all events that were accepted; after it `is_flushing` stays set, so that every later flush is
refused and every later file is empty. -/
theorem trace_onlyFirst {r : RecordedTracer ε n}
    (h : (tracerMachine ε n).ReachWhile (fun r a => r.tracer.Quiet a) r) :
    r.tracer.closed = firstOnly r.sessions := by
  obtain ⟨_, hr⟩ := RecordedTracer.traced_of_reach h
  exact hr.closed

/-- Two sessions with one event each. -/
def twoSessions (i : Fin n) : List (TraceLabel Nat n) :=
  let session (event : Nat) (steps : Nat) : List (TraceLabel Nat n) :=
    [.call i .mtr_init, .call i (.internal_mtr_raw_event event), .step i, .step i,
      .call i .mtr_shutdown] ++ List.replicate steps (.step i)
  session 7 6 ++ session 8 2

theorem trace_onlyFirst_twoSessions :
    let r := ((tracerMachine Nat 1).runWhile (fun r a => r.tracer.Quiet a) {}
      (twoSessions 0)).get (by decide)
    r.sessions = [[7], [8]] ∧ r.tracer.closed = firstOnly r.sessions :=
  ⟨by decide, trace_onlyFirst
    ⟨{}, rfl, Machine.leads_of_runWhile (Option.some_get (by decide)).symm⟩⟩

/-! ## 3. Every call returns -/

/-- How many steps a thread has left, with `event_count` events to flush. -/
def TracePc.rank (event_count : Nat) : TracePc ε → Nat
  | idle => 0
  | filling .. => 2
  | filled => 1
  | waiting event_count_copy _ => event_count_copy + 4
  | writing k event_count_copy _ => event_count_copy - k + 3
  | finishing _ => 2
  | stopped => event_count + 5
  | closing => 1

namespace Tracer

variable {s : Tracer ε n} {flusher : Option (Fin n)} {i : Fin n}

def rank (s : Tracer ε n) : Nat := ∑ j, (s.pc j).rank s.event_count

theorem rank_lt {t : Tracer ε n} {x : TracePc ε} (hpc : t.pc = Function.update s.pc i x)
    (hcount : t.event_count ≤ s.event_count)
    (hlower : x.rank s.event_count < (s.pc i).rank s.event_count) : t.rank < s.rank := by
  have hsum := sum_update_add (TracePc.rank s.event_count) s.pc i x
  have hle : t.rank ≤ ∑ j, (Function.update s.pc i x j).rank s.event_count := by
    unfold rank
    rw [hpc]
    refine Finset.sum_le_sum fun j _ => ?_
    cases Function.update s.pc i x j with
    | stopped => exact Nat.add_le_add_right hcount 5
    | _ => exact Nat.le_refl _
  unfold rank at hle ⊢
  omega

/-- A thread that has something left to do can do it, unless it waits for events in progress. -/
theorem Owned.step_lowers (h : s.Owned flusher) (hi : (s.pc i).isIdle = false)
    (hwaits : (s.pc i).isWaiting = true → s.events_in_progress = 0) :
    ∃ t, s.step i = some t ∧ t.rank < s.rank := by
  have hf := h.opened hi
  -- a thread that holds the mutex waits in its flush
  have hfree (hone : ∀ j, (s.pc j).isWaiting = false) : s.canLock = true := by
    rw [canLock, hf, Bool.true_and]
    cases hmutex : s.mutex with
    | none => rfl
    | some j =>
      have hj := (h.mutex_iff j).mp hmutex
      rw [hone j] at hj
      contradiction
  unfold step
  cases hpc : s.pc i with
  | idle =>
    rw [hpc] at hi
    contradiction
  | filling block slot event =>
    exact ⟨_, rfl, rank_lt rfl (Nat.le_refl _) (by rw [hpc]; exact Nat.lt_succ_self 1)⟩
  | filled => exact ⟨_, rfl, rank_lt rfl (Nat.le_refl _) (by rw [hpc]; exact Nat.zero_lt_one)⟩
  | waiting event_count_copy is_last =>
    rw [hpc] at hwaits
    dsimp only
    rw [if_pos (hwaits rfl)]
    refine ⟨_, rfl, rank_lt rfl (Nat.le_refl _) ?_⟩
    rw [hpc]
    exact Nat.lt_succ_self _
  | writing k event_count_copy is_last =>
    have hnone : ¬ s.f.isNone = true := by
      rw [Option.isNone_iff_eq_none]
      intro hnone
      rw [hnone] at hf
      contradiction
    dsimp only
    rw [if_neg hnone]
    split
    next hk =>
      refine ⟨_, rfl, rank_lt rfl (Nat.le_refl _) ?_⟩
      rw [hpc]
      show event_count_copy - (k + 1) + 3 < event_count_copy - k + 3
      omega
    next =>
      refine ⟨_, rfl, rank_lt rfl (Nat.le_refl _) ?_⟩
      rw [hpc]
      exact Nat.lt_of_lt_of_le (Nat.lt_succ_self 2) (Nat.le_add_left _ _)
  | finishing is_last =>
    have hlock := hfree fun j => by
      cases hj : (s.pc j).isWaiting with
      | false => rfl
      | true =>
        have hflush : (s.pc j).inFlush = true := by
          cases hpcj : s.pc j with
          | waiting => rfl
          | _ =>
            rw [hpcj] at hj
            contradiction
        have hself := (h.inFlush_iff i).mp (by rw [hpc]; rfl)
        obtain rfl := Option.some.inj (hself.symm.trans ((h.inFlush_iff j).mp hflush))
        rw [hpc] at hj
        contradiction
    dsimp only
    rw [if_pos hlock]
    refine ⟨_, rfl, rank_lt rfl (Nat.le_refl _) ?_⟩
    rw [hpc]
    cases is_last
    · exact Nat.zero_lt_two
    · exact Nat.lt_succ_self 1
  | stopped =>
    have hlock := hfree fun j => by
      by_cases hj : j = i
      · rw [hj, hpc]
        rfl
      · rw [h.alone (i := i) (by rw [hpc]; rfl) hj]
        rfl
    dsimp only
    rw [if_pos hlock]
    refine ⟨_, rfl, ?_⟩
    unfold flush
    split
    · refine rank_lt rfl (Nat.le_refl _) ?_
      rw [hpc]
      exact Nat.lt_of_lt_of_le (Nat.lt_succ_self 1) (Nat.le_add_left_of_le (by decide))
    · refine rank_lt rfl (Nat.zero_le _) ?_
      rw [hpc]
      exact Nat.lt_succ_self _
  | closing =>
    obtain ⟨file, hfile⟩ := Option.isSome_iff_exists.mp hf
    dsimp only
    rw [hfile, Option.map_some]
    refine ⟨_, rfl, rank_lt rfl (Nat.le_refl _) ?_⟩
    rw [hpc]
    exact Nat.zero_lt_one

/-- As long as some thread is in a call, one of them can go on: the events in progress first. -/
theorem Owned.progress (h : s.Owned flusher) (hbusy : ¬ ∀ j, (s.pc j).isIdle = true) :
    ∃ i t, s.step i = some t ∧ t.rank < s.rank := by
  obtain ⟨i, hi⟩ := not_forall.mp hbusy
  rw [Bool.not_eq_true] at hi
  by_cases hprogress : s.events_in_progress = 0
  · exact ⟨i, h.step_lowers hi fun _ => hprogress⟩
  · have hpos : 0 < countThreads TracePc.isRecording s.pc :=
      h.inProgress ▸ Nat.pos_of_ne_zero hprogress
    obtain ⟨j, hj⟩ := exists_of_countThreads_pos hpos
    refine ⟨j, h.step_lowers ?_ fun hwaits => ?_⟩
    · cases hpc : s.pc j with
      | idle =>
        rw [hpc] at hj
        contradiction
      | _ => rfl
    · cases hpc : s.pc j with
      | waiting =>
        rw [hpc] at hj
        contradiction
      | _ =>
        rw [hpc] at hwaits
        contradiction

end Tracer

/-- **The tracer never deadlocks**, as long as the callers keep to `Quiet`.  A flush waits with the
mutex held for the events in progress, but these do not need it: from wherever the threads are, they
can all return. -/
theorem trace_returns {r : RecordedTracer ε n}
    (h : (tracerMachine ε n).ReachWhile (fun r a => r.tracer.Quiet a) r) :
    ∃ t, (tracerMachine ε n).Leads (fun _ a => ∃ i, a = .step i) r t ∧
      ∀ j, (t.tracer.pc j).isIdle = true := by
  have hprogress (r : RecordedTracer ε n) (hr : ∃ flusher, r.Traced flusher)
      (hbusy : ¬ ∀ j, (r.tracer.pc j).isIdle = true) :
      ∃ a t, (∃ i, a = .step i) ∧ (tracerMachine ε n).next r a = some t ∧
        (∃ flusher, t.Traced flusher) ∧ t.tracer.rank < r.tracer.rank := by
    obtain ⟨flusher, hr⟩ := hr
    obtain ⟨i, tracer, hstep, hlower⟩ := hr.owned.progress hbusy
    obtain ⟨t, hn, htracer⟩ : ∃ t, r.next (.step i) = some t ∧ t.tracer = tracer := by
      simp only [RecordedTracer.next, Tracer.next, hstep, Option.map_some]
      split
      · exact ⟨_, rfl, rfl⟩
      · exact ⟨_, rfl, rfl⟩
    exact ⟨.step i, t, ⟨i, rfl⟩, hn, hr.next (a := .step i) trivial hn, htracer ▸ hlower⟩
  have hend : ∃ t, (tracerMachine ε n).Leads (fun _ a => ∃ i, a = .step i) r t ∧
      (∃ flusher, t.Traced flusher) ∧ ∀ j, (t.tracer.pc j).isIdle = true :=
    Machine.leads_of_rank (fun r => r.tracer.rank) _ hprogress (RecordedTracer.traced_of_reach h)
  obtain ⟨t, hleads, -, hidle⟩ := hend
  exact ⟨t, hleads, hidle⟩

theorem trace_returns_flushedWhileFilled :
    let r := ((tracerMachine Nat 2).runWhile (fun r a => r.tracer.Quiet a) {}
      ((flushedWhileFilled 0 1).take 4)).get (by decide)
    ∃ t, (tracerMachine Nat 2).Leads (fun _ a => ∃ i, a = .step i) r t ∧
      ∀ j, (t.tracer.pc j).isIdle = true :=
  trace_returns
    ⟨{}, rfl, Machine.leads_of_runWhile (Option.some_get (by decide)).symm⟩

end NetShare
