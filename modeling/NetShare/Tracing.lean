import NetShare.Reasoning.Threads

/-!
# Recording a trace

`minitrace.c`, with which a driver that is profiled writes down what its threads do.  The threads
record events in one buffer; a flush swaps it for a second one and writes that to the file, while
the threads go on recording.  The first buffer is handed out slot by slot under a mutex, and the
slots are filled without it.
-/

namespace NetShare

open Reasoning

def INTERNAL_MINITRACE_BUFFER_SIZE : Nat := 1000000

/-! ## 1. The threads and what they share -/

/-- Where a thread is: `filling` with `ev` pointing into a block, `filled` before it counts itself
out, `waiting` for the events in progress with the mutex held, `writing` the buffer to the file,
`finishing` before the mutex is taken for the last time; and in `mtr_shutdown`, `stopped` before the
last flush and `closing` after it. -/
inductive TracePc (ε : Type) where
  | idle
  | filling (block : Bool) (slot : Nat) (event : ε)
  | filled
  | waiting (event_count_copy : Nat) (is_last : Bool)
  | writing (i event_count_copy : Nat) (is_last : Bool)
  | finishing (is_last : Bool)
  | stopped
  | closing

namespace TracePc

variable {ε : Type}

def isIdle : TracePc ε → Bool
  | idle => true
  | _ => false

theorem eq_idle {pc : TracePc ε} (h : pc.isIdle = true) : pc = idle := by
  cases pc <;> first | rfl | contradiction

/-- The thread is counted in `events_in_progress`. -/
def isRecording : TracePc ε → Bool
  | filling .. => true
  | filled => true
  | _ => false

def isWaiting : TracePc ε → Bool
  | waiting .. => true
  | _ => false

/-- The thread has set `is_flushing`. -/
def inFlush : TracePc ε → Bool
  | waiting .. => true
  | writing .. => true
  | finishing .. => true
  | _ => false

def isWriting : TracePc ε → Bool
  | writing .. => true
  | _ => false

def isClosing : TracePc ε → Bool
  | closing => true
  | _ => false

/-- The thread is in `mtr_shutdown`. -/
def inShutdown : TracePc ε → Bool
  | waiting _ is_last => is_last
  | writing _ _ is_last => is_last
  | finishing is_last => is_last
  | stopped => true
  | closing => true
  | _ => false

/-- The thread is in the last flush, or past it. -/
def isLast : TracePc ε → Bool
  | waiting _ is_last => is_last
  | writing _ _ is_last => is_last
  | finishing is_last => is_last
  | closing => true
  | _ => false

theorem inShutdown_of_isLast {pc : TracePc ε} (h : pc.isLast = true) : pc.inShutdown = true := by
  cases pc <;> first | exact h | rfl

/-- The event that the thread has to write into a slot of this block. -/
def owes (block : Bool) : TracePc ε → Option (Nat × ε)
  | filling b slot event => if b = block then some (slot, event) else none
  | _ => none

end TracePc

/-- Of the two blocks `event_buffer` is one and `flush_buffer` the other; a slot holds no event
before it is first filled.  `f` is the open file, and `closed` are those that were closed. -/
structure Tracer (ε : Type) (n : Nat) where
  blocks : Bool → Nat → Option ε := fun _ _ => none
  event_buffer : Bool := false
  event_count : Nat := 0
  is_tracing : Bool := false
  is_flushing : Bool := false
  events_in_progress : Nat := 0
  mutex : Option (Fin n) := none
  f : Option (List (Option ε)) := none
  closed : List (List (Option ε)) := []
  pc : Fin n → TracePc ε := fun _ => .idle

inductive TraceCall (ε : Type) where
  | mtr_init
  | internal_mtr_raw_event (event : ε)
  | mtr_flush
  | mtr_shutdown

/-- A thread makes a call, or goes on with the one it is in. -/
inductive TraceLabel (ε : Type) (n : Nat) where
  | call (i : Fin n) (c : TraceCall ε)
  | step (i : Fin n)

variable {ε : Type} {n : Nat}

namespace Tracer

def goto (s : Tracer ε n) (i : Fin n) (pc : TracePc ε) : Tracer ε n :=
  { s with pc := Function.update s.pc i pc }

/-- The blocks are new and hold no event; what a session before left in the flags stays. -/
def mtr_init (s : Tracer ε n) : Tracer ε n :=
  { s with
    blocks := fun _ _ => none
    is_tracing := true
    event_count := 0
    f := some []
    mutex := none }

/-- The next slot of `event_buffer` is taken for an event. -/
def accept (s : Tracer ε n) (i : Fin n) (event : ε) : Tracer ε n :=
  { s with
    event_count := s.event_count + 1
    events_in_progress := s.events_in_progress + 1
    pc := Function.update s.pc i (.filling s.event_buffer s.event_count event) }

/-- `internal_mtr_raw_event` up to the release of the mutex; without tracing, and when the buffer is
full, the event is dropped. -/
def reserve (s : Tracer ε n) (i : Fin n) (event : ε) : Tracer ε n :=
  if s.is_tracing = false ∨ INTERNAL_MINITRACE_BUFFER_SIZE ≤ s.event_count then s
  else s.accept i event

/-- The fields of the event are written through `ev`. -/
def fill (s : Tracer ε n) (i : Fin n) (block : Bool) (slot : Nat) (event : ε) : Tracer ε n :=
  { s with
    blocks := Function.update s.blocks block
      (Function.update (s.blocks block) slot (some event))
    pc := Function.update s.pc i .filled }

/-- The event is no longer in progress. -/
def leave (s : Tracer ε n) (i : Fin n) : Tracer ε n :=
  { s with
    events_in_progress := s.events_in_progress - 1
    pc := Function.update s.pc i .idle }

/-- The buffers are swapped, with the mutex held. -/
def swap (s : Tracer ε n) (i : Fin n) (is_last : Bool) : Tracer ε n :=
  { s with
    is_flushing := true
    event_buffer := !s.event_buffer
    event_count := 0
    mutex := some i
    pc := Function.update s.pc i (.waiting s.event_count is_last) }

/-- `mtr_flush_with_state` up to its loop for the events in progress; while another flush is going
on it does nothing. -/
def flush (s : Tracer ε n) (i : Fin n) (is_last : Bool) : Tracer ε n :=
  if s.is_flushing then s.goto i (if is_last then .closing else .idle) else s.swap i is_last

/-- No event is in progress any more, and the mutex is released. -/
def unlock (s : Tracer ε n) (i : Fin n) (event_count_copy : Nat) (is_last : Bool) : Tracer ε n :=
  { s with mutex := none, pc := Function.update s.pc i (.writing 0 event_count_copy is_last) }

/-- The event in slot `k` of `flush_buffer` is written to the file. -/
def writeEvent (s : Tracer ε n) (i : Fin n) (k event_count_copy : Nat) (is_last : Bool) :
    Tracer ε n :=
  { s with
    f := s.f.map fun file => file ++ [s.blocks (!s.event_buffer) k]
    pc := Function.update s.pc i (.writing (k + 1) event_count_copy is_last) }

/-- The flush is over; after the last one `is_flushing` stays. -/
def finish (s : Tracer ε n) (i : Fin n) (is_last : Bool) : Tracer ε n :=
  { s with
    is_flushing := is_last
    pc := Function.update s.pc i (if is_last then .closing else .idle) }

/-- `mtr_shutdown` up to the last flush. -/
def stop (s : Tracer ε n) (i : Fin n) : Tracer ε n :=
  { s with is_tracing := false, pc := Function.update s.pc i .stopped }

/-- The rest of `mtr_shutdown`. -/
def close (s : Tracer ε n) (i : Fin n) (file : List (Option ε)) : Tracer ε n :=
  { s with f := none, closed := s.closed ++ [file], pc := Function.update s.pc i .idle }

/-- The mutex can be taken: there is one, and no thread holds it. -/
def canLock (s : Tracer ε n) : Bool := s.f.isSome && s.mutex.isNone

def call (s : Tracer ε n) (i : Fin n) : TraceCall ε → Option (Tracer ε n)
  | .mtr_init => some s.mtr_init
  | .internal_mtr_raw_event event => if s.canLock then some (s.reserve i event) else none
  | .mtr_flush => if s.canLock then some (s.flush i false) else none
  | .mtr_shutdown => if s.canLock then some (s.stop i) else none

/-- What the thread does next; without the open file it would use freed memory. -/
def step (s : Tracer ε n) (i : Fin n) : Option (Tracer ε n) :=
  match s.pc i with
  | .idle => none
  | .filling block slot event => some (s.fill i block slot event)
  | .filled => some (s.leave i)
  | .waiting event_count_copy is_last =>
    some (if s.events_in_progress = 0 then s.unlock i event_count_copy is_last else s)
  | .writing k event_count_copy is_last =>
    if s.f.isNone then none
    else if k < event_count_copy then some (s.writeEvent i k event_count_copy is_last)
    else some (s.goto i (.finishing is_last))
  | .finishing is_last => if s.canLock then some (s.finish i is_last) else none
  | .stopped => if s.canLock then some (s.flush i true) else none
  | .closing => s.f.map fun file => s.close i file

def next (s : Tracer ε n) : TraceLabel ε n → Option (Tracer ε n)
  | .call i c => if (s.pc i).isIdle then s.call i c else none
  | .step i => s.step i

/-- A session is opened and closed while no thread is in a call, and during `mtr_shutdown` no other
thread makes one.  This is a condition on the callers, which the driver does not ensure: a start
that fails leaves the thread unjoined that is to flush a second later, and connections record
too. -/
def Quiet (s : Tracer ε n) : TraceLabel ε n → Prop
  | .call _ .mtr_init => ∀ j, (s.pc j).isIdle = true
  | .call _ .mtr_shutdown => ∀ j, (s.pc j).isIdle = true
  | .call _ _ => ∀ j, (s.pc j).inShutdown = false
  | .step _ => True

end Tracer

/-! ## 2. Who flushes -/

namespace Tracer

/-- A session was closed, or its last flush is done. -/
def Over (s : Tracer ε n) : Prop := s.closed ≠ [] ∨ ∃ j, (s.pc j).isClosing = true

/-- Who is in a flush, who holds the mutex and who is counted as recording. -/
structure Owned (s : Tracer ε n) (flusher : Option (Fin n)) : Prop where
  inFlush_iff : ∀ j, (s.pc j).inFlush = true ↔ flusher = some j
  flushing_iff : s.is_flushing = true ↔ flusher.isSome = true ∨ s.Over
  ended : s.Over → flusher = none
  mutex_iff : ∀ j, s.mutex = some j ↔ (s.pc j).isWaiting = true
  inProgress : s.events_in_progress = countThreads TracePc.isRecording s.pc
  unopened : s.f = none → ∀ j, (s.pc j).isIdle = true
  shutdown : ∀ i, (s.pc i).inShutdown = true → ∀ j, j ≠ i → (s.pc j).isIdle = true

variable {s : Tracer ε n} {flusher : Option (Fin n)} {i : Fin n}

/-- A thread that is in a call has a file to trace into. -/
theorem Owned.opened (h : s.Owned flusher) (hi : (s.pc i).isIdle = false) : s.f.isSome = true := by
  cases hf : s.f with
  | some file => rfl
  | none =>
    rw [h.unopened hf i] at hi
    contradiction

/-- The moves of a thread that neither begin nor end a flush, and leave the mutex alone. -/
theorem Owned.move (h : s.Owned flusher) {t : Tracer ε n} {x : TracePc ε}
    (hpc : t.pc = Function.update s.pc i x) (hflushing : t.is_flushing = s.is_flushing)
    (hclosed : t.closed = s.closed) (hf : t.f.isSome = true)
    (hmutex : ∀ j, t.mutex = some j ↔ (t.pc j).isWaiting = true)
    (hprogress : t.events_in_progress + (s.pc i).isRecording.toNat =
      s.events_in_progress + x.isRecording.toNat)
    (hflush : x.inFlush = (s.pc i).inFlush) (hclosing : x.isClosing = (s.pc i).isClosing)
    (hshutdown : x.inShutdown = (s.pc i).inShutdown)
    (hidle : (s.pc i).isIdle = true → x.isIdle = true ∨ ∀ j, (s.pc j).inShutdown = false) :
    t.Owned flusher := by
  have hsame (q : TracePc ε → Bool) (hq : q x = q (s.pc i)) (j : Fin n) :
      q (t.pc j) = q (s.pc j) := by
    rw [hpc]
    by_cases hj : j = i
    · rw [hj, Function.update_self, hq]
    · rw [Function.update_of_ne hj]
  have hover : t.Over ↔ s.Over := by
    simp only [Over, hclosed, hsame _ hclosing]
  refine ⟨fun j => ?_, ?_, ?_, hmutex, ?_, fun hnone => ?_, fun k hk j hj => ?_⟩
  · rw [hsame _ hflush]
    exact h.inFlush_iff j
  · rw [hflushing, hover]
    exact h.flushing_iff
  · rw [hover]
    exact h.ended
  · have hcount := countThreads_update TracePc.isRecording s.pc i x
    have hprog := h.inProgress
    rw [hpc]
    omega
  · rw [hnone] at hf
    contradiction
  · rw [hsame _ hshutdown] at hk
    have hother := h.shutdown k hk j hj
    by_cases hji : j = i
    · subst hji
      rw [hpc, Function.update_self]
      rcases hidle hother with hx | hno
      · exact hx
      · rw [hno k] at hk
        contradiction
    · rwa [hpc, Function.update_of_ne hji]

-- Where the mutex stays, and the thread neither waited nor waits.
theorem Owned.mutex_move (h : s.Owned flusher) {t : Tracer ε n} {x : TracePc ε}
    (hpc : t.pc = Function.update s.pc i x) (hmutex : t.mutex = s.mutex)
    (hwaiting : x.isWaiting = (s.pc i).isWaiting) (j : Fin n) :
    t.mutex = some j ↔ (t.pc j).isWaiting = true := by
  rw [hmutex, hpc, h.mutex_iff j]
  by_cases hj : j = i
  · rw [hj, Function.update_self, hwaiting]
  · rw [Function.update_of_ne hj]

theorem Owned.reserve (h : s.Owned flusher) (hi : (s.pc i).isIdle = true) (hlock : s.canLock = true)
    (hquiet : ∀ j, (s.pc j).inShutdown = false) (event : ε) :
    (s.reserve i event).Owned flusher := by
  unfold Tracer.reserve
  split
  · exact h
  · have hpc := TracePc.eq_idle hi
    exact h.move rfl rfl rfl (Bool.and_eq_true_iff.mp hlock).1
      (h.mutex_move rfl rfl (by rw [hpc]; rfl)) (by rw [hpc]; rfl) (by rw [hpc]; rfl)
      (by rw [hpc]; rfl) (by rw [hpc]; rfl) fun _ => .inr hquiet

theorem Owned.fill (h : s.Owned flusher) {block : Bool} {slot : Nat} {event : ε}
    (hpc : s.pc i = .filling block slot event) : (s.fill i block slot event).Owned flusher := by
  have hf := h.opened (i := i) (by rw [hpc]; rfl)
  exact h.move rfl rfl rfl hf (h.mutex_move rfl rfl (by rw [hpc]; rfl)) (by rw [hpc]; rfl)
    (by rw [hpc]; rfl) (by rw [hpc]; rfl) (by rw [hpc]; rfl)
    fun hidle => by rw [hpc] at hidle; contradiction

theorem Owned.leave (h : s.Owned flusher) (hpc : s.pc i = .filled) :
    (s.leave i).Owned flusher := by
  have hf := h.opened (i := i) (by rw [hpc]; rfl)
  have hcount := countThreads_update TracePc.isRecording s.pc i .idle
  have hprogress := h.inProgress
  rw [hpc] at hcount
  refine h.move rfl rfl rfl hf
    (h.mutex_move rfl rfl (by rw [hpc]; rfl)) ?_ (by rw [hpc]; rfl)
    (by rw [hpc]; rfl) (by rw [hpc]; rfl) fun _ => .inl rfl
  rw [hpc]
  show s.events_in_progress - 1 + 1 = s.events_in_progress + 0
  simp only [TracePc.isRecording, Bool.toNat_true, Bool.toNat_false] at hcount
  omega

/-- A thread waits, and so nobody else holds the mutex. -/
theorem Owned.unlock (h : s.Owned flusher) {event_count_copy : Nat} {is_last : Bool}
    (hpc : s.pc i = .waiting event_count_copy is_last) :
    (s.unlock i event_count_copy is_last).Owned flusher := by
  have hf := h.opened (i := i) (by rw [hpc]; rfl)
  refine h.move rfl rfl rfl hf (fun j => ?_)
    (by rw [hpc]; rfl) (by rw [hpc]; rfl) (by rw [hpc]; rfl) (by rw [hpc]; rfl)
    fun hidle => by rw [hpc] at hidle; contradiction
  have hi := (h.mutex_iff i).mpr (by rw [hpc]; rfl)
  constructor
  · intro hnone
    contradiction
  · intro hwaits
    by_cases hj : j = i
    · rw [hj, show (s.unlock i event_count_copy is_last).pc i = _ from
        Function.update_self ..] at hwaits
      contradiction
    · rw [show (s.unlock i event_count_copy is_last).pc j = s.pc j from
        Function.update_of_ne hj ..] at hwaits
      exact absurd (Option.some.inj (((h.mutex_iff j).mpr hwaits).symm.trans hi)) hj

theorem Owned.writeEvent (h : s.Owned flusher) {k event_count_copy : Nat} {is_last : Bool}
    (hpc : s.pc i = .writing k event_count_copy is_last) :
    (s.writeEvent i k event_count_copy is_last).Owned flusher := by
  have hf := h.opened (i := i) (by rw [hpc]; rfl)
  exact h.move rfl rfl rfl ((Option.isSome_map ..).trans hf)
    (h.mutex_move rfl rfl (by rw [hpc]; rfl)) (by rw [hpc]; rfl) (by rw [hpc]; rfl)
    (by rw [hpc]; rfl) (by rw [hpc]; rfl) fun hidle => by rw [hpc] at hidle; contradiction

theorem Owned.written (h : s.Owned flusher) {k event_count_copy : Nat} {is_last : Bool}
    (hpc : s.pc i = .writing k event_count_copy is_last) :
    (s.goto i (.finishing is_last)).Owned flusher := by
  have hf := h.opened (i := i) (by rw [hpc]; rfl)
  exact h.move rfl rfl rfl hf (h.mutex_move rfl rfl (by rw [hpc]; rfl)) (by rw [hpc]; rfl)
    (by rw [hpc]; rfl) (by rw [hpc]; rfl) (by rw [hpc]; rfl)
    fun hidle => by rw [hpc] at hidle; contradiction

-- A flush that is refused.
theorem Owned.refused (h : s.Owned flusher) (hpc : s.pc i = .idle) (hf : s.f.isSome = true) :
    (s.goto i .idle).Owned flusher :=
  h.move rfl rfl rfl hf (h.mutex_move rfl rfl (by rw [hpc])) (by rw [hpc]; rfl) (by rw [hpc])
    (by rw [hpc]) (by rw [hpc]) fun _ => .inl rfl

-- While one thread is in `mtr_shutdown`, the others are idle.
theorem Owned.alone (h : s.Owned flusher) (hi : (s.pc i).inShutdown = true) {j : Fin n}
    (hj : j ≠ i) : s.pc j = .idle :=
  TracePc.eq_idle (h.shutdown i hi j hj)

/-- A flush begins: the thread was idle, or stopped for the last flush. -/
theorem Owned.swap (h : s.Owned flusher) {is_last : Bool} (hlock : s.canLock = true)
    (hnot : s.is_flushing = false)
    (hstart : s.pc i = .idle ∧ is_last = false ∧ (∀ j, (s.pc j).inShutdown = false) ∨
      s.pc i = .stopped ∧ is_last = true) :
    (s.swap i is_last).Owned (some i) := by
  obtain ⟨hf, hmutex⟩ := Bool.and_eq_true_iff.mp hlock
  have hno : ¬ (flusher.isSome = true ∨ s.Over) := by
    rw [← h.flushing_iff, hnot]
    exact Bool.false_ne_true
  obtain ⟨hnone, hover⟩ := not_or.mp hno
  have hrest (j : Fin n) : (s.pc j).inFlush = false := by
    cases hj : (s.pc j).inFlush with
    | false => rfl
    | true => exact absurd (by rw [(h.inFlush_iff j).mp hj]; rfl) hnone
  have hunlocked (j : Fin n) : (s.pc j).isWaiting = false := by
    cases hj : (s.pc j).isWaiting with
    | false => rfl
    | true =>
      rw [(h.mutex_iff j).mpr hj] at hmutex
      contradiction
  have hrecording : (s.pc i).isRecording = false := by
    rcases hstart with ⟨hpc, -, -⟩ | ⟨hpc, -⟩ <;> rw [hpc] <;> rfl
  have hself : (s.swap i is_last).pc i = .waiting s.event_count is_last := Function.update_self ..
  have hother {j : Fin n} (hj : j ≠ i) : (s.swap i is_last).pc j = s.pc j :=
    Function.update_of_ne hj ..
  refine ⟨fun j => ?_, ⟨fun _ => .inl rfl, fun _ => rfl⟩, ?_, fun j => ?_, ?_, ?_,
    fun k hk j hj => ?_⟩
  · by_cases hj : j = i
    · rw [hj, hself]
      exact ⟨fun _ => rfl, fun _ => rfl⟩
    · rw [hother hj, hrest j]
      exact ⟨fun hfalse => absurd hfalse Bool.false_ne_true,
        fun hsome => absurd (Option.some.inj hsome).symm hj⟩
  · rintro (hclosed | ⟨j, hj⟩)
    · exact absurd (.inl hclosed) hover
    · by_cases hji : j = i
      · rw [hji, hself] at hj
        contradiction
      · rw [hother hji] at hj
        exact absurd (.inr ⟨j, hj⟩) hover
  · by_cases hj : j = i
    · rw [hj, hself]
      exact ⟨fun _ => rfl, fun _ => rfl⟩
    · rw [hother hj, hunlocked j]
      exact ⟨fun hsome => absurd (Option.some.inj hsome).symm hj,
        fun hfalse => absurd hfalse Bool.false_ne_true⟩
  · have hcount := countThreads_update TracePc.isRecording s.pc i (.waiting s.event_count is_last)
    rw [hrecording] at hcount
    exact h.inProgress.trans hcount.symm
  · intro hclosed
    rw [show s.f = none from hclosed] at hf
    contradiction
  · by_cases hki : k = i
    · subst hki
      rw [hother hj]
      rcases hstart with ⟨-, hlast, -⟩ | ⟨hpc, -⟩
      · rw [hself, hlast] at hk
        contradiction
      · exact h.shutdown k (by rw [hpc]; rfl) j hj
    · rw [hother hki] at hk
      rcases hstart with ⟨-, -, hquiet⟩ | ⟨hpc, -⟩
      · rw [hquiet k] at hk
        contradiction
      · rw [h.alone (i := i) (by rw [hpc]; rfl) hki] at hk
        contradiction

/-- The last flush is over, or was refused. -/
theorem Owned.closing (h : s.Owned flusher) (hi : (s.pc i).inShutdown = true)
    (hrecording : (s.pc i).isRecording = false) (hlock : s.canLock = true) :
    (s.finish i true).Owned none := by
  obtain ⟨hf, hmutex⟩ := Bool.and_eq_true_iff.mp hlock
  have hself : (s.finish i true).pc i = .closing := Function.update_self ..
  have hother {j : Fin n} (hj : j ≠ i) : (s.finish i true).pc j = .idle :=
    (Function.update_of_ne hj ..).trans (h.alone hi hj)
  have hno (q : TracePc ε → Bool) (hq : q .closing = false ∧ q .idle = false) (j : Fin n) :
      q ((s.finish i true).pc j) = false := by
    by_cases hj : j = i
    · rw [hj, hself, hq.1]
    · rw [hother hj, hq.2]
  refine ⟨fun j => ?_, ?_, fun _ => rfl, fun j => ?_, ?_, ?_, fun k hk j hj => ?_⟩
  · rw [hno TracePc.inFlush ⟨rfl, rfl⟩]
    exact ⟨fun hfalse => absurd hfalse Bool.false_ne_true, fun hnone => by contradiction⟩
  · exact ⟨fun _ => .inr (.inr ⟨i, by rw [hself]; rfl⟩), fun _ => rfl⟩
  · rw [hno TracePc.isWaiting ⟨rfl, rfl⟩]
    refine ⟨fun hsome => ?_, fun hfalse => absurd hfalse Bool.false_ne_true⟩
    rw [show s.mutex = some j from hsome] at hmutex
    contradiction
  · have hcount := countThreads_update TracePc.isRecording s.pc i .closing
    rw [hrecording] at hcount
    exact h.inProgress.trans hcount.symm
  · intro hclosed
    rw [show s.f = none from hclosed] at hf
    contradiction
  · by_cases hki : k = i
    · subst hki
      rw [hother hj]
      rfl
    · rw [hother hki] at hk
      contradiction

/-- A flush that is not the last one is over. -/
theorem Owned.finish (h : s.Owned flusher) (hpc : s.pc i = .finishing false) :
    (s.finish i false).Owned none := by
  have hflusher : flusher = some i := (h.inFlush_iff i).mp (by rw [hpc]; rfl)
  have hover : ¬ s.Over := by
    intro hover
    rw [h.ended hover] at hflusher
    contradiction
  have hf := h.opened (i := i) (by rw [hpc]; rfl)
  have hself : (s.finish i false).pc i = .idle := Function.update_self ..
  have hother {j : Fin n} (hj : j ≠ i) : (s.finish i false).pc j = s.pc j :=
    Function.update_of_ne hj ..
  have hsame (q : TracePc ε → Bool) (hq : q .idle = q (.finishing false)) (j : Fin n) :
      q ((s.finish i false).pc j) = q (s.pc j) := by
    by_cases hj : j = i
    · rw [hj, hself, hpc, hq]
    · rw [hother hj]
  refine ⟨fun j => ?_, ?_, fun _ => rfl, fun j => ?_, ?_, ?_, fun k hk j hj => ?_⟩
  · by_cases hj : j = i
    · rw [hj, hself]
      exact ⟨fun hfalse => absurd hfalse Bool.false_ne_true, fun hnone => by contradiction⟩
    · rw [hother hj, h.inFlush_iff j, hflusher]
      exact ⟨fun hsome => absurd (Option.some.inj hsome).symm hj, fun hnone => by contradiction⟩
  · constructor
    · intro hfalse
      contradiction
    · rintro (hnone | hclosed | ⟨j, hj⟩)
      · contradiction
      · exact absurd (.inl hclosed) hover
      · rw [hsame TracePc.isClosing rfl] at hj
        exact absurd (.inr ⟨j, hj⟩) hover
  · rw [hsame TracePc.isWaiting rfl]
    exact h.mutex_iff j
  · have hcount := countThreads_update TracePc.isRecording s.pc i .idle
    rw [hpc] at hcount
    exact h.inProgress.trans hcount.symm
  · intro hclosed
    rw [show s.f = none from hclosed] at hf
    contradiction
  · rw [hsame TracePc.inShutdown rfl] at hk
    by_cases hji : j = i
    · rw [hji, hself]
      rfl
    · rw [hother hji]
      exact h.shutdown k hk j hj

/-- `mtr_shutdown` is called while nobody is in a call. -/
theorem Owned.stop (h : s.Owned flusher) (hidle : ∀ j, (s.pc j).isIdle = true)
    (hf : s.f.isSome = true) : (s.stop i).Owned flusher := by
  have hall (j : Fin n) : s.pc j = .idle := TracePc.eq_idle (hidle j)
  have hself : (s.stop i).pc i = .stopped := Function.update_self ..
  have hother {j : Fin n} (hj : j ≠ i) : (s.stop i).pc j = s.pc j := Function.update_of_ne hj ..
  have hsame (q : TracePc ε → Bool) (hq : q .stopped = q .idle) (j : Fin n) :
      q ((s.stop i).pc j) = q (s.pc j) := by
    by_cases hj : j = i
    · rw [hj, hself, hall i, hq]
    · rw [hother hj]
  have hover : (s.stop i).Over ↔ s.Over := by
    simp only [Over, hsame TracePc.isClosing rfl]
    rfl
  refine ⟨fun j => ?_, ?_, ?_, fun j => ?_, ?_, ?_, fun k hk j hj => ?_⟩
  · rw [hsame TracePc.inFlush rfl]
    exact h.inFlush_iff j
  · rw [hover]
    exact h.flushing_iff
  · rw [hover]
    exact h.ended
  · rw [hsame TracePc.isWaiting rfl]
    exact h.mutex_iff j
  · have hcount := countThreads_update TracePc.isRecording s.pc i .stopped
    rw [hall i] at hcount
    exact h.inProgress.trans hcount.symm
  · intro hclosed
    rw [show s.f = none from hclosed] at hf
    contradiction
  · by_cases hki : k = i
    · subst hki
      rw [hother hj]
      exact hidle j
    · rw [hother hki, hall k] at hk
      contradiction

/-- The file is closed. -/
theorem Owned.close (h : s.Owned flusher) (hpc : s.pc i = .closing) (file : List (Option ε)) :
    (s.close i file).Owned none := by
  have hover : s.Over := .inr ⟨i, by rw [hpc]; rfl⟩
  have hall (j : Fin n) : (s.close i file).pc j = .idle := by
    by_cases hj : j = i
    · rw [hj]
      exact Function.update_self ..
    · exact (Function.update_of_ne hj ..).trans (h.alone (i := i) (by rw [hpc]; rfl) hj)
  have hclosed : (s.close i file).closed ≠ [] := by
    show s.closed ++ [file] ≠ []
    simp
  refine ⟨fun j => ?_, ?_, fun _ => rfl, fun j => ?_, ?_, fun _ j => ?_, fun k hk => ?_⟩
  · rw [hall j]
    exact ⟨fun hfalse => absurd hfalse Bool.false_ne_true, fun hsome => by contradiction⟩
  · exact ⟨fun _ => .inr (.inl hclosed), fun _ => h.flushing_iff.mpr (.inr hover)⟩
  · rw [hall j]
    refine ⟨fun hsome => ?_, fun hfalse => absurd hfalse Bool.false_ne_true⟩
    have hwaits := (h.mutex_iff j).mp hsome
    by_cases hj : j = i
    · rw [hj, hpc] at hwaits
      contradiction
    · rw [h.alone (i := i) (by rw [hpc]; rfl) hj] at hwaits
      contradiction
  · have hcount := countThreads_update TracePc.isRecording s.pc i .idle
    rw [hpc] at hcount
    exact h.inProgress.trans hcount.symm
  · rw [hall j]
    rfl
  · rw [hall k] at hk
    contradiction

/-- A session is opened while nobody is in a call. -/
theorem Owned.init (h : s.Owned flusher) (hidle : ∀ j, (s.pc j).isIdle = true) :
    s.mtr_init.Owned flusher where
  inFlush_iff := h.inFlush_iff
  flushing_iff := h.flushing_iff
  ended := h.ended
  mutex_iff j := by
    show none = some j ↔ (s.pc j).isWaiting = true
    rw [TracePc.eq_idle (hidle j)]
    exact ⟨fun hsome => by contradiction, fun hfalse => absurd hfalse Bool.false_ne_true⟩
  inProgress := h.inProgress
  unopened hf := by contradiction
  shutdown := h.shutdown

end Tracer

end NetShare
