import NetShare.Reasoning.Machine
import NetShare.Reasoning.RefCount
import Mathlib.Tactic.Common

/-!
# The reference counts of a session

Who holds the `Config` and the worker configurations, from `initRun` and `run` to the end of
`shutdown`.  A thread gets the address of a `shared_ptr` that the application keeps, uses it as its
own parameter and destroys it when it returns; the application then destroys it once more.
-/

namespace NetShare

open Reasoning

/-! ## 1. The statements and the threads -/

/-- The statement that comes next.  `generate`, `reference`, `createThread`, `wait`, `closeSocket`,
`deleteConfig` and `deleteReference` are at the heads of loops, the last two those of the
destructors of the vectors. -/
inductive OwnerPc where
  | resetConf
  | generateUDPConfigs
  | generate (a : Nat)
  | reference (i : Nat)
  | startSession
  | run
  | receiveConf
  | sendConf
  | createThread (i : Nat)
  | started
  | wait (i : Nat)
  | closeSocket (i : Nat)
  | endSession
  | clearConf
  | clearReceiveConf
  | clearSendConf
  | deleteConfig (i : Nat)
  | deleteReference (i : Nat)
  | done
deriving DecidableEq

inductive WorkerThread where
  | notCreated
  | running
  | returned
deriving DecidableEq

/-- `config` counts the handles to the `Config` and `udpconfig k` those to the worker configuration
`k`.  Threads 0 and 1 are `ReceivePackets` and `SendPackets`, thread `k + 2` is `WorkSocket` with
the configuration `k`. -/
structure Owners where
  pc : OwnerPc := .resetConf
  config : RefCount := {}
  udpconfig : Nat → RefCount := fun _ => {}
  threads : Nat → WorkerThread := fun _ => .notCreated

namespace Owners

def goto (s : Owners) (pc : OwnerPc) : Owners := { s with pc }

def onConfig (s : Owners) (f : RefCount → RefCount) : Owners := { s with config := f s.config }

def onConfigs (s : Owners) (k : Nat) (f : RefCount → RefCount) : Owners :=
  { s with udpconfig := Function.update s.udpconfig k (f (s.udpconfig k)) }

/-- A handle to a worker configuration goes; with the last one its own handle to the `Config`. -/
def dropConfig (s : Owners) (k : Nat) : Owners :=
  let t := s.onConfigs k .drop
  if (t.udpconfig k).released then t.onConfig .drop else t

/-- The body of the loop of `generateUDPConfigs`: `sconf` and `rconf` are created and filled, with a
handle to the `Config` each, `sconf` is passed to `initSocket` by value, both are copied into the
vector and go out of scope. -/
def generatePair (s : Owners) (a : Nat) : Owners :=
  let sconf := 2 * a
  let rconf := 2 * a + 1
  let s := (s.onConfigs sconf .create).onConfigs rconf .create
  let s := (s.onConfig .copy).onConfig .copy
  let s := (s.onConfigs sconf .use).onConfigs rconf .use
  let s := ((s.onConfigs sconf .copy).onConfigs sconf .use).dropConfig sconf
  let s := (s.onConfigs sconf .copy).onConfigs rconf .copy
  (s.dropConfig rconf).dropConfig sconf

/-- The next statement of `initRun`, `run` and then `shutdown`, with `n` activated adapters. -/
def stepMain (n : Nat) (s : Owners) : Option Owners :=
  match s.pc with
  -- and the assignments to its members
  | .resetConf => some (((s.onConfig .create).onConfig .use).goto .generateUDPConfigs)
  -- the parameter of `generateUDPConfigs` is a copy
  | .generateUDPConfigs => some ((s.onConfig .copy).goto (.generate 0))
  | .generate a =>
    if a < n then some ((s.generatePair a).goto (.generate (a + 1)))
    else some ((s.onConfig .drop).goto (.reference 0))
  | .reference i =>
    if i < 2 * n then some ((s.onConfigs i .copy).goto (.reference (i + 1)))
    else some (s.goto .startSession)
  | .startSession => some ((s.onConfig .use).goto .run)
  | .run => some ((s.onConfig .use).goto .receiveConf)
  | .receiveConf => some ((s.onConfig .copy).goto .sendConf)
  | .sendConf => some ((s.onConfig .copy).goto (.createThread 0))
  | .createThread i =>
    if i < 2 * n + 2 then
      some { s.goto (.createThread (i + 1)) with threads := Function.update s.threads i .running }
    else some (s.goto .started)
  -- `shutdown` up to the second `releaseAll`
  | .started => some ((s.onConfig .use).goto (.wait 0))
  | .wait i =>
    if i < 2 * n + 2 then
      if s.threads i = .returned then some (s.goto (.wait (i + 1))) else none
    else some (s.goto (.closeSocket 0))
  | .closeSocket i =>
    if i < 2 * n then some ((s.onConfigs i .use).goto (.closeSocket (i + 1)))
    else some (s.goto .endSession)
  | .endSession => some ((s.onConfig .use).goto .clearConf)
  | .clearConf => some ((s.onConfig .drop).goto .clearReceiveConf)
  | .clearReceiveConf => some ((s.onConfig .drop).goto .clearSendConf)
  | .clearSendConf => some ((s.onConfig .drop).goto (.deleteConfig 0))
  | .deleteConfig i =>
    if i < 2 * n then some ((s.dropConfig i).goto (.deleteConfig (i + 1)))
    else some (s.goto (.deleteReference 0))
  | .deleteReference i =>
    if i < 2 * n then some ((s.dropConfig i).goto (.deleteReference (i + 1)))
    else some (s.goto .done)
  | .done => none

/-- A thread uses what it has been given. -/
def threadUse (s : Owners) : Nat → Owners
  | 0 => s.onConfig .use
  | 1 => s.onConfig .use
  | k + 2 => (s.onConfigs k .use).onConfig .use

/-- It returns, and its parameter is destroyed. -/
def threadReturn (s : Owners) (t : Nat) : Owners :=
  let s :=
    match t with
    | 0 => s.onConfig .drop
    | 1 => s.onConfig .drop
    | k + 2 => s.dropConfig k
  { s with threads := Function.update s.threads t .returned }

end Owners

inductive OwnerLabel where
  | main
  | uses (thread : Nat)
  | returns (thread : Nat)
deriving DecidableEq

/-- The sessions of a driver with `n` activated adapters. -/
def ownerMachine (n : Nat) : Machine Owners OwnerLabel where
  init s := s = {}
  next s
    | .main => s.stepMain n
    | .uses t => if s.threads t = .running then some (s.threadUse t) else none
    | .returns t => if s.threads t = .running then some (s.threadReturn t) else none

/-- No count has been decremented at zero, and nothing has been used after its count had got
there. -/
def Owners.Balanced (s : Owners) : Prop :=
  s.config.misused = false ∧ ∀ k, (s.udpconfig k).misused = false

/-- How many elements of `udpconfigs` have been destroyed. -/
def OwnerPc.deleted (n : Nat) : OwnerPc → Nat
  | .deleteConfig i => i
  | .deleteReference _ => 2 * n
  | .done => 2 * n
  | _ => 0

/-! ## 2. What the counts are -/

/-- Whether a thread has destroyed its parameter. -/
def WorkerThread.drops : WorkerThread → Int
  | .returned => 1
  | _ => 0

namespace OwnerPc

/-- The handles to the `Config` at a statement, those that threads have destroyed counted in. -/
def configHandles (n : Nat) : OwnerPc → Int
  | .resetConf => 0
  | .generateUDPConfigs => 1
  | .generate a => 2 + 2 * a
  | .reference _ | .startSession | .run | .receiveConf => 1 + 2 * n
  | .sendConf => 2 + 2 * n
  | .createThread _ | .started | .wait _ | .closeSocket _ | .endSession | .clearConf => 3 + 2 * n
  | .clearReceiveConf => 2 + 2 * n
  | .clearSendConf => 1 + 2 * n
  | .deleteConfig i => 2 * n - i
  | .deleteReference _ | .done => 0

/-- In the same way those to the worker configuration `k`. -/
def udpHandles (k : Nat) : OwnerPc → Int
  | .resetConf | .generateUDPConfigs => 0
  | .generate a => if k < 2 * a then 1 else 0
  | .reference i => if k < i then 2 else 1
  | .deleteConfig i => if k < i then 1 else 2
  | .deleteReference _ | .done => 1
  | _ => 2

/-- The statements that operate on one handle to the `Config` and nothing else. -/
def onConfig : OwnerPc → Bool
  | .startSession | .run | .receiveConf | .sendConf | .started | .endSession | .clearConf
  | .clearReceiveConf | .clearSendConf => true
  | _ => false

/-- Threads below this have been created. -/
def created (n : Nat) : OwnerPc → Nat
  | .resetConf | .generateUDPConfigs | .generate _ | .reference _ | .startSession | .run
  | .receiveConf | .sendConf => 0
  | .createThread i => i
  | _ => 2 * n + 2

/-- And threads below this have been waited for. -/
def waited (n : Nat) : OwnerPc → Nat
  | .resetConf | .generateUDPConfigs | .generate _ | .reference _ | .startSession | .run
  | .receiveConf | .sendConf | .createThread _ | .started => 0
  | .wait i => i
  | _ => 2 * n + 2

-- The next element to go has the handles that were made for it.
theorem udpHandles_delete (i : Nat) : (OwnerPc.deleteConfig i).udpHandles i = 2 :=
  if_neg (Nat.lt_irrefl i)

/-- The loops end where they should. -/
def InRange (n : Nat) : OwnerPc → Prop
  | .generate a => a ≤ n
  | .reference i | .closeSocket i | .deleteConfig i | .deleteReference i => i ≤ 2 * n
  | .createThread i | .wait i => i ≤ 2 * n + 2
  | _ => True

end OwnerPc

namespace Owners

@[simp] theorem onConfigs_self (s : Owners) (k : Nat) (f : RefCount → RefCount) :
    (s.onConfigs k f).udpconfig k = f (s.udpconfig k) := Function.update_self ..

@[simp] theorem onConfig_threads (s : Owners) (f : RefCount → RefCount) :
    (s.onConfig f).threads = s.threads := rfl

@[simp] theorem onConfigs_threads (s : Owners) (k : Nat) (f : RefCount → RefCount) :
    (s.onConfigs k f).threads = s.threads := rfl

@[simp] theorem dropConfig_threads (s : Owners) (k : Nat) :
    (s.dropConfig k).threads = s.threads := by
  unfold dropConfig
  dsimp only
  split <;> rfl

@[simp] theorem dropConfig_pc (s : Owners) (k : Nat) : (s.dropConfig k).pc = s.pc := by
  unfold dropConfig
  dsimp only
  split <;> rfl

theorem threadReturn_pc (s : Owners) (t : Nat) : (s.threadReturn t).pc = s.pc :=
  match t with
  | 0 => rfl
  | 1 => rfl
  | k + 2 => s.dropConfig_pc k

theorem threadReturn_threads (s : Owners) (t : Nat) :
    (s.threadReturn t).threads = Function.update s.threads t .returned :=
  match t with
  | 0 => rfl
  | 1 => rfl
  | k + 2 => congrArg (Function.update · (k + 2) _) (s.dropConfig_threads k)

theorem generatePair_threads (s : Owners) (a : Nat) : (s.generatePair a).threads = s.threads := by
  simp [generatePair]

end Owners

theorem WorkerThread.drops_le (t : WorkerThread) : 0 ≤ t.drops ∧ t.drops ≤ 1 := by
  cases t <;> decide

/-- The counts are those of `c` and `u`, less what threads have destroyed. -/
structure Counts (n : Nat) (s : Owners) (c : Int) (u : Nat → Int) : Prop where
  config : s.config.Held (c - (s.threads 0).drops - (s.threads 1).drops)
  udpconfig : ∀ k < 2 * n, (s.udpconfig k).Held (u k - (s.threads (k + 2)).drops)
  others : ∀ k, 2 * n ≤ k → s.udpconfig k = {}

namespace Counts

variable {n k : Nat} {s : Owners} {c : Int} {u : Nat → Int}

theorem goto (h : Counts n s c u) (pc : OwnerPc) : Counts n (s.goto pc) c u :=
  ⟨h.config, h.udpconfig, h.others⟩

theorem cast (h : Counts n s c u) {c' : Int} {u' : Nat → Int} (hc : c = c')
    (hu : ∀ k < 2 * n, u k = u' k) : Counts n s c' u' :=
  ⟨hc ▸ h.config, fun k hk => hu k hk ▸ h.udpconfig k hk, h.others⟩

/-- What the threads have destroyed may be counted in another way. -/
theorem recount (h : Counts n s c u) (s' : Owners) (hconfig : s'.config = s.config)
    (hudp : s'.udpconfig = s.udpconfig) {c' : Int} {u' : Nat → Int}
    (hc : c - (s.threads 0).drops - (s.threads 1).drops =
      c' - (s'.threads 0).drops - (s'.threads 1).drops)
    (hu : ∀ k < 2 * n, u k - (s.threads (k + 2)).drops = u' k - (s'.threads (k + 2)).drops) :
    Counts n s' c' u' where
  config := hconfig ▸ h.config.cast hc
  udpconfig k hk := hudp ▸ (h.udpconfig k hk).cast (hu k hk)
  others := hudp ▸ h.others

/-- An operation on a handle to the `Config`. -/
theorem onConfig (h : Counts n s c u) {f : RefCount → RefCount} {c' : Int}
    (hf : (f s.config).Held (c' - (s.threads 0).drops - (s.threads 1).drops)) :
    Counts n (s.onConfig f) c' u := ⟨hf, h.udpconfig, h.others⟩

/-- An operation on a handle to a worker configuration. -/
theorem onConfigs (h : Counts n s c u) {f : RefCount → RefCount} {x : Int} (hk : k < 2 * n)
    (hf : (f (s.udpconfig k)).Held (x - (s.threads (k + 2)).drops)) :
    Counts n (s.onConfigs k f) c (Function.update u k x) := by
  refine ⟨h.config, fun j hj => ?_, fun j hj => ?_⟩
  · by_cases hjk : j = k
    · subst hjk
      simpa only [Owners.onConfigs, Function.update_self] using hf
    · simpa only [Owners.onConfigs, Function.update_of_ne hjk] using h.udpconfig j hj
  · have hjk : j ≠ k := by omega
    simpa only [Owners.onConfigs, Function.update_of_ne hjk] using h.others j hj

section

variable (h : Counts n s c u) (hpos : 0 < c - (s.threads 0).drops - (s.threads 1).drops)

include h hpos

theorem useConfig : Counts n (s.onConfig .use) c u := h.onConfig (h.config.use hpos)

theorem copyConfig : Counts n (s.onConfig .copy) (c + 1) u :=
  h.onConfig ((h.config.copy hpos).cast (by omega))

theorem clearConfig : Counts n (s.onConfig .drop) (c - 1) u :=
  h.onConfig ((h.config.drop hpos).cast (by omega))

end

section

variable (h : Counts n s c u) (hk : k < 2 * n)

include h hk

theorem createConfigs (hnone : (s.threads (k + 2)).drops = 0) :
    Counts n (s.onConfigs k .create) c (Function.update u k 1) :=
  h.onConfigs hk ((h.udpconfig k hk).create.cast (by omega))

theorem useConfigs (hpos : 0 < u k - (s.threads (k + 2)).drops) :
    Counts n (s.onConfigs k .use) c u := by
  have hsame := h.onConfigs hk ((h.udpconfig k hk).use hpos)
  rwa [Function.update_eq_self] at hsame

theorem copyConfigs (hpos : 0 < u k - (s.threads (k + 2)).drops) :
    Counts n (s.onConfigs k .copy) c (Function.update u k (u k + 1)) :=
  h.onConfigs hk (((h.udpconfig k hk).copy hpos).cast (by omega))

/-- A handle goes and another one stays. -/
theorem dropConfigs (hpos : 1 < u k - (s.threads (k + 2)).drops) :
    Counts n (s.dropConfig k) c (Function.update u k (u k - 1)) := by
  have hheld := (h.udpconfig k hk).drop (by omega)
  have hkept : ¬ ((s.onConfigs k .drop).udpconfig k).released = true := by
    rw [Owners.onConfigs_self, hheld.released_iff]
    omega
  rw [Owners.dropConfig, if_neg hkept]
  exact h.onConfigs hk (hheld.cast (by omega))

/-- With the last handle goes one to the `Config`. -/
theorem dropConfig_last (hlast : u k - (s.threads (k + 2)).drops = 1) :
    s.dropConfig k = (s.onConfigs k .drop).onConfig .drop := by
  have hheld := (h.udpconfig k hk).drop (by omega)
  have hdestroyed : ((s.onConfigs k .drop).udpconfig k).released = true := by
    rw [Owners.onConfigs_self, hheld.released_iff]
    omega
  exact if_pos hdestroyed

theorem dropLast (hlast : u k - (s.threads (k + 2)).drops = 1)
    (hpos : 0 < c - (s.threads 0).drops - (s.threads 1).drops) :
    Counts n (s.dropConfig k) (c - 1) (Function.update u k (u k - 1)) := by
  have hheld := (h.udpconfig k hk).drop (by omega)
  rw [h.dropConfig_last hk hlast]
  exact (h.onConfigs hk (hheld.cast (by omega))).clearConfig hpos

end

/-- A pair of worker configurations is left with one handle each. -/
theorem generatePair (h : Counts n s c u) {a : Nat} (ha : a < n)
    (hpos : 0 < c - (s.threads 0).drops - (s.threads 1).drops)
    (hsender : (s.threads (2 * a + 2)).drops = 0)
    (hreceiver : (s.threads (2 * a + 1 + 2)).drops = 0) :
    Counts n (s.generatePair a) (c + 2)
      (Function.update (Function.update u (2 * a) 1) (2 * a + 1) 1) := by
  have hs : 2 * a < 2 * n := by omega
  have hr : 2 * a + 1 < 2 * n := by omega
  have hcreated := (h.createConfigs hs hsender).createConfigs hr (by simpa using hreceiver)
  have hconf := (hcreated.copyConfig (by simpa using hpos)).copyConfig
    (by simp only [Owners.onConfig_threads, Owners.onConfigs_threads]; omega)
  have hfilled := (hconf.useConfigs hs (by simp [hsender])).useConfigs hr (by simp [hreceiver])
  -- `initSocket` has a handle of its own while it runs
  have hpassed := ((hfilled.copyConfigs hs (by simp [hsender])).useConfigs hs
    (by simp [hsender])).dropConfigs hs (by simp [hsender])
  have hpushed := (hpassed.copyConfigs hs (by simp [hsender])).copyConfigs hr
    (by simp [hreceiver])
  have hleft := (hpushed.dropConfigs hr (by simp [hreceiver])).dropConfigs hs
    (by simp [hsender])
  refine hleft.cast (by omega) fun k _ => ?_
  by_cases hks : k = 2 * a
  · subst hks
    simp
  · by_cases hkr : k = 2 * a + 1
    · subst hkr
      simp
    · simp [Function.update_of_ne hks, Function.update_of_ne hkr]

end Counts

/-! ## 3. What statements and threads keep -/

/-- Only the destructor of `udpconfigs` goes on with its elements. -/
theorem Owners.stepMain_deleted {n : Nat} {s s' : Owners} (hstep : s.stepMain n = some s') :
    s'.pc.deleted n = s.pc.deleted n ∨ ∃ i, s.pc = .deleteConfig i := by
  cases hpc : s.pc with
  | deleteConfig i => exact .inr ⟨i, rfl⟩
  | _ =>
    rw [stepMain, hpc] at hstep
    dsimp only at hstep
    refine .inl ?_
    repeat' split at hstep
    all_goals first
      | contradiction
      | (obtain rfl := Option.some.inj hstep; rfl)

/-- What holds until the last element but one of `udpconfigs` is destroyed. -/
structure Counted (n : Nat) (s : Owners) : Prop where
  counts : Counts n s (s.pc.configHandles n) (s.pc.udpHandles ·)
  inRange : s.pc.InRange n
  notCreated : ∀ t, s.pc.created n ≤ t → s.threads t = .notCreated
  created : ∀ t < s.pc.created n, s.threads t ≠ .notCreated
  waited : ∀ t < s.pc.waited n, s.threads t = .returned

namespace Counted

variable {n : Nat} {s s' : Owners}

theorem new : Counted n {} where
  counts := ⟨.new, fun _ _ => .new, fun _ _ => rfl⟩
  inRange := trivial
  notCreated _ _ := rfl
  created _ h := nomatch h
  waited _ h := nomatch h

/-- A statement that creates no thread and waits for none. -/
theorem move (h : Counted n s) {pc pc' : OwnerPc} (hpc : s.pc = pc) (hpc' : s'.pc = pc')
    (hthreads : s'.threads = s.threads)
    (hcounts : Counts n s' (pc'.configHandles n) (pc'.udpHandles ·)) (hrange : pc'.InRange n)
    (hcreated : pc'.created n = pc.created n) (hwaited : pc'.waited n = pc.waited n) :
    Counted n s' := by
  subst hpc hpc'
  constructor
  case counts => exact hcounts
  case inRange => exact hrange
  case notCreated => exact hthreads ▸ hcreated ▸ h.notCreated
  case created => exact hthreads ▸ hcreated ▸ h.created
  case waited => exact hthreads ▸ hwaited ▸ h.waited

/-- While a thread runs, every handle that has been made is still there. -/
theorem running (h : Counted n s) {t : Nat} (hrun : s.threads t = .running) :
    t < 2 * n + 2 ∧ s.pc.configHandles n = 3 + 2 * n ∧ (∀ k, s.pc.udpHandles k = 2) ∧
      s.pc.waited n ≤ t ∧ t < s.pc.created n := by
  have hcreated : t < s.pc.created n := by
    by_contra hge
    have hnone := h.notCreated t (by omega)
    nomatch hrun.symm.trans hnone
  have hwaited : s.pc.waited n ≤ t := by
    by_contra hlt
    have hreturned := h.waited t (by omega)
    nomatch hrun.symm.trans hreturned
  have hrange := h.inRange
  revert hcreated hwaited hrange
  cases s.pc with
  | createThread i =>
    exact fun hlt hle hrange => ⟨Nat.lt_of_lt_of_le hlt hrange, rfl, fun _ => rfl, hle, hlt⟩
  | started => exact fun hlt hle _ => ⟨hlt, rfl, fun _ => rfl, hle, hlt⟩
  | wait i => exact fun hlt hle _ => ⟨hlt, rfl, fun _ => rfl, hle, hlt⟩
  | _ =>
    -- none has been created yet, or all have been waited for
    intro hlt hle
    exact absurd hlt (Nat.not_lt.mpr (by first | exact Nat.zero_le t | exact hle))

/-- A statement that operates on one handle to the `Config`, of which there are `c`, at least three,
before it and `c'` after it. -/
theorem configStep (h : Counted n s) {pc pc' : OwnerPc} (hpc : s.pc = pc)
    {f : RefCount → RefCount} {d : Int}
    (hf : ∀ {r : RefCount} {k : Int}, r.Held k → 0 < k → (f r).Held (k + d)) (c c' : Int)
    (hc : pc.configHandles n = c) (hc' : pc'.configHandles n = c') (hmany : 3 ≤ c)
    (hd : c + d = c') (hudp : ∀ k < 2 * n, pc.udpHandles k = pc'.udpHandles k)
    (hrange : pc'.InRange n) (hcreated : pc'.created n = pc.created n)
    (hwaited : pc'.waited n = pc.waited n) : Counted n ((s.onConfig f).goto pc') := by
  have hcounts := h.counts
  rw [hpc, hc] at hcounts
  -- at most two of them have been destroyed by threads
  obtain ⟨-, hone⟩ := (s.threads 0).drops_le
  obtain ⟨-, hone'⟩ := (s.threads 1).drops_le
  have hheld := hf hcounts.config (by omega)
  have hcounts' : Counts n ((s.onConfig f).goto pc') (pc'.configHandles n) (pc'.udpHandles ·) :=
    ((hcounts.onConfig (hheld.cast (by omega))).goto pc').cast (hd.trans hc'.symm) hudp
  exact h.move hpc rfl rfl hcounts' hrange hcreated hwaited

/-- The statements of that kind. -/
theorem stepConfig (hn : 1 ≤ n) (h : Counted n s) (honly : s.pc.onConfig = true)
    (hstep : s.stepMain n = some s') : Counted n s' := by
  have huse {r : RefCount} {k : Int} (hr : r.Held k) (hk : 0 < k) : r.use.Held (k + 0) :=
    (hr.use hk).cast (Int.add_zero k).symm
  have hsame (k : Nat) (_ : k < 2 * n) : (2 : Int) = 2 := rfl
  cases hpc : s.pc with
  | startSession =>
    rw [Owners.stepMain, hpc] at hstep
    obtain rfl := Option.some.inj hstep
    exact h.configStep hpc huse (1 + 2 * n) _ rfl rfl (by omega) (Int.add_zero _) hsame trivial rfl
      rfl
  | run =>
    rw [Owners.stepMain, hpc] at hstep
    obtain rfl := Option.some.inj hstep
    exact h.configStep hpc huse (1 + 2 * n) _ rfl rfl (by omega) (Int.add_zero _) hsame trivial rfl
      rfl
  | receiveConf =>
    rw [Owners.stepMain, hpc] at hstep
    obtain rfl := Option.some.inj hstep
    exact h.configStep hpc (fun hr hk => hr.copy hk) (1 + 2 * n) (2 + 2 * n) rfl rfl (by omega)
      (by omega) hsame trivial rfl rfl
  | sendConf =>
    rw [Owners.stepMain, hpc] at hstep
    obtain rfl := Option.some.inj hstep
    exact h.configStep hpc (fun hr hk => hr.copy hk) (2 + 2 * n) (3 + 2 * n) rfl rfl (by omega)
      (by omega) hsame (Nat.zero_le _) rfl rfl
  | started =>
    rw [Owners.stepMain, hpc] at hstep
    obtain rfl := Option.some.inj hstep
    exact h.configStep hpc huse (3 + 2 * n) _ rfl rfl (by omega) (Int.add_zero _) hsame
      (Nat.zero_le _) rfl rfl
  | endSession =>
    rw [Owners.stepMain, hpc] at hstep
    obtain rfl := Option.some.inj hstep
    exact h.configStep hpc huse (3 + 2 * n) _ rfl rfl (by omega) (Int.add_zero _) hsame trivial rfl
      rfl
  | clearConf =>
    rw [Owners.stepMain, hpc] at hstep
    obtain rfl := Option.some.inj hstep
    exact h.configStep hpc (fun hr hk => hr.drop hk) (3 + 2 * n) (2 + 2 * n) rfl rfl (by omega)
      (by omega) hsame trivial rfl rfl
  | clearReceiveConf =>
    rw [Owners.stepMain, hpc] at hstep
    obtain rfl := Option.some.inj hstep
    exact h.configStep hpc (fun hr hk => hr.drop hk) (2 + 2 * n) (1 + 2 * n) rfl rfl (by omega)
      (by omega) hsame trivial rfl rfl
  | clearSendConf =>
    rw [Owners.stepMain, hpc] at hstep
    obtain rfl := Option.some.inj hstep
    refine h.configStep hpc (fun hr hk => hr.drop hk) (1 + 2 * n) (2 * n - (0 : Nat)) rfl rfl
      (by omega) (by omega) (fun k _ => ?_) (Nat.zero_le _) rfl rfl
    show (2 : Int) = if k < 0 then 1 else 2
    rw [if_neg (Nat.not_lt_zero k)]
  | _ =>
    rw [hpc] at honly
    nomatch honly

-- Before the first thread is created nothing has been dropped.
theorem drops_eq (h : Counted n s) (hnone : s.pc.created n = 0) (t : Nat) :
    (s.threads t).drops = 0 := by
  rw [h.notCreated t (by omega)]
  rfl

/-- The loop that creates the threads. -/
theorem stepCreate (h : Counted n s) {i : Nat} (hpc : s.pc = .createThread i)
    (hstep : s.stepMain n = some s') : Counted n s' := by
  have hcounts := h.counts
  have hrange := h.inRange
  have hnotCreated := h.notCreated
  have hcreated := h.created
  rw [Owners.stepMain, hpc] at hstep
  rw [hpc] at hcounts hrange hnotCreated hcreated
  dsimp only at hstep
  split at hstep <;> obtain rfl := Option.some.inj hstep
  next hi =>
    have hnone : s.threads i = .notCreated := hnotCreated i (Nat.le_refl i)
    let s' := { s.goto (.createThread (i + 1)) with
      threads := Function.update s.threads i .running }
    have hdrops (t : Nat) : (s'.threads t).drops = (s.threads t).drops := by
      show (Function.update s.threads i .running t).drops = _
      by_cases hti : t = i
      · rw [hti, Function.update_self, hnone]
        rfl
      · rw [Function.update_of_ne hti]
    constructor
    case counts =>
      refine hcounts.recount s' rfl rfl ?_ fun k _ => ?_
      · rw [hdrops, hdrops]
        rfl
      · rw [hdrops]
        rfl
    case inRange => exact hi
    case notCreated =>
      intro t ht
      have hti : t ≠ i := Nat.ne_of_gt ht
      exact (Function.update_of_ne hti ..).trans (hnotCreated t (Nat.le_of_lt ht))
    case created =>
      intro t ht
      by_cases hti : t = i
      · rw [hti]
        show Function.update s.threads i .running i ≠ .notCreated
        rw [Function.update_self]
        decide
      · show Function.update s.threads i .running t ≠ .notCreated
        rw [Function.update_of_ne hti]
        exact hcreated t (by have hlt : t < i + 1 := ht; show t < i; omega)
    case waited => exact fun t ht => nomatch ht
  next hi =>
    have hall : i = 2 * n + 2 := Nat.le_antisymm hrange (Nat.not_lt.mp hi)
    exact h.move hpc rfl rfl (hcounts.goto _) trivial hall.symm rfl

/-- The statements before the first thread. -/
theorem stepInit (hn : 1 ≤ n) (h : Counted n s) (hnone : s.pc.created n = 0)
    (hstep : s.stepMain n = some s') : Counted n s' := by
  have hcounts := h.counts
  have hrange := h.inRange
  have hdrops := h.drops_eq hnone
  have hpos {c : Int} (hc : 0 < c) : 0 < c - (s.threads 0).drops - (s.threads 1).drops := by
    rw [hdrops, hdrops]
    omega
  cases hpc : s.pc with
  | resetConf =>
    rw [Owners.stepMain, hpc] at hstep
    rw [hpc] at hcounts
    obtain rfl := Option.some.inj hstep
    have hfirst : s.config.create.Held (1 - (s.threads 0).drops - (s.threads 1).drops) :=
      hcounts.config.create.cast (by rw [hdrops, hdrops]; rfl)
    have hfilled := (hcounts.onConfig hfirst).useConfig (hpos Int.zero_lt_one)
    exact h.move hpc rfl rfl (hfilled.goto _) trivial rfl rfl
  | generateUDPConfigs =>
    rw [Owners.stepMain, hpc] at hstep
    rw [hpc] at hcounts
    obtain rfl := Option.some.inj hstep
    refine h.move hpc rfl rfl (((hcounts.copyConfig (hpos Int.zero_lt_one)).goto _).cast rfl
      fun k _ => ?_) (Nat.zero_le n) rfl rfl
    show (0 : Int) = if k < 2 * 0 then 1 else 0
    rw [if_neg (Nat.not_lt_zero k)]
  | generate a =>
    rw [Owners.stepMain, hpc] at hstep
    rw [hpc] at hcounts hrange
    have hnow : 0 < OwnerPc.configHandles n (.generate a) := by
      show (0 : Int) < 2 + 2 * a
      omega
    dsimp only at hstep
    split at hstep <;> obtain rfl := Option.some.inj hstep
    next ha =>
      have hpair := (hcounts.generatePair ha (hpos hnow) (hdrops _) (hdrops _)).goto
        (.generate (a + 1))
      refine h.move hpc rfl (s.generatePair_threads a) (hpair.cast ?_ fun k _ => ?_) ha rfl rfl
      · show (2 : Int) + 2 * a + 2 = 2 + 2 * (a + 1 : Nat)
        omega
      · rw [Function.update_apply, Function.update_apply]
        show (if k = 2 * a + 1 then (1 : Int) else if k = 2 * a then 1 else
          if k < 2 * a then 1 else 0) = if k < 2 * (a + 1) then 1 else 0
        split_ifs <;> omega
    next ha =>
      have hall : a = n := Nat.le_antisymm hrange (Nat.not_lt.mp ha)
      refine h.move hpc rfl rfl (((hcounts.clearConfig (hpos hnow)).goto _).cast ?_ fun k hk => ?_)
        (Nat.zero_le _) rfl rfl
      · show (2 : Int) + 2 * a - 1 = 1 + 2 * n
        omega
      · exact if_pos (hall ▸ hk)
  | reference i =>
    rw [Owners.stepMain, hpc] at hstep
    rw [hpc] at hcounts hrange
    dsimp only at hstep
    split at hstep <;> obtain rfl := Option.some.inj hstep
    next hi =>
      have hheld : OwnerPc.udpHandles i (.reference i) = 1 := if_neg (Nat.lt_irrefl i)
      have hcopied := (hcounts.copyConfigs hi (by rw [hheld, hdrops]; decide)).goto
        (.reference (i + 1))
      refine h.move hpc rfl rfl (hcopied.cast rfl fun k _ => ?_) hi rfl rfl
      rw [Function.update_apply, hheld]
      show (if k = i then (1 : Int) + 1 else if k < i then 2 else 1) = if k < i + 1 then 2 else 1
      split_ifs <;> omega
    next hi =>
      refine h.move hpc rfl rfl ((hcounts.goto _).cast rfl fun k hk => ?_) trivial rfl rfl
      exact if_pos (by omega)
  | startSession | run | receiveConf | sendConf => exact h.stepConfig hn (by rw [hpc]; rfl) hstep
  | createThread i => exact h.stepCreate hpc hstep
  | _ =>
    rw [hpc] at hnone
    nomatch hnone

-- Once all threads have been waited for, each has dropped its handle.
theorem drops_waited (h : Counted n s) (hall : s.pc.waited n = 2 * n + 2) {t : Nat}
    (ht : t < 2 * n + 2) : (s.threads t).drops = 1 := by
  rw [h.waited t (by omega)]
  rfl

/-- The loop that waits for the threads. -/
theorem stepWait (h : Counted n s) {i : Nat} (hpc : s.pc = .wait i)
    (hstep : s.stepMain n = some s') : Counted n s' := by
  have hcounts := h.counts
  have hrange := h.inRange
  have hwaited := h.waited
  rw [Owners.stepMain, hpc] at hstep
  rw [hpc] at hcounts hrange hwaited
  dsimp only at hstep
  split at hstep
  next hi =>
    obtain ⟨hreturned, hgoto⟩ := Option.ite_none_right_eq_some.mp hstep
    obtain rfl := Option.some.inj hgoto
    constructor
    case counts => exact hcounts.goto _
    case inRange => exact hi
    case notCreated => exact fun t ht => h.notCreated t (by rw [hpc]; exact ht)
    case created => exact fun t ht => h.created t (by rw [hpc]; exact ht)
    case waited =>
      intro t ht
      obtain rfl | hlt := Nat.eq_or_lt_of_le (Nat.le_of_lt_succ ht)
      · exact hreturned
      · exact hwaited t hlt
  next hi =>
    obtain rfl := Option.some.inj hstep
    have hend : 2 * n + 2 = i := Nat.le_antisymm (Nat.not_lt.mp hi) hrange
    exact h.move hpc rfl rfl (hcounts.goto _) (Nat.zero_le _) rfl hend

/-- The statements after it, until two elements of `udpconfigs` are left. -/
theorem stepTeardown (hn : 1 ≤ n) (h : Counted n s) (hall : s.pc.waited n = 2 * n + 2)
    (hstep : s.stepMain n = some s') (hleft : s'.pc.deleted n + 2 ≤ 2 * n) : Counted n s' := by
  have hcounts := h.counts
  have hrange := h.inRange
  have hdrops {t : Nat} := h.drops_waited hall (t := t)
  have hpos {c : Int} (hc : 2 < c) : 0 < c - (s.threads 0).drops - (s.threads 1).drops := by
    rw [hdrops (by omega), hdrops (by omega)]
    omega
  cases hpc : s.pc with
  | wait i => exact h.stepWait hpc hstep
  | closeSocket i =>
    rw [Owners.stepMain, hpc] at hstep
    rw [hpc] at hcounts
    dsimp only at hstep
    split at hstep <;> obtain rfl := Option.some.inj hstep
    next hi =>
      have hheld : (0 : Int) < 2 - (s.threads (i + 2)).drops := by
        rw [hdrops (by omega)]
        decide
      exact h.move hpc rfl rfl ((hcounts.useConfigs hi hheld).goto _) hi rfl rfl
    next hi => exact h.move hpc rfl rfl (hcounts.goto _) trivial rfl rfl
  | endSession | clearConf | clearReceiveConf | clearSendConf =>
    exact h.stepConfig hn (by rw [hpc]; rfl) hstep
  | deleteConfig i =>
    rw [Owners.stepMain, hpc] at hstep
    rw [hpc] at hcounts
    dsimp only at hstep
    split at hstep <;> obtain rfl := Option.some.inj hstep
    next hi =>
      have hleft' : i + 1 + 2 ≤ 2 * n := hleft
      have hheld := OwnerPc.udpHandles_delete i
      have hnow : 2 < OwnerPc.configHandles n (.deleteConfig i) := by
        show (2 : Int) < 2 * n - i
        omega
      have hlast := (hcounts.dropLast hi (by rw [hheld, hdrops (by omega)]; rfl) (hpos hnow)).goto
        (.deleteConfig (i + 1))
      refine h.move hpc rfl (s.dropConfig_threads i) (hlast.cast ?_ fun k _ => ?_) hi rfl rfl
      · show (2 : Int) * n - i - 1 = 2 * n - (i + 1 : Nat)
        omega
      · rw [Function.update_apply, hheld]
        show (if k = i then (2 : Int) - 1 else if k < i then 1 else 2) = if k < i + 1 then 1 else 2
        split_ifs <;> omega
    next hi =>
      have hdeleted : 2 * n + 2 ≤ 2 * n := hleft
      omega
  | deleteReference i =>
    rw [Owners.stepMain, hpc] at hstep
    dsimp only at hstep
    have hdeleted : 2 * n + 2 ≤ 2 * n := by
      split at hstep <;> obtain rfl := Option.some.inj hstep <;> exact hleft
    omega
  | done =>
    rw [Owners.stepMain, hpc] at hstep
    nomatch hstep
  | _ =>
    rw [hpc] at hall
    nomatch hall

/-- **What every statement keeps**, up to there. -/
theorem stepMain (hn : 1 ≤ n) (h : Counted n s) (hstep : s.stepMain n = some s')
    (hleft : s'.pc.deleted n + 2 ≤ 2 * n) : Counted n s' := by
  cases hpc : s.pc with
  | resetConf | generateUDPConfigs | generate | reference | startSession | run | receiveConf
  | sendConf => exact h.stepInit hn (by rw [hpc]; rfl) hstep
  | createThread i => exact h.stepCreate hpc hstep
  | started => exact h.stepConfig hn (by rw [hpc]; rfl) hstep
  | wait i => exact h.stepWait hpc hstep
  | closeSocket | endSession | clearConf | clearReceiveConf | clearSendConf | deleteConfig
  | deleteReference | done => exact h.stepTeardown hn (by rw [hpc]; rfl) hstep hleft

/-- A thread that runs may use what it has been given. -/
theorem threadUse (h : Counted n s) {t : Nat} (hrun : s.threads t = .running) :
    Counted n (s.threadUse t) := by
  obtain ⟨ht, hconfig, hudp, -, -⟩ := h.running hrun
  obtain ⟨-, hone⟩ := (s.threads 0).drops_le
  obtain ⟨-, hone'⟩ := (s.threads 1).drops_le
  have hpos : 0 < s.pc.configHandles n - (s.threads 0).drops - (s.threads 1).drops := by
    rw [hconfig]
    omega
  match t with
  | 0 => exact h.move rfl rfl rfl (h.counts.useConfig hpos) h.inRange rfl rfl
  | 1 => exact h.move rfl rfl rfl (h.counts.useConfig hpos) h.inRange rfl rfl
  | k + 2 =>
    have hheld : 0 < s.pc.udpHandles k - (s.threads (k + 2)).drops := by
      rw [hudp, hrun]
      decide
    have hused := h.counts.useConfigs (by omega) hheld
    exact h.move rfl rfl rfl (hused.useConfig hpos) h.inRange rfl rfl

/-- It returns with the handle of another dropped, whose count stays positive. -/
theorem threadReturn (h : Counted n s) {t : Nat} (hrun : s.threads t = .running) :
    Counted n (s.threadReturn t) := by
  obtain ⟨ht, hconfig, hudp, hwaited, hcreated⟩ := h.running hrun
  obtain ⟨-, hone⟩ := (s.threads 0).drops_le
  obtain ⟨-, hone'⟩ := (s.threads 1).drops_le
  have hpos : 0 < s.pc.configHandles n - (s.threads 0).drops - (s.threads 1).drops := by
    rw [hconfig]
    omega
  have hpc := s.threadReturn_pc t
  have hthreads := s.threadReturn_threads t
  have hdrops (u : Nat) : ((s.threadReturn t).threads u).drops =
      (s.threads u).drops + if u = t then 1 else 0 := by
    rw [hthreads, Function.update_apply]
    split
    next hut =>
      rw [hut, hrun]
      rfl
    next => exact (Int.add_zero _).symm
  constructor
  case counts =>
    rw [hpc]
    match t with
    | 0 =>
      refine (h.counts.clearConfig hpos).recount (s.threadReturn 0) rfl rfl ?_ fun k _ => ?_
      · rw [hdrops, hdrops, Owners.onConfig_threads, if_pos rfl, if_neg (by decide)]
        omega
      · rw [hdrops, Owners.onConfig_threads, if_neg (by omega), Int.add_zero]
    | 1 =>
      refine (h.counts.clearConfig hpos).recount (s.threadReturn 1) rfl rfl ?_ fun k _ => ?_
      · rw [hdrops, hdrops, Owners.onConfig_threads, if_pos rfl, if_neg (by decide)]
        omega
      · rw [hdrops, Owners.onConfig_threads, if_neg (by omega), Int.add_zero]
    | k + 2 =>
      have hheld : 1 < s.pc.udpHandles k - (s.threads (k + 2)).drops := by
        rw [hudp, hrun]
        decide
      have hdropped := h.counts.dropConfigs (by omega) hheld
      refine hdropped.recount (s.threadReturn (k + 2)) rfl rfl ?_ fun j _ => ?_
      · rw [hdrops, hdrops, Owners.dropConfig_threads, if_neg (by omega), if_neg (by omega)]
        omega
      · rw [hdrops, Owners.dropConfig_threads, Function.update_apply]
        by_cases hjk : j = k
        · rw [if_pos hjk, if_pos (by omega), hjk]
          omega
        · rw [if_neg hjk, if_neg (by omega), Int.add_zero]
  case inRange => exact hpc ▸ h.inRange
  case notCreated =>
    intro u hu
    rw [hpc] at hu
    rw [hthreads, Function.update_of_ne (by omega)]
    exact h.notCreated u hu
  case created =>
    intro u hu
    rw [hpc] at hu
    rw [hthreads, Function.update_apply]
    split
    · decide
    · exact h.created u hu
  case waited =>
    intro u hu
    rw [hpc] at hu
    rw [hthreads, Function.update_apply]
    split
    · rfl
    · exact h.waited u hu

theorem balanced (h : Counted n s) : s.Balanced := by
  refine ⟨h.counts.config.kept, fun k => ?_⟩
  by_cases hk : k < 2 * n
  · exact (h.counts.udpconfig k hk).kept
  · rw [h.counts.others k (by omega)]

/-- Destroying the last element but one drops a handle to a `Config` that has none left. -/
theorem misuse (hn : 1 ≤ n) (h : Counted n s) (hleft : s.pc.deleted n + 2 ≤ 2 * n)
    (hstep : s.stepMain n = some s') (hlast : 2 * n < s'.pc.deleted n + 2) :
    s'.config.misused = true := by
  obtain hsame | ⟨i, hpc⟩ := Owners.stepMain_deleted hstep
  · omega
  have hcounts := h.counts
  have hdrops {t : Nat} := h.drops_waited (by rw [hpc]; rfl) (t := t)
  rw [Owners.stepMain, hpc] at hstep
  rw [hpc] at hcounts hleft
  have hi : i + 2 ≤ 2 * n := hleft
  dsimp only at hstep
  rw [if_pos (by omega)] at hstep
  obtain rfl := Option.some.inj hstep
  have hi' : 2 * n < i + 1 + 2 := hlast
  have hnone : (2 * n - i : Int) - (s.threads 0).drops - (s.threads 1).drops ≤ 0 := by
    rw [hdrops (by omega), hdrops (by omega)]
    omega
  have hlast' : OwnerPc.udpHandles i (.deleteConfig i) - (s.threads (i + 2)).drops = 1 := by
    rw [hdrops (by omega), OwnerPc.udpHandles_delete]
    rfl
  show (s.dropConfig i).config.misused = true
  rw [hcounts.dropConfig_last (by omega) hlast']
  exact hcounts.config.misused_use hnone

end Counted

/-! ## 4. From the first misuse on -/

namespace Owners

variable {n : Nat} {s s' : Owners}

theorem misused_dropConfig (h : s.config.misused = true) (k : Nat) :
    (s.dropConfig k).config.misused = true := by
  unfold dropConfig
  dsimp only
  split
  · exact RefCount.misused_drop h
  · exact h

theorem misused_threadUse (h : s.config.misused = true) (t : Nat) :
    (s.threadUse t).config.misused = true :=
  match t with
  | 0 => RefCount.misused_use h
  | 1 => RefCount.misused_use h
  | _ + 2 => RefCount.misused_use h

theorem misused_threadReturn (h : s.config.misused = true) (t : Nat) :
    (s.threadReturn t).config.misused = true :=
  match t with
  | 0 => RefCount.misused_drop h
  | 1 => RefCount.misused_drop h
  | k + 2 => misused_dropConfig h k

theorem threadUse_pc (s : Owners) (t : Nat) : (s.threadUse t).pc = s.pc :=
  match t with
  | 0 => rfl
  | 1 => rfl
  | _ + 2 => rfl

/-- The statements that are left then do not go back. -/
theorem misused_stepMain (hn : 1 ≤ n) (h : s.config.misused = true)
    (hlast : 2 * n < s.pc.deleted n + 2) (hstep : s.stepMain n = some s') :
    s'.config.misused = true ∧ 2 * n < s'.pc.deleted n + 2 := by
  cases hpc : s.pc with
  | deleteConfig i =>
    rw [hpc] at hlast
    have hi : 2 * n < i + 2 := hlast
    rw [stepMain, hpc] at hstep
    dsimp only at hstep
    split at hstep <;> obtain rfl := Option.some.inj hstep
    next => exact ⟨misused_dropConfig h i, by show 2 * n < i + 1 + 2; omega⟩
    next => exact ⟨h, by show 2 * n < 2 * n + 2; omega⟩
  | deleteReference i =>
    rw [stepMain, hpc] at hstep
    dsimp only at hstep
    split at hstep <;> obtain rfl := Option.some.inj hstep
    next => exact ⟨misused_dropConfig h i, by show 2 * n < 2 * n + 2; omega⟩
    next => exact ⟨h, by show 2 * n < 2 * n + 2; omega⟩
  | done =>
    rw [stepMain, hpc] at hstep
    nomatch hstep
  | _ =>
    rw [hpc] at hlast
    have hnone : 2 * n < 0 + 2 := hlast
    omega

end Owners

/-! ## 5. Whole sessions -/

/-- The counts are known until the last element but one is destroyed, and misused after it. -/
def Owners.Accounted (n : Nat) (s : Owners) : Prop :=
  (s.pc.deleted n + 2 ≤ 2 * n ∧ Counted n s) ∨
    (2 * n < s.pc.deleted n + 2 ∧ s.config.misused = true)

theorem Owners.Accounted.next {n : Nat} (hn : 1 ≤ n) {s s' : Owners} (h : s.Accounted n)
    {a : OwnerLabel} (hnext : (ownerMachine n).next s a = some s') : s'.Accounted n := by
  cases a with
  | main =>
    have hstep : s.stepMain n = some s' := hnext
    obtain ⟨hleft, hcounted⟩ | ⟨hlast, hmisused⟩ := h
    · by_cases hleft' : s'.pc.deleted n + 2 ≤ 2 * n
      · exact .inl ⟨hleft', hcounted.stepMain hn hstep hleft'⟩
      · exact .inr ⟨by omega, hcounted.misuse hn hleft hstep (by omega)⟩
    · obtain ⟨hmisused', hlast'⟩ := misused_stepMain hn hmisused hlast hstep
      exact .inr ⟨hlast', hmisused'⟩
  | uses t =>
    obtain ⟨hrun, hs'⟩ := Option.ite_none_right_eq_some.mp hnext
    obtain rfl := Option.some.inj hs'
    rw [Accounted, s.threadUse_pc]
    exact h.imp (fun hs => ⟨hs.1, hs.2.threadUse hrun⟩)
      fun hs => ⟨hs.1, misused_threadUse hs.2 t⟩
  | returns t =>
    obtain ⟨hrun, hs'⟩ := Option.ite_none_right_eq_some.mp hnext
    obtain rfl := Option.some.inj hs'
    rw [Accounted, s.threadReturn_pc]
    exact h.imp (fun hs => ⟨hs.1, hs.2.threadReturn hrun⟩)
      fun hs => ⟨hs.1, misused_threadReturn hs.2 t⟩

theorem Owners.accounted_of_reach {n : Nat} (hn : 1 ≤ n) {s : Owners}
    (h : (ownerMachine n).Reach s) : s.Accounted n := by
  refine h.invariant ?_ fun s a s' hs hnext => hs.next hn hnext
  rintro _ rfl
  exact .inl ⟨by show 0 + 2 ≤ 2 * n; omega, .new⟩

/-- **The counts balance exactly until the last element but one of `udpconfigs` is destroyed**, and
so never over a whole session. -/
theorem balanced_iff {n : Nat} (hn : 1 ≤ n) {s : Owners} (h : (ownerMachine n).Reach s) :
    (s.Balanced ↔ s.pc.deleted n + 2 ≤ 2 * n) ∧ (s.pc = .done → ¬ s.Balanced) := by
  have hbalanced : s.Balanced ↔ s.pc.deleted n + 2 ≤ 2 * n := by
    obtain ⟨hleft, hcounted⟩ | ⟨hlast, hmisused⟩ := Owners.accounted_of_reach hn h
    · exact iff_of_true hcounted.balanced hleft
    · refine iff_of_false (fun hbalanced => ?_) (by omega)
      exact Bool.false_ne_true (hbalanced.1.symm.trans hmisused)
  refine ⟨hbalanced, fun hdone => ?_⟩
  rw [hbalanced, hdone]
  show ¬ 2 * n + 2 ≤ 2 * n
  omega

/-- One adapter: all four threads return before the driver is stopped. -/
def oneAdapterSession : List OwnerLabel :=
  List.replicate 16 .main ++ [.uses 2, .returns 0, .returns 3, .returns 1, .returns 2] ++
    List.replicate 19 .main

theorem balanced_iff_oneAdapter :
    let s := ((ownerMachine 1).run {} (oneAdapterSession.take 19)).get (by decide)
    (s.Balanced ↔ s.pc.deleted 1 + 2 ≤ 2) ∧ (s.pc = .done → ¬ s.Balanced) :=
  balanced_iff (by decide) (Machine.reach_of_run rfl (Option.some_get _).symm)

theorem oneAdapter_misused :
    ¬ ∀ (n : Nat) (s : Owners), 1 ≤ n → (ownerMachine n).Reach s → s.pc = .done → s.Balanced := by
  intro hclaim
  have hend : ((ownerMachine 1).run {} oneAdapterSession).map
      (fun s => (s.pc, s.config.misused)) = some (.done, true) := by decide
  obtain ⟨s, hrun, hs⟩ := Option.map_eq_some_iff.mp hend
  obtain ⟨hdone, hmisused⟩ := Prod.mk.inj hs
  have hbalanced := hclaim 1 s (by decide) (Machine.reach_of_run rfl hrun) hdone
  exact Bool.false_ne_true (hbalanced.1.symm.trans hmisused)

/-! ## 6. Every session can be brought to its end -/

/-- How much `main` has still to do. -/
def OwnerPc.remaining (n : Nat) : OwnerPc → Nat
  | .resetConf => 13 * n + 22
  | .generateUDPConfigs => 13 * n + 21
  | .generate a => 12 * n + 20 + (n - a)
  | .reference i => 10 * n + 19 + (2 * n - i)
  | .startSession => 10 * n + 18
  | .run => 10 * n + 17
  | .receiveConf => 10 * n + 16
  | .sendConf => 10 * n + 15
  | .createThread i => 8 * n + 12 + (2 * n + 2 - i)
  | .started => 8 * n + 11
  | .wait i => 6 * n + 8 + (2 * n + 2 - i)
  | .closeSocket i => 4 * n + 7 + (2 * n - i)
  | .endSession => 4 * n + 6
  | .clearConf => 4 * n + 5
  | .clearReceiveConf => 4 * n + 4
  | .clearSendConf => 4 * n + 3
  | .deleteConfig i => 2 * n + 2 + (2 * n - i)
  | .deleteReference i => 1 + (2 * n - i)
  | .done => 0

namespace Owners

variable {n : Nat} {s s' : Owners}

/-- Each statement is done once, each loop has its end. -/
theorem stepMain_remaining (hstep : s.stepMain n = some s') :
    s'.pc.remaining n < s.pc.remaining n := by
  cases hpc : s.pc <;> rw [stepMain, hpc] at hstep <;> dsimp only at hstep <;>
    (repeat' split at hstep) <;>
    first
      | contradiction
      | (obtain rfl := Option.some.inj hstep
         simp only [goto, OwnerPc.remaining]
         omega)

/-- Nothing holds it up but a thread that has not returned. -/
theorem stepMain_isSome (hmore : s.pc ≠ .done)
    (hwait : ∀ i, s.pc = .wait i → i < 2 * n + 2 → s.threads i = .returned) :
    ∃ s', s.stepMain n = some s' := by
  cases hpc : s.pc with
  | wait i =>
    rw [stepMain, hpc]
    dsimp only
    split
    next hi => exact ⟨_, if_pos (hwait i hpc hi)⟩
    next => exact ⟨_, rfl⟩
  | done => exact absurd hpc hmore
  | _ =>
    rw [stepMain, hpc]
    dsimp only
    (try split) <;> exact ⟨_, rfl⟩

/-- A thread that is waited for has been created. -/
theorem running_of_wait (hn : 1 ≤ n) (h : (ownerMachine n).Reach s) {i : Nat}
    (hpc : s.pc = .wait i) (hi : i < 2 * n + 2) (hnot : s.threads i ≠ .returned) :
    s.threads i = .running := by
  obtain ⟨-, hcounted⟩ | ⟨hlast, -⟩ := accounted_of_reach hn h
  · have hcreated := hcounted.created i (by rw [hpc]; exact hi)
    cases hthread : s.threads i with
    | notCreated => exact absurd hthread hcreated
    | running => rfl
    | returned => exact absurd hthread hnot
  · rw [hpc] at hlast
    have hnone : 2 * n < 0 + 2 := hlast
    omega

/-- A session gets on, after the return of a thread if `main` waits for it. -/
theorem progress (hn : 1 ≤ n) (h : (ownerMachine n).Reach s) (hmore : s.pc ≠ .done) :
    ∃ s', (ownerMachine n).Leads (fun _ _ => True) s s' ∧
      s'.pc.remaining n < s.pc.remaining n := by
  by_cases hwait : ∃ i, s.pc = .wait i ∧ i < 2 * n + 2 ∧ s.threads i ≠ .returned
  · obtain ⟨i, hpc, hi, hnot⟩ := hwait
    have hrun := running_of_wait hn h hpc hi hnot
    have hreturns : (ownerMachine n).next s (.returns i) = some (s.threadReturn i) := if_pos hrun
    have hpc' : (s.threadReturn i).pc = .wait i := (s.threadReturn_pc i).trans hpc
    obtain ⟨s', hstep⟩ := stepMain_isSome (n := n) (s := s.threadReturn i) (by rw [hpc']; nofun)
      fun j hj _ => by
        obtain rfl := OwnerPc.wait.inj (hpc'.symm.trans hj)
        rw [s.threadReturn_threads, Function.update_self]
    have hremaining := stepMain_remaining hstep
    rw [s.threadReturn_pc] at hremaining
    exact ⟨s', .head ⟨_, trivial, hreturns⟩ (.single ⟨.main, trivial, hstep⟩), hremaining⟩
  · have hreturned (i : Nat) (hpc : s.pc = .wait i) (hi : i < 2 * n + 2) :
        s.threads i = .returned := by
      by_contra hnot
      exact hwait ⟨i, hpc, hi, hnot⟩
    obtain ⟨s', hstep⟩ := stepMain_isSome hmore hreturned
    exact ⟨s', .single ⟨.main, trivial, hstep⟩, stepMain_remaining hstep⟩

end Owners

/-- A session can be brought to its end from whatever state it is in. -/
theorem sessions_end {n : Nat} (hn : 1 ≤ n) {s : Owners} (h : (ownerMachine n).Reach s) :
    ∃ t, (ownerMachine n).Leads (fun _ _ => True) s t ∧ t.pc = .done := by
  induction hrest : s.pc.remaining n using Nat.strongRecOn generalizing s with
  | _ rest ih =>
    by_cases hdone : s.pc = .done
    · exact ⟨s, .refl, hdone⟩
    · obtain ⟨s', hleads, hless⟩ := Owners.progress hn h hdone
      obtain ⟨s0, hs0, hfirst⟩ := h
      obtain ⟨t, hrest', hend⟩ := ih _ (hrest ▸ hless) ⟨s0, hs0, hfirst.trans hleads⟩ rfl
      exact ⟨t, hleads.trans hrest', hend⟩

end NetShare
