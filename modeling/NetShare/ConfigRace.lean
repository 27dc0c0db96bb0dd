import NetShare.ConfigPut
import NetShare.Reasoning.SharedCell
import Mathlib.Data.List.Permutation

/-!
# Config Puts at the same time

Every connection has a thread of its own, and a config Put reads the file, merges and writes without
a lock.  Each of the three is one step here, in any order among the handlers.  A handler that writes
while another one has read and not written yet will be written over.
-/

namespace NetShare

open Reasoning ConfigurationWorker

/-! ## 1. The handlers -/

/-- `parseConfigPutMessage` behind its checks: before the file is read, holding what was read, and
with the settings of the document merged into it. -/
inductive PutPc where
  | idle
  | asked (doc : Json)
  | read (doc : Json) (conf : AppConfig)
  | merged (doc : Json) (conf : AppConfig)

namespace PutPc

/-- The handler has read the file and not written it yet. -/
def hasRead : PutPc → Bool
  | .read _ _ | .merged _ _ => true
  | _ => false

end PutPc

/-- `file` is the content of the config file and `requests` are the Puts taken so far.  An exception
leaves the thread of its connection and ends the process. -/
structure ConfigRace (n : Nat) where
  file : List UInt8
  handlers : Fin n → PutPc := fun _ => .idle
  requests : List Json := []
  terminated : Bool := false

/-- `read` says what is in the object and in memory that has not been written yet. -/
inductive ConfigRaceLabel (n : Nat) where
  | request (i : Fin n) (doc : Json)
  | read (i : Fin n) (conf : AppConfig) (mem : Uninitialised)
  | merge (i : Fin n)
  | write (i : Fin n)

/-- The two checks of `data` that a config Put has to pass. -/
def passesDataChecks (doc : Json) : Bool := (doc.member? "data").any Json.isObject

namespace ConfigRace

variable {n : Nat}

def setHandler (s : ConfigRace n) (i : Fin n) (pc : PutPc) : ConfigRace n :=
  { s with handlers := Function.update s.handlers i pc }

def next (p : Platform) (popBack : List Json → Json × List Json) (s : ConfigRace n)
    (a : ConfigRaceLabel n) : Option (ConfigRace n) :=
  if s.terminated then none
  else
    match a with
    | .request i doc =>
      match s.handlers i with
      | .idle =>
        if passesDataChecks doc then
          some { s.setHandler i (.asked doc) with requests := s.requests ++ [doc] }
        else none
      | _ => none
    | .read i conf mem =>
      match s.handlers i with
      | .asked doc =>
        let r := conf.read p mem { rest := s.file }
        if r.thrown then some { s with terminated := true }
        else some (s.setHandler i (.read doc r.config))
      | _ => none
    | .merge i =>
      match s.handlers i with
      | .read doc conf =>
        match conf.put p popBack doc with
        | some conf => some (s.setHandler i (.merged doc conf))
        | none => some { s with terminated := true }
      | _ => none
    | .write i =>
      match s.handlers i with
      | .merged _ conf => some { s.setHandler i .idle with file := conf.write p }
      | _ => none

/-- At a write no other handler has read the file and not written it yet. -/
def Undisturbed (s : ConfigRace n) : ConfigRaceLabel n → Prop
  | .write i => ∀ j, j ≠ i → (s.handlers j).hasRead = false
  | _ => True

end ConfigRace

/-- The handlers of `n` connections over the file of this configuration. -/
def configRaceMachine (p : Platform) (popBack : List Json → Json × List Json) (n : Nat)
    (c₀ : AppConfig) : Machine (ConfigRace n) (ConfigRaceLabel n) where
  init s := s = { file := c₀.write p }
  next := ConfigRace.next p popBack

/-! ## 2. A handler by itself -/

section Alone

variable {n : Nat}

-- The checks leave the data of the document to the handler.
theorem passesDataChecks_iff {doc : Json} :
    passesDataChecks doc = true ↔
      ∃ data, doc.member? "data" = some data ∧ data.isObject = true := by
  rw [passesDataChecks, Option.any_eq_true]

/-- **The four steps of a handler that is not interrupted are `parseConfigPutMessage`.** -/
theorem configRace_alone (env : Environment) {doc : Json} (hchecks : passesDataChecks doc = true)
    (c₀ : AppConfig) (s : ConfigRace n) {i : Fin n} (hidle : s.handlers i = .idle)
    (hterminated : s.terminated = false) {w : World} (hfile : w.configFile = some s.file) :
    (parseConfigPutMessage env doc).exec w =
      match (configRaceMachine env.platform env.popBack n c₀).run s
        [.request i doc, .read i env.conf env.memory, .merge i, .write i] with
      | some t => (.ok (), { w with configFile := some t.file })
      | none => (.error .exception, w) := by
  obtain ⟨data, hdata, hobj⟩ := passesDataChecks_iff.mp hchecks
  rw [exec_configPut hdata hobj, hfile, inFile]
  simp only [Machine.run, configRaceMachine, ConfigRace.next, hterminated, hidle, hchecks,
    Bool.false_eq_true, if_false, if_true, Option.bind_some, ConfigRace.setHandler,
    Function.update_self]
  cases hthrown : (env.conf.read env.platform env.memory { rest := s.file }).thrown with
  | true => rfl
  | false =>
    simp only [Bool.false_eq_true, if_false, Option.bind_some, Function.update_self]
    cases (env.conf.read env.platform env.memory { rest := s.file }).config.put env.platform
      env.popBack doc with
    | none => rfl
    | some conf =>
      simp only [Option.bind_some, Function.update_self, Bool.false_eq_true, if_false]

end Alone

/-! ## 3. The file as a shared cell -/

section SharedFile

variable {p : Platform} {popBack : List Json → Json × List Json} {n : Nat}

/-- A Put as an update of what is stored. -/
def putStorable (p : Platform) (popBack : List Json → Json × List Json) (doc : Json)
    (c : StorableConfig p) : Option (StorableConfig p) :=
  match h : c.config.put p popBack doc with
  | some _ => some (c.ofPut h)
  | none => none

theorem putStorable_map (doc : Json) (c : StorableConfig p) :
    (putStorable p popBack doc c).map StorableConfig.config = c.config.put p popBack doc := by
  unfold putStorable
  split
  next h => exact h.symm
  next h => exact h.symm

-- So it is for one Put after the other.
theorem foldlM_putStorable (docs : List Json) (c : StorableConfig p) :
    (docs.foldlM (fun c doc => putStorable p popBack doc c) c).map StorableConfig.config =
      docs.foldlM (fun c doc => c.put p popBack doc) c.config := by
  induction docs generalizing c with
  | nil => rfl
  | cons doc docs ih =>
    rw [List.foldlM_cons, List.foldlM_cons, ← putStorable_map]
    cases putStorable p popBack doc c with
    | none => rfl
    | some c' => exact ih c'

/-- Whatever object it is read into, the file gives this configuration. -/
def Decodes (p : Platform) (bytes : List UInt8) (c : AppConfig) : Prop :=
  ∀ (old : AppConfig) (mem : Uninitialised), (old.read p mem { rest := bytes }).config = c ∧
    (old.read p mem { rest := bytes }).thrown = false

theorem decodes_write {c : AppConfig} (hc : c.InMemory p) : Decodes p (c.write p) c.untilNul := by
  intro old mem
  exact hc.read_whole mem old

/-- A handler and the client it is. -/
inductive MatchesPc : PutPc → SharedCell.Client Json (StorableConfig p) → Prop where
  | idle : MatchesPc .idle .idle
  | asked (doc : Json) : MatchesPc (.asked doc) (.asked doc)
  | read (doc : Json) (c : StorableConfig p) : MatchesPc (.read doc c.config) (.loaded doc c)
  | merged (doc : Json) (c : StorableConfig p) : MatchesPc (.merged doc c.config) (.ready doc c)

theorem MatchesPc.hasRead {pc : PutPc} {c : SharedCell.Client Json (StorableConfig p)}
    (h : MatchesPc pc c) : c.hasRead = pc.hasRead := by
  cases h <;> rfl

/-- The file stands for the value of the cell. -/
structure Matches (s : ConfigRace n)
    (s' : SharedCell.State (Fin n) Json (StorableConfig p)) : Prop where
  decodes : Decodes p s.file s'.value.config
  handlers : ∀ i, MatchesPc (s.handlers i) (s'.clients i)
  requests : s'.requests = s.requests

theorem Matches.setHandler {s : ConfigRace n}
    {s' : SharedCell.State (Fin n) Json (StorableConfig p)} (h : Matches s s') {i : Fin n}
    {pc : PutPc} {c : SharedCell.Client Json (StorableConfig p)} (hpc : MatchesPc pc c) :
    Matches (s.setHandler i pc) (s'.setClient i c) := by
  refine ⟨h.decodes, fun j => ?_, h.requests⟩
  show MatchesPc (Function.update s.handlers i pc j) (Function.update s'.clients i c j)
  by_cases hj : j = i
  · rw [hj, Function.update_self, Function.update_self]
    exact hpc
  · rw [Function.update_of_ne hj, Function.update_of_ne hj]
    exact h.handlers j

/-- The machine whose cell holds the stored configuration. -/
abbrev storedMachine (p : Platform) (popBack : List Json → Json × List Json) (n : Nat)
    (c : StorableConfig p) :
    Machine (SharedCell.State (Fin n) Json (StorableConfig p)) (SharedCell.Label (Fin n) Json) :=
  SharedCell.machine (putStorable p popBack) c

/-- **Each step of a handler is the step of its client**, unless it ends the process. -/
theorem Matches.next {c₀ : StorableConfig p} {s t : ConfigRace n}
    {s' : SharedCell.State (Fin n) Json (StorableConfig p)} (h : Matches s s')
    {a : ConfigRaceLabel n} (hok : ConfigRace.Undisturbed s a)
    (hn : s.next p popBack a = some t) :
    t.terminated = true ∨
      ∃ t', (storedMachine p popBack n c₀).Step SharedCell.Undisturbed s' t' ∧ Matches t t' := by
  unfold ConfigRace.next at hn
  split at hn
  next => contradiction
  next =>
    cases a with
    | request i doc =>
      have hpc := h.handlers i
      simp only at hn
      split at hn
      next hidle =>
        split at hn
        next =>
          rw [Option.some.injEq] at hn
          subst hn
          rw [hidle] at hpc
          generalize hclient : s'.clients i = client at hpc
          cases hpc
          have hset := h.setHandler (i := i) (.asked doc)
          refine .inr ⟨{ s'.setClient i (.asked doc) with requests := s'.requests ++ [doc] },
            ⟨.request i doc, trivial, ?_⟩, hset.decodes, hset.handlers, ?_⟩
          · simp only [SharedCell.machine, hclient]
          · show s'.requests ++ [doc] = s.requests ++ [doc]
            rw [h.requests]
        next => contradiction
      next => contradiction
    | read i conf mem =>
      have hpc := h.handlers i
      simp only at hn
      split at hn
      next doc hasked =>
        obtain ⟨hconfig, hthrown⟩ := h.decodes conf mem
        rw [hthrown, if_neg Bool.false_ne_true, Option.some.injEq, hconfig] at hn
        subst hn
        rw [hasked] at hpc
        generalize hclient : s'.clients i = client at hpc
        cases hpc
        refine .inr ⟨s'.setClient i (.loaded doc s'.value), ⟨.read i, trivial, ?_⟩,
          h.setHandler (.read doc s'.value)⟩
        simp only [SharedCell.machine, hclient]
      next => contradiction
    | merge i =>
      have hpc := h.handlers i
      simp only at hn
      split at hn
      next doc conf hread =>
        rw [hread] at hpc
        generalize hclient : s'.clients i = client at hpc
        cases hpc with
        | read _ c =>
          cases hput : c.config.put p popBack doc with
          | none =>
            rw [hput, Option.some.injEq] at hn
            subst hn
            exact .inl rfl
          | some conf' =>
            rw [hput, Option.some.injEq] at hn
            subst hn
            rw [← putStorable_map] at hput
            obtain ⟨d, hd, rfl⟩ := Option.map_eq_some_iff.mp hput
            refine .inr ⟨s'.setClient i (.ready doc d), ⟨.compute i, trivial, ?_⟩,
              h.setHandler (.merged doc d)⟩
            simp only [SharedCell.machine, hclient, hd, Option.map_some]
      next => contradiction
    | write i =>
      have hpc := h.handlers i
      simp only at hn
      split at hn
      next doc conf hmerged =>
        rw [Option.some.injEq] at hn
        subst hn
        rw [hmerged] at hpc
        generalize hclient : s'.clients i = client at hpc
        cases hpc with
        | merged _ d =>
          have hset := h.setHandler (i := i) .idle
          have hdecodes := decodes_write d.inMemory
          rw [d.untilNul_eq] at hdecodes
          refine .inr ⟨{ s'.setClient i .idle with value := d }, ⟨.write i, fun j hj => ?_, ?_⟩,
            hdecodes, hset.handlers, hset.requests⟩
          · rw [(h.handlers j).hasRead]
            exact hok j hj
          · simp only [SharedCell.machine, hclient]
      next => contradiction

end SharedFile

/-! ## 4. Whole runs -/

section Runs

variable {p : Platform} {popBack : List Json → Json × List Json} {n : Nat}

/-- **Config Puts that are not written over are not lost.**  Once all handlers have finished, the
file decodes to the stored configuration with the Puts applied to it one by one, in some order. -/
theorem configPuts_serial {c₀ : AppConfig} (hc : c₀.InMemory p) {s : ConfigRace n}
    (h : (configRaceMachine p popBack n c₀).ReachWhile ConfigRace.Undisturbed s)
    (halive : s.terminated = false) (hidle : ∀ i, s.handlers i = .idle) :
    ∃ (order : List Json) (c : AppConfig), order.Perm s.requests ∧
      order.foldlM (fun c doc => c.put p popBack doc) c₀.untilNul = some c ∧
      Decodes p s.file c := by
  have hsimulated : ∃ s', (storedMachine p popBack n hc.storable).ReachWhile
      SharedCell.Undisturbed s' ∧ (s.terminated = true ∨ Matches s s') := by
    refine h.simulate (R := fun s s' => s.terminated = true ∨ Matches s s') ?_ ?_
    · rintro s rfl
      exact ⟨{ value := hc.storable }, rfl, .inr ⟨decodes_write hc, fun _ => .idle, rfl⟩⟩
    · rintro s s' a t (hterminated | hmatches) hok hn
      · have hnone : s.next p popBack a = none := by
          unfold ConfigRace.next
          rw [if_pos hterminated]
        have hsome : s.next p popBack a = some t := hn
        rw [hnone] at hsome
        contradiction
      · obtain hterminated | ⟨t', hstep, hmatches'⟩ := hmatches.next hok hn
        · exact ⟨s', .refl, .inl hterminated⟩
        · exact ⟨t', .single hstep, .inr hmatches'⟩
  obtain ⟨s', hs', hmatches⟩ := hsimulated
  obtain hterminated | hmatches := hmatches
  · exact absurd (halive.symm.trans hterminated) Bool.false_ne_true
  · have hclients (i : Fin n) : s'.clients i = .idle := by
      have hpc := hmatches.handlers i
      rw [hidle i] at hpc
      generalize s'.clients i = client at hpc
      cases hpc
      rfl
    obtain ⟨order, hperm, horder⟩ := (SharedCell.serial_of_reachWhile hs').of_idle hclients
    refine ⟨order, s'.value.config, hmatches.requests ▸ hperm, ?_, hmatches.decodes⟩
    rw [← show hc.storable.config = c₀.untilNul from rfl, ← foldlM_putStorable, horder,
      Option.map_some]

-- Two Puts one after the other.
theorem foldlM_pair {d₁ d₂ : Json} {c₀ c : AppConfig}
    (h : [d₁, d₂].foldlM (fun c doc => c.put p popBack doc) c₀ = some c) :
    ∃ c₁, ChangedAsNamed popBack d₁ c₀ c₁ ∧ ChangedAsNamed popBack d₂ c₁ c := by
  rw [List.foldlM_cons] at h
  obtain ⟨c₁, hput₁, h⟩ := Option.bind_eq_some_iff.mp h
  rw [List.foldlM_cons] at h
  obtain ⟨c₂, hput₂, h⟩ := Option.bind_eq_some_iff.mp h
  obtain rfl : c₂ = c := Option.some.inj h
  exact ⟨c₁, AppConfig.put_changedAsNamed hput₁, AppConfig.put_changedAsNamed hput₂⟩

/-- Two Puts of different fields both take effect, in either order. -/
theorem put_both {d₁ d₂ : Json} {v b : Int32} (hport : d₁.intMember? "serverPort" = some v)
    (hport' : d₂.intMember? "serverPort" = none)
    (hbits : d₂.intMember? "adapterSubnetBits" = some b)
    (hbits' : d₁.intMember? "adapterSubnetBits" = none) {order : List Json}
    (horder : order.Perm [d₁, d₂]) {c₀ c : AppConfig}
    (hput : order.foldlM (fun c doc => c.put p popBack doc) c₀ = some c) :
    c.serverPort = v ∧ c.adapterSubnetBits = b := by
  obtain rfl | rfl := List.perm_pair.mp horder
  · obtain ⟨c₁, hfirst, hsecond⟩ := foldlM_pair hput
    rw [hsecond.serverPort, hsecond.adapterSubnetBits, hfirst.serverPort, hport, hport', hbits]
    exact ⟨rfl, rfl⟩
  · obtain ⟨c₁, hfirst, hsecond⟩ := foldlM_pair hput
    rw [hsecond.serverPort, hsecond.adapterSubnetBits, hfirst.adapterSubnetBits, hport, hbits,
      hbits']
    exact ⟨rfl, rfl⟩

/-- **Of two handlers that have both read before either writes, the last one to write wins.** -/
theorem lastWriter_wins (c₀ : StorableConfig p) {d₁ d₂ : Json}
    (hchecks₁ : passesDataChecks d₁ = true) (hchecks₂ : passesDataChecks d₂ = true)
    {c₁ c₂ : AppConfig}
    (hput₁ : c₀.config.put p popBack d₁ = some c₁) (hput₂ : c₀.config.put p popBack d₂ = some c₂)
    (conf : AppConfig) (mem : Uninitialised) {i j : Fin n} (hij : i ≠ j) :
    ∃ t, (configRaceMachine p popBack n c₀.config).run { file := c₀.config.write p }
        [.request i d₁, .request j d₂, .read i conf mem, .read j conf mem, .merge i, .merge j,
          .write i, .write j] = some t ∧
      t.file = c₂.write p ∧ t.requests = [d₁, d₂] ∧ t.terminated = false ∧
      ∀ k, t.handlers k = .idle := by
  have hdecodes := decodes_write c₀.inMemory conf mem
  rw [c₀.untilNul_eq] at hdecodes
  obtain ⟨hconfig, hthrown⟩ := hdecodes
  have hji : j ≠ i := hij.symm
  simp only [Machine.run, configRaceMachine, ConfigRace.next, ConfigRace.setHandler, hchecks₁,
    hchecks₂, hthrown, hconfig, hput₁, hput₂, Bool.false_eq_true, if_false, if_true,
    Option.bind_some, Function.update_self, Function.update_of_ne hij, Function.update_of_ne hji]
  refine ⟨_, rfl, rfl, rfl, rfl, fun k => ?_⟩
  dsimp only
  by_cases hkj : k = j
  · rw [hkj, Function.update_self]
  · rw [Function.update_of_ne hkj]
    by_cases hki : k = i
    · rw [hki, Function.update_self]
    · simp only [Function.update_of_ne hki, Function.update_of_ne hkj]

end Runs

/-- A Put with this port. -/
def portPut : Json :=
  .object [("type", .string "Put"), ("on", .string "config"), ("data", .object []),
    ("serverPort", .int 4242)]

/-- A Put with these subnet bits. -/
def subnetBitsPut : Json :=
  .object [("type", .string "Put"), ("on", .string "config"), ("data", .object []),
    ("adapterSubnetBits", .int 16)]

/-- One handler has written before the other one reads. -/
def oneAfterTheOther (i j : Fin 2) : List (ConfigRaceLabel 2) :=
  let conf := defaultStored.config
  let mem : Uninitialised := ⟨0, fun _ => 0, fun _ _ => 0⟩
  [.request i portPut, .request j subnetBitsPut, .read i conf mem, .merge i, .write i,
    .read j conf mem, .merge j, .write j]

instance {n : Nat} (s : ConfigRace n) (a : ConfigRaceLabel n) : Decidable (s.Undisturbed a) :=
  match a with
  | .write i => inferInstanceAs (Decidable (∀ j, j ≠ i → (s.handlers j).hasRead = false))
  | .request _ _ | .read _ _ _ | .merge _ => .isTrue trivial

theorem configPuts_serial_oneAfterTheOther :
    let m := configRaceMachine .x64 (environmentOf goodStart).popBack 2 defaultStored.config
    let s := (m.runWhile ConfigRace.Undisturbed { file := defaultStored.config.write .x64 }
      (oneAfterTheOther 0 1)).get rfl
    ∃ (order : List Json) (c : AppConfig), order.Perm s.requests ∧
      order.foldlM (fun c doc => c.put .x64 (environmentOf goodStart).popBack doc)
        defaultStored.config.untilNul = some c ∧ Decodes .x64 s.file c :=
  configPuts_serial defaultStored.inMemory
    ⟨_, rfl, Machine.leads_of_runWhile (Option.some_get rfl).symm⟩ rfl (by
      intro i
      obtain rfl | rfl : i = 0 ∨ i = 1 := by omega
      · rfl
      · rfl)

/-- The port that one handler has written is gone when the other one has written as well. -/
theorem portPut_lost :
    ¬ ∀ (p : Platform) (popBack : List Json → Json × List Json) (n : Nat) (c₀ : AppConfig)
        (s : ConfigRace n), c₀.InMemory p → (configRaceMachine p popBack n c₀).Reach s →
      s.terminated = false → (∀ i, s.handlers i = .idle) →
      ∃ (order : List Json) (c : AppConfig), order.Perm s.requests ∧
        order.foldlM (fun c doc => c.put p popBack doc) c₀.untilNul = some c ∧
        Decodes p s.file c := by
  intro hclaim
  let popBack := (environmentOf goodStart).popBack
  let mem : Uninitialised := ⟨0, fun _ => 0, fun _ _ => 0⟩
  let c₀ := defaultStored
  let c₁ : AppConfig := { c₀.config with serverPort := 4242 }
  let c₂ : AppConfig := { c₀.config with adapterSubnetBits := 16 }
  have hput₁ : c₀.config.put .x64 popBack portPut = some c₁ := rfl
  have hput₂ : c₀.config.put .x64 popBack subnetBitsPut = some c₂ := rfl
  have hchecks₁ : passesDataChecks portPut = true := rfl
  have hchecks₂ : passesDataChecks subnetBitsPut = true := rfl
  obtain ⟨t, hrun, hfile, hrequests, halive, hidle⟩ :=
    lastWriter_wins c₀ hchecks₁ hchecks₂ hput₁ hput₂ c₀.config mem Fin.zero_ne_one
  obtain ⟨order, c, hperm, hfold, hdecodes⟩ :=
    hclaim .x64 popBack 2 c₀.config t c₀.inMemory (Machine.reach_of_run rfl hrun) halive hidle
  rw [hrequests] at hperm
  have hport := (put_both (v := 4242) (b := 16) rfl rfl rfl rfl hperm hfold).1
  have hread := decodes_write (c₀.ofPut hput₂).inMemory c₀.config mem
  rw [(c₀.ofPut hput₂).untilNul_eq] at hread
  rw [hfile] at hdecodes
  have hsame : c = c₂ := (hdecodes c₀.config mem).1.symm.trans hread.1
  rw [hsame] at hport
  exact absurd hport (by decide)

end NetShare
