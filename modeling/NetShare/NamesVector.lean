import NetShare.DamagedConfig
import NetShare.Reasoning.Heap
import Mathlib.Data.List.Chain

/-!
# The vector of adapter names

`names` of the daemon's `AppConfig` and `adapterNames` of `Application` point to vectors on the
heap.  `AppConfig::read` makes a new one, `initRun` gives the one that `names` points to to
`adapterNames`, which deletes the one it had, and the names are used from there.
-/

namespace NetShare

open Reasoning

/-! ## 1. A start -/

/-- The names of `internalConfig` are those in the vector that `names` points to. -/
structure NamesVectors where
  internalConfig : AppConfig
  heap : Heap (List (List UInt8))
  names : Nat
  adapterNames : Option Nat := none

/-- What a start finds at the place of the config file, `none` for no file, and the memory that it
reads before it is written. -/
structure FoundFile where
  content : Option (List UInt8)
  memory : Uninitialised

namespace NamesVectors

/-- The constructor of `Application`. -/
def ofConfig (internalConfig : AppConfig) : NamesVectors :=
  let (names, heap) := (Heap.new {} [] : Nat × Heap (List (List UInt8)))
  { internalConfig, heap, names }

/-- `adapterNames.reset(internalConfig->names)`, and then the names are read. -/
def reset (s : NamesVectors) : Option (List (List UInt8) × NamesVectors) := do
  let heap ←
    match s.adapterNames with
    | none => some s.heap
    | some old => s.heap.delete old
  let names ← heap.object s.names
  return (names, { s with heap, adapterNames := some s.names })

/-- `initRun` from the opening of the config file to `deactiveEverythingBut`: the names it is called
with, `none` where the config file could not be read.  The result is `none` if an object is used
that has been deleted. -/
def initRun (p : Platform) (s : NamesVectors) (file : FoundFile) :
    Option (Option (List (List UInt8)) × NamesVectors) :=
  match file.content with
  | none => do
    let heap ← s.heap.modify s.names (· ++ defaultConfig.names)
    let (names, s) ← reset { s with internalConfig := defaultConfig, heap }
    return (some names, s)
  | some bytes =>
    let r := s.internalConfig.read p file.memory { rest := bytes }
    let (names, heap) := s.heap.new r.config.names
    let s := { s with internalConfig := r.config, heap, names }
    if r.thrown then some (none, s)
    else do
      let (names, s) ← reset s
      return (some names, s)

/-- One start after the other. -/
def starts (p : Platform) : NamesVectors → List FoundFile →
    Option (List (Option (List (List UInt8))) × NamesVectors)
  | s, [] => some ([], s)
  | s, file :: files => do
    let (names, s) ← s.initRun p file
    let (later, s) ← starts p s files
    return (names :: later, s)

end NamesVectors

/-! ## 2. Who points where -/

/-- The start ends because the config file cannot be read. -/
def FoundFile.Unreadable (p : Platform) (file : FoundFile) : Prop :=
  ∃ bytes, file.content = some bytes ∧
    (defaultConfig.read p file.memory { rest := bytes }).thrown = true

-- Whether something throws does not depend on what the object held.
theorem read_thrown_eq (p : Platform) (mem : Uninitialised) (old old' : AppConfig)
    (f : InputFile) : (old.read p mem f).thrown = (old'.read p mem f).thrown := rfl

namespace FoundFile

variable {p : Platform} {file : FoundFile} {bytes : List UInt8}

theorem unreadable_iff (hfile : file.content = some bytes) (internalConfig : AppConfig) :
    file.Unreadable p ↔ (internalConfig.read p file.memory { rest := bytes }).thrown = true := by
  rw [read_thrown_eq p file.memory internalConfig defaultConfig]
  constructor
  · rintro ⟨bytes', hbytes', h⟩
    rw [hfile] at hbytes'
    obtain rfl := Option.some.inj hbytes'
    exact h
  · exact fun h => ⟨bytes, hfile, h⟩

/-- What the start makes of the file, with the object that reads it. -/
def outcome (p : Platform) (file : FoundFile) (internalConfig : AppConfig) : ConfigFileOutcome :=
  file.content.elim .missing (.ofFile p file.memory internalConfig)

theorem outcome_found (hfile : file.content = some bytes) (internalConfig : AppConfig) :
    file.outcome p internalConfig ≠ .missing ∧
      ((file.outcome p internalConfig).internalConfig?.isSome = false ↔ file.Unreadable p) := by
  rw [outcome, hfile, Option.elim_some, ConfigFileOutcome.ofFile,
    unreadable_iff hfile internalConfig]
  cases (internalConfig.read p file.memory { rest := bytes }).thrown with
  | true => exact ⟨by rintro ⟨⟩, iff_of_true rfl rfl⟩
  | false => exact ⟨by rintro ⟨⟩, iff_of_false (by rintro ⟨⟩) (by rintro ⟨⟩)⟩

end FoundFile

namespace NamesVectors

variable {p : Platform} {s : NamesVectors} {shared : Bool}

/-- Both pointers are good, and `shared` tells whether they are the same. -/
structure Pointing (s : NamesVectors) (shared : Bool) : Prop where
  names : s.heap.Live s.names
  adapterNames : ∀ a, s.adapterNames = some a → s.heap.Live a
  same : s.adapterNames = some s.names ↔ shared = true

theorem pointing_ofConfig (internalConfig : AppConfig) :
    (ofConfig internalConfig).Pointing false where
  names := Heap.live_new_self {} []
  adapterNames _ h := absurd h nofun
  same := iff_of_false nofun Bool.false_ne_true

/-- Giving a vector to `adapterNames` that it has already deletes it. -/
theorem reset_shared (h : s.Pointing true) : s.reset = none := by
  obtain ⟨heap, hdelete, hgone, -⟩ := Heap.exists_delete h.names
  have hnone : heap.object s.names = none := by
    rw [← Option.not_isSome_iff_eq_none]
    exact hgone
  simp only [reset, h.same.mpr rfl, hdelete, bind, Option.bind, hnone]

theorem reset_apart (h : s.Pointing false) :
    ∃ names s', s.reset = some (names, s') ∧ s'.Pointing true := by
  have hne : s.adapterNames ≠ some s.names := fun heq => Bool.false_ne_true (h.same.mp heq)
  have hdone (heap : Heap (List (List UInt8))) (hlive : heap.Live s.names) :
      ∃ names, heap.object s.names = some names ∧
        Pointing { s with heap, adapterNames := some s.names } true := by
    obtain ⟨names, hnames⟩ := Option.isSome_iff_exists.mp hlive
    refine ⟨names, hnames, hlive, fun a ha => ?_, iff_of_true rfl rfl⟩
    obtain rfl := Option.some.inj ha
    exact hlive
  cases hold : s.adapterNames with
  | none =>
    obtain ⟨names, hnames, hpointing⟩ := hdone s.heap h.names
    refine ⟨names, _, ?_, hpointing⟩
    simp only [reset, hold, bind, Option.bind, hnames]
    rfl
  | some old =>
    obtain ⟨heap, hdelete, -, hkeep⟩ := Heap.exists_delete (h.adapterNames old hold)
    have hapart : s.names ≠ old := by
      rintro rfl
      exact hne hold
    obtain ⟨names, hnames, hpointing⟩ := hdone heap (hkeep s.names hapart h.names)
    refine ⟨names, _, ?_, hpointing⟩
    simp only [reset, hold, bind, Option.bind, hdelete, hnames]
    rfl

/-- A start with no config file goes on with the vector that is there. -/
theorem initRun_missing {file : FoundFile} (hfile : file.content = none) (h : s.Pointing shared) :
    (shared = true → s.initRun p file = none) ∧
      (shared = false → ∃ names s', s.initRun p file = some (names, s') ∧ s'.Pointing true) := by
  obtain ⟨heap, hmodify, hkeep⟩ := Heap.exists_modify h.names (· ++ defaultConfig.names)
  have hpointing : Pointing { s with internalConfig := defaultConfig, heap } shared :=
    ⟨hkeep _ h.names, fun a ha => hkeep a (h.adapterNames a ha), h.same⟩
  constructor
  · rintro rfl
    simp only [initRun, hfile, hmodify, bind, Option.bind, reset_shared hpointing]
  · rintro rfl
    obtain ⟨names, s', hreset, hpointing'⟩ := reset_apart hpointing
    refine ⟨some names, s', ?_, hpointing'⟩
    simp only [initRun, hfile, hmodify, bind, Option.bind, hreset]
    rfl

/-- A start that finds a config file has a vector of its own. -/
theorem initRun_found {file : FoundFile} {bytes : List UInt8} (hfile : file.content = some bytes)
    (h : s.Pointing shared) :
    ∃ names s', s.initRun p file = some (names, s') ∧
      (file.Unreadable p → s'.Pointing false) ∧ (¬ file.Unreadable p → s'.Pointing true) := by
  have hthrown := (FoundFile.unreadable_iff (p := p) hfile s.internalConfig).symm
  generalize hr : s.internalConfig.read p file.memory { rest := bytes } = r at hthrown
  have hpointing : Pointing { s with
      internalConfig := r.config
      heap := (s.heap.new r.config.names).2
      names := s.heap.next } false := by
    refine ⟨Heap.live_new_self _ _, fun a ha => (h.adapterNames a ha).new _, ?_⟩
    refine iff_of_false (fun ha => ?_) Bool.false_ne_true
    exact Nat.lt_irrefl _ (h.adapterNames _ ha).lt
  cases hstop : r.thrown with
  | true =>
    refine ⟨none, _, ?_, fun _ => hpointing, fun hnot => absurd (hthrown.mp hstop) hnot⟩
    simp only [initRun, hfile, hr, hstop, if_true]
    rfl
  | false =>
    obtain ⟨names, s', hreset, hpointing'⟩ := reset_apart hpointing
    refine ⟨some names, s', ?_, fun hunreadable => ?_, fun _ => hpointing'⟩
    · simp only [initRun, hfile, hr, hstop, Bool.false_eq_true, if_false]
      rw [Heap.new_fst, hreset]
      rfl
    · rw [← hthrown, hstop] at hunreadable
      exact absurd hunreadable Bool.false_ne_true

/-! ## 3. Runs of starts -/

/-- From a start on that finds both pointers good. -/
theorem starts_isSome_iff {files : List FoundFile} (h : s.Pointing shared) :
    (starts p s files).isSome ↔
      (∀ file ∈ files.head?, file.content = none → shared = false) ∧
        files.IsChain fun before file => file.content = none → before.Unreadable p := by
  induction files generalizing s shared with
  | nil => exact iff_of_true rfl ⟨fun _ h => absurd h nofun, .nil⟩
  | cons file files ih =>
    rw [List.head?_cons, List.isChain_cons]
    -- one start that goes well, and those after it
    have hnext (names : Option (List (List UInt8))) (s' : NamesVectors)
        (hstart : s.initRun p file = some (names, s'))
        (hfalse : file.Unreadable p → s'.Pointing false)
        (htrue : ¬ file.Unreadable p → s'.Pointing true) :
        (starts p s (file :: files)).isSome ↔
          (∀ next ∈ files.head?, next.content = none → file.Unreadable p) ∧
            files.IsChain fun before file => file.content = none → before.Unreadable p := by
      have hrest : (starts p s (file :: files)).isSome = (starts p s' files).isSome := by
        simp only [starts, hstart, bind, Option.bind]
        cases starts p s' files <;> rfl
      rw [hrest]
      by_cases hunreadable : file.Unreadable p
      · rw [ih (hfalse hunreadable)]
        simp only [hunreadable, implies_true]
      · rw [ih (htrue hunreadable)]
        simp only [hunreadable, Bool.true_eq_false]
    cases hfile : file.content with
    | some bytes =>
      obtain ⟨names, s', hstart, hfalse, htrue⟩ := initRun_found (p := p) hfile h
      rw [hnext names s' hstart hfalse htrue]
      refine (and_iff_right fun g hg hmissing => ?_).symm
      obtain rfl := Option.some.inj hg
      rw [hfile] at hmissing
      cases hmissing
    | none =>
      have hreadable : ¬ file.Unreadable p := by
        rintro ⟨bytes, hbytes, -⟩
        rw [hfile] at hbytes
        cases hbytes
      obtain ⟨hbad, hgood⟩ := initRun_missing (p := p) hfile h
      cases shared with
      | true =>
        have hnone : starts p s (file :: files) = none := by
          simp only [starts, hbad rfl, bind, Option.bind]
        rw [hnone]
        refine iff_of_false Bool.false_ne_true fun hchain => ?_
        exact Bool.false_ne_true.symm (hchain.1 file rfl hfile)
      | false =>
        obtain ⟨names, s', hstart, htrue⟩ := hgood rfl
        rw [hnext names s' hstart (fun hun => absurd hun hreadable) fun _ => htrue]
        exact (and_iff_right fun _ _ _ => rfl).symm

end NamesVectors

/-- **Starts use a deleted vector exactly if one finds no config file right after one that got past
it.**  The vector that `names` points to has then been given to `adapterNames` already, and giving
it once more deletes it in front of its use.  A start that could not read its file, in between or
before, leaves a vector that nobody else has. -/
theorem starts_safe_iff (p : Platform) (internalConfig : AppConfig) (files : List FoundFile) :
    (NamesVectors.starts p (.ofConfig internalConfig) files).isSome ↔
      files.IsChain fun before file => file.content = none → before.Unreadable p := by
  rw [NamesVectors.starts_isSome_iff (NamesVectors.pointing_ofConfig internalConfig)]
  exact and_iff_right fun _ _ _ => rfl

/-! ## 4. The flag of the application -/

/-- **`namesShared` of the application says whether the two pointers are the same**, and a start
uses a deleted vector in both or in neither. -/
theorem NamesVectors.initRun_refines {p : Platform} {s : NamesVectors} {app : Application}
    {outcome : StartOutcome} {file : FoundFile}
    (hfile : outcome.configFile = file.outcome p s.internalConfig)
    (h : s.Pointing app.namesShared) :
    Option.Rel (fun r r' => r.2.Pointing r'.2.namesShared) (s.initRun p file)
      (app.initRun outcome) := by
  cases hcontent : file.content with
  | none =>
    rw [FoundFile.outcome, hcontent, Option.elim_none] at hfile
    obtain ⟨hbad, hgood⟩ := initRun_missing (p := p) hcontent h
    cases hshared : app.namesShared with
    | true =>
      rw [hbad hshared, Application.initRun_eq_none_iff.mpr ⟨hfile, hshared⟩]
      exact .none
    | false =>
      obtain ⟨names, s', hstart, hpointing⟩ := hgood hshared
      have hkept : ¬ app.LosesNames outcome :=
        fun hlost => Bool.false_ne_true (hshared.symm.trans hlost.2)
      obtain ⟨successful, app', hinit⟩ := Application.exists_initRun hkept
      rw [hstart, hinit]
      refine .some ?_
      rwa [Application.initRun_namesShared hinit, hfile]
  | some bytes =>
    obtain ⟨hne, hsome⟩ := FoundFile.outcome_found (p := p) hcontent s.internalConfig
    rw [← hfile] at hne hsome
    obtain ⟨names, s', hstart, hfalse, htrue⟩ := initRun_found (p := p) hcontent h
    obtain ⟨successful, app', hinit⟩ := Application.exists_initRun fun hlost => hne hlost.1
    rw [hstart, hinit]
    refine .some ?_
    rw [Application.initRun_namesShared hinit]
    cases hread : outcome.configFile.internalConfig?.isSome with
    | true =>
      refine htrue fun hun => ?_
      rw [hsome.mpr hun] at hread
      contradiction
    | false => exact hfalse (hsome.mp hread)

end NetShare
