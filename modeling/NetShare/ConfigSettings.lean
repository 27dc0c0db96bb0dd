import NetShare.ConfigPut
import NetShare.DamagedConfig

/-!
# What becomes of the settings

A config Put consults the document where its siblings consult `data`, and accepts every `int`; the
next `initRun` narrows the stored numbers to the fields of `Config`.
-/

namespace NetShare

open Reasoning ConfigurationWorker

/-! ## 1. Settings in `data` -/

/-- The form that the other Put requests have: nothing but a type, a resource and an object. -/
structure CommonPut (doc data : Json) : Prop where
  asks : doc.Asks "Put" "config"
  member : doc.member? "data" = some data
  isObject : data.isObject = true
  members : ∀ name, name ≠ "type" → name ≠ "on" → name ≠ "data" → doc.member? name = none

/-- The configuration with the settings of `data` in place of its own. -/
def AppConfig.withSettings (data : Json) (c : AppConfig) : AppConfig :=
  { c with
    serverIp := (data.stringMember? "serverIp").elim c.serverIp parseIpString
    serverPort := (data.intMember? "serverPort").getD c.serverPort
    adapterIp := (data.stringMember? "adapterIp").elim c.adapterIp parseIpString
    adapterSubnetBits := (data.intMember? "adapterSubnetBits").getD c.adapterSubnetBits }

/-- After the request, what is stored is the old configuration with the settings of `data`. -/
def SettingsApplied (env : Environment) (doc data : Json) (c : AppConfig) (w : World) : Prop :=
  ∃ w' bytes, handle env (some doc) w = (.ok (), w') ∧ w'.configFile = some bytes ∧
    ∀ (mem : Uninitialised) (old : AppConfig),
      (old.read env.platform mem { rest := bytes }).thrown = false ∧
        (old.read env.platform mem { rest := bytes }).config = c.withSettings data

/-- Every setting of `data` is stored already. -/
structure AlreadyStored (data : Json) (c : AppConfig) : Prop where
  serverIp : ∀ s, data.stringMember? "serverIp" = some s → parseIpString s = c.serverIp
  serverPort : ∀ i, data.intMember? "serverPort" = some i → i = c.serverPort
  adapterIp : ∀ s, data.stringMember? "adapterIp" = some s → parseIpString s = c.adapterIp
  adapterSubnetBits : ∀ i, data.intMember? "adapterSubnetBits" = some i → i = c.adapterSubnetBits

-- A value that may be given instead of `b` leaves `b` exactly if it is none other.
theorem elim_eq_iff {α β : Type} (o : Option α) (f : α → β) (b : β) :
    o.elim b f = b ↔ ∀ a, o = some a → f a = b := by
  cases o with
  | none => exact iff_of_true rfl fun a ha => absurd ha.symm (Option.some_ne_none a)
  | some a =>
    constructor
    · intro h a' ha
      rw [← Option.some.inj ha]
      exact h
    · intro h
      exact h a rfl

theorem getD_eq_iff {α : Type} (o : Option α) (b : α) :
    o.getD b = b ↔ ∀ a, o = some a → a = b := by
  have h := elim_eq_iff o id b
  cases o <;> exact h

theorem AppConfig.withSettings_eq_iff (data : Json) (c : AppConfig) :
    c.withSettings data = c ↔ AlreadyStored data c := by
  constructor
  · intro h
    constructor
    case serverIp => exact (elim_eq_iff _ _ _).mp (congrArg AppConfig.serverIp h)
    case serverPort => exact (getD_eq_iff _ _).mp (congrArg AppConfig.serverPort h)
    case adapterIp => exact (elim_eq_iff _ _ _).mp (congrArg AppConfig.adapterIp h)
    case adapterSubnetBits => exact (getD_eq_iff _ _).mp (congrArg AppConfig.adapterSubnetBits h)
  · intro h
    rw [withSettings, (elim_eq_iff _ _ _).mpr h.serverIp, (getD_eq_iff _ _).mpr h.serverPort,
      (elim_eq_iff _ _ _).mpr h.adapterIp, (getD_eq_iff _ _).mpr h.adapterSubnetBits]

-- The handler finds none of its settings.
theorem CommonPut.put_eq {doc data : Json} (h : CommonPut doc data) (p : Platform)
    (popBack : List Json → Json × List Json) (c : AppConfig) : c.put p popBack doc = some c := by
  have hstring (name : String) (hmember : doc.member? name = none) :
      doc.stringMember? name = none := by
    rw [Json.stringMember?, hmember, Option.bind_none]
  have hint (name : String) (hmember : doc.member? name = none) :
      doc.intMember? name = none := by
    rw [Json.intMember?, hmember, Option.bind_none]
  have harray : doc.arrayMember? "names" = none := by
    rw [Json.arrayMember?, h.members "names" (by decide) (by decide) (by decide), Option.bind_none]
  rw [AppConfig.put, newNames, harray,
    hstring "adapterIp" (h.members _ (by decide) (by decide) (by decide)),
    hint "adapterSubnetBits" (h.members _ (by decide) (by decide) (by decide)),
    hstring "serverIp" (h.members _ (by decide) (by decide) (by decide)),
    hint "serverPort" (h.members _ (by decide) (by decide) (by decide)),
    hstring "logLevel" (h.members _ (by decide) (by decide) (by decide))]
  rfl

-- So the file is written back as it was.
theorem CommonPut.handle_eq {doc data : Json} (h : CommonPut doc data) (env : Environment)
    {w : World} (c : StorableConfig env.platform)
    (hfile : w.configFile = some (c.config.write env.platform)) :
    handle env (some doc) w = (.ok (), w) := by
  rw [handle_configPut h.asks h.member h.isObject env c hfile, h.put_eq]
  show (_, { w with configFile := some (c.config.write env.platform) }) = (_, w)
  rw [← hfile]

/-- **A Put of the common form applies its settings exactly if they are stored already.** -/
theorem settingsApplied_iff (env : Environment) {doc data : Json} (h : CommonPut doc data)
    (c : StorableConfig env.platform) {w : World}
    (hfile : w.configFile = some (c.config.write env.platform)) :
    SettingsApplied env doc data c.config w ↔ AlreadyStored data c.config := by
  have hexec := h.handle_eq env c hfile
  rw [← AppConfig.withSettings_eq_iff]
  constructor
  · rintro ⟨w', bytes, hreturns, hbytes, happlied⟩
    rw [hexec] at hreturns
    obtain rfl : w = w' := (Prod.mk.inj hreturns).2
    obtain rfl := Option.some.inj (hfile.symm.trans hbytes)
    have hsettings := (happlied env.memory env.conf).2
    rw [(AppConfig.read_stored env.memory c env.conf).1] at hsettings
    exact hsettings.symm
  · intro hsettings
    refine ⟨w, _, hexec, hfile, ?_⟩
    intro mem old
    obtain ⟨hconfig, hthrown⟩ := AppConfig.read_stored mem c old
    rw [hsettings]
    exact ⟨hthrown, hconfig⟩

/-- `{type: 'Put', on: 'config', data: {...}}`. -/
def commonPut (settings : List (String × Json)) : Json :=
  .object [("type", .string "Put"), ("on", .string "config"), ("data", .object settings)]

theorem commonPut_common (settings : List (String × Json)) :
    CommonPut (commonPut settings) (.object settings) where
  asks := ⟨rfl, rfl⟩
  member := rfl
  isObject := rfl
  members name htype hon hdata := by
    rw [commonPut, Json.member?, List.lookup_cons, beq_false_of_ne htype, List.lookup_cons,
      beq_false_of_ne hon, List.lookup_cons, beq_false_of_ne hdata]
    rfl

theorem settingsApplied_iff_port :
    SettingsApplied (environmentOf goodStart) (commonPut [("serverPort", .int 4242)])
        (.object [("serverPort", .int 4242)]) defaultStored.config
        { configFile := some (defaultStored.config.write .x64) } ↔
      AlreadyStored (.object [("serverPort", .int 4242)]) defaultStored.config :=
  settingsApplied_iff (environmentOf goodStart) (commonPut_common _) defaultStored rfl

/-- The port in `data` is accepted, and the stored port stays 5555. -/
theorem port_notApplied :
    ¬ ∀ (env : Environment) (doc data : Json) (c : StorableConfig env.platform) (w : World),
      CommonPut doc data → w.configFile = some (c.config.write env.platform) →
      SettingsApplied env doc data c.config w := by
  intro hclaim
  let w : World := { configFile := some (defaultStored.config.write .x64) }
  have hcommon := commonPut_common [("serverPort", .int 4242)]
  obtain ⟨w', bytes, hreturns, hbytes, happlied⟩ :=
    hclaim (environmentOf goodStart) _ _ defaultStored w hcommon rfl
  rw [hcommon.handle_eq (environmentOf goodStart) defaultStored rfl] at hreturns
  obtain rfl : w = w' := (Prod.mk.inj hreturns).2
  obtain rfl : _ = bytes := Option.some.inj hbytes
  have hport := congrArg AppConfig.serverPort
    (happlied ⟨0, fun _ => 0, fun _ _ => 0⟩ defaultConfig).2
  have hkept := congrArg AppConfig.serverPort
    (AppConfig.read_stored ⟨0, fun _ => 0, fun _ _ => 0⟩ defaultStored defaultConfig).1
  exact absurd (hkept.symm.trans hport) (by decide)

/-! ## 2. Numbers on their way into `Config` -/

/-- An `int` keeps its value in a narrower unsigned field exactly if it is in the range of this. -/
theorem narrow_eq_iff (i : Int32) {w : Nat} (hw : w < 32) :
    ((i.toBitVec.toNat % 2 ^ w : Nat) : Int) = i.toInt ↔ 0 ≤ i.toInt ∧ i.toInt < (2 ^ w : Nat) := by
  have hpow : 2 ^ w ≤ 2 ^ 31 := Nat.pow_le_pow_right (by decide) (by omega)
  have hlt : i.toBitVec.toNat < 2 ^ 32 := i.toBitVec.isLt
  have htoInt : i.toInt = i.toBitVec.toInt := rfl
  rw [htoInt, BitVec.toInt_eq_toNat_cond]
  generalize i.toBitVec.toNat = n at hlt ⊢
  by_cases hsign : 2 * n < 2 ^ 32
  · rw [if_pos hsign, Int.natCast_inj, Nat.mod_eq_iff_lt (Nat.two_pow_pos w).ne']
    omega
  · rw [if_neg hsign]
    have hnonneg : (0 : Int) ≤ (n % 2 ^ w : Nat) := Int.natCast_nonneg _
    constructor
    · intro h
      omega
    · intro h
      omega

/-- The numbers of the `Config` that the driver goes on with are these integers. -/
def NumbersSurvive (v b : Int32) (app : Application) : Prop :=
  ∃ conf, app.conf = .live conf ∧ (conf.serverPort.toNat : Int) = v.toInt ∧
    (conf.winTunAdapterSubnetBits.toNat : Int) = b.toInt

/-- The numbers of the configuration, cut to the width of the fields. -/
structure Config.HasNumbersOf (conf : Config) (c : AppConfig) : Prop where
  serverPort : conf.serverPort = .ofNat c.serverPort.toBitVec.toNat
  winTunAdapterSubnetBits :
    conf.winTunAdapterSubnetBits = .ofNat c.adapterSubnetBits.toBitVec.toNat

/-- A start that can succeed does, and goes on with what it read. -/
theorem Application.initRun_conf {outcome : StartOutcome} {c : AppConfig}
    (hfile : outcome.configFile = .read c) (hsucceeds : outcome.succeeds = true)
    (app : Application) :
    ∃ app' conf, app.initRun outcome = some (true, app') ∧ app'.conf = .live conf ∧
      conf.HasNumbersOf c := by
  simp only [StartOutcome.succeeds, StartOutcome.leavesFlags, hfile,
    ConfigFileOutcome.internalConfig?, Option.isNone_some, Bool.false_or, Bool.and_eq_true,
    Bool.not_eq_true', beq_eq_false_iff_ne, ne_eq] at hsucceeds
  obtain ⟨⟨⟨hactivated, hwintun⟩, hadapter⟩, hsession⟩ := hsucceeds
  simp only [initRun, hfile, initRunWith, hactivated, hwintun, hadapter, hsession, if_false,
    Bool.not_true, Bool.false_eq_true]
  exact ⟨_, _, rfl, rfl, rfl, rfl⟩

/-- What a Put stores reaches the `Config` of the next start that succeeds, narrowed. -/
theorem initRun_of_configPut (env : Environment) {doc data : Json}
    (hasks : doc.Asks "Put" "config") (hdata : doc.member? "data" = some data)
    (hobj : data.isObject = true) (c : StorableConfig env.platform) {w w' : World}
    (hfile : w.configFile = some (c.config.write env.platform))
    (hreturns : handle env (some doc) w = (.ok (), w')) {outcome : StartOutcome}
    {bytes : List UInt8} (hbytes : w'.configFile = some bytes) {mem : Uninitialised}
    {old : AppConfig} (hread : outcome.configFile = .ofFile env.platform mem old bytes)
    (hsucceeds : outcome.succeeds = true) (app : Application) :
    ∃ c', c.config.put env.platform env.popBack doc = some c' ∧
      ∃ app' conf, app.initRun outcome = some (true, app') ∧ app'.conf = .live conf ∧
        conf.HasNumbersOf c' := by
  obtain ⟨c', bytes', hput, hbytes', hback⟩ :=
    read_of_configPut hasks hdata hobj env c hfile hreturns
  obtain rfl := Option.some.inj (hbytes.symm.trans hbytes')
  obtain ⟨hthrown, hconfig⟩ := hback mem old
  refine ⟨c', hput, Application.initRun_conf ?_ hsucceeds app⟩
  rw [hread, ConfigFileOutcome.ofFile, hthrown, hconfig]
  rfl

/-- **The numbers survive into the running driver exactly if they are in range**; nothing on the way
refuses another. -/
theorem numbers_survive_iff (env : Environment) {doc data : Json}
    (hasks : doc.Asks "Put" "config") (hdata : doc.member? "data" = some data)
    (hobj : data.isObject = true) (c : StorableConfig env.platform) {w w' : World}
    (hfile : w.configFile = some (c.config.write env.platform))
    (hreturns : handle env (some doc) w = (.ok (), w')) {v b : Int32}
    (hv : doc.intMember? "serverPort" = some v) (hb : doc.intMember? "adapterSubnetBits" = some b)
    {outcome : StartOutcome} {bytes : List UInt8} (hbytes : w'.configFile = some bytes)
    {mem : Uninitialised} {old : AppConfig}
    (hread : outcome.configFile = .ofFile env.platform mem old bytes)
    (hsucceeds : outcome.succeeds = true) (app : Application) :
    ∃ app', app.initRun outcome = some (true, app') ∧ (NumbersSurvive v b app' ↔
      (0 ≤ v.toInt ∧ v.toInt < 2 ^ 16) ∧ 0 ≤ b.toInt ∧ b.toInt < 2 ^ 8) := by
  obtain ⟨c', hput, app', conf, hinit, hconf, hnumbers⟩ :=
    initRun_of_configPut env hasks hdata hobj c hfile hreturns hbytes hread hsucceeds app
  have hchanged := AppConfig.put_changedAsNamed hput
  have hport : c'.serverPort = v := by rw [hchanged.serverPort, hv, Option.getD_some]
  have hbits : c'.adapterSubnetBits = b := by rw [hchanged.adapterSubnetBits, hb, Option.getD_some]
  have hnarrowPort : (conf.serverPort.toNat : Int) = v.toInt ↔
      0 ≤ v.toInt ∧ v.toInt < 2 ^ 16 := by
    rw [hnumbers.serverPort, hport, UInt16.toNat_ofNat']
    exact narrow_eq_iff v (by decide)
  have hnarrowBits : (conf.winTunAdapterSubnetBits.toNat : Int) = b.toInt ↔
      0 ≤ b.toInt ∧ b.toInt < 2 ^ 8 := by
    rw [hnumbers.winTunAdapterSubnetBits, hbits, UInt8.toNat_ofNat']
    exact narrow_eq_iff b (by decide)
  refine ⟨app', hinit, ?_⟩
  rw [← hnarrowPort, ← hnarrowBits]
  constructor
  · rintro ⟨conf, hlive, hsame⟩
    rw [hconf] at hlive
    rw [Pointer.live.inj hlive]
    exact hsame
  · intro hsame
    exact ⟨_, hconf, hsame⟩

/-- A Put of a port and subnet bits. -/
def numbersPut (v b : Int32) : Json :=
  .object [("type", .string "Put"), ("on", .string "config"), ("data", .object []),
    ("serverPort", .int v), ("adapterSubnetBits", .int b)]

/-- What it makes of the default configuration. -/
def numbersStored (v b : Int32) : StorableConfig .x64 where
  config := { defaultStored.config with serverPort := v, adapterSubnetBits := b }
  names_fit := defaultStored.names_fit
  name_fits := defaultStored.name_fits
  nul_free := defaultStored.nul_free

theorem handle_numbersPut (v b : Int32) :
    handle (environmentOf goodStart) (some (numbersPut v b))
        { configFile := some (defaultStored.config.write .x64) } =
      (.ok (), { configFile := some ((numbersStored v b).config.write .x64) }) :=
  handle_configPut ⟨rfl, rfl⟩ rfl rfl (environmentOf goodStart) defaultStored rfl

/-- A start that reads what was stored and in which everything works. -/
def startAfter (v b : Int32) : StartOutcome :=
  { goodStart with
    configFile := .ofFile .x64 zeroMemory oneName ((numbersStored v b).config.write .x64) }

theorem startAfter_succeeds (v b : Int32) : (startAfter v b).succeeds = true := by
  obtain ⟨hconfig, hthrown⟩ := AppConfig.read_stored zeroMemory (numbersStored v b) oneName
  rw [startAfter, ConfigFileOutcome.ofFile, hthrown, hconfig]
  rfl

theorem numbers_survive_iff_inRange :
    ∃ app', Application.initRun (startAfter 4242 24) {} = some (true, app') ∧
      (NumbersSurvive 4242 24 app' ↔
        (0 ≤ (4242 : Int32).toInt ∧ (4242 : Int32).toInt < 2 ^ 16) ∧
          0 ≤ (24 : Int32).toInt ∧ (24 : Int32).toInt < 2 ^ 8) :=
  have hasks : (numbersPut 4242 24).Asks "Put" "config" := ⟨rfl, rfl⟩
  have hdata : (numbersPut 4242 24).member? "data" = some (.object []) := rfl
  have hread : (startAfter 4242 24).configFile = .ofFile .x64 zeroMemory oneName
      ((numbersStored 4242 24).config.write .x64) := rfl
  numbers_survive_iff (environmentOf goodStart) hasks hdata rfl defaultStored rfl
    (handle_numbersPut 4242 24) rfl rfl rfl hread (startAfter_succeeds 4242 24) {}

/-- Port 70000 is accepted, and the driver sends to port 4464. -/
theorem port_wraps :
    (handle (environmentOf goodStart) (some (numbersPut 70000 24))
        { configFile := some (defaultStored.config.write .x64) }).1 = .ok () ∧
      (startAfter 70000 24).succeeds = true ∧
      ∃ app', Application.initRun (startAfter 70000 24) {} = some (true, app') ∧
        ¬ NumbersSurvive 70000 24 app' := by
  have hasks : (numbersPut 70000 24).Asks "Put" "config" := ⟨rfl, rfl⟩
  have hdata : (numbersPut 70000 24).member? "data" = some (.object []) := rfl
  have hread : (startAfter 70000 24).configFile = .ofFile .x64 zeroMemory oneName
      ((numbersStored 70000 24).config.write .x64) := rfl
  obtain ⟨c', hput, app', conf, hinit, hconf, hnumbers⟩ :=
    initRun_of_configPut (environmentOf goodStart) hasks hdata rfl defaultStored rfl
      (handle_numbersPut 70000 24) rfl hread (startAfter_succeeds 70000 24) {}
  refine ⟨congrArg Prod.fst (handle_numbersPut 70000 24), startAfter_succeeds 70000 24, app', hinit,
    ?_⟩
  have hport : c'.serverPort = 70000 := (AppConfig.put_changedAsNamed hput).serverPort
  have hnarrowed : conf.serverPort = 4464 := by
    rw [hnumbers.serverPort, hport]
    rfl
  rintro ⟨conf', hlive, hsame, -⟩
  rw [hconf] at hlive
  rw [← Pointer.live.inj hlive, hnarrowed] at hsame
  exact absurd hsame (by decide)

end NetShare
