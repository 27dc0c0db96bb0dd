import NetShare.ConfigurationWorker

/-!
# What a config Put stores

`parseConfigPutMessage` reads the stored configuration, overlays the settings that the document has
with the right type, and writes the result back.  Each field depends on the member of its own name
and on nothing else, and the names of the array go behind those stored before.
-/

namespace NetShare

open Reasoning ConfigurationWorker

/-! ## 1. The settings of a document -/

namespace Json

def int? : Json → Option Int32
  | .int i => some i
  | _ => none

def array? : Json → Option (List Json)
  | .array elements => some elements
  | _ => none

/-- The `int` member of this name. -/
def intMember? (v : Json) (name : String) : Option Int32 := (v.member? name).bind int?

/-- The array member of this name. -/
def arrayMember? (v : Json) (name : String) : Option (List Json) := (v.member? name).bind array?

end Json

/-- The names that a config Put pushes. -/
def newNames (popBack : List Json → Json × List Json) (doc : Json) : List (List UInt8) :=
  (doc.arrayMember? "names").elim [] fun names => popNames popBack names.length 0 names

/-- The configuration that a config Put makes of the stored one; `none` if its names do not fit. -/
def AppConfig.put (p : Platform) (popBack : List Json → Json × List Json) (doc : Json)
    (c : AppConfig) : Option AppConfig :=
  (pushNames p c.names (newNames popBack doc)).map fun names =>
    { adapterIp := (doc.stringMember? "adapterIp").elim c.adapterIp parseIpString
      adapterSubnetBits := (doc.intMember? "adapterSubnetBits").getD c.adapterSubnetBits
      serverIp := (doc.stringMember? "serverIp").elim c.serverIp parseIpString
      serverPort := (doc.intMember? "serverPort").getD c.serverPort
      logLevel := (doc.stringMember? "logLevel").elim c.logLevel getLogLevelFromString
      names }

/-! ## 2. Running the handler -/

/-- A setting is looked up without a halt and without a line. -/
theorem exec_setting {β : Type} {doc : Json} (hdoc : doc.isObject = true) (name : String)
    {isOfType : Json → Bool} {read : Json → Handler β} {value? : Json → Option β}
    (store : β → AppConfig) (conf : AppConfig) (w : World)
    (hvalue : ∀ v, match value? v with
      | some b => isOfType v = true ∧ (read v).exec w = (.ok b, w)
      | none => isOfType v = false) :
    (setting doc name isOfType read store conf).exec w =
      (.ok (((doc.member? name).bind value?).elim conf store), w) := by
  unfold setting
  cases hv : doc.member? name with
  | none =>
    simp only [HaltingM.exec_bind, exec_hasMember hdoc, hv, Option.isSome_none, Bool.false_eq_true,
      if_false, HaltingM.exec_pure, Option.bind_none, Option.elim_none]
  | some v =>
    have hread := hvalue v
    cases hb : value? v with
    | none =>
      rw [hb] at hread
      simp only [HaltingM.exec_bind, exec_hasMember hdoc, hv, Option.isSome_some, if_true,
        exec_member hv, hread, Bool.false_eq_true, if_false, HaltingM.exec_pure, Option.bind_some,
        hb, Option.elim_none]
    | some b =>
      rw [hb] at hread
      simp only [HaltingM.exec_bind, exec_hasMember hdoc, hv, Option.isSome_some, if_true,
        exec_member hv, hread.1, hread.2, HaltingM.exec_pure, Option.bind_some, hb,
        Option.elim_some]

-- The two kinds of values with the accessor that their check allows.
theorem exec_stringSetting {doc : Json} (hdoc : doc.isObject = true) (name : String)
    (store : String → AppConfig) (conf : AppConfig) (w : World) :
    (setting doc name Json.isString getString store conf).exec w =
      (.ok ((doc.stringMember? name).elim conf store), w) := by
  apply exec_setting hdoc name store conf w
  intro v
  cases v <;> first | rfl | exact ⟨rfl, rfl⟩

theorem exec_intSetting {doc : Json} (hdoc : doc.isObject = true) (name : String)
    (store : Int32 → AppConfig) (conf : AppConfig) (w : World) :
    (setting doc name Json.isInt getInt store conf).exec w =
      (.ok ((doc.intMember? name).elim conf store), w) := by
  apply exec_setting hdoc name store conf w
  intro v
  cases v <;> first | rfl | exact ⟨rfl, rfl⟩

/-- The last setting pushes the names, or throws if they do not fit. -/
theorem exec_namesSetting {doc : Json} (hdoc : doc.isObject = true) (p : Platform)
    (popBack : List Json → Json × List Json) (conf : AppConfig) (w : World) :
    (setting doc "names" Json.isArray (getNames p popBack conf.names)
      (fun names => { conf with names }) conf).exec w =
      (match pushNames p conf.names (newNames popBack doc) with
        | some names => .ok { conf with names }
        | none => .error .exception, w) := by
  unfold setting newNames Json.arrayMember?
  cases hv : doc.member? "names" with
  | none =>
    simp only [HaltingM.exec_bind, exec_hasMember hdoc, hv, Option.isSome_none, Bool.false_eq_true,
      if_false, HaltingM.exec_pure, Option.bind_none, Option.elim_none, pushNames]
  | some v =>
    cases harray : v.array? with
    | none =>
      have htype : v.isArray = false := by
        cases v <;> first | rfl | contradiction
      simp only [HaltingM.exec_bind, exec_hasMember hdoc, hv, Option.isSome_some, if_true,
        exec_member hv, htype, Bool.false_eq_true, if_false, HaltingM.exec_pure, Option.bind_some,
        harray, Option.elim_none, pushNames]
    | some array =>
      have htype : v.isArray = true ∧ (getArray v).exec w = (.ok array, w) := by
        cases v <;> first | contradiction | (rw [← Option.some.inj harray]; exact ⟨rfl, rfl⟩)
      simp only [HaltingM.exec_bind, exec_hasMember hdoc, hv, Option.isSome_some, if_true,
        exec_member hv, htype.1, getNames, htype.2, Option.bind_some, harray, Option.elim_some]
      cases pushNames p conf.names (popNames popBack array.length 0 array) with
      | none => rfl
      | some names => rfl

/-- **The handler overlays the settings one by one**, which is the same as all at once. -/
theorem exec_mergeConfig {doc : Json} (hdoc : doc.isObject = true) (p : Platform)
    (popBack : List Json → Json × List Json) (conf : AppConfig) (w : World) :
    (mergeConfig p popBack doc conf).exec w =
      (match conf.put p popBack doc with
        | some conf => .ok conf
        | none => .error .exception, w) := by
  have hlogLevel (c : AppConfig) : (doc.stringMember? "logLevel").elim c
      (fun s => { c with logLevel := getLogLevelFromString s }) =
        { c with logLevel := (doc.stringMember? "logLevel").elim c.logLevel
                  getLogLevelFromString } := by
    cases doc.stringMember? "logLevel" <;> rfl
  have hserverIp (c : AppConfig) : (doc.stringMember? "serverIp").elim c
      (fun s => { c with serverIp := parseIpString s }) =
        { c with serverIp := (doc.stringMember? "serverIp").elim c.serverIp parseIpString } := by
    cases doc.stringMember? "serverIp" <;> rfl
  have hserverPort (c : AppConfig) : (doc.intMember? "serverPort").elim c
      (fun i => { c with serverPort := i }) =
        { c with serverPort := (doc.intMember? "serverPort").getD c.serverPort } := by
    cases doc.intMember? "serverPort" <;> rfl
  have hadapterIp (c : AppConfig) : (doc.stringMember? "adapterIp").elim c
      (fun s => { c with adapterIp := parseIpString s }) =
        { c with adapterIp := (doc.stringMember? "adapterIp").elim c.adapterIp parseIpString } := by
    cases doc.stringMember? "adapterIp" <;> rfl
  have hadapterSubnetBits (c : AppConfig) : (doc.intMember? "adapterSubnetBits").elim c
      (fun i => { c with adapterSubnetBits := i }) =
        { c with adapterSubnetBits :=
                  (doc.intMember? "adapterSubnetBits").getD c.adapterSubnetBits } := by
    cases doc.intMember? "adapterSubnetBits" <;> rfl
  unfold mergeConfig
  rw [HaltingM.exec_bind_of_ok (exec_stringSetting hdoc "logLevel" _ _ w), hlogLevel,
    HaltingM.exec_bind_of_ok (exec_stringSetting hdoc "serverIp" _ _ w), hserverIp,
    HaltingM.exec_bind_of_ok (exec_intSetting hdoc "serverPort" _ _ w), hserverPort,
    HaltingM.exec_bind_of_ok (exec_stringSetting hdoc "adapterIp" _ _ w), hadapterIp,
    HaltingM.exec_bind_of_ok (exec_intSetting hdoc "adapterSubnetBits" _ _ w), hadapterSubnetBits,
    exec_namesSetting hdoc, AppConfig.put]
  cases pushNames p conf.names (newNames popBack doc) <;> rfl

/-- The object that a config Put reads the stored configuration into. -/
def Environment.conf (env : Environment) : AppConfig where
  adapterSubnetBits := env.adapterSubnetBits
  serverPort := env.serverPort
  logLevel := env.logLevel

/-- What the handler does after its checks. -/
theorem exec_configPut {doc data : Json} (hdata : doc.member? "data" = some data)
    (hobj : data.isObject = true) (env : Environment) (w : World) :
    (parseConfigPutMessage env doc).exec w =
      let r := env.conf.read env.platform env.memory (inFile w.configFile)
      if r.thrown then (.error .exception, w)
      else match r.config.put env.platform env.popBack doc with
        | some conf => (.ok (), { w with configFile := some (conf.write env.platform) })
        | none => (.error .exception, w) := by
  have hdoc := Json.isObject_of_member? hdata
  rw [parseConfigPutMessage, withData_of_object hdata hobj, HaltingM.exec_bind, HaltingM.exec_get]
  show HaltingM.exec (if (env.conf.read env.platform env.memory (inFile w.configFile)).thrown = true
    then _ else _) w = _
  dsimp only
  split
  · rfl
  · have hmerge := exec_mergeConfig hdoc env.platform env.popBack
      (env.conf.read env.platform env.memory (inFile w.configFile)).config w
    cases hput : (env.conf.read env.platform env.memory (inFile w.configFile)).config.put
      env.platform env.popBack doc with
    | none =>
      rw [hput] at hmerge
      exact HaltingM.exec_bind_of_error hmerge _
    | some conf =>
      rw [hput] at hmerge
      exact HaltingM.exec_bind_of_ok hmerge _

/-- On a stored configuration it is the overlay of this one that is written back. -/
theorem handle_configPut {doc data : Json} (hasks : doc.Asks "Put" "config")
    (hdata : doc.member? "data" = some data) (hobj : data.isObject = true) (env : Environment)
    {w : World} (c : StorableConfig env.platform)
    (hfile : w.configFile = some (c.config.write env.platform)) :
    handle env (some doc) w =
      match c.config.put env.platform env.popBack doc with
        | some conf => (.ok (), { w with configFile := some (conf.write env.platform) })
        | none => (.error .exception, w) := by
  obtain ⟨hconfig, hthrown⟩ := AppConfig.read_stored env.memory c env.conf
  rw [handle_put_on hasks, if_neg (by decide), if_neg (by decide), if_neg (by decide), if_pos rfl,
    exec_configPut hdata hobj, hfile, inFile]
  simp only [hthrown, Bool.false_eq_true, if_false, hconfig]

/-! ## 3. What it makes can be stored -/

/-- The names pushed stand behind the others, and they fit. -/
theorem pushNames_eq_some {p : Platform} {names new all : List (List UInt8)}
    (h : pushNames p names new = some all) :
    all = names ++ new ∧ (∀ s ∈ new, s.length + 1 ≤ p.maxAlloc) ∧
      (names.length ≤ p.maxNames → all.length ≤ p.maxNames) := by
  induction new generalizing names with
  | nil =>
    rw [pushNames, Option.some.injEq] at h
    subst h
    exact ⟨(List.append_nil names).symm, fun s hs => absurd hs List.not_mem_nil, id⟩
  | cons s ss ih =>
    rw [pushNames] at h
    split at h
    next hfits =>
      obtain ⟨hall, hmem, hlen⟩ := ih h
      refine ⟨by rw [hall, List.append_assoc, List.singleton_append], ?_, fun _ => hlen ?_⟩
      · intro t ht
        rcases List.mem_cons.mp ht with rfl | ht
        · exact hfits.2
        · exact hmem t ht
      · rw [List.length_append, List.length_singleton]
        exact hfits.1
    next => contradiction

-- A byte of an encoded character is 0 only if the character is.
theorem zero_not_mem_utf8EncodeChar {c : Char} (hc : c ≠ Char.ofNat 0) :
    (0 : UInt8) ∉ String.utf8EncodeChar c := by
  have hpos : c.val.toNat ≠ 0 := by
    intro h0
    exact hc (Char.ext (UInt32.toNat_inj.mp h0))
  have hlow : ∀ n : Nat, n % 256 ≠ 0 → (0 : UInt8) ≠ UInt8.ofNat n := by
    intro n hn h0
    exact hn (by rw [← UInt8.toNat_ofNat' (n := n), ← h0]; rfl)
  unfold String.utf8EncodeChar
  dsimp only
  split
  · rw [List.mem_singleton]
    exact hlow _ (by omega)
  · split
    · simp only [List.mem_cons, List.not_mem_nil, or_false, not_or]
      exact ⟨hlow _ (by omega), hlow _ (by omega)⟩
    · split
      · simp only [List.mem_cons, List.not_mem_nil, or_false, not_or]
        exact ⟨hlow _ (by omega), hlow _ (by omega), hlow _ (by omega)⟩
      · simp only [List.mem_cons, List.not_mem_nil, or_false, not_or]
        exact ⟨hlow _ (by omega), hlow _ (by omega), hlow _ (by omega), hlow _ (by omega)⟩

/-- A C string has no NUL in it, and neither have its bytes. -/
theorem nul_free_bytesOf_cString (s : String) : (0 : UInt8) ∉ bytesOf (cString s) := by
  intro h0
  rw [bytesOf, List.mem_flatMap] at h0
  obtain ⟨c, hc, h0⟩ := h0
  rw [cString, String.toList_ofList] at hc
  have hne := List.mem_takeWhile_imp hc
  exact zero_not_mem_utf8EncodeChar (by simpa using hne) h0

-- What is pushed comes from `GetString`.
theorem nul_free_popNames {popBack : List Json → Json × List Json} {rounds i : Nat}
    {names : List Json} {s : List UInt8} (hs : s ∈ popNames popBack rounds i names) :
    (0 : UInt8) ∉ s := by
  induction rounds generalizing i names with
  | zero => exact absurd hs List.not_mem_nil
  | succ rounds ih =>
    rw [popNames] at hs
    split at hs
    · rcases List.mem_append.mp hs with hs | hs
      · rw [Option.mem_toList, Option.map_eq_some_iff] at hs
        obtain ⟨t, ht, rfl⟩ := hs
        cases hv : (popBack names).1 with
        | string u =>
          rw [hv, Json.string?, Option.some.injEq] at ht
          rw [← ht]
          exact nul_free_bytesOf_cString u
        | _ =>
          rw [hv] at ht
          contradiction
      · exact ih hs
    · exact absurd hs List.not_mem_nil

theorem nul_free_newNames {popBack : List Json → Json × List Json} {doc : Json} {s : List UInt8}
    (hs : s ∈ newNames popBack doc) : (0 : UInt8) ∉ s := by
  unfold newNames at hs
  cases h : doc.arrayMember? "names" with
  | none =>
    rw [h] at hs
    exact absurd hs List.not_mem_nil
  | some names =>
    rw [h] at hs
    exact nul_free_popNames hs

/-- The names of the configuration that a Put makes: the stored ones, and the new ones behind. -/
theorem AppConfig.put_names {p : Platform} {popBack : List Json → Json × List Json} {doc : Json}
    {c c' : AppConfig} (h : c.put p popBack doc = some c') :
    pushNames p c.names (newNames popBack doc) = some c'.names := by
  obtain ⟨names, hnames, rfl⟩ := Option.map_eq_some_iff.mp h
  exact hnames

/-- A Put makes a configuration that can be stored out of one that can. -/
def StorableConfig.ofPut {p : Platform} (c : StorableConfig p)
    {popBack : List Json → Json × List Json} {doc : Json} {c' : AppConfig}
    (h : c.config.put p popBack doc = some c') : StorableConfig p where
  config := c'
  names_fit := (pushNames_eq_some (AppConfig.put_names h)).2.2 c.names_fit
  name_fits := by
    obtain ⟨hall, hfits, -⟩ := pushNames_eq_some (AppConfig.put_names h)
    intro s hs
    rw [hall, List.mem_append] at hs
    exact hs.elim (c.name_fits s) (hfits s)
  nul_free := by
    obtain ⟨hall, -, -⟩ := pushNames_eq_some (AppConfig.put_names h)
    intro s hs
    rw [hall, List.mem_append] at hs
    exact hs.elim (c.nul_free s) nul_free_newNames

/-- The configuration that a Put leaves is read back as it was made. -/
theorem read_of_configPut {doc data : Json} (hasks : doc.Asks "Put" "config")
    (hdata : doc.member? "data" = some data) (hobj : data.isObject = true) (env : Environment)
    (c₀ : StorableConfig env.platform) {w w' : World}
    (hfile : w.configFile = some (c₀.config.write env.platform))
    (hreturns : handle env (some doc) w = (.ok (), w')) :
    ∃ c₁ bytes, c₀.config.put env.platform env.popBack doc = some c₁ ∧
      w'.configFile = some bytes ∧ ∀ (mem : Uninitialised) (old : AppConfig),
        (old.read env.platform mem { rest := bytes }).thrown = false ∧
          (old.read env.platform mem { rest := bytes }).config = c₁ := by
  rw [handle_configPut hasks hdata hobj env c₀ hfile] at hreturns
  cases hput : c₀.config.put env.platform env.popBack doc with
  | none =>
    rw [hput] at hreturns
    cases hreturns
  | some c₁ =>
    rw [hput] at hreturns
    obtain rfl := (Prod.mk.inj hreturns).2
    refine ⟨c₁, _, rfl, rfl, fun mem old => ?_⟩
    obtain ⟨hconfig, hthrown⟩ := AppConfig.read_stored mem (c₀.ofPut hput) old
    exact ⟨hthrown, hconfig⟩

/-! ## 4. A Put changes what it names -/

/-- What the configuration `c₁` after a Put owes to the one before: a field whose member is absent
or ill-typed is kept, any other is the value given, and the names are kept in front. -/
structure ChangedAsNamed (popBack : List Json → Json × List Json) (doc : Json)
    (c₀ c₁ : AppConfig) : Prop where
  adapterIp : c₁.adapterIp = (doc.stringMember? "adapterIp").elim c₀.adapterIp parseIpString
  adapterSubnetBits :
    c₁.adapterSubnetBits = (doc.intMember? "adapterSubnetBits").getD c₀.adapterSubnetBits
  serverIp : c₁.serverIp = (doc.stringMember? "serverIp").elim c₀.serverIp parseIpString
  serverPort : c₁.serverPort = (doc.intMember? "serverPort").getD c₀.serverPort
  logLevel : c₁.logLevel = (doc.stringMember? "logLevel").elim c₀.logLevel getLogLevelFromString
  names_prefix : c₀.names <+: c₁.names
  names : c₁.names = c₀.names ++ newNames popBack doc

theorem AppConfig.put_changedAsNamed {p : Platform} {popBack : List Json → Json × List Json}
    {doc : Json} {c₀ c₁ : AppConfig} (h : c₀.put p popBack doc = some c₁) :
    ChangedAsNamed popBack doc c₀ c₁ := by
  obtain ⟨names, hnames, rfl⟩ := Option.map_eq_some_iff.mp h
  obtain ⟨hall, -, -⟩ := pushNames_eq_some hnames
  exact ⟨rfl, rfl, rfl, rfl, rfl, ⟨_, hall.symm⟩, hall⟩

/-- **A config Put changes only what it names.** -/
theorem configPut_changedAsNamed (env : Environment) {doc data : Json}
    (hasks : doc.Asks "Put" "config") (hdata : doc.member? "data" = some data)
    (hobj : data.isObject = true) (c₀ : StorableConfig env.platform) {w w' : World}
    (hfile : w.configFile = some (c₀.config.write env.platform))
    (hreturns : handle env (some doc) w = (.ok (), w')) :
    ∃ bytes, w'.configFile = some bytes ∧ ∀ (mem : Uninitialised) (old : AppConfig),
      (old.read env.platform mem { rest := bytes }).thrown = false ∧
        ChangedAsNamed env.popBack doc c₀.config
          (old.read env.platform mem { rest := bytes }).config := by
  obtain ⟨c₁, bytes, hput, hbytes, hread⟩ :=
    read_of_configPut hasks hdata hobj env c₀ hfile hreturns
  refine ⟨bytes, hbytes, fun mem old => ?_⟩
  obtain ⟨hthrown, hconfig⟩ := hread mem old
  rw [hconfig]
  exact ⟨hthrown, AppConfig.put_changedAsNamed hput⟩

/-- The default configuration without its adapter. -/
def defaultStored : StorableConfig .x64 where
  config := { defaultConfig with names := [] }
  names_fit := Nat.zero_le _
  name_fits _ hs := absurd hs List.not_mem_nil
  nul_free _ hs := absurd hs List.not_mem_nil

/-- A Put with a port, an address that is no string and these names. -/
def examplePut (names : List Json) : Json :=
  .object [("type", .string "Put"), ("on", .string "config"), ("data", .object []),
    ("serverPort", .int 4242), ("serverIp", .null), ("names", .array names)]

theorem configPut_changedAsNamed_oneName :
    let env := environmentOf goodStart
    let w : World := { configFile := some (defaultStored.config.write .x64) }
    let w' := (handle env (some (examplePut [.string "a"])) w).2
    ∃ bytes, w'.configFile = some bytes ∧ ∀ (mem : Uninitialised) (old : AppConfig),
      (old.read .x64 mem { rest := bytes }).thrown = false ∧
        ChangedAsNamed env.popBack (examplePut [.string "a"]) defaultStored.config
          (old.read .x64 mem { rest := bytes }).config :=
  configPut_changedAsNamed (environmentOf goodStart) ⟨rfl, rfl⟩ rfl rfl defaultStored
    (w := { configFile := some (defaultStored.config.write .x64) }) rfl rfl

/-! ## 5. Which names are stored -/

/-- The strings among the elements of an array, as they would be stored. -/
def stringElements (elements : List Json) : List (List UInt8) :=
  elements.filterMap fun v => v.string?.map bytesOf

/-- What `PopBack` yields and leaves comes from the array. -/
structure PopsElements (popBack : List Json → Json × List Json) : Prop where
  value : ∀ names, names ≠ [] → (popBack names).1.isString = true → (popBack names).1 ∈ names
  rest : ∀ names, (popBack names).2 ⊆ names

/-- After the request the string elements stand behind the names stored before, in some order. -/
def NamesStored (p : Platform) (c₀ : AppConfig) (elements : List Json) (w' : World) : Prop :=
  ∃ bytes, w'.configFile = some bytes ∧ ∀ (mem : Uninitialised) (old : AppConfig),
    ∃ new, (old.read p mem { rest := bytes }).config.names = c₀.names ++ new ∧
      new.Perm (stringElements elements)

/-- In every round the index rises and the array shrinks: they meet half way. -/
theorem popNames_length_le {popBack : List Json → Json × List Json}
    (hshorter : ∀ names, names ≠ [] → (popBack names).2.length < names.length) (rounds : Nat)
    {i : Nat} {names : List Json} :
    2 * (popNames popBack rounds i names).length ≤ names.length - i + 1 := by
  induction rounds generalizing i names with
  | zero => exact Nat.zero_le _
  | succ rounds ih =>
    rw [popNames]
    split
    next hi =>
      have hne : names ≠ [] := by
        intro hnil
        rw [hnil] at hi
        exact Nat.not_lt_zero i hi
      have hrest := hshorter names hne
      have hlater : 2 * (popNames popBack rounds (i + 1) (popBack names).2).length ≤
          (popBack names).2.length - (i + 1) + 1 := ih
      have hone : ((popBack names).1.string?.map bytesOf).toList.length ≤ 1 := by
        cases (popBack names).1.string? <;> simp
      show 2 * (_ ++ popNames popBack rounds (i + 1) (popBack names).2).length ≤ _
      rw [List.length_append]
      omega
    next => exact Nat.zero_le _

-- An array without strings gives no names.
theorem popNames_eq_nil {popBack : List Json → Json × List Json} (hpop : PopsElements popBack)
    (rounds i : Nat) {names : List Json} (hnames : ∀ v ∈ names, v.isString = false) :
    popNames popBack rounds i names = [] := by
  induction rounds generalizing i names with
  | zero => rfl
  | succ rounds ih =>
    rw [popNames]
    split
    next hi =>
      have hne : names ≠ [] := by
        intro hnil
        rw [hnil] at hi
        exact Nat.not_lt_zero i hi
      have hvalue : (popBack names).1.string? = none := by
        rw [Json.string?_eq_none_iff]
        cases hs : (popBack names).1.isString with
        | false => rfl
        | true => exact (hnames _ (hpop.value names hne hs)).symm.trans hs ▸ rfl
      have hlater := ih (i + 1) fun v hv => hnames v (hpop.rest names hv)
      show ((popBack names).1.string?.map bytesOf).toList ++
        popNames popBack rounds (i + 1) (popBack names).2 = []
      rw [hvalue, hlater]
      rfl
    next => rfl

/-- A `PopBack` that hands the array itself back: the value takes over what is left of the array,
and nothing remains in `names`. -/
def moveOut (names : List Json) : Json × List Json := (.array names.dropLast, [])

theorem moveOut_popsElements : PopsElements moveOut :=
  ⟨fun _ _ h => Bool.noConfusion h, fun _ _ h => absurd h List.not_mem_nil⟩

-- With it the loop ends after one round that pushes nothing.
theorem popNames_moveOut (rounds i : Nat) (names : List Json) :
    popNames moveOut rounds i names = [] := by
  cases rounds with
  | zero => rfl
  | succ rounds =>
    rw [popNames]
    split
    · show [] ++ popNames moveOut rounds (i + 1) [] = []
      cases rounds <;> rfl
    · rfl

/-- After a Put that returns, the names are stored if those that were popped are the right ones. -/
theorem namesStored_iff_perm {doc data : Json} (hasks : doc.Asks "Put" "config")
    (hdata : doc.member? "data" = some data) (hobj : data.isObject = true) (env : Environment)
    (c₀ : StorableConfig env.platform) {w w' : World}
    (hfile : w.configFile = some (c₀.config.write env.platform))
    (hreturns : handle env (some doc) w = (.ok (), w')) (elements : List Json) :
    NamesStored env.platform c₀.config elements w' ↔
      (newNames env.popBack doc).Perm (stringElements elements) := by
  obtain ⟨c₁, bytes, hput, hbytes, hread⟩ :=
    read_of_configPut hasks hdata hobj env c₀ hfile hreturns
  have hall := (AppConfig.put_changedAsNamed hput).names
  constructor
  · rintro ⟨bytes', hbytes', hread'⟩
    obtain rfl := Option.some.inj (hbytes.symm.trans hbytes')
    obtain ⟨new, hnew, hperm⟩ := hread' env.memory env.conf
    rw [(hread env.memory env.conf).2, hall, List.append_cancel_left_eq] at hnew
    rwa [hnew]
  · intro hperm
    refine ⟨bytes, hbytes, fun mem old => ⟨_, ?_, hperm⟩⟩
    rw [(hread mem old).2, hall]

/-- **Only a Put without string elements has all its names stored for certain.** -/
theorem names_stored_iff {p : Platform} (c₀ : StorableConfig p) {doc data : Json}
    {elements : List Json} (hasks : doc.Asks "Put" "config")
    (hdata : doc.member? "data" = some data) (hobj : data.isObject = true)
    (hnames : doc.arrayMember? "names" = some elements) :
    (∀ (env : Environment) (w w' : World), env.platform = p → PopsElements env.popBack →
        w.configFile = some (c₀.config.write p) → handle env (some doc) w = (.ok (), w') →
        NamesStored p c₀.config elements w') ↔
      ∀ v ∈ elements, v.isString = false := by
  have hnone : stringElements elements = [] ↔ ∀ v ∈ elements, v.isString = false := by
    rw [stringElements, List.filterMap_eq_nil_iff]
    simp only [Option.map_eq_none_iff, Json.string?_eq_none_iff]
  constructor
  · intro hstored
    let env : Environment := { environmentOf goodStart with
      platform := p
      popBack := moveOut
      popBack_shorter := fun _ hne => List.length_pos_of_ne_nil hne }
    let w : World := { configFile := some (c₀.config.write p) }
    have hnew : newNames env.popBack doc = [] := by
      rw [newNames, hnames]
      exact popNames_moveOut _ _ _
    have hput : (c₀.config.put p env.popBack doc).isSome = true := by
      rw [AppConfig.put, hnew]
      rfl
    obtain ⟨c₁, hc₁⟩ := Option.isSome_iff_exists.mp hput
    have hexec := handle_configPut hasks hdata hobj env c₀ (w := w) rfl
    rw [hc₁] at hexec
    have hperm := (namesStored_iff_perm hasks hdata hobj env c₀ rfl hexec elements).mp
      (hstored env w _ rfl moveOut_popsElements rfl hexec)
    rw [hnew, List.nil_perm] at hperm
    exact hnone.mp hperm
  · rintro hno env w w' rfl hpop hfile hreturns
    have hnew : newNames env.popBack doc = [] := by
      rw [newNames, hnames]
      exact popNames_eq_nil hpop _ _ hno
    rw [namesStored_iff_perm hasks hdata hobj env c₀ hfile hreturns, hnew, hnone.mpr hno]

/-- Of two names at most one is stored, whatever `PopBack` yields. -/
theorem twoNames_notStored :
    ¬ ∀ (env : Environment) (c₀ : StorableConfig env.platform) (doc data : Json)
        (elements : List Json) (w w' : World), doc.Asks "Put" "config" →
      doc.member? "data" = some data → data.isObject = true →
      doc.arrayMember? "names" = some elements →
      w.configFile = some (c₀.config.write env.platform) →
      handle env (some doc) w = (.ok (), w') →
      NamesStored env.platform c₀.config elements w' := by
  intro hclaim
  let doc := examplePut [.string "a", .string "b"]
  let env := environmentOf goodStart
  let w : World := { configFile := some (defaultStored.config.write .x64) }
  have hasks : doc.Asks "Put" "config" := ⟨rfl, rfl⟩
  have hdata : doc.member? "data" = some (.object []) := rfl
  have hnames : doc.arrayMember? "names" = some [.string "a", .string "b"] := rfl
  have hput : (defaultStored.config.put .x64 env.popBack doc).isSome = true := rfl
  obtain ⟨c₁, hc₁⟩ := Option.isSome_iff_exists.mp hput
  have hexec := handle_configPut hasks hdata rfl env defaultStored (w := w) rfl
  rw [show defaultStored.config.put env.platform env.popBack doc = some c₁ from hc₁] at hexec
  have hperm := (namesStored_iff_perm hasks hdata rfl env defaultStored rfl hexec _).mp
    (hclaim env defaultStored doc _ _ w _ hasks hdata rfl hnames rfl hexec)
  have htwo : (newNames env.popBack doc).length = 2 := hperm.length_eq
  have hle : 2 * (newNames env.popBack doc).length ≤ 2 - 0 + 1 := by
    rw [newNames, hnames]
    exact popNames_length_le env.popBack_shorter 2
  omega

/-- Four elements, the second and the last of them names. -/
def mixedNames : List Json :=
  [.int 5, .string "Ethernet", .null, .string "WLAN"]

theorem names_stored_iff_mixedNames :
    (∀ (env : Environment) (w w' : World), env.platform = .x64 → PopsElements env.popBack →
        w.configFile = some (defaultStored.config.write .x64) →
        handle env (some (examplePut mixedNames)) w = (.ok (), w') →
        NamesStored .x64 defaultStored.config mixedNames w') ↔
      ∀ v ∈ mixedNames, v.isString = false :=
  have hasks : (examplePut mixedNames).Asks "Put" "config" := ⟨rfl, rfl⟩
  have hdata : (examplePut mixedNames).member? "data" = some (.object []) := rfl
  have hnames : (examplePut mixedNames).arrayMember? "names" = some mixedNames := rfl
  names_stored_iff defaultStored hasks hdata rfl hnames

end NetShare
