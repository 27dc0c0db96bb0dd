import NetShare.Json

/-!
# The list of adapters as the command line tool reads it

`parseGetAdapterNameResponse` from `configureDriver.cpp`, with its caller.  An accessor of rapidjson
asserts what it relies on; the result `none` is an assertion that fails.
-/

namespace NetShare

/-! ## 1. The code -/

structure Adapter where
  name : String
  ip : String
  displayName : String
deriving DecidableEq

namespace Json

/-- `HasMember`, which asserts that the value is an object; `operator[]` is `member?` and
`GetString` is `string?`. -/
def hasMember? (v : Json) (name : String) : Option Bool :=
  if v.isObject then some (v.member? name).isSome else none

/-- `!v.HasMember(name) || !v[name].Is…()`. -/
def lacks? (v : Json) (name : String) (is : Json → Bool) : Option Bool := do
  if !(← v.hasMember? name) then return true
  return !is (← v.member? name)

end Json

/-- `a << b` on two `bool`s, used as a condition. -/
def shiftedLeft (a b : Bool) : Bool := a.toNat <<< b.toNat != 0

/-- The three checks of an element, of which a later one is made only if no earlier one fails. -/
def lacksString? (v : Json) : Option Bool := do
  if ← v.lacks? "name" Json.isString then return true
  if ← v.lacks? "ip" Json.isString then return true
  v.lacks? "displayName" Json.isString

/-- The loop over the elements.  Only those that are not objects are looked at. -/
def parseNames (aNames : List Adapter) : List Json → Option (Bool × List Adapter)
  | [] => some (true, aNames)
  | v :: names =>
    if !v.isObject then do
      if ← lacksString? v then return (false, aNames)
      let ip ← (← v.member? "ip").string?
      let displayName ← (← v.member? "displayName").string?
      let name ← (← v.member? "name").string?
      parseNames (aNames ++ [{ name, ip, displayName }]) names
    else parseNames aNames names

def parseGetAdapterNameResponse (aNames : List Adapter) (aResponse : Json) :
    Option (Bool × List Adapter) := do
  -- both operands of `<<` are evaluated
  let noData := !(← aResponse.hasMember? "data")
  let noObject := !(← aResponse.member? "data").isObject
  if shiftedLeft noData noObject then return (false, aNames)
  let data ← aResponse.member? "data"
  if ← data.lacks? "names" Json.isArray then return (false, aNames)
  match ← data.member? "names" with
  | .array names => parseNames aNames names
  | _ => none

/-! ## 2. What is asked of it -/

/-- The adapter that an element stands for. -/
def Json.adapter? (v : Json) : Option Adapter := do
  let name ← v.stringMember? "name"
  let ip ← v.stringMember? "ip"
  let displayName ← v.stringMember? "displayName"
  return { name, ip, displayName }

/-- The response lists these adapters. -/
def ListsAdapters (aResponse : Json) (adapters : List Adapter) : Prop :=
  ∃ data names, aResponse.member? "data" = some data ∧
    data.member? "names" = some (.array names) ∧ names.map Json.adapter? = adapters.map some

/-- No assertion fails, the result is `true` exactly for a list of adapters, and these are
appended. -/
structure ReadsAdapters (aResponse : Json) : Prop where
  noAssertion : ∀ aNames, parseGetAdapterNameResponse aNames aResponse ≠ none
  result : ∀ aNames, (∃ aNames', parseGetAdapterNameResponse aNames aResponse =
    some (true, aNames')) ↔ ∃ adapters, ListsAdapters aResponse adapters
  appended : ∀ aNames adapters, ListsAdapters aResponse adapters →
    parseGetAdapterNameResponse aNames aResponse = some (true, aNames ++ adapters)

/-- Its `data` is an object without a nonempty array of names. -/
def NamesNothing (aResponse : Json) : Prop :=
  ∃ data, aResponse.member? "data" = some data ∧ data.isObject = true ∧
    ∀ v names, data.member? "names" ≠ some (.array (v :: names))

/-! ## 3. What it does -/

theorem Json.hasMember?_of_object {v : Json} (h : v.isObject = true) (name : String) :
    v.hasMember? name = some (v.member? name).isSome := if_pos h

theorem Json.lacks?_of_object {v : Json} (h : v.isObject = true) (name : String)
    (is : Json → Bool) : v.lacks? name is = some !((v.member? name).any is) := by
  simp only [lacks?, hasMember?_of_object h, Option.bind_eq_bind, Option.bind_some]
  cases v.member? name <;> rfl

-- An element that is looked at is no object, which the first check asserts.
theorem lacksString?_eq_none {v : Json} (h : v.isObject = false) : lacksString? v = none := by
  simp [lacksString?, Json.lacks?, Json.hasMember?, h]

/-- The loop appends nothing, and gets to its end if all elements are objects. -/
theorem parseNames_eq (aNames : List Adapter) (names : List Json) :
    parseNames aNames names = if names.all Json.isObject then some (true, aNames) else none := by
  induction names with
  | nil => rfl
  | cons v names ih =>
    cases hv : v.isObject with
    | true => simp [parseNames, hv, ih]
    | false => simp [parseNames, hv, lacksString?_eq_none hv]

-- Shifted by whatever, `true` stays a nonzero number and `false` is 0.
theorem shiftedLeft_eq (a b : Bool) : shiftedLeft a b = a := by cases a <;> cases b <;> rfl

theorem parse_noData (aNames : List Adapter) {aResponse : Json}
    (h : aResponse.member? "data" = none) :
    parseGetAdapterNameResponse aNames aResponse = none := by
  simp only [parseGetAdapterNameResponse, h, Json.hasMember?]
  split <;> rfl

/-- With a member `data` the first condition does not hold, whatever its type. -/
theorem parse_data (aNames : List Adapter) {aResponse data : Json}
    (h : aResponse.member? "data" = some data) :
    parseGetAdapterNameResponse aNames aResponse =
      if data.isObject then
        match data.member? "names" with
        | some (.array names) => parseNames aNames names
        | _ => some (false, aNames)
      else none := by
  have hobj := Json.isObject_of_member? h
  simp only [parseGetAdapterNameResponse, h, Json.hasMember?_of_object hobj, Option.isSome_some,
    Option.bind_eq_bind, Option.bind_some, shiftedLeft_eq, Bool.not_true, Bool.false_eq_true,
    if_false]
  cases hdata : data.isObject with
  | false => simp [Json.lacks?, Json.hasMember?, hdata]
  | true =>
    rw [Json.lacks?_of_object hdata]
    cases hnames : data.member? "names" with
    | none => rfl
    | some v => cases v <;> rfl

/-- Nothing is ever appended. -/
theorem parse_unchanged {aNames aNames' : List Adapter} {aResponse : Json} {successful : Bool}
    (h : parseGetAdapterNameResponse aNames aResponse = some (successful, aNames')) :
    aNames' = aNames := by
  cases hdata : aResponse.member? "data" with
  | none => nomatch (parse_noData aNames hdata).symm.trans h
  | some data =>
    rw [parse_data aNames hdata] at h
    split at h
    next =>
      split at h
      next names _ =>
        rw [parseNames_eq, Option.ite_none_right_eq_some] at h
        exact (congrArg Prod.snd (Option.some.inj h.2)).symm
      next => exact (congrArg Prod.snd (Option.some.inj h)).symm
    next => contradiction

-- Every adapter of a list is an element of the array.
theorem ListsAdapters.length {aResponse data : Json} {names : List Json} {adapters : List Adapter}
    (h : ListsAdapters aResponse adapters) (hdata : aResponse.member? "data" = some data)
    (hnames : data.member? "names" = some (.array names)) : names.length = adapters.length := by
  obtain ⟨data', names', hdata', hnames', hadapters⟩ := h
  obtain rfl := Option.some.inj (hdata.symm.trans hdata')
  obtain rfl := Json.array.inj (Option.some.inj (hnames.symm.trans hnames'))
  have hlength := congrArg List.length hadapters
  rwa [List.length_map, List.length_map] at hlength

namespace ReadsAdapters

variable {aResponse data : Json}

/-- A list that is read has nothing in it. -/
theorem namesNothing (h : ReadsAdapters aResponse) : NamesNothing aResponse := by
  cases hdata : aResponse.member? "data" with
  | none => exact absurd (parse_noData [] hdata) (h.noAssertion [])
  | some data =>
    have hparse := parse_data [] hdata
    have hobj : data.isObject = true := by
      by_contra hno
      exact h.noAssertion [] (hparse.trans (if_neg hno))
    refine ⟨data, hdata, hobj, fun v names hnames => ?_⟩
    rw [if_pos hobj, hnames] at hparse
    dsimp only at hparse
    rw [parseNames_eq] at hparse
    split at hparse
    next =>
      -- all elements are objects and none has been appended
      obtain ⟨adapters, hlists⟩ := (h.result []).mp ⟨_, hparse⟩
      have happended := h.appended [] adapters hlists
      have hlength := hlists.length hdata hnames
      rw [hparse, List.nil_append, Option.some.injEq, Prod.mk.injEq] at happended
      rw [← happended.2] at hlength
      nomatch hlength
    next => exact h.noAssertion [] hparse

theorem of_emptyArray (hdata : aResponse.member? "data" = some data)
    (hnames : data.member? "names" = some (.array [])) : ReadsAdapters aResponse := by
  have hread (aNames : List Adapter) :
      parseGetAdapterNameResponse aNames aResponse = some (true, aNames) := by
    rw [parse_data aNames hdata, if_pos (Json.isObject_of_member? hnames), hnames]
    rfl
  have hlists : ListsAdapters aResponse [] := ⟨data, [], hdata, hnames, rfl⟩
  constructor
  case noAssertion => exact fun aNames hnone => nomatch (hread aNames).symm.trans hnone
  case result => exact fun aNames => iff_of_true ⟨_, hread aNames⟩ ⟨_, hlists⟩
  case appended =>
    intro aNames adapters hadapters
    have hlength := hadapters.length hdata hnames
    obtain rfl := List.length_eq_zero_iff.mp hlength.symm
    rw [hread, List.append_nil]

theorem of_noArray (hdata : aResponse.member? "data" = some data) (hobj : data.isObject = true)
    (hno : ∀ names, data.member? "names" ≠ some (.array names)) : ReadsAdapters aResponse := by
  have hread (aNames : List Adapter) :
      parseGetAdapterNameResponse aNames aResponse = some (false, aNames) := by
    rw [parse_data aNames hdata, if_pos hobj]
    split
    next names heq => exact absurd heq (hno names)
    next => rfl
  have hlists (adapters : List Adapter) : ¬ ListsAdapters aResponse adapters := by
    rintro ⟨data', names, hdata', heq, -⟩
    obtain rfl := Option.some.inj (hdata.symm.trans hdata')
    exact hno names heq
  constructor
  case noAssertion => exact fun aNames hnone => nomatch (hread aNames).symm.trans hnone
  case result =>
    intro aNames
    refine iff_of_false ?_ fun ⟨adapters, hadapters⟩ => hlists adapters hadapters
    rintro ⟨aNames', htrue⟩
    nomatch (hread aNames).symm.trans htrue
  case appended => exact fun aNames adapters hadapters => absurd hadapters (hlists adapters)

end ReadsAdapters

/-- **The list is read exactly if the response has a `data` object that names nothing**: an array
with an element is skipped over or runs into an assertion. -/
theorem readsAdapters_iff (aResponse : Json) :
    ReadsAdapters aResponse ↔ NamesNothing aResponse := by
  constructor
  · exact fun h => h.namesNothing
  · rintro ⟨data, hdata, hobj, hnothing⟩
    by_cases hnames : data.member? "names" = some (.array [])
    · exact .of_emptyArray hdata hnames
    · refine .of_noArray hdata hobj fun names heq => ?_
      cases names with
      | nil => exact hnames heq
      | cons v names => exact hnothing v names heq

/-- A response with one adapter, every member of it a string. -/
def oneAdapter : Json :=
  .object [("type", .string "Response"), ("data", .object [("names", .array [.object
    [("name", .string "tun"), ("ip", .string "10.0.0.3"), ("displayName", .string "Tunnel")]])])]

theorem oneAdapter_dropped :
    ¬ ∀ aResponse : Json, aResponse.isObject = true → ReadsAdapters aResponse := by
  intro hclaim
  have hlists : ListsAdapters oneAdapter [⟨"tun", "10.0.0.3", "Tunnel"⟩] :=
    ⟨_, _, rfl, rfl, by decide⟩
  have happended := (hclaim oneAdapter rfl).appended [] _ hlists
  have hread : parseGetAdapterNameResponse [] oneAdapter = some (true, []) := by decide
  nomatch hread.symm.trans happended

/-! ## 4. The caller -/

/-- `isResponse` of the tool, which asserts that there is a type. -/
def isResponse? (doc : Json) : Option Bool := do
  return (← (← doc.member? "type").string?) == "Response"

/-- What `configureDriver` prints after the line it has received, `none` if this does not parse, and
the adapters it then has. -/
def configureDriver (received : Option Json) : Option (List String × List Adapter) := do
  let invalid := "Error getting adapter information. Driver retuned an invalid response"
  match received with
  | none => return ([invalid], [])
  | some adapterNames =>
    if !(← isResponse? adapterNames) then return ([invalid], [])
    let (successful, names) ← parseGetAdapterNameResponse [] adapterNames
    return (if successful then [] else [invalid], names)

/-- Whatever it receives, the tool knows no adapter afterwards. -/
theorem configureDriver_noAdapters {received : Option Json} {printed : List String}
    {names : List Adapter} (h : configureDriver received = some (printed, names)) : names = [] := by
  cases received with
  | none => exact (congrArg Prod.snd (Option.some.inj h)).symm
  | some adapterNames =>
    simp only [configureDriver, Option.bind_eq_bind, Option.bind_eq_some_iff] at h
    obtain ⟨response, -, h⟩ := h
    split at h
    next => exact (congrArg Prod.snd (Option.some.inj h)).symm
    next =>
      obtain ⟨⟨successful, names'⟩, hparse, h⟩ := Option.bind_eq_some_iff.mp h
      have hnames : names' = names := congrArg Prod.snd (Option.some.inj h)
      rw [← hnames]
      exact parse_unchanged hparse

end NetShare
