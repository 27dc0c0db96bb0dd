import NetShare.MalformedAddress
import NetShare.Reasoning.Assignments
import Mathlib.Data.List.Perm.Basic

/-!
# The text config file

`Application::createConfigFromFile` and what its lines mean: a sequence of assignments to the
members of `Config` and to `adapterNames`.
-/

namespace NetShare

open Reasoning ConfigurationWorker StdString

/-! ## 1. Reading the file -/

/-- `std::getline` on what the stream still gives: the characters before the next line break, or
before the end if there are any. -/
def getline (infile : List Char) : Option (String × List Char) :=
  if infile = [] then none
  else some (.ofList (infile.takeWhile (· ≠ '\n')), (infile.dropWhile (· ≠ '\n')).tail)

theorem getline_length {infile rest : List Char} {line : String}
    (h : getline infile = some (line, rest)) : rest.length < infile.length := by
  unfold getline at h
  split at h
  next => contradiction
  next hne =>
    rw [Option.some.injEq, Prod.mk.injEq] at h
    have hdrop := (infile.dropWhile_suffix (· ≠ '\n')).length_le
    have hpos := List.length_pos_of_ne_nil hne
    rw [← h.2, List.length_tail]
    omega

/-- The members of a new `Config` that its constructor leaves as they are. -/
structure UnsetMembers where
  serverPort : UInt16
  winTunAdapterSubnetBits : UInt8
  logLevel : Int32

/-- `new Config()`. -/
def Config.new (unset : UnsetMembers) : Config where
  serverIpv4Adress := ⟨0, 0, 0, 0⟩
  serverPort := unset.serverPort
  winTunAdapterIpv4Adress := ⟨0, 0, 0, 0⟩
  winTunAdapterSubnetBits := unset.winTunAdapterSubnetBits
  logLevel := unset.logLevel

namespace Application

/-- The loop over the lines. -/
def addConfParameters (infile : List Char) (conf : Config) (adapterNames : List String) :
    Config × List String :=
  match _h : getline infile with
  | none => (conf, adapterNames)
  | some (line, rest) =>
    let r := addConfParameter line conf adapterNames
    addConfParameters rest r.1 r.2
termination_by infile.length
decreasing_by exact getline_length ‹_›

/-- A file that cannot be opened gives no line, as an empty one does. -/
def createConfigFromFile (file : List Char) (unset : UnsetMembers) (adapterNames : List String) :
    Config × List String :=
  addConfParameters file (Config.new unset) adapterNames

end Application

/-- The lines that `getline` finds, one after the other. -/
def fileLines : List Char → List String
  | [] => []
  | c :: s =>
    if c = '\n' then "" :: fileLines s
    else
      match fileLines s with
      | [] => [.ofList [c]]
      | line :: lines => .ofList (c :: line.toList) :: lines

/-! ## 2. What a line stands for -/

/-- The keys that `addConfParameter` compares with. -/
inductive ConfigKey where
  | adapterIp
  | adapterSubnetBits
  | serverIp
  | serverPort
  | adapterName
deriving DecidableEq

namespace ConfigKey

def text : ConfigKey → String
  | .adapterIp => "ADAPTER_IP"
  | .adapterSubnetBits => "ADAPTER_SUBNET_BITS"
  | .serverIp => "SERVER_IP"
  | .serverPort => "SERVER_PORT"
  | .adapterName => "ADAPTER_NAME"

def all : List ConfigKey := [.adapterIp, .adapterSubnetBits, .serverIp, .serverPort, .adapterName]

end ConfigKey

/-- A line that, trimmed, is a key, `=` and a value. -/
def assignment? (line : String) : Option (ConfigKey × String) :=
  ConfigKey.all.findSome? fun key =>
    ((key.text.toList ++ ['=']).isPrefixOf? (trim line.toList)).map fun value =>
      (key, .ofList value)

/-- A line that, trimmed, is a key and nothing else. -/
def BareKey (line : String) : Prop := ∃ key : ConfigKey, trim line.toList = key.text.toList

/-- The assignments of a file. -/
def assignments (file : List Char) : List (ConfigKey × String) :=
  (fileLines file).filterMap assignment?

/-- The `Config` and the names that a sequence of assignments stands for. -/
def meaning (unset : UnsetMembers) (adapterNames : List String)
    (as : List (ConfigKey × String)) : Config × List String :=
  let new := Config.new unset
  ({ new with
      winTunAdapterIpv4Adress := ((Assignments.lastOf .adapterIp as).map parseIpString).getD
        new.winTunAdapterIpv4Adress
      winTunAdapterSubnetBits := ((Assignments.lastOf .adapterSubnetBits as).map fun value =>
        octetOf (atoi value.toList)).getD new.winTunAdapterSubnetBits
      serverIpv4Adress := ((Assignments.lastOf .serverIp as).map parseIpString).getD
        new.serverIpv4Adress
      serverPort := ((Assignments.lastOf .serverPort as).map fun value =>
        .ofNat (atoi value.toList).toBitVec.toNat).getD new.serverPort },
    adapterNames ++ Assignments.valuesOf .adapterName as)

/-- What a text config file is for. -/
structure SumOfAssignments (file : List Char) : Prop where
  sum : ∀ unset adapterNames, Application.createConfigFromFile file unset adapterNames =
    meaning unset adapterNames (assignments file)
  others : ∀ line ∈ fileLines file, assignment? line = none → ∀ conf adapterNames,
    Application.addConfParameter line conf adapterNames = (conf, adapterNames)
  reorder : ∀ file', (fileLines file').Perm (fileLines file) →
    (∀ key, Assignments.valuesOf key (assignments file') =
      Assignments.valuesOf key (assignments file)) →
    ∀ unset adapterNames, Application.createConfigFromFile file' unset adapterNames =
      Application.createConfigFromFile file unset adapterNames

/-! ## 3. One line -/

/-- What an assignment does. -/
def assign (s : Config × List String) (a : ConfigKey × String) : Config × List String :=
  match a.1 with
  | .adapterIp => ({ s.1 with winTunAdapterIpv4Adress := parseIpString a.2 }, s.2)
  | .adapterSubnetBits =>
    ({ s.1 with winTunAdapterSubnetBits := octetOf (atoi a.2.toList) }, s.2)
  | .serverIp => ({ s.1 with serverIpv4Adress := parseIpString a.2 }, s.2)
  | .serverPort => ({ s.1 with serverPort := .ofNat (atoi a.2.toList).toBitVec.toNat }, s.2)
  | .adapterName => (s.1, s.2 ++ [a.2])

namespace ConfigKey

theorem mem_all (key : ConfigKey) : key ∈ all := by cases key <;> decide

theorem text_injective {key key' : ConfigKey} (h : key.text.toList = key'.text.toList) :
    key = key' := by
  cases key <;> cases key' <;> first | rfl | exact absurd h (by decide)

theorem noDelimiter (key : ConfigKey) : '=' ∉ key.text.toList := by cases key <;> decide

-- No key is taken for an empty line or a comment.
theorem head (key : ConfigKey) : ∃ c s, key.text.toList = c :: s ∧ c ≠ '#' := by
  cases key <;> exact ⟨_, _, rfl, by decide⟩

end ConfigKey

-- The source's chain of comparisons.
theorem addConfParameter_eq {line : String}
    (h : ¬ ((trim line.toList).head? = none ∨ (trim line.toList).head? = some '#'))
    {key : List Char} {value : String} (hsplit : keyValue (trim line.toList) = (key, value))
    (conf : Config) (adapterNames : List String) :
    Application.addConfParameter line conf adapterNames =
      let s := (conf, adapterNames)
      if key = ConfigKey.adapterIp.text.toList then assign s (.adapterIp, value)
      else if key = ConfigKey.adapterSubnetBits.text.toList then
        assign s (.adapterSubnetBits, value)
      else if key = ConfigKey.serverIp.text.toList then assign s (.serverIp, value)
      else if key = ConfigKey.serverPort.text.toList then assign s (.serverPort, value)
      else if key = ConfigKey.adapterName.text.toList then assign s (.adapterName, value)
      else s := by
  unfold Application.addConfParameter
  dsimp only
  rw [if_neg h, hsplit, tryParseIp_eq, tryParseIp_eq]
  rfl

/-- A line whose part before the delimiter is a key. -/
theorem addConfParameter_key {line : String} {key : ConfigKey} {value : String}
    (h : keyValue (trim line.toList) = (key.text.toList, value)) (conf : Config)
    (adapterNames : List String) :
    Application.addConfParameter line conf adapterNames =
      assign (conf, adapterNames) (key, value) := by
  have hparsed : ¬ ((trim line.toList).head? = none ∨ (trim line.toList).head? = some '#') := by
    obtain ⟨c, s, htext, hc⟩ := key.head
    have hkey : (trim line.toList).takeWhile (· ≠ '=') = c :: s :=
      (congrArg Prod.fst h).trans htext
    obtain ⟨t, ht⟩ := List.takeWhile_prefix (l := trim line.toList) (· ≠ '=')
    rw [← ht, hkey]
    rintro (hnone | hcomment)
    · nomatch hnone
    · exact hc (Option.some.inj hcomment)
  have hne (other : ConfigKey) (hother : key ≠ other) : key.text.toList ≠ other.text.toList :=
    fun heq => hother (ConfigKey.text_injective heq)
  rw [addConfParameter_eq hparsed h]
  dsimp only
  cases key with
  | adapterIp => rw [if_pos rfl]
  | adapterSubnetBits => rw [if_neg (hne _ (by decide)), if_pos rfl]
  | serverIp => rw [if_neg (hne _ (by decide)), if_neg (hne _ (by decide)), if_pos rfl]
  | serverPort =>
    rw [if_neg (hne _ (by decide)), if_neg (hne _ (by decide)), if_neg (hne _ (by decide)),
      if_pos rfl]
  | adapterName =>
    rw [if_neg (hne _ (by decide)), if_neg (hne _ (by decide)), if_neg (hne _ (by decide)),
      if_neg (hne _ (by decide)), if_pos rfl]

/-- Any other line changes nothing. -/
theorem addConfParameter_noKey {line : String} {key : List Char} {value : String}
    (h : keyValue (trim line.toList) = (key, value))
    (hkey : ∀ k : ConfigKey, key ≠ k.text.toList) (conf : Config) (adapterNames : List String) :
    Application.addConfParameter line conf adapterNames = (conf, adapterNames) := by
  by_cases hskip : (trim line.toList).head? = none ∨ (trim line.toList).head? = some '#'
  · exact if_pos hskip
  · rw [addConfParameter_eq hskip h]
    dsimp only
    rw [if_neg (hkey _), if_neg (hkey _), if_neg (hkey _), if_neg (hkey _), if_neg (hkey _)]

/-- `s.erase(pos, count)`, which throws if `pos` is beyond the end. -/
def StdString.erase (s : List Char) (pos count : Nat) : Option (List Char) :=
  if pos ≤ s.length then some (s.take pos ++ s.drop (pos + count)) else none

/-- Neither the `substr` nor the `erase` of the split throws. -/
theorem keyValue_eq (line : List Char) :
    substr line 0 (find '=' line) = some (keyValue line).1 ∧
      erase line 0 (afterFound (find '=' line)) = some (keyValue line).2.toList := by
  constructor
  · exact substr_find '=' line
  · rw [erase, if_pos (Nat.zero_le _), Nat.zero_add, (drop_afterFound '=' line).2, keyValue,
      String.toList_ofList]
    rfl

/-- The split at the first delimiter. -/
theorem keyValue_append {key : List Char} (h : '=' ∉ key) (value : List Char) :
    keyValue (key ++ '=' :: value) = (key, .ofList value) := by
  have hkey : ∀ c ∈ key, decide (c ≠ '=') = true := fun c hc =>
    decide_eq_true fun heq => h (heq ▸ hc)
  rw [keyValue, if_pos (List.mem_append_right _ List.mem_cons_self),
    List.takeWhile_append_of_pos hkey, List.dropWhile_append_of_pos hkey]
  simp

-- Without one, `npos + 1` is 0 and both parts are the whole line.
theorem keyValue_whole {line : List Char} (h : '=' ∉ line) :
    keyValue line = (line, .ofList line) := by
  have hline : ∀ c ∈ line, decide (c ≠ '=') = true := fun c hc =>
    decide_eq_true fun heq => h (heq ▸ hc)
  rw [keyValue, if_neg h, List.takeWhile_eq_self_iff.mpr hline]

-- One of the two cases holds of every line.
theorem keyValue_cases (line : List Char) :
    ('=' ∉ line ∧ keyValue line = (line, .ofList line)) ∨
      ∃ key value, '=' ∉ key ∧ line = key ++ '=' :: value ∧
        keyValue line = (key, .ofList value) := by
  by_cases h : '=' ∈ line
  · obtain ⟨key, value, rfl, hkey⟩ := List.eq_append_cons_of_mem h
    exact .inr ⟨key, value, hkey, rfl, keyValue_append hkey value⟩
  · exact .inl ⟨h, keyValue_whole h⟩

-- A line is split in one way.
theorem keyValue_unique {line key value : List Char} {k : ConfigKey} {v : String}
    (hkey : '=' ∉ key) (hline : line = key ++ '=' :: value)
    (h : line = k.text.toList ++ '=' :: v.toList) :
    key = k.text.toList ∧ String.ofList value = v := by
  have hboth := keyValue_append hkey value
  rw [← hline, h, keyValue_append k.noDelimiter, String.ofList_toList, Prod.mk.injEq] at hboth
  exact ⟨hboth.1.symm, hboth.2.symm⟩

theorem assignment?_eq_some_iff {line : String} {key : ConfigKey} {value : String} :
    assignment? line = some (key, value) ↔
      trim line.toList = key.text.toList ++ '=' :: value.toList := by
  have hfound {k : ConfigKey} {v : String} (h : assignment? line = some (k, v)) :
      trim line.toList = k.text.toList ++ '=' :: v.toList := by
    obtain ⟨k', -, hk'⟩ := List.exists_of_findSome?_eq_some h
    obtain ⟨v', hv', heq⟩ := Option.map_eq_some_iff.mp hk'
    obtain ⟨rfl, rfl⟩ := Prod.mk.inj heq
    rw [String.toList_ofList, ← List.isPrefixOf?_eq_some_iff_append_eq.mp hv', List.append_assoc]
    rfl
  constructor
  · exact hfound
  · intro h
    have hsome : (assignment? line).isSome := by
      refine List.findSome?_isSome_iff.mpr ⟨key, key.mem_all, ?_⟩
      have hprefix : key.text.toList ++ ['='] ++ value.toList = trim line.toList := by
        rw [h, List.append_assoc]
        rfl
      rw [Option.isSome_map, List.isPrefixOf?_eq_some_iff_append_eq.mpr hprefix]
      rfl
    obtain ⟨⟨k, v⟩, hkv⟩ := Option.isSome_iff_exists.mp hsome
    obtain ⟨hk, rfl⟩ := keyValue_unique key.noDelimiter h (hfound hkv)
    rw [hkv, ConfigKey.text_injective hk, String.ofList_toList]

theorem assignment?_eq_none {line : String}
    (h : ∀ (key : ConfigKey) (value : String),
      trim line.toList ≠ key.text.toList ++ '=' :: value.toList) : assignment? line = none := by
  cases hline : assignment? line with
  | none => rfl
  | some a => exact absurd (assignment?_eq_some_iff.mp hline) (h a.1 a.2)

/-- **What a line does**: an assignment is made, a key alone is taken for its own value, and
nothing else has an effect. -/
theorem addConfParameter_cases (line : String) :
    (∃ a, assignment? line = some a ∧ ¬ BareKey line ∧ ∀ conf adapterNames,
        Application.addConfParameter line conf adapterNames = assign (conf, adapterNames) a) ∨
      (∃ key : ConfigKey, assignment? line = none ∧ trim line.toList = key.text.toList ∧
        ∀ conf adapterNames, Application.addConfParameter line conf adapterNames =
          assign (conf, adapterNames) (key, key.text)) ∨
      (assignment? line = none ∧ ¬ BareKey line ∧ ∀ conf adapterNames,
        Application.addConfParameter line conf adapterNames = (conf, adapterNames)) := by
  obtain ⟨hwhole, hsplit⟩ | ⟨key, value, hkey, hline, hsplit⟩ := keyValue_cases (trim line.toList)
  · have hnone : assignment? line = none := by
      refine assignment?_eq_none fun key value heq => hwhole ?_
      rw [heq]
      exact List.mem_append_right _ List.mem_cons_self
    by_cases hbare : BareKey line
    · obtain ⟨key, htext⟩ := hbare
      rw [htext, String.ofList_toList] at hsplit
      exact .inr (.inl ⟨key, hnone, htext, addConfParameter_key (by rw [htext, hsplit])⟩)
    · exact .inr (.inr ⟨hnone, hbare, addConfParameter_noKey hsplit fun k hk => hbare ⟨k, hk⟩⟩)
  · have hbare : ¬ BareKey line := by
      rintro ⟨k, hk⟩
      refine k.noDelimiter ?_
      rw [← hk, hline]
      exact List.mem_append_right _ List.mem_cons_self
    by_cases hknown : ∃ k : ConfigKey, key = k.text.toList
    · obtain ⟨k, rfl⟩ := hknown
      have hsome : assignment? line = some (k, .ofList value) :=
        assignment?_eq_some_iff.mpr (by rw [hline, String.toList_ofList])
      exact .inl ⟨_, hsome, hbare, addConfParameter_key hsplit⟩
    · refine .inr (.inr ⟨?_, hbare, addConfParameter_noKey hsplit fun k hk => hknown ⟨k, hk⟩⟩)
      exact assignment?_eq_none fun k v heq => hknown ⟨k, (keyValue_unique hkey hline heq).1⟩

/-! ## 4. The whole file -/

theorem assign_meaning (unset : UnsetMembers) (adapterNames : List String)
    (as : List (ConfigKey × String)) (a : ConfigKey × String) :
    assign (meaning unset adapterNames as) a = meaning unset adapterNames (as ++ [a]) := by
  obtain ⟨key, value⟩ := a
  cases key <;> simp [assign, meaning, Assignments.lastOf_concat, Assignments.valuesOf_concat]

-- What `getline` takes is the first line.
theorem fileLines_cons (c : Char) (s : List Char) :
    fileLines (c :: s) = .ofList ((c :: s).takeWhile (· ≠ '\n')) ::
      fileLines ((c :: s).dropWhile (· ≠ '\n')).tail := by
  induction s generalizing c with
  | nil =>
    by_cases hc : c = '\n'
    · subst hc
      rfl
    · simp [fileLines, hc]
  | cons d s ih =>
    by_cases hc : c = '\n'
    · subst hc
      rfl
    · have hc' : decide (c ≠ '\n') = true := decide_eq_true hc
      have htake : (c :: d :: s).takeWhile (· ≠ '\n') = c :: (d :: s).takeWhile (· ≠ '\n') :=
        List.takeWhile_cons_of_pos hc'
      have hdrop : (c :: d :: s).dropWhile (· ≠ '\n') = (d :: s).dropWhile (· ≠ '\n') :=
        List.dropWhile_cons_of_pos hc'
      rw [htake, hdrop, fileLines, if_neg hc, ih d]
      dsimp only
      rw [String.toList_ofList]

theorem fileLines_getline {infile rest : List Char} {line : String}
    (h : getline infile = some (line, rest)) : fileLines infile = line :: fileLines rest := by
  cases infile with
  | nil => nomatch h
  | cons c s =>
    obtain ⟨rfl, rfl⟩ := Prod.mk.inj (Option.some.inj h)
    exact fileLines_cons c s

/-- The loop takes the lines one after the other. -/
theorem addConfParameters_eq (infile : List Char) (conf : Config) (adapterNames : List String) :
    Application.addConfParameters infile conf adapterNames =
      (fileLines infile).foldl (fun s line => Application.addConfParameter line s.1 s.2)
        (conf, adapterNames) := by
  fun_induction Application.addConfParameters infile conf adapterNames with
  | case1 infile conf adapterNames h =>
    have hnil : infile = [] := by
      by_contra hne
      rw [getline, if_neg hne] at h
      nomatch h
    rw [hnil]
    rfl
  | case2 infile conf adapterNames line rest h r ih =>
    rw [fileLines_getline h]
    exact ih

/-- Unless a line is a key alone, the lines do what the assignments among them do. -/
theorem foldl_lines {lines : List String} (h : ∀ line ∈ lines, ¬ BareKey line)
    (s : Config × List String) :
    lines.foldl (fun s line => Application.addConfParameter line s.1 s.2) s =
      (lines.filterMap assignment?).foldl assign s := by
  induction lines generalizing s with
  | nil => rfl
  | cons line lines ih =>
    have hlines := ih fun line hline => h line (List.mem_cons_of_mem _ hline)
    have hfirst := h line List.mem_cons_self
    rw [List.foldl_cons]
    obtain ⟨a, hsome, -, hstep⟩ | ⟨key, -, htext, -⟩ | ⟨hnone, -, hstep⟩ :=
      addConfParameter_cases line
    · rw [hstep, hlines, List.filterMap_cons_some hsome]
      rfl
    · exact absurd ⟨key, htext⟩ hfirst
    · rw [hstep, hlines, List.filterMap_cons_none hnone]

theorem createConfigFromFile_eq {file : List Char} (h : ∀ line ∈ fileLines file, ¬ BareKey line)
    (unset : UnsetMembers) (adapterNames : List String) :
    Application.createConfigFromFile file unset adapterNames =
      meaning unset adapterNames (assignments file) := by
  have hnone : meaning unset adapterNames [] = (Config.new unset, adapterNames) := by
    simp [meaning]
  rw [Application.createConfigFromFile, addConfParameters_eq, foldl_lines h, ← hnone]
  exact Assignments.foldl_eq (assign_meaning unset adapterNames) _

-- There is a state in which a key alone has an effect.
theorem assign_text_ne (key : ConfigKey) : ∃ conf adapterNames,
    assign (conf, adapterNames) (key, key.text) ≠ (conf, adapterNames) := by
  let conf : Config :=
    { serverIpv4Adress := ⟨10, 0, 0, 1⟩
      serverPort := 5555
      winTunAdapterIpv4Adress := ⟨10, 0, 0, 3⟩
      winTunAdapterSubnetBits := 24
      logLevel := 2 }
  refine ⟨conf, [], ?_⟩
  cases key <;> decide

/-- **A text config file means the sum of its assignments exactly if no line of it, trimmed, is a
key alone.** -/
theorem sumOfAssignments_iff (file : List Char) :
    SumOfAssignments file ↔ ∀ line ∈ fileLines file, ¬ BareKey line := by
  constructor
  · rintro h line hline ⟨key, htext⟩
    obtain ⟨a, -, hbare, -⟩ | ⟨key, hnone, -, hstep⟩ | ⟨-, hbare, -⟩ := addConfParameter_cases line
    · exact hbare ⟨key, htext⟩
    · obtain ⟨conf, adapterNames, hne⟩ := assign_text_ne key
      have hsame := h.others line hline hnone conf adapterNames
      exact hne ((hstep conf adapterNames).symm.trans hsame)
    · exact hbare ⟨key, htext⟩
  · intro h
    constructor
    case sum => exact createConfigFromFile_eq h
    case others =>
      intro line hline hnone conf adapterNames
      obtain ⟨a, hsome, -, -⟩ | ⟨key, -, htext, -⟩ | ⟨-, -, hstep⟩ := addConfParameter_cases line
      · exact absurd (hnone.symm.trans hsome) (Option.some_ne_none a).symm
      · exact absurd ⟨key, htext⟩ (h line hline)
      · exact hstep conf adapterNames
    case reorder =>
      intro file' hperm hvalues unset adapterNames
      have h' : ∀ line ∈ fileLines file', ¬ BareKey line := fun line hline =>
        h line (hperm.mem_iff.mp hline)
      rw [createConfigFromFile_eq h, createConfigFromFile_eq h']
      simp only [meaning, Assignments.lastOf, hvalues]

/-- The key of the adapter names with nothing behind it is taken for the name of an adapter. -/
theorem bareKey_named : ¬ ∀ file, SumOfAssignments file := by
  intro hclaim
  have hlines : fileLines "ADAPTER_NAME".toList = ["ADAPTER_NAME"] :=
    fileLines_cons 'A' "DAPTER_NAME".toList
  have hsum := (hclaim "ADAPTER_NAME".toList).sum ⟨0, 0, 0⟩ []
  rw [Application.createConfigFromFile, addConfParameters_eq, assignments, hlines] at hsum
  exact absurd (congrArg Prod.snd hsum) (by decide)

end NetShare
