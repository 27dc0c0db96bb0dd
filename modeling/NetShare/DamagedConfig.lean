import NetShare.Application
import Mathlib.Data.List.Infix

/-!
# Config files that are cut off

A stream that runs out sets its fail bit and stores nothing more, and nobody asks for the fail bit.
The lengths that the file no longer holds stay what memory happened to hold, and it depends on them
alone whether anything throws.
-/

namespace NetShare

open Reasoning

/-! ## 1. What the file leaves of the lengths -/

/-- The length read at this place of a file with these bytes, over what memory held before. -/
def lengthAt (p : Platform) (bytes : List UInt8) (offset old : Nat) : Nat :=
  p.order.nat (InputFile.overwrite (p.writeSizeT old) ((bytes.drop offset).take p.sizeT))

/-- Where the number of names stands, behind the five fields. -/
def countOffset : Nat := 20

namespace AppConfig

/-- Where the `i`-th name starts. -/
def nameOffset (p : Platform) (c : AppConfig) (i : Nat) : Nat :=
  countOffset + p.sizeT + (writeNames p (c.names.take i)).length

/-- The fields in front of the number of names. -/
def writeFields (p : Platform) (c : AppConfig) : List UInt8 :=
  c.adapterIp.write ++ (p.writeInt c.adapterSubnetBits ++
    (c.serverIp.write ++ (p.writeInt c.serverPort ++ p.writeInt c.logLevel)))

end AppConfig

/-- The `i`-th name, with its length as it is read, asks for a buffer that cannot be allocated. -/
def NameTooLarge (p : Platform) (mem : Uninitialised) (c : AppConfig) (bytes : List UInt8)
    (i : Nat) : Prop :=
  p.maxAlloc < (lengthAt p bytes (c.nameOffset p i) (mem.size i) + 1) % 256 ^ p.sizeT

/-- The number of names, as it is read, is more than a vector can hold, or one of so many names asks
for a buffer that cannot be allocated. -/
def LengthTooLarge (p : Platform) (mem : Uninitialised) (c : AppConfig) (bytes : List UInt8) :
    Prop :=
  let numberOfNames := lengthAt p bytes countOffset mem.numberOfNames
  p.maxNames < numberOfNames ∨ ∃ i, i < numberOfNames ∧ NameTooLarge p mem c bytes i

/-! ## 2. Reading a file that may end anywhere -/

-- An octet and an `int` take their bytes off the front, whatever is there.
theorem readOctet_rest {f : InputFile} (h : f.AtEndIfFailed) (old : UInt8) :
    (readOctet old f).2.rest = f.rest.drop 1 ∧ (readOctet old f).2.AtEndIfFailed :=
  (h.read 1).2

theorem NsIpAddress.read_rest {f : InputFile} (h : f.AtEndIfFailed) (ip : NsIpAddress) :
    (ip.read f).2.rest = f.rest.drop 4 ∧ (ip.read f).2.AtEndIfFailed := by
  obtain ⟨hrest₁, hend₁⟩ := readOctet_rest h ip.ipp1
  obtain ⟨hrest₂, hend₂⟩ := readOctet_rest hend₁ ip.ipp2
  obtain ⟨hrest₃, hend₃⟩ := readOctet_rest hend₂ ip.ipp3
  obtain ⟨hrest₄, hend₄⟩ := readOctet_rest hend₃ ip.ipp4
  refine ⟨hrest₄.trans ?_, hend₄⟩
  rw [hrest₃, hrest₂, hrest₁, List.drop_drop, List.drop_drop, List.drop_drop]

namespace Platform

variable (p : Platform)

theorem readInt_rest {f : InputFile} (h : f.AtEndIfFailed) (old : Int32) :
    (p.readInt old f).2.rest = f.rest.drop 4 ∧ (p.readInt old f).2.AtEndIfFailed :=
  (h.read 4).2

/-- A length is what the bytes that are left make of the old value. -/
theorem readSizeT_at {f : InputFile} (h : f.AtEndIfFailed) {bytes : List UInt8} {offset : Nat}
    (hrest : f.rest = bytes.drop offset) (old : Nat) :
    (p.readSizeT old f).1 = lengthAt p bytes offset old ∧
      (p.readSizeT old f).2.rest = bytes.drop (offset + p.sizeT) ∧
      (p.readSizeT old f).2.AtEndIfFailed := by
  obtain ⟨hbytes, hdrop, hend⟩ := h.read p.sizeT
  refine ⟨?_, ?_, hend⟩
  · show p.order.nat (InputFile.overwrite (p.writeSizeT old) (f.read p.sizeT).1) = _
    rw [hbytes, hrest, lengthAt]
  · rw [hrest, List.drop_drop] at hdrop
    exact hdrop

end Platform

namespace AppConfig

variable {p : Platform}

/-- The fields in front of the number of names take 20 bytes. -/
theorem writeFields_length (c : AppConfig) : (c.writeFields p).length = countOffset := by
  have hint (x : Int32) : (p.writeInt x).length = 4 := p.order.bytes_length 4 _
  simp only [writeFields, List.length_append, hint, NsIpAddress.write, List.length_cons,
    List.length_nil, countOffset]

theorem write_eq (c : AppConfig) :
    c.write p = c.writeFields p ++ (p.writeSizeT c.names.length ++ writeNames p c.names) := by
  simp only [write, writeFields, List.append_assoc]

theorem writeSizeT_length (n : Nat) : (p.writeSizeT n).length = p.sizeT :=
  p.order.bytes_length _ _

theorem writeNames_append (ss ts : List (List UInt8)) :
    writeNames p (ss ++ ts) = writeNames p ss ++ writeNames p ts := by
  induction ss with
  | nil => rfl
  | cons s ss ih => rw [List.cons_append, writeNames, writeNames, ih, List.append_assoc]

-- Behind the offset of a name stand this name and the later ones.
theorem write_drop_nameOffset (c : AppConfig) (i : Nat) :
    (c.write p).drop (c.nameOffset p i) = writeNames p (c.names.drop i) := by
  have hsplit : c.write p = (c.writeFields p ++ p.writeSizeT c.names.length ++
      writeNames p (c.names.take i)) ++ writeNames p (c.names.drop i) := by
    rw [List.append_assoc _ (writeNames p (c.names.take i)), ← writeNames_append,
      List.take_append_drop, write_eq, List.append_assoc]
  have hlen : (c.writeFields p ++ p.writeSizeT c.names.length ++
      writeNames p (c.names.take i)).length = c.nameOffset p i := by
    rw [List.length_append, List.length_append, writeFields_length, writeSizeT_length, nameOffset]
  rw [hsplit, ← hlen, List.drop_left]

theorem nameOffset_succ (c : AppConfig) {i : Nat} (hi : i < c.names.length) :
    c.nameOffset p (i + 1) = c.nameOffset p i + p.sizeT + c.names[i].length := by
  rw [nameOffset, nameOffset, List.take_succ_eq_append_getElem hi, writeNames_append,
    List.length_append, writeNames, writeNames, List.append_nil, writeString, List.length_append,
    writeSizeT_length]
  omega

theorem nameOffset_of_le (c : AppConfig) {i : Nat} (hi : c.names.length ≤ i) :
    c.nameOffset p i = (c.write p).length := by
  rw [nameOffset, List.take_of_length_le hi, write_eq, List.length_append, List.length_append,
    writeFields_length, writeSizeT_length]
  omega

/-! ## 3. The lengths in a file that is cut off -/

section CutOff

variable {c : AppConfig} {bytes : List UInt8}

-- What is left of a length is a prefix of it.
theorem lengthAt_prefix_of (hbytes : bytes <+: c.write p) {offset n : Nat} {rest : List UInt8}
    (hat : (c.write p).drop offset = p.writeSizeT n ++ rest) :
    (bytes.drop offset).take p.sizeT <+: p.writeSizeT n := by
  have hprefix : (bytes.drop offset).take p.sizeT <+: ((c.write p).drop offset).take p.sizeT :=
    (hbytes.drop offset).take p.sizeT
  have hlen : (p.writeSizeT n).length = p.sizeT := writeSizeT_length n
  rwa [hat, List.take_left' hlen] at hprefix

/-- A length that the cut leaves whole is read as it was written. -/
theorem lengthAt_whole (hbytes : bytes <+: c.write p) {offset n : Nat} {rest : List UInt8}
    (hat : (c.write p).drop offset = p.writeSizeT n ++ rest) (hn : n < 256 ^ p.sizeT)
    (hwhole : offset + p.sizeT ≤ bytes.length) (old : Nat) :
    lengthAt p bytes offset old = n := by
  have hlen : ((bytes.drop offset).take p.sizeT).length = (p.writeSizeT n).length := by
    rw [List.length_take, List.length_drop, writeSizeT_length]
    omega
  have heq := (lengthAt_prefix_of hbytes hat).eq_of_length hlen
  rw [lengthAt, heq, InputFile.overwrite_full (by rw [writeSizeT_length, writeSizeT_length]),
    Platform.writeSizeT, ByteOrder.nat_bytes_of_lt _ hn]

/-- With the length itself in memory nothing of it is lost. -/
theorem lengthAt_same (hbytes : bytes <+: c.write p) {offset n : Nat} {rest : List UInt8}
    (hat : (c.write p).drop offset = p.writeSizeT n ++ rest) (hn : n < 256 ^ p.sizeT) :
    lengthAt p bytes offset n = n := by
  rw [lengthAt, InputFile.overwrite_of_prefix (lengthAt_prefix_of hbytes hat), Platform.writeSizeT,
    ByteOrder.nat_bytes_of_lt _ hn]

theorem write_drop_countOffset :
    (c.write p).drop countOffset = p.writeSizeT c.names.length ++ writeNames p c.names := by
  rw [write_eq, ← writeFields_length (p := p) c, List.drop_left]

theorem write_drop_name {i : Nat} (hi : i < c.names.length) :
    (c.write p).drop (c.nameOffset p i) = p.writeSizeT c.names[i].length ++
      (c.names[i] ++ writeNames p (c.names.drop (i + 1))) := by
  rw [write_drop_nameOffset, List.drop_eq_getElem_cons hi, writeNames, writeString,
    List.append_assoc]

theorem InMemory.length_lt (hc : c.InMemory p) {i : Nat} (hi : i < c.names.length) :
    c.names[i].length < 256 ^ p.sizeT ∧ c.names[i].length < 2 ^ 63 := by
  have hfit := hc.name_fits _ (List.getElem_mem hi)
  have hmax := p.maxAlloc_lt
  have hmax' := p.maxAlloc_le
  omega

/-- Either the length of a name is there, or nothing behind it is. -/
theorem nameLength_cases (hc : c.InMemory p) (hbytes : bytes <+: c.write p) (i old : Nat) :
    (bytes.drop (c.nameOffset p i + p.sizeT) = [] ∧ bytes.drop (c.nameOffset p (i + 1)) = []) ∨
      ∃ hi : i < c.names.length,
        lengthAt p bytes (c.nameOffset p i) old = c.names[i].length := by
  have hle := hbytes.length_le
  by_cases hi : i < c.names.length
  · by_cases hwhole : c.nameOffset p i + p.sizeT ≤ bytes.length
    · exact .inr ⟨hi, lengthAt_whole hbytes (write_drop_name hi) (hc.length_lt hi).1 hwhole old⟩
    · left
      have hnext := nameOffset_succ (p := p) c hi
      constructor <;> apply List.drop_eq_nil_of_le <;> omega
  · left
    have hat := nameOffset_of_le (p := p) c (i := i) (by omega)
    have hnext := nameOffset_of_le (p := p) c (i := i + 1) (by omega)
    constructor <;> apply List.drop_eq_nil_of_le <;> omega

/-! ## 4. When something throws -/

-- The signed count makes a difference only to a length that no buffer has.
theorem readChars_rest {f : InputFile} (h : f.AtEndIfFailed) (size : Nat)
    (hsize : size < 2 ^ 63 ∨ f.rest = []) :
    (readChars size f).2.rest = f.rest.drop size ∧ (readChars size f).2.AtEndIfFailed := by
  unfold readChars
  split
  next => exact (h.read size).2
  next hlarge =>
    have hrest : f.rest = [] := hsize.resolve_left hlarge
    exact ⟨by rw [hrest, List.drop_nil], fun _ => hrest⟩

/-- One `readString` of a file that may end anywhere: it throws by the length alone, and otherwise
the next name is read where it stands, if it does. -/
theorem readString_at (hc : c.InMemory p) (hbytes : bytes <+: c.write p) (mem : Uninitialised)
    {f : InputFile} (h : f.AtEndIfFailed) {i : Nat}
    (hrest : f.rest = bytes.drop (c.nameOffset p i)) :
    ((readString p mem i f).thrown = true ↔ NameTooLarge p mem c bytes i) ∧
      ((readString p mem i f).thrown = false →
        (readString p mem i f).file.rest = bytes.drop (c.nameOffset p (i + 1)) ∧
          (readString p mem i f).file.AtEndIfFailed) := by
  obtain ⟨hlen, hrest', hend⟩ := p.readSizeT_at h hrest (mem.size i)
  simp only [readString, hlen]
  split
  next hfits =>
    refine ⟨⟨fun hfalse => absurd hfalse Bool.false_ne_true, fun hlarge => ?_⟩, fun _ => ?_⟩
    · unfold NameTooLarge at hlarge
      omega
    · obtain ⟨hnil, hnext⟩ | ⟨hi, hsize⟩ := nameLength_cases hc hbytes i (mem.size i)
      · obtain ⟨hchars, hend'⟩ := readChars_rest hend (lengthAt p bytes (c.nameOffset p i)
          (mem.size i)) (.inr (hrest'.trans hnil))
        exact ⟨by rw [hchars, hrest', hnil, hnext, List.drop_nil], hend'⟩
      · rw [hsize]
        obtain ⟨hchars, hend'⟩ := readChars_rest hend _ (.inl (hc.length_lt hi).2)
        exact ⟨by rw [hchars, hrest', List.drop_drop, nameOffset_succ c hi], hend'⟩
  next hfits =>
    refine ⟨⟨fun _ => ?_, fun _ => rfl⟩, fun hfalse => absurd hfalse.symm Bool.false_ne_true⟩
    unfold NameTooLarge
    omega

/-- The names loop throws at the first name that is too large or has no room in the vector. -/
theorem readNames_thrown_iff (hc : c.InMemory p) (hbytes : bytes <+: c.write p)
    (mem : Uninitialised) {n i : Nat} {f : InputFile} (h : f.AtEndIfFailed)
    (hrest : f.rest = bytes.drop (c.nameOffset p i)) :
    (readNames p mem n i f).2.2.2 = true ↔
      ∃ j, i ≤ j ∧ j < i + n ∧ (NameTooLarge p mem c bytes j ∨ p.maxNames ≤ j) := by
  induction n generalizing i f with
  | zero =>
    constructor
    · intro hfalse
      exact absurd hfalse Bool.false_ne_true
    · rintro ⟨j, hij, hji, -⟩
      omega
  | succ n ih =>
    obtain ⟨hthrown, hnext⟩ := readString_at hc hbytes mem h hrest
    simp only [readNames]
    split
    next hstop =>
      rw [hthrown] at hstop
      exact ⟨fun _ => ⟨i, Nat.le_refl i, by omega, hstop⟩, fun _ => rfl⟩
    next hgo =>
      rw [not_or, Bool.not_eq_true] at hgo
      obtain ⟨hrest', hend'⟩ := hnext hgo.1
      have hfits : ¬ NameTooLarge p mem c bytes i := by
        rw [← hthrown, hgo.1]
        exact Bool.false_ne_true
      rw [ih hend' hrest']
      constructor
      · rintro ⟨j, hij, hji, hj⟩
        exact ⟨j, by omega, by omega, hj⟩
      · rintro ⟨j, hij, hji, hj⟩
        have hne : j ≠ i := by
          rintro rfl
          exact hj.elim hfits hgo.2
        exact ⟨j, by omega, by omega, hj⟩

/-- Reading in front of the names throws nothing and takes the bytes of the fields and of the count
off the front. -/
theorem read_eq (bytes : List UInt8) (old : AppConfig) (mem : Uninitialised) :
    ∃ f : InputFile, f.AtEndIfFailed ∧ f.rest = bytes.drop (countOffset + p.sizeT) ∧
      let names := readNames p mem (lengthAt p bytes countOffset mem.numberOfNames) 0 f
      (old.read p mem { rest := bytes }).strings = names.2.2.1 ∧
        (old.read p mem { rest := bytes }).thrown = names.2.2.2 := by
  have hstart : InputFile.AtEndIfFailed { rest := bytes } := fun hfalse =>
    absurd hfalse Bool.false_ne_true
  rw [read]
  -- field by field, so that what is left of the file has a name
  obtain ⟨hrest₁, hend₁⟩ := NsIpAddress.read_rest hstart old.adapterIp
  generalize old.adapterIp.read { rest := bytes } = r₁ at hrest₁ hend₁ ⊢
  obtain ⟨hrest₂, hend₂⟩ := p.readInt_rest hend₁ old.adapterSubnetBits
  dsimp only
  generalize p.readInt old.adapterSubnetBits r₁.2 = r₂ at hrest₂ hend₂ ⊢
  obtain ⟨hrest₃, hend₃⟩ := NsIpAddress.read_rest hend₂ old.serverIp
  generalize old.serverIp.read r₂.2 = r₃ at hrest₃ hend₃ ⊢
  obtain ⟨hrest₄, hend₄⟩ := p.readInt_rest hend₃ old.serverPort
  generalize p.readInt old.serverPort r₃.2 = r₄ at hrest₄ hend₄ ⊢
  obtain ⟨hrest₅, hend₅⟩ := p.readInt_rest hend₄ old.logLevel
  generalize p.readInt old.logLevel r₄.2 = r₅ at hrest₅ hend₅ ⊢
  rw [hrest₄, hrest₃, hrest₂, hrest₁, List.drop_drop, List.drop_drop, List.drop_drop,
    List.drop_drop] at hrest₅
  have hcount : r₅.2.rest = bytes.drop countOffset := hrest₅
  obtain ⟨hlen, hrest₆, hend₆⟩ := p.readSizeT_at hend₅ hcount mem.numberOfNames
  rw [← hlen]
  exact ⟨_, hend₆, hrest₆, rfl, rfl⟩

theorem read_thrown_iff (hc : c.InMemory p) (hbytes : bytes <+: c.write p) (old : AppConfig)
    (mem : Uninitialised) :
    (old.read p mem { rest := bytes }).thrown = true ↔ LengthTooLarge p mem c bytes := by
  obtain ⟨f, hend, hrest, -, hthrown⟩ := read_eq (p := p) bytes old mem
  have hfirst : f.rest = bytes.drop (c.nameOffset p 0) := hrest
  rw [hthrown, readNames_thrown_iff hc hbytes mem hend hfirst]
  constructor
  · rintro ⟨i, -, hi, hlarge | hfull⟩
    · exact .inr ⟨i, by omega, hlarge⟩
    · exact .inl (by omega)
  · rintro (hfull | ⟨i, hi, hlarge⟩)
    · exact ⟨p.maxNames, Nat.zero_le _, by omega, .inr (Nat.le_refl _)⟩
    · exact ⟨i, Nat.zero_le _, by omega, .inl hlarge⟩

/-- Memory that holds the lengths of this configuration. -/
def trueLengths (c : AppConfig) : Uninitialised where
  numberOfNames := c.names.length
  size i := (c.names.getD i []).length
  byte _ _ := 0

-- Whatever is cut off, the lengths in memory are none that could not be allocated.
theorem not_lengthTooLarge (hc : c.InMemory p) (hbytes : bytes <+: c.write p) :
    ¬ LengthTooLarge p c.trueLengths c bytes := by
  have hmax := p.maxAlloc_lt
  have hcount : lengthAt p bytes countOffset c.names.length = c.names.length :=
    lengthAt_same hbytes write_drop_countOffset
      (Nat.lt_of_le_of_lt hc.names_fit p.maxNames_lt)
  rintro (hfull | ⟨i, hi, hlarge⟩)
  · have hfit := hc.names_fit
    have hfull' : p.maxNames < lengthAt p bytes countOffset c.names.length := hfull
    omega
  · have hi' : i < lengthAt p bytes countOffset c.names.length := hi
    rw [hcount] at hi'
    have hfit := hc.name_fits _ (List.getElem_mem hi')
    have hsize : c.trueLengths.size i = c.names[i].length := by
      simp only [trueLengths, List.getD_eq_getElem?_getD, List.getElem?_eq_getElem hi',
        Option.getD_some]
    unfold NameTooLarge at hlarge
    rw [hsize, lengthAt_same hbytes (write_drop_name hi') (hc.length_lt hi').1,
      Nat.mod_eq_of_lt (by omega)] at hlarge
    omega

end CutOff

end AppConfig

/-- What `initRun` makes of a config file that is there. -/
def ConfigFileOutcome.ofFile (p : Platform) (mem : Uninitialised) (internalConfig : AppConfig)
    (bytes : List UInt8) : ConfigFileOutcome :=
  let r := internalConfig.read p mem { rest := bytes }
  if r.thrown then .throws else .read r.config

/-- **A start stops at a config file that is cut off exactly if a length came out too large.**  With
the lengths that were cut off still in memory it never does. -/
theorem cutOff_throws_iff {p : Platform} {c : AppConfig} (hc : c.InMemory p) {bytes : List UInt8}
    (hbytes : bytes <+: c.write p) (old : AppConfig) (mem : Uninitialised) :
    ((old.read p mem { rest := bytes }).thrown = true ↔ LengthTooLarge p mem c bytes) ∧
      (ConfigFileOutcome.ofFile p mem old bytes = .throws ↔ LengthTooLarge p mem c bytes) ∧
      ∃ mem', ConfigFileOutcome.ofFile p mem' old bytes ≠ .throws := by
  have hofFile (mem : Uninitialised) : ConfigFileOutcome.ofFile p mem old bytes = .throws ↔
      LengthTooLarge p mem c bytes := by
    rw [← AppConfig.read_thrown_iff hc hbytes old mem, ConfigFileOutcome.ofFile]
    split
    next hthrown => exact iff_of_true rfl hthrown
    next hthrown => exact iff_of_false (fun h => by cases h) hthrown
  refine ⟨AppConfig.read_thrown_iff hc hbytes old mem, hofFile mem, c.trueLengths, ?_⟩
  exact mt (hofFile c.trueLengths).mp (AppConfig.not_lengthTooLarge hc hbytes)

/-- A configuration with one name of one byte. -/
def oneName : AppConfig where
  adapterSubnetBits := 24
  serverPort := 5555
  logLevel := 2
  names := [[65]]

theorem oneName_inMemory : oneName.InMemory .x64 where
  names_fit := by decide
  name_fits := by decide

/-- Memory that was cleared. -/
def zeroMemory : Uninitialised := ⟨0, fun _ => 0, fun _ _ => 0⟩

-- The cut goes through the number of names.
theorem cutOff_throws_iff_oneName :
    let old := { oneName with names := [] }
    let bytes := (oneName.write .x64).take 24
    ((old.read .x64 zeroMemory { rest := bytes }).thrown = true ↔
        LengthTooLarge .x64 zeroMemory oneName bytes) ∧
      (ConfigFileOutcome.ofFile .x64 zeroMemory old bytes = .throws ↔
        LengthTooLarge .x64 zeroMemory oneName bytes) ∧
      ∃ mem', ConfigFileOutcome.ofFile .x64 mem' old bytes ≠ .throws :=
  cutOff_throws_iff oneName_inMemory (List.take_prefix 24 _) { oneName with names := [] } zeroMemory

/-- With the byte of the name missing, the file is accepted. -/
theorem missingName_accepted :
    ¬ ∀ (p : Platform) (c : AppConfig) (bytes : List UInt8), c.InMemory p → bytes <+: c.write p →
      bytes ≠ c.write p → ∀ (old : AppConfig) (mem : Uninitialised),
        (old.read p mem { rest := bytes }).thrown = true := by
  intro hclaim
  have hthrown := hclaim .x64 oneName ((oneName.write .x64).take 36) oneName_inMemory
    (List.take_prefix _ _) (by decide) { oneName with names := [] } zeroMemory
  have haccepted : (AppConfig.read { oneName with names := [] } .x64 zeroMemory
      { rest := (oneName.write .x64).take 36 }).thrown = false := rfl
  rw [haccepted] at hthrown
  exact Bool.false_ne_true hthrown

end NetShare
