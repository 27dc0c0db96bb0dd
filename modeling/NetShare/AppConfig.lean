import NetShare.Reasoning.ByteOrder
import NetShare.Reasoning.InputFile
import Mathlib.Data.List.TakeWhile

/-!
# The stored configuration

`AppConfig` from `AppConfig.h` and `AppConfig.cpp`, with `NsIpAddress` from `Config.h`: the
settings the daemon keeps in its binary config file, as bytes written and read in memory order.
-/

namespace NetShare

open Reasoning

/-- What the file format depends on: the width of `size_t`, the byte order, the largest `char`
array `new` can hand out, and how many strings a vector can hold.  An array is below
`PTRDIFF_MAX`, so a length that fits in memory is also a valid `std::streamsize`. -/
structure Platform where
  sizeT : Nat
  order : ByteOrder
  maxAlloc : Nat
  maxNames : Nat
  maxAlloc_lt : maxAlloc < 256 ^ sizeT
  maxAlloc_le : maxAlloc < 2 ^ 63
  maxNames_lt : maxNames < 256 ^ sizeT

/-- The 64-bit builds; a `std::string` object takes 32 bytes. -/
def Platform.x64 : Platform where
  sizeT := 8
  order := .little
  maxAlloc := 2 ^ 63 - 1
  maxNames := (2 ^ 63 - 1) / 32
  maxAlloc_lt := by decide
  maxAlloc_le := by decide
  maxNames_lt := by decide

structure NsIpAddress where
  ipp1 : UInt8 := 0
  ipp2 : UInt8 := 0
  ipp3 : UInt8 := 0
  ipp4 : UInt8 := 0
deriving DecidableEq

/-- `logLevel` is an `enum` with an `int` inside; any 32-bit value can be stored in it.  A name is
its bytes, without the terminator. -/
structure AppConfig where
  adapterIp : NsIpAddress := {}
  adapterSubnetBits : Int32
  serverIp : NsIpAddress := {}
  serverPort : Int32
  logLevel : Int32
  names : List (List UInt8) := []
deriving DecidableEq

/-- The memory that `read` uses before writing it: `numberOfNames`, and for the `i`-th string its
`size` and the bytes of the buffer from `new char[size + 1]`. -/
structure Uninitialised where
  numberOfNames : Nat
  size : Nat → Nat
  byte : Nat → Nat → UInt8

/-! ## 1. Writing -/

def NsIpAddress.write (ip : NsIpAddress) : List UInt8 := [ip.ipp1, ip.ipp2, ip.ipp3, ip.ipp4]

namespace Platform

def writeInt (p : Platform) (x : Int32) : List UInt8 := p.order.bytes 4 x.toBitVec.toNat

def writeSizeT (p : Platform) (n : Nat) : List UInt8 := p.order.bytes p.sizeT n

end Platform

namespace AppConfig

def writeString (p : Platform) (s : List UInt8) : List UInt8 := p.writeSizeT s.length ++ s

def writeNames (p : Platform) : List (List UInt8) → List UInt8
  | [] => []
  | s :: ss => writeString p s ++ writeNames p ss

def write (p : Platform) (c : AppConfig) : List UInt8 :=
  c.adapterIp.write ++ (p.writeInt c.adapterSubnetBits ++
    (c.serverIp.write ++ (p.writeInt c.serverPort ++
      (p.writeInt c.logLevel ++ (p.writeSizeT c.names.length ++ writeNames p c.names)))))

end AppConfig

/-! ## 2. Reading -/

/-- Reads one octet over its old value. -/
def readOctet (old : UInt8) (f : InputFile) : UInt8 × InputFile :=
  let (bs, f) := f.read 1
  (bs.headD old, f)

def NsIpAddress.read (ip : NsIpAddress) (f : InputFile) : NsIpAddress × InputFile :=
  let (ipp1, f) := readOctet ip.ipp1 f
  let (ipp2, f) := readOctet ip.ipp2 f
  let (ipp3, f) := readOctet ip.ipp3 f
  let (ipp4, f) := readOctet ip.ipp4 f
  ({ ipp1, ipp2, ipp3, ipp4 }, f)

namespace Platform

def readInt (p : Platform) (old : Int32) (f : InputFile) : Int32 × InputFile :=
  let (bs, f) := f.read 4
  (Int32.ofBitVec (.ofNat 32 (p.order.nat (InputFile.overwrite (p.writeInt old) bs))), f)

def readSizeT (p : Platform) (old : Nat) (f : InputFile) : Nat × InputFile :=
  let (bs, f) := f.read p.sizeT
  (p.order.nat (InputFile.overwrite (p.writeSizeT old) bs), f)

end Platform

/-- `file.read(data, size)`: the count is a signed 64-bit `std::streamsize`, and with a negative
one nothing is read and the fail bit is set. -/
def readChars (size : Nat) (f : InputFile) : List UInt8 × InputFile :=
  if size < 2 ^ 63 then f.read size else ([], { f with failed := true })

/-- One execution of `readString`: the string it yields, the length of its buffer, the indices it
stores at, the file after it, and whether `new` threw. -/
structure StringRead where
  value : List UInt8
  allocated : Nat
  stored : List Nat
  file : InputFile
  thrown : Bool

/-- One execution of `read`: the object and the file after it, the executions of `readString`, and
whether an allocation threw. -/
structure ConfigRead where
  config : AppConfig
  file : InputFile
  strings : List StringRead
  thrown : Bool

namespace AppConfig

/-- The `i`-th `readString`.  `size + 1` is computed in `size_t`, and the string ends at the first
NUL of the buffer, at the latest at `data[size]`. -/
def readString (p : Platform) (mem : Uninitialised) (i : Nat) (f : InputFile) : StringRead :=
  let (size, f) := p.readSizeT (mem.size i) f
  let allocated := (size + 1) % 256 ^ p.sizeT
  if allocated ≤ p.maxAlloc then
    let (bs, f) := readChars size f
    let data := InputFile.overwrite ((List.range size).map (mem.byte i)) bs
    { value := data.takeWhile (· ≠ 0)
      allocated
      stored := List.range bs.length ++ [size]
      file := f
      thrown := false }
  else
    { value := [], allocated, stored := [], file := f, thrown := true }

/-- The names loop with `n` names to go, the next one the `i`-th: the names pushed, the file, the
strings read and whether a string or the `push_back` onto a full vector threw. -/
def readNames (p : Platform) (mem : Uninitialised) :
    Nat → Nat → InputFile → List (List UInt8) × InputFile × List StringRead × Bool
  | 0, _, f => ([], f, [], false)
  | n + 1, i, f =>
    let r := readString p mem i f
    if r.thrown ∨ p.maxNames ≤ i then ([], r.file, [r], true)
    else
      let (names, f, strings, thrown) := readNames p mem n (i + 1) r.file
      (r.value :: names, f, r :: strings, thrown)

/-- `read` into the object `c`. -/
def read (c : AppConfig) (p : Platform) (mem : Uninitialised) (f : InputFile) : ConfigRead :=
  let (adapterIp, f) := c.adapterIp.read f
  let (adapterSubnetBits, f) := p.readInt c.adapterSubnetBits f
  let (serverIp, f) := c.serverIp.read f
  let (serverPort, f) := p.readInt c.serverPort f
  let (logLevel, f) := p.readInt c.logLevel f
  let (numberOfNames, f) := p.readSizeT mem.numberOfNames f
  let (names, f, strings, thrown) := readNames p mem numberOfNames 0 f
  { config := { adapterIp, adapterSubnetBits, serverIp, serverPort, logLevel, names }
    file := f
    strings
    thrown }

end AppConfig

/-! ## 3. Reading back what was written -/

/-- Any object in memory: the vector holds its names and each of them is in a buffer of its own. -/
structure AppConfig.InMemory (p : Platform) (c : AppConfig) : Prop where
  names_fit : c.names.length ≤ p.maxNames
  name_fits : ∀ s ∈ c.names, s.length + 1 ≤ p.maxAlloc

/-- A configuration as the callers can store it: its names fit in a vector, and each was itself held
in an allocated C string, and so has no NUL in it. -/
structure StorableConfig (p : Platform) where
  config : AppConfig
  names_fit : config.names.length ≤ p.maxNames
  name_fits : ∀ s ∈ config.names, s.length + 1 ≤ p.maxAlloc
  nul_free : ∀ s ∈ config.names, (0 : UInt8) ∉ s

theorem StorableConfig.inMemory {p : Platform} (c : StorableConfig p) : c.config.InMemory p :=
  ⟨c.names_fit, c.name_fits⟩

theorem AppConfig.InMemory.count_lt {p : Platform} {c : AppConfig} (hc : c.InMemory p) :
    c.names.length < 256 ^ p.sizeT :=
  Nat.lt_of_le_of_lt hc.names_fit p.maxNames_lt

/-- The configuration with its names cut off at the first NUL, as C strings are. -/
def AppConfig.untilNul (c : AppConfig) : AppConfig :=
  { c with names := c.names.map fun s => s.takeWhile (· ≠ 0) }

-- A name without NUL is not cut.
theorem takeWhile_of_nul_free {s : List UInt8} (hnul : (0 : UInt8) ∉ s) :
    s.takeWhile (· ≠ 0) = s :=
  List.takeWhile_eq_self_iff.mpr fun _ hb => decide_eq_true fun h0 => hnul (h0 ▸ hb)

theorem StorableConfig.untilNul_eq {p : Platform} (c : StorableConfig p) :
    c.config.untilNul = c.config := by
  have hnames : c.config.names.map (fun s => s.takeWhile (· ≠ 0)) = c.config.names := by
    rw [List.map_congr_left fun s hs => takeWhile_of_nul_free (c.nul_free s hs), List.map_id']
  rw [AppConfig.untilNul, hnames]

/-- What is left of a configuration in memory can be stored. -/
def AppConfig.InMemory.storable {p : Platform} {c : AppConfig} (hc : c.InMemory p) :
    StorableConfig p where
  config := c.untilNul
  names_fit := by
    rw [AppConfig.untilNul, List.length_map]
    exact hc.names_fit
  name_fits := by
    intro s hs
    obtain ⟨t, ht, rfl⟩ := List.mem_map.mp hs
    have hlen := (List.takeWhile_prefix (· ≠ 0) (l := t)).length_le
    have hfit := hc.name_fits t ht
    omega
  nul_free := by
    intro s hs h0
    obtain ⟨t, -, rfl⟩ := List.mem_map.mp hs
    have hne := List.mem_takeWhile_imp h0
    simp at hne

@[simp] theorem readOctet_cons (old b : UInt8) (rest : List UInt8) :
    readOctet old { rest := b :: rest } = (b, { rest }) := by
  have h := InputFile.read_append [b] rest
  rw [List.singleton_append, List.length_singleton] at h
  rw [readOctet, h]
  rfl

-- The octets are written and read one by one, in the same order.
theorem NsIpAddress.read_writeOctets (old ip : NsIpAddress) (rest : List UInt8) :
    old.read { rest := ip.write ++ rest } = (ip, { rest }) := by
  simp only [NsIpAddress.read, NsIpAddress.write, List.cons_append, List.nil_append,
    readOctet_cons]

namespace Platform

variable (p : Platform)

-- A whole read overwrites every byte, so the old value does not show through.
theorem readInt_writeInt (old x : Int32) (rest : List UInt8) :
    p.readInt old { rest := p.writeInt x ++ rest } = (x, { rest }) := by
  have hlen : (p.writeInt x).length = 4 := p.order.bytes_length 4 _
  have hread := InputFile.read_append (p.writeInt x) rest
  have hfit : x.toBitVec.toNat < 256 ^ 4 := x.toBitVec.isLt
  rw [hlen] at hread
  simp only [readInt, hread]
  rw [InputFile.overwrite_full (by rw [writeInt, writeInt, ByteOrder.bytes_length,
    ByteOrder.bytes_length]), writeInt, ByteOrder.nat_bytes_of_lt _ hfit, BitVec.ofNat_toNat,
    BitVec.setWidth_eq, Int32.ofBitVec_toBitVec]

-- A length that does not fit `size_t` could not have been written.
theorem readSizeT_writeSizeT {n : Nat} (hn : n < 256 ^ p.sizeT) (old : Nat) (rest : List UInt8) :
    p.readSizeT old { rest := p.writeSizeT n ++ rest } = (n, { rest }) := by
  have hlen : (p.writeSizeT n).length = p.sizeT := p.order.bytes_length _ _
  have hread := InputFile.read_append (p.writeSizeT n) rest
  rw [hlen] at hread
  simp only [readSizeT, hread]
  rw [InputFile.overwrite_full (by rw [writeSizeT, writeSizeT, ByteOrder.bytes_length,
    ByteOrder.bytes_length]), writeSizeT, ByteOrder.nat_bytes_of_lt _ hn]

end Platform

namespace AppConfig

variable {p : Platform} (mem : Uninitialised)

/-- A string that fits in memory comes back up to its first NUL. -/
theorem readString_writeString {s : List UInt8} (hfit : s.length + 1 ≤ p.maxAlloc) (i : Nat)
    (rest : List UInt8) :
    (readString p mem i { rest := writeString p s ++ rest }).value = s.takeWhile (· ≠ 0) ∧
      (readString p mem i { rest := writeString p s ++ rest }).file = { rest } ∧
      (readString p mem i { rest := writeString p s ++ rest }).thrown = false := by
  have hmax := p.maxAlloc_lt
  have hmax' := p.maxAlloc_le
  have hsize : s.length < 256 ^ p.sizeT := by omega
  have hcount : readChars s.length { rest := s ++ rest } = (s, { rest }) := by
    rw [readChars, if_pos (by omega), InputFile.read_append]
  have hsz : p.readSizeT (mem.size i) { rest := writeString p s ++ rest } =
      (s.length, { rest := s ++ rest }) := by
    rw [writeString, List.append_assoc, p.readSizeT_writeSizeT hsize]
  have halloc : (s.length + 1) % 256 ^ p.sizeT ≤ p.maxAlloc := by
    rw [Nat.mod_eq_of_lt (by omega)]
    exact hfit
  have hdata : InputFile.overwrite ((List.range s.length).map (mem.byte i)) s = s :=
    InputFile.overwrite_full (by rw [List.length_map, List.length_range])
  simp only [readString, hsz, halloc, if_true, hcount, hdata, and_self]

/-- The names loop reads back the names written, whatever follows them. -/
theorem readNames_writeNames {ss : List (List UInt8)}
    (hfit : ∀ s ∈ ss, s.length + 1 ≤ p.maxAlloc) {i : Nat} (hroom : i + ss.length ≤ p.maxNames)
    (rest : List UInt8) :
    (readNames p mem ss.length i { rest := writeNames p ss ++ rest }).1 =
        ss.map (fun s => s.takeWhile (· ≠ 0)) ∧
      (readNames p mem ss.length i { rest := writeNames p ss ++ rest }).2.1 = { rest } ∧
      (readNames p mem ss.length i { rest := writeNames p ss ++ rest }).2.2.2 = false := by
  induction ss generalizing i with
  | nil => exact ⟨rfl, rfl, rfl⟩
  | cons s ss ih =>
    obtain ⟨hvalue, hfile, hthrown⟩ :=
      readString_writeString mem (hfit s List.mem_cons_self) i (writeNames p ss ++ rest)
    rw [List.length_cons] at hroom
    obtain ⟨hnames, hrest, hok⟩ := ih (fun t ht => hfit t (List.mem_cons_of_mem s ht))
      (i := i + 1) (by omega)
    have hnext : ¬ p.maxNames ≤ i := by omega
    rw [writeNames, List.append_assoc, List.length_cons, List.map_cons]
    simp only [readNames, hthrown, Bool.false_eq_true, hnext, or_self, if_false, hfile, hvalue,
      hnames, hrest, hok, and_self]

/-- What was written for an object in memory is read back, its names cut off at the first NUL. -/
theorem InMemory.read_back {c : AppConfig} (hc : c.InMemory p) (old : AppConfig)
    (rest : List UInt8) :
    (old.read p mem { rest := c.write p ++ rest }).config = c.untilNul ∧
      (old.read p mem { rest := c.write p ++ rest }).file = { rest } ∧
      (old.read p mem { rest := c.write p ++ rest }).thrown = false := by
  obtain ⟨hnames, hfile, hthrown⟩ :=
    readNames_writeNames mem hc.name_fits (by rw [Nat.zero_add]; exact hc.names_fit) rest
  simp only [AppConfig.read, AppConfig.write, List.append_assoc, NsIpAddress.read_writeOctets,
    Platform.readInt_writeInt, p.readSizeT_writeSizeT hc.count_lt, hnames, hfile, hthrown,
    untilNul, and_self]

-- A file that holds what was written and nothing else.
theorem InMemory.read_whole {c : AppConfig} (hc : c.InMemory p) (old : AppConfig) :
    (old.read p mem { rest := c.write p }).config = c.untilNul ∧
      (old.read p mem { rest := c.write p }).thrown = false := by
  obtain ⟨hconfig, -, hthrown⟩ := hc.read_back mem old []
  rw [List.append_nil] at hconfig hthrown
  exact ⟨hconfig, hthrown⟩

theorem read_stored (c : StorableConfig p) (old : AppConfig) :
    (old.read p mem { rest := c.config.write p }).config = c.config ∧
      (old.read p mem { rest := c.config.write p }).thrown = false := by
  have hread := c.inMemory.read_whole mem old
  rwa [c.untilNul_eq] at hread

end AppConfig

/-- **`read` undoes `write`.**  On the same platform, reading what was written for a configuration
throws nothing, restores its six fields with the names in order, whatever the object held before
and whatever uninitialised memory holds, and stops where the configuration ends. -/
theorem read_write (p : Platform) (mem : Uninitialised) (old : AppConfig) (c : StorableConfig p)
    (rest : List UInt8) :
    (old.read p mem { rest := c.config.write p ++ rest }).config = c.config ∧
      (old.read p mem { rest := c.config.write p ++ rest }).file = { rest } ∧
      (old.read p mem { rest := c.config.write p ++ rest }).thrown = false := by
  have hread := c.inMemory.read_back mem old rest
  rwa [c.untilNul_eq] at hread

end NetShare
