import NetShare.NameBuffers

/-!
# What the config reader accepts

Nobody looks at the fail bit after `AppConfig::read`, and nothing in the file says what it is.  What
comes out without a throw, a fail bit or a store outside a buffer is exactly what `write` produces,
and no file is two configurations at once.
-/

namespace NetShare

open Reasoning

/-! ## 1. Fields that were read are fields that were written -/

theorem readOctet_sound {old b : UInt8} {f g : InputFile} (h : readOctet old f = (b, g))
    (hok : g.failed = false) : f = { rest := b :: g.rest } := by
  rcases hread : f.read 1 with ⟨bs, g'⟩
  rw [readOctet, hread] at h
  obtain ⟨rfl, rfl⟩ := Prod.mk.inj h
  obtain ⟨hlength, hf⟩ := InputFile.read_sound hread hok
  obtain ⟨b, rfl⟩ := List.length_eq_one_iff.mp hlength
  exact hf

theorem NsIpAddress.read_sound {old ip : NsIpAddress} {f g : InputFile}
    (h : old.read f = (ip, g)) (hok : g.failed = false) :
    f = { rest := ip.write ++ g.rest } := by
  rw [NsIpAddress.read] at h
  rcases h₁ : readOctet old.ipp1 f with ⟨b₁, f₁⟩
  rcases h₂ : readOctet old.ipp2 f₁ with ⟨b₂, f₂⟩
  rcases h₃ : readOctet old.ipp3 f₂ with ⟨b₃, f₃⟩
  rcases h₄ : readOctet old.ipp4 f₃ with ⟨b₄, f₄⟩
  simp only [h₁, h₂, h₃, h₄, Prod.mk.injEq] at h
  obtain ⟨rfl, rfl⟩ := h
  obtain rfl := readOctet_sound h₄ hok
  obtain rfl := readOctet_sound h₃ rfl
  obtain rfl := readOctet_sound h₂ rfl
  exact readOctet_sound h₁ rfl

namespace Platform

variable {p : Platform}

theorem readInt_sound {old x : Int32} {f g : InputFile} (h : p.readInt old f = (x, g))
    (hok : g.failed = false) : f = { rest := p.writeInt x ++ g.rest } := by
  rcases hread : f.read 4 with ⟨bs, g'⟩
  rw [readInt, hread] at h
  obtain ⟨rfl, rfl⟩ := Prod.mk.inj h
  obtain ⟨hlength, hf⟩ := InputFile.read_sound hread hok
  have hold : (p.writeInt old).length = bs.length := by
    rw [hlength, writeInt, ByteOrder.bytes_length]
  have hbytes := p.order.bytes_nat bs
  have hlt : p.order.nat bs < 2 ^ 32 := by
    have := p.order.nat_lt bs
    rw [hlength] at this
    omega
  rw [hlength] at hbytes
  rw [InputFile.overwrite_full hold, writeInt, Int32.toBitVec_ofBitVec, BitVec.toNat_ofNat,
    Nat.mod_eq_of_lt hlt, hbytes]
  exact hf

theorem readSizeT_sound {old n : Nat} {f g : InputFile} (h : p.readSizeT old f = (n, g))
    (hok : g.failed = false) : f = { rest := p.writeSizeT n ++ g.rest } := by
  rcases hread : f.read p.sizeT with ⟨bs, g'⟩
  rw [readSizeT, hread] at h
  obtain ⟨rfl, rfl⟩ := Prod.mk.inj h
  obtain ⟨hlength, hf⟩ := InputFile.read_sound hread hok
  have hold : (p.writeSizeT old).length = bs.length := by
    rw [hlength, writeSizeT, ByteOrder.bytes_length]
  have hbytes := p.order.bytes_nat bs
  rw [hlength] at hbytes
  rw [InputFile.overwrite_full hold, writeSizeT, hbytes]
  exact hf

end Platform

/-- The bytes of a string, with a count that is not negative. -/
theorem readChars_sound {size : Nat} {bs : List UInt8} {f g : InputFile}
    (h : readChars size f = (bs, g)) (hok : g.failed = false) :
    bs.length = size ∧ f = { rest := bs ++ g.rest } := by
  unfold readChars at h
  split at h
  next hcount =>
    exact InputFile.read_sound h hok
  next =>
    obtain ⟨-, rfl⟩ := Prod.mk.inj h
    exact absurd hok.symm Bool.false_ne_true

namespace AppConfig

variable {p : Platform} {mem : Uninitialised}

theorem readString_sound {i : Nat} {f : InputFile} (hthrown : (readString p mem i f).thrown = false)
    (hok : (readString p mem i f).file.failed = false) (hin : (readString p mem i f).InBounds) :
    ∃ s : List UInt8, s.length + 1 ≤ p.maxAlloc ∧
      f = { rest := writeString p s ++ (readString p mem i f).file.rest } := by
  have hgreatest := (readString_inBounds_iff mem i f).mp hin
  have hlt := readSizeT_lt p (mem.size i) f
  unfold readString at hthrown hok ⊢
  rcases hsize : p.readSizeT (mem.size i) f with ⟨size, g⟩
  rcases hchars : readChars size g with ⟨bs, g'⟩
  simp only [hsize, hchars] at hthrown hok hgreatest hlt ⊢
  split at hthrown
  next hfits =>
    rw [if_pos hfits] at hok ⊢
    rw [Nat.mod_eq_of_lt (by omega)] at hfits
    obtain ⟨hlength, rfl⟩ := readChars_sound hchars hok
    refine ⟨bs, by omega, ?_⟩
    rw [writeString, hlength, List.append_assoc]
    exact Platform.readSizeT_sound hsize rfl
  next => exact absurd hthrown.symm Bool.false_ne_true

/-- The names loop, from the `i`-th name on. -/
theorem readNames_sound {n i : Nat} {f : InputFile}
    (hthrown : (readNames p mem n i f).2.2.2 = false)
    (hok : (readNames p mem n i f).2.1.failed = false)
    (hin : ∀ r ∈ (readNames p mem n i f).2.2.1, r.InBounds) :
    ∃ ss : List (List UInt8), ss.length = n ∧ (n = 0 ∨ i + n ≤ p.maxNames) ∧
      (∀ s ∈ ss, s.length + 1 ≤ p.maxAlloc) ∧
      f = { rest := writeNames p ss ++ (readNames p mem n i f).2.1.rest } := by
  induction n generalizing i f with
  | zero =>
    refine ⟨[], rfl, .inl rfl, fun _ h => absurd h List.not_mem_nil, ?_⟩
    exact congrArg (InputFile.mk f.rest) hok
  | succ n ih =>
    rw [readNames] at hthrown hok hin ⊢
    dsimp only at hthrown hok hin ⊢
    split at hthrown
    next => exact absurd hthrown.symm Bool.false_ne_true
    next hgo =>
      rw [if_neg hgo] at hok hin ⊢
      rw [not_or, Bool.not_eq_true] at hgo
      obtain ⟨hfirst, hlater⟩ := List.forall_mem_cons.mp hin
      obtain ⟨ss, hcount, hroom, hfits, hf⟩ := ih hthrown hok hlater
      obtain ⟨s, hs, hf'⟩ := readString_sound hgo.1 (congrArg InputFile.failed hf) hfirst
      refine ⟨s :: ss, by rw [List.length_cons, hcount], .inr (by omega),
        List.forall_mem_cons.mpr ⟨hs, hfits⟩, ?_⟩
      rw [writeNames, List.append_assoc]
      have hrest := congrArg InputFile.rest hf
      exact hf'.trans (congrArg (fun rest => InputFile.mk (writeString p s ++ rest) false) hrest)

end AppConfig

/-! ## 2. What is read without trouble -/

/-- Nothing went wrong in an execution of `read`: no throw, no fail bit, no store outside a
buffer. -/
structure ConfigRead.Succeeded (r : ConfigRead) : Prop where
  thrown : r.thrown = false
  failed : r.file.failed = false
  inBounds : ∀ s ∈ r.strings, s.InBounds

namespace AppConfig

variable {p : Platform} {mem : Uninitialised}

theorem read_sound {old : AppConfig} {f : InputFile} (h : (old.read p mem f).Succeeded) :
    ∃ c : AppConfig, c.InMemory p ∧ f = { rest := c.write p ++ (old.read p mem f).file.rest } := by
  obtain ⟨hthrown, hok, hin⟩ := h
  rw [read] at hthrown hok hin ⊢
  rcases h₁ : old.adapterIp.read f with ⟨adapterIp, f₁⟩
  rcases h₂ : p.readInt old.adapterSubnetBits f₁ with ⟨adapterSubnetBits, f₂⟩
  rcases h₃ : old.serverIp.read f₂ with ⟨serverIp, f₃⟩
  rcases h₄ : p.readInt old.serverPort f₃ with ⟨serverPort, f₄⟩
  rcases h₅ : p.readInt old.logLevel f₄ with ⟨logLevel, f₅⟩
  rcases h₆ : p.readSizeT mem.numberOfNames f₅ with ⟨numberOfNames, f₆⟩
  simp only [h₁, h₂, h₃, h₄, h₅, h₆] at hthrown hok hin ⊢
  obtain ⟨names, rfl, hroom, hfits, hf⟩ := readNames_sound hthrown hok hin
  generalize (readNames p mem names.length 0 f₆).2.1.rest = rest at hf ⊢
  obtain rfl := hf
  obtain rfl := Platform.readSizeT_sound h₆ rfl
  obtain rfl := Platform.readInt_sound h₅ rfl
  obtain rfl := Platform.readInt_sound h₄ rfl
  obtain rfl := NsIpAddress.read_sound h₃ rfl
  obtain rfl := Platform.readInt_sound h₂ rfl
  refine ⟨⟨adapterIp, adapterSubnetBits, serverIp, serverPort, logLevel, names⟩,
    ⟨show names.length ≤ p.maxNames by omega, hfits⟩, ?_⟩
  simp only [write, List.append_assoc]
  exact NsIpAddress.read_sound h₁ rfl

/-- The buffers of names that were written are long enough. -/
theorem readNames_inBounds {ss : List (List UInt8)} (hfit : ∀ s ∈ ss, s.length + 1 ≤ p.maxAlloc)
    {i : Nat} (rest : List UInt8) :
    ∀ r ∈ (readNames p mem ss.length i { rest := writeNames p ss ++ rest }).2.2.1,
      r.InBounds := by
  induction ss generalizing i with
  | nil => exact fun _ h => absurd h List.not_mem_nil
  | cons s ss ih =>
    obtain ⟨hs, hss⟩ := List.forall_mem_cons.mp hfit
    obtain ⟨-, hfile, -⟩ := readString_writeString mem hs i (writeNames p ss ++ rest)
    have hin : (readString p mem i
        { rest := writeString p s ++ (writeNames p ss ++ rest) }).InBounds := by
      have hmax := p.maxAlloc_lt
      rw [readString_inBounds_iff, writeString, List.append_assoc,
        p.readSizeT_writeSizeT (by omega)]
      dsimp only
      omega
    rw [List.length_cons, writeNames, List.append_assoc, readNames]
    dsimp only
    split
    next => exact List.forall_mem_singleton.mpr hin
    next =>
      rw [hfile]
      exact List.forall_mem_cons.mpr ⟨hin, ih hss⟩

theorem InMemory.read_succeeds {c : AppConfig} (hc : c.InMemory p) (mem : Uninitialised)
    (old : AppConfig) (rest : List UInt8) :
    (old.read p mem { rest := c.write p ++ rest }).Succeeded := by
  obtain ⟨-, hfile, hthrown⟩ := hc.read_back mem old rest
  refine ⟨hthrown, congrArg InputFile.failed hfile, ?_⟩
  simp only [AppConfig.read, AppConfig.write, List.append_assoc, NsIpAddress.read_writeOctets,
    Platform.readInt_writeInt, p.readSizeT_writeSizeT hc.count_lt]
  exact readNames_inBounds hc.name_fits rest

/-! ## 3. One file is one configuration -/

theorem writeSizeT_inj {m n : Nat} (hm : m < 256 ^ p.sizeT) (hn : n < 256 ^ p.sizeT)
    {rest rest' : List UInt8} (h : p.writeSizeT m ++ rest = p.writeSizeT n ++ rest') :
    m = n ∧ rest = rest' :=
  InputFile.inj_of_read (p.readSizeT_writeSizeT hm 0 rest) (p.readSizeT_writeSizeT hn 0 rest') h

/-- As many names, whatever follows them. -/
theorem writeNames_inj {ss ts : List (List UInt8)} (hss : ∀ s ∈ ss, s.length + 1 ≤ p.maxAlloc)
    (hts : ∀ t ∈ ts, t.length + 1 ≤ p.maxAlloc) (hlength : ss.length = ts.length)
    {rest rest' : List UInt8} (h : writeNames p ss ++ rest = writeNames p ts ++ rest') :
    ss = ts ∧ rest = rest' := by
  induction ss generalizing ts with
  | nil =>
    obtain rfl := List.eq_nil_of_length_eq_zero hlength.symm
    exact ⟨rfl, h⟩
  | cons s ss ih =>
    obtain ⟨t, ts, rfl⟩ := List.exists_cons_of_length_eq_add_one hlength.symm
    obtain ⟨hs, hss'⟩ := List.forall_mem_cons.mp hss
    obtain ⟨ht, hts'⟩ := List.forall_mem_cons.mp hts
    have hmax := p.maxAlloc_lt
    simp only [writeNames, writeString, List.append_assoc] at h
    obtain ⟨hcount, hbehind⟩ := writeSizeT_inj (by omega) (by omega) h
    obtain ⟨hst, hnames⟩ := List.append_inj hbehind hcount
    obtain ⟨hsts, hrest⟩ := ih hss' hts' (Nat.succ.inj hlength) hnames
    exact ⟨congrArg₂ List.cons hst hsts, hrest⟩

theorem InMemory.write_inj {c c' : AppConfig} (hc : c.InMemory p) (hc' : c'.InMemory p)
    {rest rest' : List UInt8} (h : c.write p ++ rest = c'.write p ++ rest') :
    c = c' ∧ rest = rest' := by
  obtain ⟨adapterIp, adapterSubnetBits, serverIp, serverPort, logLevel, names⟩ := c
  simp only [write, List.append_assoc] at h
  obtain ⟨rfl, h₁⟩ := InputFile.inj_of_read (NsIpAddress.read_writeOctets {} _ _)
    (NsIpAddress.read_writeOctets {} _ _) h
  obtain ⟨rfl, h₂⟩ := InputFile.inj_of_read (p.readInt_writeInt 0 _ _)
    (p.readInt_writeInt 0 _ _) h₁
  obtain ⟨rfl, h₃⟩ := InputFile.inj_of_read (NsIpAddress.read_writeOctets {} _ _)
    (NsIpAddress.read_writeOctets {} _ _) h₂
  obtain ⟨rfl, h₄⟩ := InputFile.inj_of_read (p.readInt_writeInt 0 _ _)
    (p.readInt_writeInt 0 _ _) h₃
  obtain ⟨rfl, h₅⟩ := InputFile.inj_of_read (p.readInt_writeInt 0 _ _)
    (p.readInt_writeInt 0 _ _) h₄
  obtain ⟨hlength, h₆⟩ := writeSizeT_inj hc.count_lt hc'.count_lt h₅
  obtain ⟨rfl, rfl⟩ := writeNames_inj hc.name_fits hc'.name_fits hlength h₆
  exact ⟨rfl, rfl⟩

end AppConfig

/-- **The reader gets through a file exactly if a configuration was written at its front.**  Then it
is one configuration only, and what is read is that configuration with its names cut off at the
first NUL. -/
theorem read_succeeded_iff (p : Platform) (mem : Uninitialised) (old : AppConfig)
    (bytes : List UInt8) :
    ((old.read p mem { rest := bytes }).Succeeded ↔
        ∃! written : AppConfig × List UInt8,
          written.1.InMemory p ∧ bytes = written.1.write p ++ written.2) ∧
      ∀ c : AppConfig, c.InMemory p → ∀ rest, bytes = c.write p ++ rest →
        (old.read p mem { rest := bytes }).config = c.untilNul ∧
          (old.read p mem { rest := bytes }).file = { rest } := by
  refine ⟨⟨fun h => ?_, ?_⟩, ?_⟩
  · obtain ⟨c, hc, hbytes⟩ := AppConfig.read_sound h
    refine ⟨(c, _), ⟨hc, congrArg InputFile.rest hbytes⟩, ?_⟩
    rintro ⟨c', rest'⟩ ⟨hc', hbytes'⟩
    obtain ⟨rfl, rfl⟩ := hc'.write_inj hc
      (hbytes'.symm.trans (congrArg InputFile.rest hbytes))
    rfl
  · rintro ⟨⟨c, rest⟩, ⟨hc, rfl⟩, -⟩
    exact hc.read_succeeds mem old rest
  · rintro c hc rest rfl
    obtain ⟨hconfig, hfile, -⟩ := hc.read_back mem old rest
    exact ⟨hconfig, hfile⟩

end NetShare
