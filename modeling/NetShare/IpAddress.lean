import NetShare.ConfigurationWorker
import NetShare.NetworkAdapters

/-!
# Addresses as text and on the wire

`parseIpString` from `utils.cpp` step by step, with its copy in `NetworkAdapter.h` and its callers,
and the words that `UPDSocketWorker.cpp` and `adapter.h` make of an address.
-/

namespace NetShare

open Reasoning ConfigurationWorker

/-! ## 1. Dotted quads -/

/-- The number that decimal digits stand for. -/
def decimal (digits : List Char) : Nat := digits.foldl (fun n c => 10 * n + (c.toNat - 48)) 0

/-- Decimal digits whose number fits an octet. -/
structure OctetDigits (s : List Char) : Prop where
  nonempty : s ≠ []
  digits : ∀ c ∈ s, c.isDigit = true
  le : decimal s ≤ 255

instance (s : List Char) : Decidable (OctetDigits s) :=
  decidable_of_iff (s ≠ [] ∧ s.all Char.isDigit = true ∧ decimal s ≤ 255)
    ⟨fun ⟨h₁, h₂, h₃⟩ => ⟨h₁, List.all_eq_true.mp h₂, h₃⟩,
      fun h => ⟨h.nonempty, List.all_eq_true.mpr h.digits, h.le⟩⟩

/-- Four strings joined by dots. -/
def dotted (a b c d : List Char) : List Char := a ++ '.' :: (b ++ '.' :: (c ++ '.' :: d))

def NsIpAddress.octets (ip : NsIpAddress) : List Nat :=
  [ip.ipp1.toNat, ip.ipp2.toNat, ip.ipp3.toNat, ip.ipp4.toNat]

/-- The string is a dotted quad, and these are its four numbers. -/
def StandsFor (s : List Char) (ip : NsIpAddress) : Prop :=
  ∃ a b c d, OctetDigits a ∧ OctetDigits b ∧ OctetDigits c ∧ OctetDigits d ∧
    s = dotted a b c d ∧ ip.octets = [decimal a, decimal b, decimal c, decimal d]

def IsDottedQuad (s : List Char) : Prop :=
  ∃ a b c d, OctetDigits a ∧ OctetDigits b ∧ OctetDigits c ∧ OctetDigits d ∧ s = dotted a b c d

/-! ## 2. Parsing -/

namespace StdString

/-- `s.find(delimiter)`; `none` is `npos`. -/
def find (delimiter : Char) (s : List Char) : Option Nat := s.findIdx? (· = delimiter)

/-- `s.substr(pos, count)`, which throws if `pos` is beyond the end; the count `npos` is `none`. -/
def substr (s : List Char) (pos : Nat) (count : Option Nat) : Option (List Char) :=
  if pos ≤ s.length then some (count.elim (s.drop pos) (s.drop pos).take) else none

/-- One more than what `find` returned: `npos + 1` is 0. -/
def afterFound (found : Option Nat) : Nat := found.elim 0 (· + 1)

end StdString

open StdString

/-- The body of `parseIpString` and of the constructor of `NetworkAdapter`; `none` if it throws. -/
def parseOctets (s : List Char) : Option NsIpAddress := do
  let part1 ← substr s 0 (find '.' s)
  let s ← substr s (afterFound (find '.' s)) (some s.length)
  let part2 ← substr s 0 (find '.' s)
  let s ← substr s (afterFound (find '.' s)) (some s.length)
  let part3 ← substr s 0 (find '.' s)
  let s ← substr s (afterFound (find '.' s)) (some s.length)
  let part4 ← substr s 0 (some s.length)
  return {
    ipp1 := octetOf (atoi part1)
    ipp2 := octetOf (atoi part2)
    ipp3 := octetOf (atoi part3)
    ipp4 := octetOf (atoi part4) }

/-- `parseIpString`; `none` if it throws. -/
def parseIpString? (ipAdress : String) : Option NsIpAddress := parseOctets ipAdress.toList

/-- The constructor of `NetworkAdapter`.  `ipAdress` are the characters it points to, of which
`std::string` takes those before the terminator. -/
def NetworkAdapter.new (name : List UInt8) (ipAdress : List Char) : Option NetworkAdapter :=
  (parseOctets (ipAdress.takeWhile (· ≠ Char.ofNat 0))).map fun IpAdress =>
    { Name := name, IpAdress }

-- What is found is the end of the part before the delimiter.
theorem find_eq (delimiter : Char) (s : List Char) :
    find delimiter s =
      if delimiter ∈ s then some (s.takeWhile (· ≠ delimiter)).length else none := by
  unfold find
  induction s with
  | nil => rfl
  | cons c s ih =>
    by_cases hc : c = delimiter
    · subst hc
      simp [List.findIdx?_cons]
    · have hmem : delimiter ∈ c :: s ↔ delimiter ∈ s :=
        List.mem_cons.trans (or_iff_right (Ne.symm hc))
      have htake : (c :: s).takeWhile (fun x => decide (x ≠ delimiter)) =
          c :: s.takeWhile (fun x => decide (x ≠ delimiter)) :=
        List.takeWhile_cons_of_pos (decide_eq_true hc)
      rw [List.findIdx?_cons, ih, decide_eq_false hc, htake]
      by_cases h : delimiter ∈ s
      · rw [if_pos h, if_pos (hmem.mpr h)]
        rfl
      · rw [if_neg h, if_neg (mt hmem.mp h)]
        rfl

-- The part before the first delimiter, or all of it.
theorem substr_find (delimiter : Char) (s : List Char) :
    substr s 0 (find delimiter s) = some (s.takeWhile (· ≠ delimiter)) := by
  rw [substr, if_pos (Nat.zero_le _), find_eq, List.drop_zero]
  by_cases hmem : delimiter ∈ s
  · rw [if_pos hmem]
    exact congrArg some (List.prefix_iff_eq_take.mp (List.takeWhile_prefix _)).symm
  · rw [if_neg hmem]
    have hall : s.takeWhile (fun c => decide (c ≠ delimiter)) = s := by
      apply List.takeWhile_eq_self_iff.mpr
      intro c hc
      exact decide_eq_true fun h => hmem (h ▸ hc)
    rw [hall]
    rfl

-- What is behind the first delimiter, or all of it once more; it begins within the string.
theorem drop_afterFound (delimiter : Char) (s : List Char) :
    afterFound (find delimiter s) ≤ s.length ∧
      s.drop (afterFound (find delimiter s)) =
        if delimiter ∈ s then (s.dropWhile (· ≠ delimiter)).tail else s := by
  rw [find_eq]
  by_cases hmem : delimiter ∈ s
  · have hsplit : s.takeWhile (fun c => decide (c ≠ delimiter)) ++
        s.dropWhile (fun c => decide (c ≠ delimiter)) = s := List.takeWhile_append_dropWhile
    generalize hpart : s.takeWhile (fun c => decide (c ≠ delimiter)) = part at hsplit ⊢
    generalize hrest : s.dropWhile (fun c => decide (c ≠ delimiter)) = rest at hsplit ⊢
    have hne : rest ≠ [] := by
      intro hnil
      have hall := List.dropWhile_eq_nil_iff.mp (hrest.trans hnil) delimiter hmem
      exact of_decide_eq_true hall rfl
    have hlength : part.length + rest.length = s.length := by
      rw [← hsplit, List.length_append]
    have hpos := List.length_pos_of_ne_nil hne
    rw [if_pos hmem, if_pos hmem]
    show part.length + 1 ≤ s.length ∧ s.drop (part.length + 1) = rest.tail
    refine ⟨by omega, ?_⟩
    rw [← List.tail_drop, ← hsplit, List.drop_left]
  · rw [if_neg hmem, if_neg hmem]
    exact ⟨Nat.zero_le _, rfl⟩

theorem substr_afterFound (s : List Char) :
    substr s (afterFound (find '.' s)) (some s.length) = some (afterDot s) := by
  obtain ⟨hle, hdrop⟩ := drop_afterFound '.' s
  rw [substr, if_pos hle, hdrop]
  apply congrArg some
  apply List.take_of_length_le
  rw [← hdrop, List.length_drop]
  omega

/-- **Nothing in `parseIpString` throws**: behind a dot there is at least the empty string, and
without one `npos + 1` is 0. -/
theorem parseIpString?_eq (s : String) : parseIpString? s = some (parseIpString s) := by
  have hlast (s : List Char) : substr s 0 (some s.length) = some s := by
    rw [substr, if_pos (Nat.zero_le _)]
    exact congrArg some List.take_length
  unfold parseIpString? parseOctets
  simp only [substr_find, substr_afterFound, hlast, Option.bind_eq_bind, Option.bind_some]
  rfl

theorem NetworkAdapter.new_eq (name : List UInt8) (ipAdress : List Char) :
    NetworkAdapter.new name ipAdress = some
      { Name := name
        IpAdress := parseIpString (.ofList (ipAdress.takeWhile (· ≠ Char.ofNat 0))) } := by
  have h := parseIpString?_eq (.ofList (ipAdress.takeWhile (· ≠ Char.ofNat 0)))
  rw [parseIpString?, String.toList_ofList] at h
  rw [NetworkAdapter.new, h]
  rfl

/-! ## 3. Numbers -/

theorem toNat_digit {c : Char} (h : c.isDigit = true) : 48 ≤ c.toNat ∧ c.toNat ≤ 57 :=
  Char.isDigit_iff_toNat.mp h

-- The digits as `atoi` adds them up.
theorem foldl_digits {s : List Char} (h : ∀ c ∈ s, c.isDigit = true) (n : Nat) :
    s.foldl (fun (n : Int) c => 10 * n + (c.toNat - 48)) n =
      (s.foldl (fun n c => 10 * n + (c.toNat - 48)) n : Nat) := by
  induction s generalizing n with
  | nil => rfl
  | cons c s ih =>
    have hc := toNat_digit (h c List.mem_cons_self)
    have hstep : 10 * (n : Int) + (c.toNat - 48) = (10 * n + (c.toNat - 48) : Nat) := by omega
    rw [List.foldl_cons, List.foldl_cons, hstep]
    exact ih (fun c hc => h c (List.mem_cons_of_mem _ hc)) _

/-- `atoi` gives the number that digits stand for, if it is an `int`. -/
theorem atoi_digits {s : List Char} (h : ∀ c ∈ s, c.isDigit = true) (hint : decimal s < 2 ^ 31) :
    atoi s = .ofInt (decimal s) := by
  have htake : s.takeWhile Char.isDigit = s := List.takeWhile_eq_self_iff.mpr h
  have hvalue : s.foldl (fun (n : Int) c => 10 * n + (c.toNat - 48)) 0 = (decimal s : Int) :=
    foldl_digits h 0
  have hclamp : max (-2 ^ 31) (min (2 ^ 31 - 1) (decimal s : Int)) = decimal s := by omega
  cases s with
  | nil => rfl
  | cons c s =>
    have hc := toNat_digit (h c List.mem_cons_self)
    have hspace : ¬ (c = ' ' ∨ 9 ≤ c.toNat ∧ c.toNat ≤ 13) := by
      rintro (rfl | hc')
      · exact absurd hc (by decide)
      · omega
    have hminus : c ≠ '-' := by
      rintro rfl
      exact absurd hc (by decide)
    have hplus : c ≠ '+' := by
      rintro rfl
      exact absurd hc (by decide)
    unfold atoi
    rw [List.dropWhile_cons_of_neg (by rw [decide_eq_true_eq]; exact hspace)]
    dsimp only
    split
    next heq => exact absurd (List.cons.inj heq).1 hminus
    next heq => exact absurd (List.cons.inj heq).1 hplus
    next => rw [htake, hvalue, hclamp]

theorem octetOf_ofInt {n : Nat} (h : n ≤ 255) : (octetOf (.ofInt n)).toNat = n := by
  have hbits : (Int32.ofInt n).toBitVec.toNat = n := by
    show (BitVec.ofInt 32 n).toNat = n
    rw [BitVec.ofInt_natCast, BitVec.toNat_ofNat]
    omega
  rw [octetOf, hbits, UInt8.toNat_ofNat']
  omega

theorem OctetDigits.octet {s : List Char} (h : OctetDigits s) :
    (octetOf (atoi s)).toNat = decimal s := by
  have hle := h.le
  rw [atoi_digits h.digits (by omega), octetOf_ofInt hle]

theorem OctetDigits.not_dot {s : List Char} (h : OctetDigits s) (c : Char) (hc : c ∈ s) :
    decide (c ≠ '.') = true := by
  apply decide_eq_true
  rintro rfl
  exact absurd (h.digits _ hc) (by decide)

theorem OctetDigits.takeWhile_eq {s : List Char} (h : OctetDigits s) (rest : List Char) :
    (s ++ '.' :: rest).takeWhile (· ≠ '.') = s := by
  rw [List.takeWhile_append_of_pos h.not_dot, List.takeWhile_cons_of_neg (by decide),
    List.append_nil]

theorem OctetDigits.afterDot_eq {s : List Char} (h : OctetDigits s) (rest : List Char) :
    afterDot (s ++ '.' :: rest) = rest := by
  have hmem : '.' ∈ s ++ '.' :: rest := List.mem_append_right s List.mem_cons_self
  rw [afterDot, if_pos hmem, List.dropWhile_append_of_pos h.not_dot,
    List.dropWhile_cons_of_neg (by decide)]
  rfl

/-- The four steps of the parser on a dotted quad. -/
theorem octets_parseIpString {a b c d : List Char} (ha : OctetDigits a) (hb : OctetDigits b)
    (hc : OctetDigits c) (hd : OctetDigits d) :
    (parseIpString (.ofList (dotted a b c d))).octets =
      [decimal a, decimal b, decimal c, decimal d] := by
  unfold parseIpString dotted
  rw [String.toList_ofList]
  simp only [ha.takeWhile_eq, ha.afterDot_eq, hb.takeWhile_eq, hb.afterDot_eq, hc.takeWhile_eq,
    hc.afterDot_eq]
  unfold NsIpAddress.octets
  rw [ha.octet, hb.octet, hc.octet, hd.octet]

-- No character of a dotted quad ends a C string.
theorem not_nul_of_mem_dotted {a b c d : List Char} (ha : OctetDigits a) (hb : OctetDigits b)
    (hc : OctetDigits c) (hd : OctetDigits d) (x : Char) (hx : x ∈ dotted a b c d) :
    decide (x ≠ Char.ofNat 0) = true := by
  have hdigit {s : List Char} (h : OctetDigits s) (hmem : x ∈ s) : x ≠ Char.ofNat 0 := by
    rintro rfl
    exact absurd (h.digits _ hmem) (by decide)
  apply decide_eq_true
  simp only [dotted, List.mem_append, List.mem_cons] at hx
  obtain h | rfl | h | rfl | h | rfl | h := hx
  · exact hdigit ha h
  · decide
  · exact hdigit hb h
  · decide
  · exact hdigit hc h
  · decide
  · exact hdigit hd h

/-! ## 4. The word on the wire -/

/-- An octet promoted to `int`. -/
def intOf (octet : UInt8) : Int32 := .ofBitVec (octet.toBitVec.setWidth 32)

/-- `(ipp1 << 24) | (ipp2 << 16) | (ipp3 << 8) | (ipp4 << 0)` as the `u_long` that `htonl` takes. -/
def packed (ipp1 ipp2 ipp3 ipp4 : Int32) : UInt32 :=
  ((ipp1 <<< 24) ||| (ipp2 <<< 16) ||| (ipp3 <<< 8) ||| (ipp4 <<< 0)).toUInt32

/-- `htonl` on a machine of this byte order: the word whose bytes in memory are those of `hostlong`,
most significant byte first. -/
def htonl (order : ByteOrder) (hostlong : UInt32) : UInt32 :=
  .ofNat (order.nat (ByteOrder.big.bytes 4 hostlong.toNat))

/-- `SocketAddr.sin_addr` that `initSocket` binds the socket to. -/
def UDPWorkerConfig.SocketAddr (order : ByteOrder) (conf : UDPWorkerConfig) : UInt32 :=
  htonl order (packed
    (intOf conf.socketIpv4Adress.ipp1)
    (intOf conf.socketIpv4Adress.ipp2)
    (intOf conf.socketIpv4Adress.ipp3)
    (intOf conf.socketIpv4Adress.ipp4))

/-- `RecvAddr.sin_addr` that `WorkSocket` sends to. -/
def Config.RecvAddr (order : ByteOrder) (conf : Config) : UInt32 :=
  htonl order (packed
    (intOf conf.serverIpv4Adress.ipp1)
    (intOf conf.serverIpv4Adress.ipp2)
    (intOf conf.serverIpv4Adress.ipp3)
    (intOf conf.serverIpv4Adress.ipp4))

/-- `MIB_UNICASTIPADDRESS_ROW`, as far as `setIPAddress` sets it. -/
structure AddressRow where
  sin_addr : UInt32
  OnLinkPrefixLength : UInt8
deriving DecidableEq

/-- The row that `setIPAddress` hands to the system. -/
def setIPAddress (order : ByteOrder) (subnetbits : UInt8) (ipp1 ipp2 ipp3 ipp4 : Int32) :
    AddressRow where
  sin_addr := htonl order (packed ipp1 ipp2 ipp3 ipp4)
  OnLinkPrefixLength := subnetbits

/-- The row for the adapter, as `initRun` has it set. -/
def Config.AddressRow (order : ByteOrder) (conf : Config) : AddressRow :=
  setIPAddress order conf.winTunAdapterSubnetBits
    (intOf conf.winTunAdapterIpv4Adress.ipp1)
    (intOf conf.winTunAdapterIpv4Adress.ipp2)
    (intOf conf.winTunAdapterIpv4Adress.ipp3)
    (intOf conf.winTunAdapterIpv4Adress.ipp4)

/-- The bytes of a word in the order in which they lie in memory. -/
def bytesInMemory (order : ByteOrder) (word : UInt32) : List Nat :=
  (order.bytes 4 word.toNat).map UInt8.toNat

theorem shiftLeft_or {k y : Nat} (h : y < 2 ^ k) (x : Nat) : x <<< k ||| y = x * 2 ^ k + y := by
  rw [← Nat.shiftLeft_add_eq_or_of_lt h, Nat.shiftLeft_eq]

-- A shift by at most 24 loses no bit of an octet.
theorem toNat_shifted (octet : UInt8) {k : Nat} (hk : k ≤ 24) :
    (octet.toBitVec.setWidth 32 <<< k).toNat = octet.toNat <<< k := by
  have hlt : octet.toNat < 2 ^ 8 := octet.toNat_lt
  have hshift : octet.toNat <<< k < 2 ^ 32 := by
    rw [Nat.shiftLeft_eq]
    calc octet.toNat * 2 ^ k < 2 ^ 8 * 2 ^ k := Nat.mul_lt_mul_of_pos_right hlt (Nat.two_pow_pos k)
      _ = 2 ^ (8 + k) := (pow_add 2 8 k).symm
      _ ≤ 2 ^ 32 := Nat.pow_le_pow_right (by decide) (by omega)
  rw [BitVec.toNat_shiftLeft, BitVec.toNat_setWidth, UInt8.toNat_toBitVec,
    Nat.mod_eq_of_lt (by omega : octet.toNat < 2 ^ 32), Nat.mod_eq_of_lt hshift]

/-- The octets are the digits of the word to the base 256, the sign bit of the first included. -/
theorem toNat_packed (a b c d : UInt8) :
    (packed (intOf a) (intOf b) (intOf c) (intOf d)).toNat = ByteOrder.big.nat [a, b, c, d] := by
  have hb : b.toNat < 256 := b.toNat_lt
  have hc : c.toNat < 256 := c.toNat_lt
  have hd : d.toNat < 256 := d.toNat_lt
  have hcd := shiftLeft_or (by omega : d.toNat < 2 ^ 8) c.toNat
  have hbcd := shiftLeft_or (by omega : c.toNat * 2 ^ 8 + d.toNat < 2 ^ 16) b.toNat
  have habcd := shiftLeft_or
    (by omega : b.toNat * 2 ^ 16 + (c.toNat * 2 ^ 8 + d.toNat) < 2 ^ 24) a.toNat
  show (a.toBitVec.setWidth 32 <<< 24 ||| b.toBitVec.setWidth 32 <<< 16 |||
    c.toBitVec.setWidth 32 <<< 8 ||| d.toBitVec.setWidth 32 <<< 0).toNat = _
  rw [BitVec.toNat_or, BitVec.toNat_or, BitVec.toNat_or, toNat_shifted a (by decide),
    toNat_shifted b (by decide), toNat_shifted c (by decide), toNat_shifted d (by decide),
    Nat.shiftLeft_zero, Nat.or_assoc, Nat.or_assoc, hcd, hbcd, habcd]
  show _ = d.toNat + 256 * (c.toNat + 256 * (b.toNat + 256 * (a.toNat + 256 * 0)))
  omega

-- Whatever the byte order of the machine, the word lies in memory as the network wants it.
theorem bytes_htonl (order : ByteOrder) (word : UInt32) :
    order.bytes 4 (htonl order word).toNat = ByteOrder.big.bytes 4 word.toNat := by
  have hlength : (ByteOrder.big.bytes 4 word.toNat).length = 4 := ByteOrder.bytes_length _ _ _
  have hlt : order.nat (ByteOrder.big.bytes 4 word.toNat) < 2 ^ 32 := by
    have := order.nat_lt (ByteOrder.big.bytes 4 word.toNat)
    rw [hlength] at this
    omega
  have hback := order.bytes_nat (ByteOrder.big.bytes 4 word.toNat)
  rw [hlength] at hback
  rw [htonl, UInt32.toNat_ofNat_of_lt' hlt, hback]

/-- **The octets of an address lie in memory in network order** in each word made of it. -/
theorem bytesInMemory_htonl (order : ByteOrder) (ip : NsIpAddress) :
    bytesInMemory order (htonl order
      (packed (intOf ip.ipp1) (intOf ip.ipp2) (intOf ip.ipp3) (intOf ip.ipp4))) = ip.octets := by
  have hback := ByteOrder.big.bytes_nat [ip.ipp1, ip.ipp2, ip.ipp3, ip.ipp4]
  rw [bytesInMemory, bytes_htonl, toNat_packed]
  exact congrArg (List.map UInt8.toNat) hback

/-- Both parsers make this address of the text, and each of the three words made of it has the
octets as its bytes in network order. -/
structure ReachesWire (order : ByteOrder) (s : List Char) (ip : NsIpAddress) : Prop where
  parsed : parseIpString? (.ofList s) = some ip
  adapter : ∀ name behind,
    NetworkAdapter.new name (s ++ Char.ofNat 0 :: behind) = some { Name := name, IpAdress := ip }
  bind : ∀ conf : UDPWorkerConfig, conf.socketIpv4Adress = ip →
    bytesInMemory order (conf.SocketAddr order) = ip.octets
  sendto : ∀ conf : Config, conf.serverIpv4Adress = ip →
    bytesInMemory order (conf.RecvAddr order) = ip.octets
  row : ∀ conf : Config, conf.winTunAdapterIpv4Adress = ip →
    bytesInMemory order (conf.AddressRow order).sin_addr = ip.octets

/-- **A dotted address reaches the wire unchanged**, with its four numbers as octets. -/
theorem dotted_reaches_wire (order : ByteOrder) {a b c d : List Char} (ha : OctetDigits a)
    (hb : OctetDigits b) (hc : OctetDigits c) (hd : OctetDigits d) :
    ∃ ip : NsIpAddress, ip.octets = [decimal a, decimal b, decimal c, decimal d] ∧
      ReachesWire order (dotted a b c d) ip := by
  refine ⟨_, octets_parseIpString ha hb hc hd, ?_⟩
  constructor
  case parsed => exact parseIpString?_eq _
  case adapter =>
    intro name behind
    rw [NetworkAdapter.new_eq, List.takeWhile_append_of_pos (not_nul_of_mem_dotted ha hb hc hd),
      List.takeWhile_cons_of_neg (by decide), List.append_nil]
  case bind =>
    intro conf hip
    rw [← hip]
    exact bytesInMemory_htonl order conf.socketIpv4Adress
  case sendto =>
    intro conf hip
    rw [← hip]
    exact bytesInMemory_htonl order conf.serverIpv4Adress
  case row =>
    intro conf hip
    rw [← hip]
    exact bytesInMemory_htonl order conf.winTunAdapterIpv4Adress

theorem dotted_reaches_wire_leadingZeros :
    ∃ ip : NsIpAddress, ip.octets = [192, 168, 0, 7] ∧
      ReachesWire .little (dotted ['1', '9', '2'] ['1', '6', '8'] ['0'] ['0', '0', '7']) ip :=
  dotted_reaches_wire .little (a := ['1', '9', '2']) (b := ['1', '6', '8']) (c := ['0'])
    (d := ['0', '0', '7']) (by decide) (by decide) (by decide) (by decide)

end NetShare
