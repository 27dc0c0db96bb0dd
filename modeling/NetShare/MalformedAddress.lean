import NetShare.ConfigPut
import NetShare.IpAddress

/-!
# Malformed addresses

Whatever the text, `parseIpString` returns an address, so that the `catch` branches of its callers,
`parseConfigPutMessage` and `Application::addConfParameter`, are never taken.
-/

namespace NetShare

open Reasoning ConfigurationWorker

/-! ## 1. The callers -/

namespace StdString

/-- `isspace`. -/
def isSpace (c : Char) : Bool := c = ' ' ∨ (9 ≤ c.toNat ∧ c.toNat ≤ 13)

def ltrim (s : List Char) : List Char := s.dropWhile isSpace

def rtrim (s : List Char) : List Char := (s.reverse.dropWhile isSpace).reverse

def trim (s : List Char) : List Char := rtrim (ltrim s)

end StdString

open StdString

/-- `try { field = *parseIpString(value); } catch (...) {}`, as all callers have it. -/
def tryParseIp (field : NsIpAddress) (value : String) : NsIpAddress :=
  (parseIpString? value).getD field

/-- What stands before the first `=`, and what is left when it and the `=` are erased. -/
def keyValue (line : List Char) : List Char × String :=
  (line.takeWhile (· ≠ '='),
    .ofList (if '=' ∈ line then (line.dropWhile (· ≠ '=')).tail else line))

/-- `addConfParameter` on the members of `Config` and on `adapterNames`. -/
def Application.addConfParameter (value : String) (conf : Config) (adapterNames : List String) :
    Config × List String :=
  let line := trim value.toList
  if line.head? = none ∨ line.head? = some '#' then (conf, adapterNames)
  else
    let (key, value) := keyValue line
    if key = "ADAPTER_IP".toList then
      ({ conf with
          winTunAdapterIpv4Adress := tryParseIp conf.winTunAdapterIpv4Adress value }, adapterNames)
    else if key = "ADAPTER_SUBNET_BITS".toList then
      ({ conf with winTunAdapterSubnetBits := octetOf (atoi value.toList) }, adapterNames)
    else if key = "SERVER_IP".toList then
      ({ conf with serverIpv4Adress := tryParseIp conf.serverIpv4Adress value }, adapterNames)
    else if key = "SERVER_PORT".toList then
      ({ conf with serverPort := .ofNat (atoi value.toList).toBitVec.toNat }, adapterNames)
    else if key = "ADAPTER_NAME".toList then (conf, adapterNames ++ [value])
    else (conf, adapterNames)

-- The `catch` branch is dead; `mergeConfig` leaves it out.
theorem tryParseIp_eq (field : NsIpAddress) (value : String) :
    tryParseIp field value = parseIpString value := by
  rw [tryParseIp, parseIpString?_eq, Option.getD_some]

/-! ## 2. What a caller may rely on -/

/-- Text that is no dotted quad is refused and all callers keep the address they have; an address
that is returned is the one that the text stands for. -/
structure RefusesMalformed (s : String) : Prop where
  throws : ¬ IsDottedQuad s.toList → parseIpString? s = none
  keepsServerIp : ¬ IsDottedQuad s.toList →
    ∀ p popBack doc c c', doc.stringMember? "serverIp" = some s →
      AppConfig.put p popBack doc c = some c' → c'.serverIp = c.serverIp
  keepsAdapterIp : ¬ IsDottedQuad s.toList →
    ∀ p popBack doc c c', doc.stringMember? "adapterIp" = some s →
      AppConfig.put p popBack doc c = some c' → c'.adapterIp = c.adapterIp
  keepsServerParameter : ¬ IsDottedQuad s.toList →
    ∀ line conf names, keyValue (trim line.toList) = ("SERVER_IP".toList, s) →
      (Application.addConfParameter line conf names).1.serverIpv4Adress = conf.serverIpv4Adress
  keepsAdapterParameter : ¬ IsDottedQuad s.toList →
    ∀ line conf names, keyValue (trim line.toList) = ("ADAPTER_IP".toList, s) →
      (Application.addConfParameter line conf names).1.winTunAdapterIpv4Adress =
        conf.winTunAdapterIpv4Adress
  returned : ∀ ip, parseIpString? s = some ip → StandsFor s.toList ip

theorem standsFor_parseIpString {s : String} (h : IsDottedQuad s.toList) :
    StandsFor s.toList (parseIpString s) := by
  obtain ⟨a, b, c, d, ha, hb, hc, hd, hs⟩ := h
  have hoctets := octets_parseIpString ha hb hc hd
  rw [← hs, String.ofList_toList] at hoctets
  exact ⟨a, b, c, d, ha, hb, hc, hd, hs, hoctets⟩

/-- **Malformed text is refused only if there is none**: the contract holds of a string exactly if
it is a dotted quad. -/
theorem refusesMalformed_iff (s : String) : RefusesMalformed s ↔ IsDottedQuad s.toList := by
  constructor
  · intro h
    by_contra hquad
    have hthrows := h.throws hquad
    rw [parseIpString?_eq] at hthrows
    exact Option.some_ne_none _ hthrows
  · intro hquad
    have hreturned : ∀ ip, parseIpString? s = some ip → StandsFor s.toList ip := by
      intro ip hip
      rw [parseIpString?_eq] at hip
      rw [← Option.some.inj hip]
      exact standsFor_parseIpString hquad
    exact ⟨(absurd hquad ·), (absurd hquad ·), (absurd hquad ·), (absurd hquad ·),
      (absurd hquad ·), hreturned⟩

-- A dotted quad has at least three dots.
theorem IsDottedQuad.dots {s : List Char} (h : IsDottedQuad s) : 3 ≤ s.count '.' := by
  obtain ⟨a, b, c, d, -, -, -, -, rfl⟩ := h
  simp only [dotted, List.count_append, List.count_cons_self]
  omega

theorem threeParts_accepted :
    (∀ field, tryParseIp field "10.0.7" = ⟨10, 0, 7, 7⟩) ∧ ¬ RefusesMalformed "10.0.7" := by
  constructor
  · intro field
    rw [tryParseIp_eq]
    decide
  · intro h
    have hquad : ¬ IsDottedQuad "10.0.7".toList := fun hquad => absurd hquad.dots (by decide)
    have hthrows := h.throws hquad
    rw [parseIpString?_eq] at hthrows
    exact Option.some_ne_none _ hthrows

end NetShare
