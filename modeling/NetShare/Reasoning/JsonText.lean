import Mathlib.Data.List.Basic
import Mathlib.Data.List.TakeWhile
import Mathlib.Tactic.Common
import Mathlib.Tactic.IntervalCases

/-!
# JSON texts

The part of JSON that needs no escapes: objects, arrays, integers, and strings of characters that
stand for themselves.  `Denotes` is its grammar and `readJson` a reader.  The reader reads whatever
the grammar derives, so that a text denotes at most one value.
-/

namespace Reasoning

/-- An object keeps its members in the order of the text. -/
inductive JsonValue where
  | int (i : Int)
  | string (s : List Char)
  | array (elements : List JsonValue)
  | object (members : List (List Char × JsonValue))

namespace JsonText

def isSpace (c : Char) : Bool := c == ' ' || c == '\n' || c == '\r' || c == '\t'

/-- The character stands for itself in a string. -/
def isPlain (c : Char) : Bool := 0x20 ≤ c.toNat && c != '"' && c != '\\'

/-- An integer in decimal. -/
def intText : Int → List Char
  | .ofNat n => Nat.toDigits 10 n
  | .negSucc n => '-' :: Nat.toDigits 10 (n + 1)

/-! ## 1. The grammar -/

mutual

/-- The text of a value, without space around it. -/
inductive Denotes : List Char → JsonValue → Prop
  | int (i : Int) : Denotes (intText i) (.int i)
  | string {s : List Char} : s.all isPlain = true → Denotes ('"' :: (s ++ ['"'])) (.string s)
  | emptyArray {space : List Char} :
    space.all isSpace = true → Denotes ('[' :: (space ++ [']'])) (.array [])
  | array {text : List Char} {vs : List JsonValue} :
    DenotesElements text vs → Denotes ('[' :: text) (.array vs)
  | emptyObject {space : List Char} :
    space.all isSpace = true → Denotes ('{' :: (space ++ ['}'])) (.object [])
  | object {text : List Char} {members : List (List Char × JsonValue)} :
    DenotesMembers text members → Denotes ('{' :: text) (.object members)

/-- The text of one or more elements, up to the bracket that closes the array. -/
inductive DenotesElements : List Char → List JsonValue → Prop
  | last {before text after : List Char} {v : JsonValue} :
    before.all isSpace = true → Denotes text v → after.all isSpace = true →
      DenotesElements (before ++ (text ++ (after ++ [']']))) [v]
  | cons {before text after rest : List Char} {v : JsonValue} {vs : List JsonValue} :
    before.all isSpace = true → Denotes text v → after.all isSpace = true →
      DenotesElements rest vs →
        DenotesElements (before ++ (text ++ (after ++ ',' :: rest))) (v :: vs)

/-- The text of one or more members, up to the brace that closes the object. -/
inductive DenotesMembers : List Char → List (List Char × JsonValue) → Prop
  | last {before name text after : List Char} {v : JsonValue} :
    before.all isSpace = true → name.all isPlain = true → Denotes text v →
      after.all isSpace = true →
        DenotesMembers (before ++ '"' :: (name ++ '"' :: ':' :: (text ++ (after ++ ['}']))))
          [(name, v)]
  | cons {before name text after rest : List Char} {v : JsonValue}
    {members : List (List Char × JsonValue)} :
    before.all isSpace = true → name.all isPlain = true → Denotes text v →
      after.all isSpace = true → DenotesMembers rest members →
        DenotesMembers (before ++ '"' :: (name ++ '"' :: ':' :: (text ++ (after ++ ',' :: rest))))
          ((name, v) :: members)

end

/-! ## 2. The reader -/

def skip (text : List Char) : List Char := text.dropWhile isSpace

/-- The rest of a string after its first quote. -/
def readString (text : List Char) : Option (List Char × List Char) :=
  match text.dropWhile isPlain with
  | '"' :: rest => some (text.takeWhile isPlain, rest)
  | _ => none

-- No leading zeros.
def readNat (text : List Char) : Option (Nat × List Char) :=
  match text.takeWhile Char.isDigit with
  | [] => none
  | '0' :: _ :: _ => none
  | digits => some (Nat.ofDigitChars 10 digits 0, text.dropWhile Char.isDigit)

def readInt : List Char → Option (Int × List Char)
  | '-' :: text => (readNat text).map fun (n, rest) => (-n, rest)
  | text => (readNat text).map fun (n, rest) => (n, rest)

mutual

/-- A value and what follows it; `fuel` bounds the depth of the calls. -/
def readValue : Nat → List Char → Option (JsonValue × List Char)
  | 0, _ => none
  | fuel + 1, text =>
    match text with
    | '"' :: text => (readString text).map fun (s, rest) => (.string s, rest)
    | '[' :: text =>
      match skip text with
      | ']' :: rest => some (.array [], rest)
      | _ => (readElements fuel text).map fun (vs, rest) => (.array vs, rest)
    | '{' :: text =>
      match skip text with
      | '}' :: rest => some (.object [], rest)
      | _ => (readMembers fuel text).map fun (members, rest) => (.object members, rest)
    | text => (readInt text).map fun (i, rest) => (.int i, rest)

def readElements : Nat → List Char → Option (List JsonValue × List Char)
  | 0, _ => none
  | fuel + 1, text =>
    (readValue fuel (skip text)).bind fun (v, text) =>
      match skip text with
      | ']' :: rest => some ([v], rest)
      | ',' :: text => (readElements fuel text).map fun (vs, rest) => (v :: vs, rest)
      | _ => none

def readMembers : Nat → List Char → Option (List (List Char × JsonValue) × List Char)
  | 0, _ => none
  | fuel + 1, text =>
    match skip text with
    | '"' :: text =>
      (readString text).bind fun (name, text) =>
        match skip text with
        | ':' :: text =>
          (readValue fuel (skip text)).bind fun (v, text) =>
            match skip text with
            | '}' :: rest => some ([(name, v)], rest)
            | ',' :: text =>
              (readMembers fuel text).map fun (members, rest) => ((name, v) :: members, rest)
            | _ => none
        | _ => none
    | _ => none

end

/-- A text that is one value with space around it. -/
def readJson (text : List Char) : Option JsonValue :=
  match readValue (text.length + 1) (skip text) with
  | some (v, rest) => if skip rest = [] then some v else none
  | none => none

/-! ## 3. The reader reads what the grammar derives -/

/-- An integer in front of this ends there. -/
def Ends (rest : List Char) : Prop := ∀ c ∈ rest.head?, c.isDigit = false

theorem ends_cons {c : Char} (hc : c.isDigit = false) (rest : List Char) : Ends (c :: rest) := by
  intro d hd
  obtain rfl := Option.some.inj hd
  exact hc

theorem isDigit_of_isSpace {c : Char} (hc : isSpace c = true) : c.isDigit = false := by
  simp only [isSpace, Bool.or_eq_true, beq_iff_eq] at hc
  rcases hc with ((rfl | rfl) | rfl) | rfl <;> rfl

-- Space, and behind it a character that ends an integer.
theorem ends_space {space : List Char} (hspace : space.all isSpace = true) {c : Char}
    (hc : c.isDigit = false) (rest : List Char) : Ends (space ++ c :: rest) := by
  cases space with
  | nil => exact ends_cons hc rest
  | cons d space =>
    exact ends_cons (isDigit_of_isSpace (List.all_eq_true.mp hspace d (.head _))) _

theorem skip_append {space : List Char} (hspace : space.all isSpace = true) (text : List Char) :
    skip (space ++ text) = skip text :=
  List.dropWhile_append_of_pos (List.all_eq_true.mp hspace)

theorem skip_cons {c : Char} (hc : isSpace c = false) (text : List Char) :
    skip (c :: text) = c :: text :=
  List.dropWhile_cons_of_neg (by rw [hc]; exact Bool.false_ne_true)

theorem readString_append {s : List Char} (hs : s.all isPlain = true) (rest : List Char) :
    readString (s ++ '"' :: rest) = some (s, rest) := by
  have hplain := List.all_eq_true.mp hs
  have hquote : ¬ isPlain '"' = true := by decide
  unfold readString
  rw [List.dropWhile_append_of_pos hplain, List.takeWhile_append_of_pos hplain,
    List.dropWhile_cons_of_neg hquote, List.takeWhile_cons_of_neg hquote, List.append_nil]
  rfl

/-- A number that is not 0 has no leading zero. -/
theorem head_toDigits {n : Nat} (hn : 0 < n) : ∀ c ∈ (Nat.toDigits 10 n).head?, c ≠ '0' := by
  induction n using Nat.strong_induction_on with
  | _ n ih =>
    intro c hc
    rw [Nat.toDigits_eq_if (by decide)] at hc
    split at hc
    next hlt =>
      obtain rfl := Option.some.inj hc
      interval_cases n <;> decide
    next hge =>
      rw [List.head?_append_of_ne_nil _ Nat.toDigits_ne_nil] at hc
      exact ih (n / 10) (by omega) (by omega) c hc

theorem readNat_append (n : Nat) {rest : List Char} (hrest : Ends rest) :
    readNat (Nat.toDigits 10 n ++ rest) = some (n, rest) := by
  have hdigits : ∀ c ∈ Nat.toDigits 10 n, c.isDigit = true := fun c hc =>
    Nat.isDigit_of_mem_toDigits (by decide) (by decide) hc
  have hends : rest.takeWhile Char.isDigit = [] ∧ rest.dropWhile Char.isDigit = rest := by
    cases rest with
    | nil => exact ⟨rfl, rfl⟩
    | cons c rest =>
      have hc : ¬ c.isDigit = true := by
        rw [hrest c rfl]
        exact Bool.false_ne_true
      exact ⟨List.takeWhile_cons_of_neg hc, List.dropWhile_cons_of_neg hc⟩
  unfold readNat
  rw [List.takeWhile_append_of_pos hdigits, List.dropWhile_append_of_pos hdigits, hends.1, hends.2,
    List.append_nil]
  split
  next hnil => exact absurd hnil Nat.toDigits_ne_nil
  next c cs hzero =>
    -- two digits, and so the number is not 0
    have hpos : 0 < n := Nat.pos_of_ne_zero fun h => by
      rw [h, Nat.toDigits_zero] at hzero
      exact List.cons_ne_nil c cs (List.cons.inj hzero).2.symm
    exact absurd rfl (head_toDigits hpos '0' (by rw [hzero]; rfl))
  next => rw [Nat.ofDigitChars_ten_toDigits]

theorem readInt_append (i : Int) {rest : List Char} (hrest : Ends rest) :
    readInt (intText i ++ rest) = some (i, rest) := by
  cases i with
  | ofNat n =>
    have hread := readNat_append n hrest
    show readInt (Nat.toDigits 10 n ++ rest) = _
    unfold readInt
    split
    next text htext =>
      -- a digit is no minus sign
      have hminus : '-' ∈ (Nat.toDigits 10 n).head? := by
        have hhead := congrArg List.head? htext
        rwa [List.head?_append_of_ne_nil _ Nat.toDigits_ne_nil] at hhead
      have hdigit : '-'.isDigit = true :=
        Nat.isDigit_of_mem_toDigits (by decide) (by decide) (List.mem_of_mem_head? hminus)
      contradiction
    next =>
      rw [hread]
      rfl
  | negSucc n =>
    show (readNat (Nat.toDigits 10 (n + 1) ++ rest)).map _ = _
    rw [readNat_append (n + 1) hrest]
    rfl

/-- How an integer begins. -/
theorem head_intText (i : Int) :
    ∃ c text, intText i = c :: text ∧ (c = '-' ∨ c.isDigit = true) := by
  cases i with
  | ofNat n =>
    obtain ⟨c, text, htext⟩ := List.exists_cons_of_ne_nil (Nat.toDigits_ne_nil (n := n) (b := 10))
    exact ⟨c, text, htext, .inr
      (Nat.isDigit_of_mem_toDigits (by decide) (by decide) (htext ▸ List.mem_cons_self))⟩
  | negSucc n => exact ⟨'-', _, rfl, .inl rfl⟩

/-- What a value begins with. -/
def Opens (c : Char) : Prop := c ∈ ['"', '[', '{', '-'] ∨ c.isDigit = true

theorem Denotes.head {text : List Char} {v : JsonValue} (h : Denotes text v) :
    ∃ c rest, text = c :: rest ∧ Opens c := by
  cases h with
  | int i =>
    obtain ⟨c, rest, htext, hc⟩ := head_intText i
    rcases hc with rfl | hc
    · exact ⟨_, rest, htext, .inl (by decide)⟩
    · exact ⟨c, rest, htext, .inr hc⟩
  | string => exact ⟨_, _, rfl, .inl (by decide)⟩
  | emptyArray => exact ⟨_, _, rfl, .inl (by decide)⟩
  | array => exact ⟨_, _, rfl, .inl (by decide)⟩
  | emptyObject => exact ⟨_, _, rfl, .inl (by decide)⟩
  | object => exact ⟨_, _, rfl, .inl (by decide)⟩

theorem Opens.isSpace {c : Char} (h : Opens c) : isSpace c = false := by
  rcases h with hc | hdigit
  · simp only [List.mem_cons, List.not_mem_nil, or_false] at hc
    rcases hc with rfl | rfl | rfl | rfl <;> rfl
  · cases hspace : JsonText.isSpace c with
    | false => rfl
    | true =>
      rw [isDigit_of_isSpace hspace] at hdigit
      contradiction

-- No space stands in front of a value.
theorem Denotes.skip_eq {text : List Char} {v : JsonValue} (h : Denotes text v) (rest : List Char) :
    skip (text ++ rest) = text ++ rest := by
  obtain ⟨c, text', rfl, hc⟩ := h.head
  exact skip_cons hc.isSpace _

theorem DenotesElements.head {text : List Char} {vs : List JsonValue}
    (h : DenotesElements text vs) (rest : List Char) :
    ∃ c rest', skip (text ++ rest) = c :: rest' ∧ Opens c := by
  obtain ⟨before, text, after, hbefore, htext, rfl⟩ : ∃ before value after,
      before.all JsonText.isSpace = true ∧ (∃ v, Denotes value v) ∧
        text = before ++ (value ++ after) := by
    cases h with
    | last hbefore htext => exact ⟨_, _, _, hbefore, ⟨_, htext⟩, rfl⟩
    | cons hbefore htext => exact ⟨_, _, _, hbefore, ⟨_, htext⟩, rfl⟩
  obtain ⟨v, hv⟩ := htext
  obtain ⟨c, rest', rfl, hc⟩ := hv.head
  rw [List.append_assoc, skip_append hbefore]
  exact ⟨c, _, skip_cons hc.isSpace _, hc⟩

theorem DenotesMembers.head {text : List Char} {members : List (List Char × JsonValue)}
    (h : DenotesMembers text members) (rest : List Char) :
    ∃ rest', skip (text ++ rest) = '"' :: rest' := by
  cases h with
  | last hbefore =>
    rw [List.append_assoc, skip_append hbefore]
    exact ⟨_, skip_cons rfl _⟩
  | cons hbefore =>
    rw [List.append_assoc, skip_append hbefore]
    exact ⟨_, skip_cons rfl _⟩

/-- With this fuel the reader reads the texts that are shorter than it. -/
structure Reads (fuel : Nat) : Prop where
  value : ∀ {text v}, Denotes text v → text.length < fuel → ∀ {rest}, Ends rest →
    readValue fuel (text ++ rest) = some (v, rest)
  elements : ∀ {text vs}, DenotesElements text vs → text.length < fuel → ∀ rest,
    readElements fuel (text ++ rest) = some (vs, rest)
  members : ∀ {text ms}, DenotesMembers text ms → text.length < fuel → ∀ rest,
    readMembers fuel (text ++ rest) = some (ms, rest)

namespace Reads

variable {fuel : Nat}

theorem value_succ (h : Reads fuel) {text : List Char} {v : JsonValue} (hv : Denotes text v)
    (hfuel : text.length < fuel + 1) {rest : List Char} (hrest : Ends rest) :
    readValue (fuel + 1) (text ++ rest) = some (v, rest) := by
  cases hv with
  | int i =>
    obtain ⟨c, text, htext, hc⟩ := head_intText i
    have hread := readInt_append i hrest
    rw [htext] at hread ⊢
    have hother : c ≠ '"' ∧ c ≠ '[' ∧ c ≠ '{' := by
      refine ⟨?_, ?_, ?_⟩ <;> rintro rfl <;> simp at hc
    unfold readValue
    split
    next heq => exact absurd (List.cons.inj heq).1 hother.1
    next heq => exact absurd (List.cons.inj heq).1 hother.2.1
    next heq => exact absurd (List.cons.inj heq).1 hother.2.2
    next => rw [hread]; rfl
  | @string s hs =>
    show (readString (s ++ ['"'] ++ rest)).map _ = _
    rw [List.append_assoc, List.singleton_append, readString_append hs]
    rfl
  | @emptyArray space hspace =>
    simp only [List.cons_append, readValue, List.append_assoc, skip_append hspace,
      List.nil_append, skip_cons (c := ']') rfl]
  | @array text vs hvs =>
    obtain ⟨c, rest', hskip, hc⟩ := hvs.head rest
    have hread := h.elements hvs (Nat.lt_of_succ_lt_succ hfuel) rest
    simp only [List.cons_append, readValue]
    split
    next hclose =>
      -- no value begins with the bracket
      obtain rfl := (List.cons.inj (hskip.symm.trans hclose)).1
      rcases hc with hc | hc <;> contradiction
    next =>
      rw [hread]
      rfl
  | @emptyObject space hspace =>
    simp only [List.cons_append, readValue, List.append_assoc, skip_append hspace,
      List.nil_append, skip_cons (c := '}') rfl]
  | @object text members hmembers =>
    obtain ⟨rest', hskip⟩ := hmembers.head rest
    have hread := h.members hmembers (Nat.lt_of_succ_lt_succ hfuel) rest
    simp only [List.cons_append, readValue, hskip, hread, Option.map_some]
    rfl

theorem elements_succ (h : Reads fuel) {text : List Char} {vs : List JsonValue}
    (hvs : DenotesElements text vs) (hfuel : text.length < fuel + 1) (rest : List Char) :
    readElements (fuel + 1) (text ++ rest) = some (vs, rest) := by
  cases hvs with
  | @last before text after v hbefore hv hafter =>
    simp only [List.length_append, List.length_cons] at hfuel
    have hread := h.value hv (by omega) (ends_space hafter (c := ']') rfl rest)
    simp only [readElements, List.append_assoc, skip_append hbefore, List.singleton_append,
      hv.skip_eq, hread, Option.bind_some, skip_append hafter, skip_cons (c := ']') rfl]
  | @cons before text after more v vs hbefore hv hafter hvs =>
    simp only [List.length_append, List.length_cons] at hfuel
    have hread := h.value hv (by omega) (ends_space hafter (c := ',') rfl (more ++ rest))
    have hmore := h.elements hvs (by omega) rest
    simp only [readElements, List.append_assoc, skip_append hbefore, List.cons_append, hv.skip_eq,
      hread, Option.bind_some, skip_append hafter, skip_cons (c := ',') rfl, hmore,
      Option.map_some]

theorem members_succ (h : Reads fuel) {text : List Char}
    {members : List (List Char × JsonValue)} (hmembers : DenotesMembers text members)
    (hfuel : text.length < fuel + 1) (rest : List Char) :
    readMembers (fuel + 1) (text ++ rest) = some (members, rest) := by
  cases hmembers with
  | @last before name text after v hbefore hname hv hafter =>
    simp only [List.length_append, List.length_cons] at hfuel
    have hread := h.value hv (by omega) (ends_space hafter (c := '}') rfl rest)
    simp only [readMembers, List.append_assoc, skip_append hbefore, List.cons_append,
      List.nil_append, skip_cons (c := '"') rfl, readString_append hname, Option.bind_some,
      skip_cons (c := ':') rfl, hv.skip_eq, hread, skip_append hafter, skip_cons (c := '}') rfl]
  | @cons before name text after more v members hbefore hname hv hafter hmembers =>
    simp only [List.length_append, List.length_cons] at hfuel
    have hread := h.value hv (by omega) (ends_space hafter (c := ',') rfl (more ++ rest))
    have hmore := h.members hmembers (by omega) rest
    simp only [readMembers, List.append_assoc, skip_append hbefore, List.cons_append,
      skip_cons (c := '"') rfl, readString_append hname, Option.bind_some,
      skip_cons (c := ':') rfl, hv.skip_eq, hread, skip_append hafter, skip_cons (c := ',') rfl,
      hmore, Option.map_some]

end Reads

theorem reads (fuel : Nat) : Reads fuel := by
  induction fuel with
  | zero => exact ⟨fun _ hfuel => by omega, fun _ hfuel => by omega, fun _ hfuel => by omega⟩
  | succ fuel ih =>
    exact ⟨fun hv hfuel _ => ih.value_succ hv hfuel, ih.elements_succ, ih.members_succ⟩

/-- **What the grammar derives is read.** -/
theorem Denotes.readJson {text : List Char} {v : JsonValue} (h : Denotes text v)
    {before after : List Char} (hbefore : before.all isSpace = true)
    (hafter : after.all isSpace = true) : readJson (before ++ (text ++ after)) = some v := by
  have hends : Ends after := by
    cases after with
    | nil => exact fun c hc => nomatch hc
    | cons c after =>
      exact ends_cons (isDigit_of_isSpace (List.all_eq_true.mp hafter c (.head _))) _
  have hread := (reads ((before ++ (text ++ after)).length + 1)).value h
    (by simp only [List.length_append]; omega) hends
  have hskip : skip (before ++ (text ++ after)) = text ++ after := by
    rw [skip_append hbefore, h.skip_eq]
  have hrest : skip after = [] := by
    have h := skip_append hafter []
    rwa [List.append_nil] at h
  unfold JsonText.readJson
  rw [hskip, hread]
  exact if_pos hrest

/-! ## 4. Texts without space -/

section Compact

variable {text rest s : List Char} {v : JsonValue} {members : List (List Char × JsonValue)}

theorem DenotesMembers.compact_last (name : List Char) (hname : name.all isPlain = true)
    (hv : Denotes text v) :
    DenotesMembers ('"' :: (name ++ '"' :: ':' :: (text ++ ['}']))) [(name, v)] :=
  @DenotesMembers.last [] name text [] v rfl hname hv rfl

theorem DenotesMembers.compact_cons (name : List Char) (hname : name.all isPlain = true)
    (hv : Denotes text v) (hrest : DenotesMembers rest members) :
    DenotesMembers ('"' :: (name ++ '"' :: ':' :: (text ++ ',' :: rest)))
      ((name, v) :: members) :=
  @DenotesMembers.cons [] name text [] rest v members rfl hname hv rfl hrest

/-- A string in front of more text. -/
theorem DenotesMembers.string_cons (name : List Char) (hname : name.all isPlain = true)
    (hs : s.all isPlain = true) (hrest : DenotesMembers rest members) :
    DenotesMembers ('"' :: (name ++ '"' :: ':' :: '"' :: (s ++ '"' :: ',' :: rest)))
      ((name, .string s) :: members) := by
  have h := DenotesMembers.compact_cons name hname (.string hs) hrest
  rwa [List.cons_append, List.append_assoc, List.singleton_append] at h

theorem DenotesMembers.string_last (name : List Char) (hname : name.all isPlain = true)
    (hs : s.all isPlain = true) :
    DenotesMembers ('"' :: (name ++ '"' :: ':' :: '"' :: (s ++ ['"', '}'])))
      [(name, .string s)] := by
  have h := DenotesMembers.compact_last name hname (.string hs)
  rwa [List.cons_append, List.append_assoc, List.singleton_append] at h

end Compact

/-! ## 5. Lengths -/

theorem length_intText_le {i : Int} {k : Nat} (hk : 0 < k) (hlt : i < 10 ^ k)
    (hgt : -10 ^ k < i) : (intText i).length ≤ k + 1 := by
  cases i with
  | ofNat n =>
    rw [Int.ofNat_eq_natCast] at hlt
    have hn : n < 10 ^ k := by exact_mod_cast hlt
    exact Nat.le_succ_of_le ((Nat.length_toDigits_le_iff (by decide) hk).mpr hn)
  | negSucc n =>
    have hn : n + 1 < 10 ^ k := by
      have h : ((n + 1 : Nat) : Int) < ((10 ^ k : Nat) : Int) := by
        push_cast
        rw [Int.negSucc_eq] at hgt
        omega
      exact_mod_cast h
    exact Nat.succ_le_succ ((Nat.length_toDigits_le_iff (by decide) hk).mpr hn)

end JsonText

end Reasoning
